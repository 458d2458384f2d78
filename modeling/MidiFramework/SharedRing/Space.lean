import MidiFramework.SharedRing.Progress

/-!
# Attempts to write in any memory

What `TryWriteOneEvent` answers and where it leaves the write position, for any
two positions inside the ring and any bytes in the data area. The free space
that a writer waits for and the room that an attempt needs are computed in two
ways; here they are compared.
-/

namespace MidiFramework.SharedRing

open Foundation Program

/-- The access leaves both positions as they are. -/
def Stays : RingCmd → Prop
  | .storePosition .. => False
  | _ => True

/-- Both memories have the same positions. -/
structure SamePositions (m m' : RingMemory) : Prop where
  read : m'.readPosition = m.readPosition
  write : m'.writePosition = m.writePosition

/-- The positions of the memory are inside the ring. -/
structure InRing (cap : Nat) (m : RingMemory) : Prop where
  read : m.readPosition.toNat < cap
  write : m.writePosition.toNat < cap

variable {α : Type} {cap r w total : Nat} {m m' : RingMemory}

theorem InRing.congr {m' : RingMemory} (hm : InRing cap m) (h : SamePositions m m') :
    InRing cap m' := ⟨h.read ▸ hm.read, h.write ▸ hm.write⟩

theorem SamePositions.of_stays {p : RingProgram α} (hp : p.Always Stays fun _ => True)
    (m : RingMemory) : SamePositions m (p.run exec m).2 := by
  induction p generalizing m with
  | ret a => exact ⟨rfl, rfl⟩
  | op c k ih =>
      obtain ⟨hc, hk⟩ := hp
      have hrest := ih (exec c m).1 (hk _) (exec c m).2
      have hfirst : SamePositions m (exec c m).2 := by
        cases c with
        | storePosition p v note => exact hc.elim
        | acquireFlushFlag =>
            simp only [exec]
            split
            · exact ⟨rfl, rfl⟩
            · exact ⟨rfl, rfl⟩
        | loadPosition p => cases p <;> exact ⟨rfl, rfl⟩
        | _ => exact ⟨rfl, rfl⟩
      exact ⟨hrest.read.trans hfirst.read, hrest.write.trans hfirst.write⟩

theorem copyWords_stays (off : Nat) (ws : List UInt32) :
    (copyWords off ws).Always Stays fun _ => True := by
  induction ws generalizing off with
  | nil => trivial
  | cons w ws ih => exact ⟨trivial, fun _ => ih _⟩

theorem access_stays {c : RingCmd} (hc : Stays c) : (access c).Always Stays fun _ => True :=
  ⟨hc, fun _ => trivial⟩

theorem beginSequence_stays (header : Nat) :
    (beginSequence header).Always Stays fun _ => True :=
  ⟨trivial, fun _ => ⟨trivial, fun _ => trivial⟩⟩

/-- An access before others. -/
theorem stays_bind {β : Type} {p : RingProgram α} {f : α → RingProgram β} {Q : β → Prop}
    (hp : p.Always Stays fun _ => True) (hf : ∀ a, (f a).Always Stays Q) :
    (p >>= f).Always Stays Q :=
  Always.bind hp fun a _ => hf a

theorem writeEvent_stays (hw : w < cap) (event : MidiEventInner) :
    (writeEvent cap w event).Always Stays fun written => written = true := by
  rw [writeEvent, if_neg (Nat.not_le.mpr hw)]
  refine stays_bind (beginSequence_stays w) fun seq => ?_
  refine stays_bind (access_stays trivial) fun _ => ?_
  refine stays_bind (access_stays trivial) fun _ => ?_
  refine stays_bind (access_stays trivial) fun _ => ?_
  refine stays_bind (copyWords_stays _ _) fun _ => ?_
  exact stays_bind (access_stays trivial) fun _ => rfl

section Attempts

variable {event : MidiEventInner}

theorem run_sub32_of_le {a b : Nat} (hb : b ≤ a) (ha : a < 2 ^ 32) (m : RingMemory) :
    (sub32 a b).run exec m = (a - b, m) := by
  rw [run_sub32, wrap32_sub hb ha]

theorem run_ringFree (hr : r < cap) (hw : w < cap) (hcap : cap < 2 ^ 32) (m : RingMemory) :
    (ringFree r w cap).run exec m = (freeBytes r w cap, m) := by
  have hused : (ringUsed r w cap).run exec m = (usedBytes r w cap, m) := by
    rw [ringUsed, usedBytes]
    split
    · exact run_sub32_of_le (by omega) (by omega) m
    · have hgap := run_sub32_of_le (a := r) (b := w) (by omega) (by omega) m
      rw [run_bind, hgap]
      exact run_sub32_of_le (by omega) hcap m
  have hlt := usedBytes_lt hr hw
  rw [ringFree, run_bind, hused, run_bind, run_sub32_of_le (by omega) hcap]
  exact run_sub32_of_le (by omega) (by omega) m

/-- The write index goes where the record does, and the write position with it. -/
theorem run_updateWriteIndexIfNeed (hw : m.writePosition.toNat = w) (hlt : w < cap)
    (hcap : cap < 2 ^ 32) {out : (Bool × Nat) × RingMemory}
    (hout : (updateWriteIndexIfNeed cap w total).run exec m = out) :
    out.1.2 = place cap w total ∧ out.2.readPosition = m.readPosition ∧
      out.2.writePosition.toNat = place cap w total := by
  subst hout
  rw [updateWriteIndexIfNeed, run_bind, run_sub32_of_le (by omega) hcap, place]
  dsimp only
  by_cases htail : total ≤ cap - w
  · rw [if_pos htail, if_pos htail]
    exact ⟨rfl, rfl, hw⟩
  · rw [if_neg htail, if_neg htail, run_bind]
    refine ⟨rfl, ?_, rfl⟩
    refine (SamePositions.of_stays ?_ m).read
    split
    · refine stays_bind (beginSequence_stays w) fun seq => ?_
      refine stays_bind (access_stays trivial) fun _ => ?_
      refine stays_bind (access_stays trivial) fun _ => ?_
      refine stays_bind (access_stays trivial) fun _ => ?_
      exact access_stays trivial
    · trivial

theorem run_writeSize {idx : Nat} (hr : r < cap) (hidx : idx < cap) (hcap : cap < 2 ^ 32)
    (m : RingMemory) :
    (if idx < r then do
        let gap ← sub32 r idx
        sub32 gap 1
      else sub32 cap idx : RingProgram Nat).run exec m = (writeSize cap r idx, m) := by
  rw [writeSize]
  split
  · have hgap := run_sub32_of_le (a := r) (b := idx) (by omega) (by omega) m
    rw [run_bind, hgap]
    exact run_sub32_of_le (by omega) (by omega) m
  · exact run_sub32_of_le (by omega) hcap m

/-- An attempt to write at the positions that the memory has: it is accepted exactly if there is
room, and a refused one leaves the write position where the record would go. -/
theorem run_tryWriteOneEvent_positions (hr : r < cap) (hlt : w < cap) (hcap : cap < 2 ^ 32)
    (hw : m.writePosition.toNat = w) {out : (MidiStatusCode × Nat) × RingMemory}
    (hout : (tryWriteOneEvent cap event total r w).run exec m = out) :
    (Accepts cap r w total ∧ out.1.1 = .ok) ∨
      (¬ Accepts cap r w total ∧ out.1 = (.wouldBlock, refusedAt cap r w total) ∧
        out.2.readPosition = m.readPosition ∧
        out.2.writePosition.toNat = refusedAt cap r w total) := by
  subst hout
  rw [tryWriteOneEvent, if_neg (not_not.mpr hlt), run_bind, run_ringFree hr hlt hcap]
  dsimp only
  by_cases hfree : total ≤ freeBytes r w cap
  swap
  · rw [if_pos hfree, refusedAt, if_neg hfree]
    exact .inr ⟨fun haccepts => hfree haccepts.1, rfl, rfl, hw⟩
  rw [if_neg (not_not.mpr hfree), run_bind]
  generalize hwrap : (updateWriteIndexIfNeed cap w total).run exec m = wrapped
  obtain ⟨⟨turned, idx⟩, m'⟩ := wrapped
  obtain ⟨hidx, hread, hwrite⟩ := run_updateWriteIndexIfNeed hw hlt hcap hwrap
  dsimp only at hidx hread hwrite ⊢
  subst hidx
  have hidx : place cap w total < cap := by
    rw [place]
    split <;> omega
  rw [run_bind, run_writeSize hr hidx hcap]
  have hiff := accepts_iff_writeSize hr hlt hfree
  dsimp only
  by_cases hroom : total ≤ writeSize cap r (place cap w total)
  swap
  · rw [if_pos hroom, refusedAt, if_pos hfree]
    exact .inr ⟨fun haccepts => hroom (hiff.mp haccepts), rfl, hread, hwrite⟩
  rw [if_neg (not_not.mpr hroom), run_bind]
  have hwritten : ((writeEvent cap (place cap w total) event).run exec m').1 = true :=
    Always.run (writeEvent_stays hidx event) m'
  rw [hwritten]
  exact .inl ⟨hiff.mpr hroom, rfl⟩

theorem refusedAt_lt (hw : w < cap) : refusedAt cap r w total < cap := by
  rw [refusedAt, place]
  split
  · split <;> omega
  · exact hw

/-- Where an attempt is refused there is less free space than the record needs. -/
theorem freeBytes_refusedAt (hr : r < cap) (hw : w < cap) (hfull : ¬ Accepts cap r w total) :
    freeBytes r (refusedAt cap r w total) cap < total := by
  rw [refusedAt]
  by_cases hfree : total ≤ freeBytes r w cap
  · -- the record had to turn back, and there is no room for it before the reader
    have htail : ¬ total ≤ cap - w := fun hle => hfull ⟨hfree, .inl hle⟩
    have hbefore : ¬ total < r := fun hlt => hfull ⟨hfree, .inr hlt⟩
    obtain ⟨-, hpos⟩ := free_turnBack hr hw hfree htail
    rw [if_pos hfree, place, if_neg htail, freeBytes, usedBytes, if_neg (by omega)]
    omega
  · rw [if_neg hfree]
    exact Nat.not_le.mp hfree

end Attempts

end MidiFramework.SharedRing
