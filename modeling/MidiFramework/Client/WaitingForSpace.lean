import MidiFramework.Client.SysExSending
import MidiFramework.SharedRing.Space

/-!
# Waiting for space after a refusal

A writer whose event is refused waits until the free space reaches the size of
the record. The refusal may have turned the writer back to the start of the
ring, and the free space is that of the positions it leaves.
-/

namespace MidiFramework.Client

open Foundation Program SharedRing

section Waiting

variable {cap total : Nat} {m : RingMemory}

/-- `TryWriteOneEvent` with the positions as they are. -/
def attempt (cap total : Nat) (event : MidiEventInner) (m : RingMemory) :
    (MidiStatusCode × Nat) × RingMemory :=
  (tryWriteOneEvent cap event total m.readPosition.toNat m.writePosition.toNat).run exec m

/-- `RingFree` of the positions. -/
def ringFreeOf (cap : Nat) (m : RingMemory) : Nat :=
  ((ringFree m.readPosition.toNat m.writePosition.toNat cap).run exec m).1

/-- There is no room until a position changes: the predicate is false, so every wait ends with what
the futex answers, and the next attempt is refused and changes nothing. -/
structure WaitsForReader (cap total : Nat) (event : MidiEventInner) (m : RingMemory) : Prop where
  full : ringFreeOf cap m < total
  noSpace : ∀ m', SamePositions m m' → (hasSpace cap total).run exec m' = (false, m')
  waits : ∀ m' answers, SamePositions m m' →
    (waitForSpace cap total answers).run exec m' = (answers.unavailing, m')
  refused : ∀ m', SamePositions m m' →
    attempt cap total event m' = ((.wouldBlock, m'.writePosition.toNat), m')

theorem ringFreeOf_eq (hm : InRing cap m) (hcap : cap < 2 ^ 32) :
    ringFreeOf cap m = freeBytes m.readPosition.toNat m.writePosition.toNat cap := by
  rw [ringFreeOf, run_ringFree hm.read hm.write hcap]

theorem run_hasSpace (hm : InRing cap m) (hcap : cap < 2 ^ 32) (neededBytes : Nat) :
    (hasSpace cap neededBytes).run exec m = (decide (neededBytes ≤ ringFreeOf cap m), m) := by
  rw [hasSpace, run_bind, run_loadRead, run_bind, run_loadWrite, run_bind,
    run_ringFree hm.read hm.write hcap, ringFreeOf_eq hm hcap]
  rfl

/-- A wait without space takes the answer of the futex. -/
theorem run_futexWait {pred : RingProgram Bool} (hpred : pred.run exec m = (false, m))
    (unavailing : TimedFutexCode) (looks : Nat) :
    (futexWait pred unavailing looks).run exec m = (unavailing, m) := by
  induction looks with
  | zero => rfl
  | succ looks ih =>
      rw [futexWait, run_bind, hpred]
      exact ih

variable {event : MidiEventInner}

/-- With too little free space nothing happens until a position changes. -/
theorem waitsForReader_of_full (hm : InRing cap m) (hcap : cap < 2 ^ 32) (hpos : total ≠ 0)
    (hfull : ringFreeOf cap m < total) : WaitsForReader cap total event m := by
  have hsame : ∀ m', SamePositions m m' → ringFreeOf cap m' < total := by
    intro m' h
    rw [ringFreeOf_eq (hm.congr h) hcap, h.read, h.write, ← ringFreeOf_eq hm hcap]
    exact hfull
  have hnone : ∀ m', SamePositions m m' → (hasSpace cap total).run exec m' = (false, m') := by
    intro m' h
    rw [run_hasSpace (hm.congr h) hcap, decide_eq_false (Nat.not_le.mpr (hsame m' h))]
  refine ⟨hfull, hnone, fun m' answers h => ?_, fun m' h => ?_⟩
  · rw [waitForSpace, if_neg hpos]
    exact run_futexWait (hnone m' h) _ _
  · have hin := hm.congr h
    have hless := hsame m' h
    rw [ringFreeOf_eq hin hcap] at hless
    rw [attempt, tryWriteOneEvent, if_neg (not_not.mpr hin.write), run_bind,
      run_ringFree hin.read hin.write hcap]
    dsimp only
    rw [if_pos (Nat.not_le.mpr hless)]
    rfl

/-- A refused attempt leaves less free space than the record needs, whether it turned back or not,
and an event that has enough free space and need not turn back is accepted. The event need not even
be one that fits the ring. -/
theorem refusal_agrees_with_wait (capacity : Capacity) (m : RingMemory)
    (hm : InRing capacity.bytes m) (event : MidiEventInner) (total : Nat)
    (htotal : getEventRecordSize event.length = some total) :
    ((attempt capacity.bytes total event m).1.1 = .wouldBlock →
      (attempt capacity.bytes total event m).2.readPosition = m.readPosition ∧
        WaitsForReader capacity.bytes total event (attempt capacity.bytes total event m).2) ∧
    (total ≤ ringFreeOf capacity.bytes m → total ≤ capacity.bytes - m.writePosition.toNat →
      (attempt capacity.bytes total event m).1.1 = .ok) := by
  have hlt := capacity.lt
  have hcap : capacity.bytes < 2 ^ 32 := by omega
  have hpos : total ≠ 0 := by
    obtain ⟨rfl, -⟩ := getEventRecordSize_eq_some.mp htotal
    have hsize := payload_le_recordSize event.length
    omega
  rw [ringFreeOf_eq hm hcap]
  obtain ⟨haccepts, hok⟩ | ⟨hfull, hblocked, hread, hwrite⟩ := run_tryWriteOneEvent_positions
    hm.read hm.write hcap rfl (Eq.refl (attempt capacity.bytes total event m))
  · refine ⟨fun hblocked => ?_, fun _ _ => hok⟩
    rw [hok] at hblocked
    cases hblocked
  · refine ⟨fun _ => ⟨hread, ?_⟩, fun hfree htail => absurd ⟨hfree, .inl htail⟩ hfull⟩
    have hleft := freeBytes_refusedAt hm.read hm.write hfull
    have hin : InRing capacity.bytes (attempt capacity.bytes total event m).2 :=
      ⟨hread ▸ hm.read, hwrite ▸ refusedAt_lt hm.write⟩
    refine waitsForReader_of_full hin hcap hpos ?_
    rw [ringFreeOf_eq hin hcap, hread, hwrite]
    exact hleft

/-- `SendSysExPackets` waits for the size of its own records. -/
example : getEventRecordSize sysex7WordCount = some (sizeofEventHeader + sysex7WordCount * 4) := by
  decide

/-- An empty ring of 56 bytes whose positions are 32. -/
def emptyAt32 : RingMemory := ⟨32, 32, 0, fun _ => 0⟩

/-- A record of 40 bytes turns back and is refused: there are 31 bytes before the reader. -/
theorem refusal_agrees_with_wait_turned :
    (attempt 56 40 (.ofWords 1 [0, 0, 0, 0]) emptyAt32).1.1 = .wouldBlock ∧
      (attempt 56 40 (.ofWords 1 [0, 0, 0, 0]) emptyAt32).2.writePosition = 0 ∧
      WaitsForReader 56 40 (.ofWords 1 [0, 0, 0, 0])
        (attempt 56 40 (.ofWords 1 [0, 0, 0, 0]) emptyAt32).2 :=
  ⟨by decide, by decide, ((refusal_agrees_with_wait ⟨56, by decide⟩ emptyAt32 ⟨by decide, by decide⟩
    (.ofWords 1 [0, 0, 0, 0]) 40 (by decide)).1 (by decide)).2⟩

end Waiting

end MidiFramework.Client
