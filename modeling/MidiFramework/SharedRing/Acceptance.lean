import MidiFramework.SharedRing.Concurrent
import MidiFramework.SharedRing.Progress

/-!
# A write that finds room

An event that has room in the ring when `TryWriteEvent` begins is written, whatever
the reader does meanwhile: the reader only makes more room.
-/

namespace MidiFramework.SharedRing

open Foundation Program Discipline

variable {ok : UInt32 → Prop} {cap r r' w total : Nat} {A : List Record} {d : ByteMemory}
  {event : MidiEventInner}

/-- The reader makes no room smaller. -/
theorem Accepts.between (h : Accepts cap r w total) (hb : Between r r' w) (hr : r < cap)
    (hr' : r' < cap) (hw : w < cap) : Accepts cap r' w total := by
  obtain ⟨hfree, hroom⟩ := h
  unfold Between at hb
  unfold freeBytes usedBytes at hfree
  refine ⟨?_, ?_⟩
  · unfold freeBytes usedBytes
    split at hb <;> split at hfree <;> split <;> omega
  · split at hb <;> split at hfree <;> omega

/-- The event is valid, and its record has room between the positions. -/
def hasRoom (cap : Nat) (event : MidiEventInner) (s : RingState) : Bool :=
  validateOneEvent cap event &&
    decide (Accepts cap s.readIndex s.writeIndex (recordSize event.length))

theorem capacity_of_accepts (h : Accepts cap r w (recordSize event.length)) : 25 ≤ cap := by
  have hsize := payload_le_recordSize event.length
  have hfree := h.1
  rw [freeBytes] at hfree
  omega

/-- A single event with room is written. -/
theorem triple_writeLoop_room (hcap : cap < 2 ^ 32) (hok : ∀ v, ok v) (hr : r < cap)
    (hvalid : validateOneEvent cap event = true)
    (hroom : Accepts cap r w (recordSize event.length)) :
    (writerRole ok cap).Triple (Owning ok cap r w A d) (writeLoop cap [event] r w 0)
      fun n _ => n = 1 := by
  refine Triple.given (fun s h => h.write_lt) fun hw => ?_
  obtain ⟨hsize, hlen, -⟩ := valid_size (capacity_of_accepts hroom) hcap hvalid
  unfold writeLoop
  rw [if_neg (not_not.mpr hvalid), hsize]
  dsimp only
  refine Triple.bind (triple_tryWriteOneEvent hcap hr hw hlen ⟨?_, ?_⟩) fun ret => ?_
  · exact fun _ _ _ => hok _
  · exact fun _ => hok _
  intro s hs
  cases hs with
  | refused full returned d' writing =>
      rw [hlen] at full
      exact absurd hroom full
  | accepted room returned writing =>
      subst returned
      rw [if_neg (by simp)]
      refine Sat.bind (triple_loadReadPosition s writing) ?_
      rintro r' t ⟨hr', ht⟩
      rw [if_neg (by simp [isValidOffset, hr'])]
      exact Triple.ret owning_stable (fun _ _ => rfl) t ht

/-- While an event has room it is written. -/
theorem triple_tryWriteEvent_room (hcap : cap < 2 ^ 32) (hok : ∀ v, ok v) (notify : Bool)
    (hr : r < cap) (hvalid : validateOneEvent cap event = true)
    (hroom : Accepts cap r w (recordSize event.length)) :
    (writerRole ok cap).Triple (Owning ok cap r w A d) (tryWriteEvent cap event notify)
      fun result _ => result.status = .ok := by
  have hargs : validateWriteArgs cap (some [event]) 1 = .ok := by
    have hlarge := capacity_of_accepts hroom
    rw [validateWriteArgs, if_neg (by decide), if_neg (by simp),
      if_neg (by simp only [sizeofEventHeader]; omega)]
  refine Triple.given (fun s h => h.write_lt) fun hw => ?_
  unfold tryWriteEvent tryWriteEvents
  dsimp only
  rw [if_neg (not_not.mpr hargs)]
  -- the load of the read position finds the reader no further back
  have hload : (writerRole ok cap).Triple (Owning ok cap r w A d) (loadPosition .readPosition)
      fun v s => (v < cap ∧ Accepts cap v w (recordSize event.length)) ∧ Owning ok cap v w A d s := by
    refine triple_loadPosition (writerRole_reads ok cap) owning_stable (fun s h => ?_) fun _ =>
      owning_stable.and
    have hlt := h.inv.layout.read_lt
    exact ⟨⟨hlt, hroom.between h.between hr hlt hw⟩, h.toWriting, Between.refl _ _⟩
  refine Triple.bind hload fun v => Triple.pure fun hv => ?_
  refine Triple.bind triple_loadWritePosition fun x => Triple.pure ?_
  rintro rfl
  rw [if_neg (by simp [isValidOffset, hv.1, hw])]
  refine Triple.bind (triple_writeLoop_room hcap hok hv.1 hvalid hv.2) fun n => ?_
  rintro s rfl
  exact fun t _ => rfl

end MidiFramework.SharedRing
