import MidiFramework.SharedRing.Concurrent

/-!
# The notification at the end of a write

A call of the producer that is asked to notify and publishes an event notifies when
it returns. Between the publication and the return the notification is still to
come, whoever reads the ring.
-/

namespace MidiFramework.SharedRing

open Foundation Program

variable {cap : Nat}

/-- A call is under way that has published an event and notifies at its end. -/
def WillNotify (cap : Nat) (control : (producer cap).Control) (s : RingState) : Prop :=
  ∃ accepted call rest, control = .busy accepted call rest ∧ call.notifies = true ∧
    accepted.length < s.appended.length

/-- What is known of the call under way: it notifies, it began with the events reported before it,
and its result tells whether it notified. -/
structure Pledged (cap : Nat) (control : (producer cap).Control) (s : RingState) : Prop where
  asked : ∀ accepted call rest, control = .busy accepted call rest → call.notifies = true
  before : ∀ accepted call rest, control = .busy accepted call rest →
    accepted.length ≤ s.appended.length
  tells : ∀ accepted call rest, control = .busy accepted call rest →
    rest.Always (fun _ => True) fun r => 0 < r.eventsWritten → r.notified = call.notifies

/-- The producer keeps to its role. -/
def Writes (hcap : cap < 2 ^ 31) (control : (producer cap).Control) (s : RingState) : Prop :=
  (producerProof hcap (fun _ => trivial : ∀ _ : UInt32, True)).Holds control s

section Calls

variable {hcap : cap < 2 ^ 31} {accepted : List MidiEvent} {call : ProducerCall}
  {rest : RingProgram WriteResult} {s t : RingState}

theorem pledged_idle : Pledged cap (.idle accepted) s :=
  ⟨nofun, nofun, nofun⟩

/-- Between its calls the producer has published what was reported. -/
theorem Writes.length_idle (h : Writes hcap (.idle accepted) s) :
    s.appended.length = accepted.length := by
  obtain ⟨w, A, d, hwriting, rfl⟩ := h
  rw [hwriting.appended, List.length_map]

theorem Pledged.start (hwrites : Writes hcap (.idle accepted) s) (hasked : call.notifies = true) :
    Pledged cap (.busy accepted call ((producer cap).program call)) s := by
  refine ⟨?_, ?_, ?_⟩
  · intro _ _ _ hbusy
    cases hbusy
    exact hasked
  · intro _ _ _ hbusy
    cases hbusy
    exact hwrites.length_idle.ge
  · intro _ _ _ hbusy
    cases hbusy
    exact ProducerCall.always_notifies cap call

variable {c : RingCmd} {k : c.Resp → RingProgram WriteResult}

/-- The moves of an access of the producer. -/
theorem Writes.moves (h : Writes hcap (.busy accepted call (.op c k)) s) :
    WriterMoves (fun _ => True) cap s (execTraced c s).2 :=
  (TwoParty.Proof.Holds.guarantee h .command).moves

theorem Pledged.command (h : Pledged cap (.busy accepted call (.op c k)) s)
    (hwrites : Writes hcap (.busy accepted call (.op c k)) s) :
    Pledged cap (.busy accepted call (k (execTraced c s).1)) (execTraced c s).2 := by
  refine ⟨?_, ?_, ?_⟩
  · intro _ _ _ hbusy
    cases hbusy
    exact h.asked _ _ _ rfl
  · intro _ _ _ hbusy
    cases hbusy
    exact (h.before _ _ _ rfl).trans hwrites.moves.appended.length_le
  · intro _ _ _ hbusy
    cases hbusy
    exact (h.tells _ _ _ rfl).2 _

/-- The pledge does not depend on what the reader does. -/
theorem Pledged.read {control : (producer cap).Control} (h : Pledged cap control s)
    (happended : t.appended = s.appended) : Pledged cap control t :=
  ⟨h.asked, happended ▸ h.before, h.tells⟩

theorem WillNotify.read {control : (producer cap).Control} (h : WillNotify cap control s)
    (happended : t.appended = s.appended) : WillNotify cap control t := by
  obtain ⟨accepted, call, rest, hbusy, hasked, hless⟩ := h
  exact ⟨accepted, call, rest, hbusy, hasked, happended ▸ hless⟩

theorem WillNotify.command (h : WillNotify cap (.busy accepted call (.op c k)) s)
    (hwrites : Writes hcap (.busy accepted call (.op c k)) s) :
    WillNotify cap (.busy accepted call (k (execTraced c s).1)) (execTraced c s).2 := by
  obtain ⟨_, _, _, hbusy, hasked, hless⟩ := h
  cases hbusy
  exact ⟨_, _, _, rfl, hasked, hless.trans_le hwrites.moves.appended.length_le⟩

/-- What an access publishes will be notified. -/
theorem Pledged.published (h : Pledged cap (.busy accepted call (.op c k)) s)
    (hmore : s.appended.length < (execTraced c s).2.appended.length) :
    WillNotify cap (.busy accepted call (k (execTraced c s).1)) (execTraced c s).2 :=
  ⟨_, _, _, rfl, h.asked _ _ _ rfl, (h.before _ _ _ rfl).trans_lt hmore⟩

/-- A call that published something reports that it notified. -/
theorem WillNotify.finish {result : WriteResult}
    (h : WillNotify cap (.busy accepted call (.ret result)) s)
    (hpledged : Pledged cap (.busy accepted call (.ret result)) s)
    (hwrites : Writes hcap (.busy accepted call (.ret result)) s) : result.notified = true := by
  obtain ⟨_, _, _, hbusy, hasked, hless⟩ := h
  cases hbusy
  obtain ⟨A, rfl, -, B, w, d, hwriting, hB⟩ := hwrites s (ReaderMoves.refl _)
  have hwrote : 0 < result.eventsWritten := by
    refine Nat.pos_of_ne_zero fun hzero => ?_
    rw [hzero, List.take_zero, List.map_nil, List.map_eq_nil_iff] at hB
    rw [hwriting.appended, hB, List.append_nil, List.length_map] at hless
    exact Nat.lt_irrefl _ hless
  have hresult : result.notified = call.notifies := hpledged.tells _ _ _ rfl hwrote
  rw [hresult, hasked]

end Calls

end MidiFramework.SharedRing
