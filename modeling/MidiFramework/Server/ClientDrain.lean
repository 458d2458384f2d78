import MidiFramework.SharedRing.Concurrent

/-!
# Draining the ring of a client

The worker of an output connection takes the events out of a client's ring one by
one: it looks at the next event, copies it and commits it. It stops early when it
has taken enough in one go, and when the next event is scheduled and the client's
queue of scheduled events is full. The client writes at the same time.

## Implementation notes

One round of the loop of `DrainSingleClientRing` is one call of the worker. Its
arguments are what the worker knows besides the ring. The worker's part of a
taken event, which does not touch the ring, comes after the call.
-/

namespace MidiFramework.Server

open Foundation Program Discipline SharedRing

/-- Why a drain ends. -/
inductive DrainStop
  | nothing
  | budget
  | pendingFull
  | commitFailed
  deriving DecidableEq

/-- What a round of the loop does. -/
inductive DrainRound
  | took (event : MidiEvent)
  | stopped (reason : DrainStop)
  deriving DecidableEq

/-- Whether `drained` has passed `MAX_DRAIN_PER_CLIENT`, and `IsPendingFull`. -/
structure DrainCall where
  spent : Bool
  full : Bool

/-- The accesses to the ring in one round of the loop of `DrainSingleClientRing`. -/
def drainRound (cap : Nat) (call : DrainCall) : RingProgram DrainRound := do
  let peeked ← peekNext cap
  if peeked.1 ≠ .ok then return .stopped .nothing
  else if call.spent then return .stopped .budget
  else if peeked.2.localHeader.timestamp ≠ 0 ∧ call.full then return .stopped .pendingFull
  else
    let event ← copyOut peeked.2
    let committed ← commitRead cap peeked.2
    return if committed then .took event else .stopped .commitFailed

/-- The events the worker took from the ring, and the number of events that had been published when
the wakeup began. -/
structure DrainerLocal where
  taken : List MidiEvent
  seen : Nat

def DrainerLocal.after (l : DrainerLocal) : DrainRound → DrainerLocal
  | .took event => { l with taken := l.taken ++ [event] }
  | .stopped _ => l

/-- The worker as a user of one ring. -/
def drainer (cap : Nat) : Party ringInterface where
  Local := DrainerLocal
  Call := DrainCall
  Result _ := DrainRound
  program := drainRound cap
  enabled _ _ := True
  finish l _ round := l.after round

/-- The ring of a client with its two users. -/
def clientRing (cap : Nat) : TwoParty ringInterface RingState where
  exec := execTraced
  left := producer cap
  right := drainer cap

section Rounds

variable {ok : UInt32 → Prop} {cap r : Nat} {K A : List Record}

/-- What the worker knows after a round: an event is the next one and fits the ring; without one,
the drain had a reason to stop. -/
inductive RoundDone (ok : UInt32 → Prop) (cap : Nat) (K A : List Record) (call : DrainCall) :
    DrainRound → RingState → Prop
  | took {s : RingState} (r : Nat) (x : Record) (reading : Reading ok cap r (K ++ [x]) A s)
      (size : x.size < cap) (unfilled : x.timestamp ≠ 0 → call.full = false) :
      RoundDone ok cap K A call (.took x.toMidiEvent) s
  | nothing {s : RingState} (r : Nat) (reading : Reading ok cap r K A s) (drained : Lively ok → A <+: K) :
      RoundDone ok cap K A call (.stopped .nothing) s
  | budget {s : RingState} (r : Nat) (reading : Reading ok cap r K A s) (spent : call.spent = true) :
      RoundDone ok cap K A call (.stopped .budget) s
  | pendingFull {s : RingState} (r : Nat) (reading : Reading ok cap r K A s) (full : call.full = true) :
      RoundDone ok cap K A call (.stopped .pendingFull) s

variable {call : DrainCall} {round : DrainRound}

theorem triple_drainRound (hcap : cap < 2 ^ 31) (call : DrainCall) :
    (readerRole ok cap).Triple (Reading ok cap r K A) (drainRound cap call)
      (RoundDone ok cap K A call) := by
  refine Triple.bind (triple_peekNext hcap) fun peeked => ?_
  intro s hs
  cases hs with
  | nothing r returned reading drained =>
      rw [if_pos returned]
      exact Triple.ret reading_stable (fun t ht => .nothing r ht drained) s reading
  | event r x q returned heading =>
      subst returned
      rw [if_neg (not_not.mpr rfl)]
      by_cases hspent : call.spent = true
      · rw [if_pos hspent]
        exact Triple.ret reading_stable (fun t ht => .budget r ht hspent) s heading.toReading
      rw [if_neg hspent]
      by_cases hfull : (peekedOf cap x q).localHeader.timestamp ≠ 0 ∧ call.full = true
      · rw [if_pos hfull]
        exact Triple.ret reading_stable (fun t ht => .pendingFull r ht hfull.2) s heading.toReading
      rw [if_neg hfull]
      obtain ⟨rest, -, hrecord⟩ := heading.record
      have hsize := hrecord.small
      refine heading.sat_take (by omega) fun r' u hu => ?_
      refine Triple.ret reading_stable (fun v hv => .took r' x hv hsize fun hne => ?_) u hu
      exact eq_false_of_ne_true fun htrue => hfull ⟨hne, htrue⟩

/-- Between the rounds the worker has taken exactly the events it committed, and it knows the events
that were there when the wakeup began. -/
def Draining (ok : UInt32 → Prop) (cap : Nat) (l : DrainerLocal) (s : RingState) : Prop :=
  ∃ r K A, Reading ok cap r K A s ∧ K.map Record.toMidiEvent = l.taken ∧ A.length = l.seen

/-- What a round does to the worker's own list. -/
def DrainedRound (ok : UInt32 → Prop) (cap : Nat) (l : DrainerLocal) (call : DrainCall)
    (round : DrainRound) (s : RingState) : Prop :=
  ∃ K A, RoundDone ok cap K A call round s ∧ K.map Record.toMidiEvent = l.taken ∧
    A.length = l.seen

def drainerProof (ok : UInt32 → Prop) (hcap : cap < 2 ^ 31) :
    TwoParty.Proof (drainer cap) (readerRole ok cap) where
  At := Draining ok cap
  post := DrainedRound ok cap
  stable := by
    rintro l s t hr ⟨r, K, A, h, hK, hA⟩
    exact ⟨r, K, A, reading_stable s t hr h, hK, hA⟩
  call := by
    rintro l call - s ⟨r, K, A, h, hK, hA⟩
    exact (triple_drainRound hcap call s h).mono fun round t ht => ⟨K, A, ht, hK, hA⟩
  back := by
    rintro l call round s ⟨K, A, h, hK, hA⟩
    cases h with
    | took r x reading size unfilled =>
        refine ⟨r, K ++ [x], A, reading, ?_, hA⟩
        rw [List.map_append, hK]
        rfl
    | nothing r reading drained => exact ⟨r, K, A, reading, hK, hA⟩
    | budget r reading spent => exact ⟨r, K, A, reading, hK, hA⟩
    | pendingFull r reading full => exact ⟨r, K, A, reading, hK, hA⟩

end Rounds

end MidiFramework.Server
