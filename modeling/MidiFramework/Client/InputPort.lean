import MidiFramework.SharedRing.Notifying
import MidiFramework.Common.FutexTool
import MidiFramework.Client.PortConversion

/-!
# The receiver thread of an input port

The server writes the events of a device into the ring of an input port and wakes
the receiver thread, which waits on the futex word of the ring, drains the ring and
hands the events to the callback. `StopReceiverThread` tells the thread to end.
Every access to the ring and to the word is a step of its own, and so is every
system call.

## Implementation notes

`CommitRead` wakes whoever waits for space, so the receiver thread itself runs
through `FutexWake` after each event. The code that `FutexWait` returns is not looked
at. The local state of the receiver keeps the events it took and how many were
published when it last looked; no step depends on the second.
-/

namespace MidiFramework.Client

open Foundation Program Discipline SharedRing Common

/-! ### The receiver as a user of the ring -/

/-- What a round of the loop of `DrainToBatch` does. -/
inductive DrainedOne
  | event (copied : MidiEvent)
  | discarded
  | empty

/-- A round of the loop of `DrainToBatch` without a limit. -/
def drainOne (cap : Nat) : RingProgram DrainedOne := do
  let peeked ← peekNext cap
  if peeked.1 ≠ .ok then return .empty
  else
    let copied ← copyOut peeked.2
    let committed ← commitRead cap peeked.2
    return if committed then .event copied else .discarded

/-- The loop is its rounds. -/
theorem drainLoop_succ (cap fuel count : Nat) :
    drainLoop cap 0 (fuel + 1) count = (do
      let one ← drainOne cap
      match one with
      | .event copied => do
          let rest ← drainLoop cap 0 fuel (count + 1)
          return (rest.1, copied :: rest.2)
      | .discarded => drainLoop cap 0 fuel count
      | .empty => return (true, [])) := by
  rw [drainLoop, if_neg (by simp), drainOne, bind_bind]
  congr 1
  funext peeked
  split
  · rfl
  · rw [bind_bind]
    congr 1
    funext copied
    rw [bind_bind]
    congr 1
    funext committed
    cases committed <;> rfl

/-- A call of `PeekNext`, or a round of the drain. -/
inductive ReceiverCall
  | peekNext
  | drainRound

def ReceiverCall.Result : ReceiverCall → Type
  | .peekNext => MidiStatusCode × PeekedEvent
  | .drainRound => DrainedOne

/-- The events taken, and the number of events published when the last call began. -/
structure ReceiverLocal where
  taken : List MidiEvent
  seen : Nat

def ReceiverLocal.after (l : ReceiverLocal) : DrainedOne → ReceiverLocal
  | .event copied => { l with taken := l.taken ++ [copied] }
  | .discarded | .empty => l

def receiver (cap : Nat) : Party ringInterface where
  Local := ReceiverLocal
  Call := ReceiverCall
  Result := ReceiverCall.Result
  program
    | .peekNext => peekNext cap
    | .drainRound => drainOne cap
  enabled _ _ := True
  finish
    | l, .peekNext, _ => l
    | l, .drainRound, one => l.after one

/-- The ring of an input port with the server and the receiver thread. -/
def inputRing (cap : Nat) : TwoParty ringInterface RingState where
  exec := execTraced
  left := producer cap
  right := receiver cap

abbrev InputRing (capacity : Capacity) : Type := (inputRing capacity.bytes).State

namespace InputRing

variable {capacity : Capacity} (ring : InputRing capacity)

def beginWrite (accepted : List MidiEvent) (event : MidiEventInner) : InputRing capacity :=
  { ring with
    left := .busy accepted (.tryWriteEvent event true) (tryWriteEvent capacity.bytes event true) }

def endWrite (accepted : List MidiEvent) (call : ProducerCall) (result : WriteResult) :
    InputRing capacity :=
  { ring with left := .idle ((producer capacity.bytes).finish accepted call result) }

/-- The receiver notes what is published and begins a call. -/
def beginCall (l : ReceiverLocal) (call : ReceiverCall) : InputRing capacity :=
  { ring with
    right := .busy { l with seen := ring.shared.appended.length } call
      ((receiver capacity.bytes).program call) }

def endCall (l : ReceiverLocal) (call : ReceiverCall) (result : call.Result) :
    InputRing capacity :=
  { ring with right := .idle ((receiver capacity.bytes).finish l call result) }

/-- What the receiver took out, and what it saw. -/
def reader : ReceiverLocal :=
  match ring.right with
  | .idle l => l
  | .busy l _ _ => l

/-- The events reported as written, without those of a call under way. -/
def accepted : List MidiEvent :=
  match ring.left with
  | .idle accepted => accepted
  | .busy accepted _ _ => accepted

/-- The events that were published. -/
def published : List MidiEvent := ring.shared.appended.map Record.toMidiEvent

/-- Every unread record and the wrap marker have sequence words of published headers. -/
def Readable : Prop := ring.shared.Inv Published capacity.bytes

instance : Decidable ring.Readable :=
  inferInstanceAs (Decidable (ring.shared.Inv Published capacity.bytes))

end InputRing

/-! ### The thread -/

/-- A call of `ShouldWakeForReadOrExit` in `FutexWait`: its `tryCount`, and whether it comes after
the system call. -/
structure Look where
  tryCount : Nat
  again : Bool

/-- Where the receiver thread is in `ReceiverThreadLoop`. -/
inductive ReceiverPlace
  | loop
  | checkParams
  | exchange (tryCount : Nat)
  | checkRunning (look : Look)
  | peeking (look : Look)
  | wait (tryCount : Nat)
  | blocked (tryCount : Nat)
  | waited
  | draining
  | waking (place : Waking)
  | dispatching
  | ended

/-- `FutexWait` goes on after the predicate was looked at. -/
def Look.after (look : Look) (found : Bool) : ReceiverPlace :=
  if found then .waited
  else if look.again then .exchange (look.tryCount + 1)
  else .wait look.tryCount

/-- Where the thread is in `FutexWait`. A look at the predicate has two steps. -/
def ReceiverPlace.waiting : ReceiverPlace → Option Waiting
  | .checkParams => some .checkParams
  | .exchange tryCount => some (.exchange tryCount)
  | .checkRunning look | .peeking look =>
      some (if look.again then .recheckPred look.tryCount else .checkPred look.tryCount)
  | .wait tryCount => some (.wait tryCount)
  | .blocked tryCount => some (.blocked tryCount)
  | .loop | .waited | .draining | .waking _ | .dispatching | .ended => none

/-- The thread is at the place of `FutexWait`, or behind it. -/
def ReceiverPlace.At (place : ReceiverPlace) (waiting : Waiting) : Prop :=
  place.waiting = some waiting ∨ place = .waited ∧ ∃ code, waiting = .returned code

/-- The ring with its futex word, `MidiInputPort` with its thread, the thread of the server in
`FutexWake`, and the thread in `StopReceiverThread`. -/
structure InputChannel (capacity : Capacity) where
  ring : InputRing capacity
  word : UInt32
  running : Bool
  direction : ProtocolDirection
  thread : ReceiverPlace
  batch : List MidiEvent
  calls : List (List MidiEvent)
  notifier : Waking
  stopper : Waking

namespace InputChannel

variable {capacity : Capacity}

/-- `FUTEX_WAKE`. -/
def wakeAll (s : InputChannel capacity) : InputChannel capacity :=
  match s.thread with
  | .blocked tryCount => { s with thread := .checkRunning ⟨tryCount, true⟩ }
  | _ => s

/-- The next step of the server's `FutexWake`. -/
def notify (s : InputChannel capacity) : InputChannel capacity :=
  let next := s.notifier.next s.word
  let t := { s with notifier := next.1, word := next.2 }
  if s.notifier.wakesNext then t.wakeAll else t

/-- The next step of the `FutexWake` of `StopReceiverThread`. -/
def stopStep (s : InputChannel capacity) : InputChannel capacity :=
  let next := s.stopper.next s.word
  let t := { s with stopper := next.1, word := next.2 }
  if s.stopper.wakesNext then t.wakeAll else t

/-- `TryWriteEvent` returns; where it notifies, `FutexWake` is next. -/
def endWrite (s : InputChannel capacity) (accepted : List MidiEvent) (call : ProducerCall)
    (result : WriteResult) : InputChannel capacity :=
  { s with
    ring := s.ring.endWrite accepted call result
    notifier := if result.notified then .load isReady else s.notifier }

/-- The next step of the receiver thread outside the ring. -/
def receive (s : InputChannel capacity) (l : ReceiverLocal) : InputChannel capacity :=
  match s.thread with
  | .loop => { s with thread := if s.running then .checkParams else .ended }
  | .checkParams => { s with thread := if validWord s.word then .exchange 0 else .waited }
  | .exchange tryCount =>
      if tryCount < waitTryCount then
        if s.word = isReady then
          { s with word := isNotReady, thread := .checkRunning ⟨tryCount, false⟩ }
        else if s.word = isPreExit then { s with thread := .waited }
        else { s with thread := .checkRunning ⟨tryCount, false⟩ }
      else { s with thread := .waited }
  | .checkRunning look =>
      if s.running then { s with ring := s.ring.beginCall l .peekNext, thread := .peeking look }
      else { s with thread := .waited }
  | .wait tryCount =>
      if s.word = isNotReady then { s with thread := .blocked tryCount }
      else { s with thread := .checkRunning ⟨tryCount, true⟩ }
  | .waited => { s with thread := if s.running then .draining else .ended }
  | .draining => { s with ring := s.ring.beginCall l .drainRound }
  | .waking place =>
      let next := place.next s.word
      { s with word := next.2, thread := if next.1.away then .draining else .waking next.1 }
  | .dispatching =>
      { s with
        thread := .loop
        batch := []
        calls := s.calls ++ (MidiInputPort.drainRingAndDispatch s.direction s.batch).toList }
  | .peeking _ | .blocked _ | .ended => s

/-- A call of the receiver returns. -/
def endCall (s : InputChannel capacity) (l : ReceiverLocal) :
    (call : ReceiverCall) → call.Result → InputChannel capacity
  | .peekNext, peeked =>
      { s with
        ring := s.ring.endCall l .peekNext peeked
        thread :=
          match s.thread with
          | .peeking look => look.after (peeked.1 = .ok)
          | place => place }
  | .drainRound, .event copied =>
      { s with
        ring := s.ring.endCall l .drainRound (.event copied)
        batch := s.batch ++ [copied]
        thread := .waking (.load isReady) }
  | .drainRound, .discarded => { s with ring := s.ring.endCall l .drainRound .discarded }
  | .drainRound, .empty =>
      { s with ring := s.ring.endCall l .drainRound .empty, thread := .dispatching }

/-- What happens in a step: the server begins to write, goes on in the ring, returns, or goes on in
`FutexWake`; the receiver thread goes on, or wakes up for no reason; another thread calls
`StopReceiverThread` or goes on in it. -/
inductive Action
  | startWrite (event : MidiEventInner)
  | write
  | endWrite
  | notify
  | receive
  | spurious
  | stop
  | stopStep

inductive Step : InputChannel capacity → Action → InputChannel capacity → Prop
  | startWrite {s accepted} (event : MidiEventInner) (idle : s.ring.left = .idle accepted)
      (away : s.notifier.away = true) :
      Step s (.startWrite event) { s with ring := s.ring.beginWrite accepted event }
  | write {s ring cmd} (step : TwoParty.Step _ s.ring (.inl (.command cmd)) ring) :
      Step s .write { s with ring }
  | endWrite {s accepted call result} (busy : s.ring.left = .busy accepted call (.ret result)) :
      Step s .endWrite (s.endWrite accepted call result)
  | notify {s} (wakes : s.notifier.away = false) : Step s .notify s.notify
  | receive {s l} (idle : s.ring.right = .idle l) : Step s .receive (s.receive l)
  | ringAccess {s ring cmd} (step : TwoParty.Step _ s.ring (.inr (.command cmd)) ring) :
      Step s .receive { s with ring }
  | endCall {s l call result} (busy : s.ring.right = .busy l call (.ret result)) :
      Step s .receive (s.endCall l call result)
  | spurious {s} : Step s .spurious s.wakeAll
  | stop {s} (runs : s.running = true) :
      Step s .stop { s with running := false, stopper := .load isPreExit }
  | stopStep {s} (wakes : s.stopper.away = false) : Step s .stopStep s.stopStep

/-- The state after a step of the kind, if there is one. -/
def perform (a : Action) (s : InputChannel capacity) : Option (InputChannel capacity) :=
  match a with
  | .startWrite event =>
      match s.ring.left with
      | .idle accepted =>
          if s.notifier.away then some { s with ring := s.ring.beginWrite accepted event } else none
      | .busy .. => none
  | .write => (TwoParty.State.commandLeft s.ring).map fun ring => { s with ring }
  | .endWrite =>
      match s.ring.left with
      | .busy accepted call (.ret result) => some (s.endWrite accepted call result)
      | _ => none
  | .notify => if s.notifier.away then none else some s.notify
  | .receive =>
      match s.ring.right with
      | .idle l => some (s.receive l)
      | .busy l call (.ret result) => some (s.endCall l call result)
      | .busy _ _ (.op ..) => (TwoParty.State.commandRight s.ring).map fun ring => { s with ring }
  | .spurious => some s.wakeAll
  | .stop => if s.running then some { s with running := false, stopper := .load isPreExit } else none
  | .stopStep => if s.stopper.away then none else some s.stopStep

/-- An input port that was just opened: the ring is empty and the receiver thread starts. -/
def opened (capacity : Capacity) (direction : ProtocolDirection) (mem : RingMemory) :
    InputChannel capacity where
  ring := ⟨.idle [], .idle ⟨[], 0⟩, ⟨mem, [], 0⟩⟩
  word := isReady
  running := true
  direction := direction
  thread := .loop
  batch := []
  calls := []
  notifier := .idle
  stopper := .idle

/-- All runs of an input port. -/
def machine (capacity : Capacity) : Machine (InputChannel capacity) Action where
  init s := ∃ direction mem, EmptyRing capacity.bytes ⟨mem, [], 0⟩ ∧ s = opened capacity direction mem
  step := Step

variable {s t : InputChannel capacity} {a : Action}

/-- In `FutexWait` the receiver thread does what the function does, where the predicate is whether
the port is to end; or it goes on to the second part of the predicate. -/
theorem receive_waiting {waiting : Waiting} (hwaiting : s.thread.waiting = some waiting)
    (l : ReceiverLocal) :
    (s.receive l).thread.waiting = some waiting ∧ (s.receive l).word = s.word ∨
      (s.receive l).thread.At (waiting.next s.word (!s.running)).1 ∧
        (s.receive l).word = (waiting.next s.word (!s.running)).2 := by
  have hreturned : ∀ code : FutexCode, ReceiverPlace.waited.At (.returned code) :=
    fun code => Or.inr ⟨rfl, code, rfl⟩
  unfold receive
  cases hthread : s.thread with
  | checkParams =>
      rw [hthread] at hwaiting
      obtain rfl := Option.some.inj hwaiting
      right
      dsimp only [Waiting.next]
      refine ⟨?_, rfl⟩
      split
      · exact Or.inl rfl
      · exact hreturned _
  | exchange tryCount =>
      rw [hthread] at hwaiting
      obtain rfl := Option.some.inj hwaiting
      right
      dsimp only [Waiting.next]
      split
      · split
        · exact ⟨Or.inl rfl, rfl⟩
        · split
          · exact ⟨hreturned _, rfl⟩
          · exact ⟨Or.inl rfl, rfl⟩
      · exact ⟨hreturned _, rfl⟩
  | checkRunning look =>
      rw [hthread] at hwaiting
      obtain rfl := Option.some.inj hwaiting
      dsimp only
      split
      · exact Or.inl ⟨rfl, rfl⟩
      · next hstopped =>
          right
          rw [Bool.eq_false_of_not_eq_true hstopped]
          split
          · exact ⟨hreturned _, rfl⟩
          · exact ⟨hreturned _, rfl⟩
  | peeking look =>
      rw [hthread] at hwaiting
      exact Or.inl ⟨by rw [hthread, hwaiting], rfl⟩
  | wait tryCount =>
      rw [hthread] at hwaiting
      obtain rfl := Option.some.inj hwaiting
      right
      dsimp only [Waiting.next]
      split <;> exact ⟨Or.inl rfl, rfl⟩
  | blocked tryCount =>
      rw [hthread] at hwaiting
      exact Or.inl ⟨by rw [hthread, hwaiting], rfl⟩
  | _ =>
      rw [hthread] at hwaiting
      contradiction

/-- The end of a look is that of `FutexWait` with what `PeekNext` found. -/
theorem endCall_waiting {look : Look} (hthread : s.thread = .peeking look) (l : ReceiverLocal)
    (peeked : MidiStatusCode × PeekedEvent) {waiting : Waiting}
    (hwaiting : s.thread.waiting = some waiting) :
    (s.endCall l .peekNext peeked).thread.At (waiting.next s.word (peeked.1 = .ok)).1 ∧
      (s.endCall l .peekNext peeked).word = (waiting.next s.word (peeked.1 = .ok)).2 := by
  rw [hthread] at hwaiting
  obtain rfl := Option.some.inj hwaiting
  obtain ⟨tryCount, again⟩ := look
  unfold endCall
  rw [hthread]
  dsimp only [Look.after]
  cases again with
  | true =>
      by_cases hfound : peeked.1 = .ok
      · simp only [hfound, decide_true, if_true]
        exact ⟨Or.inr ⟨rfl, .success, rfl⟩, rfl⟩
      · simp only [hfound, decide_false, Bool.false_eq_true, if_false, if_true]
        exact ⟨Or.inl rfl, rfl⟩
  | false =>
      by_cases hfound : peeked.1 = .ok
      · simp only [hfound, decide_true, if_true]
        exact ⟨Or.inr ⟨rfl, .success, rfl⟩, rfl⟩
      · simp only [hfound, decide_false, Bool.false_eq_true, if_false]
        exact ⟨Or.inl rfl, rfl⟩

theorem step_of_perform (h : s.perform a = some t) : Step s a t := by
  cases a with
  | startWrite event =>
      dsimp only [perform] at h
      split at h
      · next accepted hidle =>
          split at h
          · next haway =>
              obtain rfl := Option.some.inj h
              exact .startWrite event hidle haway
          · contradiction
      · contradiction
  | write =>
      obtain ⟨ring, hring, rfl⟩ := Option.map_eq_some_iff.mp h
      obtain ⟨cmd, hstep⟩ := TwoParty.commandLeft_eq_some.mp hring
      exact .write hstep
  | endWrite =>
      dsimp only [perform] at h
      split at h
      · next accepted call result hbusy =>
          obtain rfl := Option.some.inj h
          exact .endWrite hbusy
      · contradiction
  | notify =>
      dsimp only [perform] at h
      split at h
      · contradiction
      · next hstill =>
          obtain rfl := Option.some.inj h
          exact .notify (Bool.eq_false_of_not_eq_true hstill)
  | receive =>
      dsimp only [perform] at h
      split at h
      · next l hidle =>
          obtain rfl := Option.some.inj h
          exact .receive hidle
      · next l call result hbusy =>
          obtain rfl := Option.some.inj h
          exact .endCall hbusy
      · obtain ⟨ring, hring, rfl⟩ := Option.map_eq_some_iff.mp h
        obtain ⟨cmd, hstep⟩ := TwoParty.commandRight_eq_some.mp hring
        exact .ringAccess hstep
  | spurious =>
      obtain rfl := Option.some.inj h
      exact .spurious
  | stop =>
      dsimp only [perform] at h
      split at h
      · next hruns =>
          obtain rfl := Option.some.inj h
          exact .stop hruns
      · contradiction
  | stopStep =>
      dsimp only [perform] at h
      split at h
      · contradiction
      · next hstill =>
          obtain rfl := Option.some.inj h
          exact .stopStep (Bool.eq_false_of_not_eq_true hstill)

theorem perform_of_step (h : Step s a t) : s.perform a = some t := by
  cases h with
  | startWrite event idle away =>
      dsimp only [perform]
      rw [idle]
      exact if_pos away
  | write step =>
      have hring := TwoParty.commandLeft_eq_some.mpr ⟨_, step⟩
      exact Option.map_eq_some_iff.mpr ⟨_, hring, rfl⟩
  | endWrite busy =>
      dsimp only [perform]
      rw [busy]
  | notify wakes => exact if_neg (Bool.not_eq_true _ ▸ wakes)
  | receive idle =>
      dsimp only [perform]
      rw [idle]
  | ringAccess step =>
      have hring := TwoParty.commandRight_eq_some.mpr ⟨_, step⟩
      dsimp only [perform]
      split
      · next hidle =>
          rw [TwoParty.State.commandRight, hidle] at hring
          contradiction
      · next hbusy =>
          rw [TwoParty.State.commandRight, hbusy] at hring
          contradiction
      · exact Option.map_eq_some_iff.mpr ⟨_, hring, rfl⟩
  | endCall busy =>
      dsimp only [perform]
      rw [busy]
  | spurious => rfl
  | stop runs => exact if_pos runs
  | stopStep wakes => exact if_neg (Bool.not_eq_true _ ▸ wakes)

/-- A kind of step leads to one state at most, which can be computed. -/
theorem step_iff_perform : Step s a t ↔ s.perform a = some t :=
  ⟨perform_of_step, step_of_perform⟩

end InputChannel

end MidiFramework.Client
