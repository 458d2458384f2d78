import MidiFramework.Server.ClientDrain
import MidiFramework.Server.ScheduledOutput

/-!
# The worker of an output connection

Clients write into their rings. The worker wakes up, drains every ring into the
send cache and the queues of scheduled events, takes out the events that are due,
hands the cache to the driver and sets the timer. Every access of a client or of
the worker to a ring is a step of its own, and so is every event the worker moves.

## Implementation notes

The clock moves forward between steps, and a wakeup may come at any time. A
client is added while the worker does not hold the mutex of the clients. The
worker's list of taken events, the number of events published when a wakeup
began and the end of the last drain are records that no step depends on.
-/

namespace MidiFramework.Server

open Foundation PriorityQueue SharedRing

/-- `DEFAULT_RING_BUFFER_SIZE`. -/
def defaultRingBufferSize : Nat := 2048

/-- `maxPending_`. -/
def maxPending : Nat := 1024

/-- The initial `maxSendCacheBytes_`. -/
def maxSendCacheBytes : Nat := 64 * 1024

/-- `MAX_DRAIN_PER_CLIENT`. -/
def maxDrainPerClient : Nat := 128

abbrev ClientRing : Type := (clientRing defaultRingBufferSize).State

namespace ClientRing

/-- The events that the worker took from the ring. -/
def taken (ring : ClientRing) : List MidiEvent :=
  match ring.right with
  | .idle l => l.taken
  | .busy l _ _ => l.taken

/-- The events that were published in the ring. -/
def published (ring : ClientRing) : List MidiEvent :=
  ring.shared.appended.map Record.toMidiEvent

/-- A client finishes a call after which it notifies. -/
def notifies (ring : ClientRing) (a : Party.Action ringInterface) : Bool :=
  match a, ring.left with
  | .finish, .busy _ _ (.ret result) => result.notified
  | _, _ => false

/-- The worker begins a round of the drain. -/
def beginRound (ring : ClientRing) (l : DrainerLocal) (call : DrainCall) : ClientRing :=
  { ring with right := .busy l call (drainRound defaultRingBufferSize call) }

/-- A round of the drain is over. -/
def endRound (ring : ClientRing) (l : DrainerLocal) (round : DrainRound) : ClientRing :=
  { ring with right := .idle (l.after round) }

/-- The worker notes what was published when a wakeup began. -/
def noticed (ring : ClientRing) : ClientRing :=
  match ring.right with
  | .idle l => { ring with right := .idle { l with seen := ring.shared.appended.length } }
  | .busy .. => ring

/-- A ring as `CreateRingBuffer` makes it. -/
def fresh : ClientRing := ⟨.idle [], .idle ⟨[], 0⟩, ⟨⟨0, 0, 0, fun _ => 0⟩, [], 0⟩⟩

end ClientRing

/-- `ClientConnectionInServer` with how the last drain of its ring ended. -/
structure OutputClient (Q : PendingQueue) where
  ring : ClientRing
  pending : Q.Queue
  ended : Option DrainStop

namespace OutputClient

variable {Q : PendingQueue}

def isPendingFull (c : OutputClient Q) : Bool := decide ((Q.elements c.pending).card ≥ maxPending)

/-- `EnqueueNonRealtime`; `none` is the answer `false`. -/
def enqueueNonRealtime (c : OutputClient Q) (event : MidiEvent) : Option (OutputClient Q) :=
  if c.isPendingFull then none else some { c with pending := Q.push c.pending (.ofEvent event) }

def noticed (c : OutputClient Q) : OutputClient Q :=
  { c with ring := c.ring.noticed, ended := none }

/-- A client that was just added. -/
def fresh (Q : PendingQueue) : OutputClient Q := ⟨.fresh, Q.empty, none⟩

end OutputClient

/-- Where the worker is: in `epoll_wait`, in one of the steps of `HandleWakeupOnce`, or between two
of them. -/
inductive OutputPhase
  | waiting
  | draining (i drained : Nat)
  | drained
  | collecting (now : Int)
  | flushing
  | arming
  deriving DecidableEq

/-- The worker does not hold the mutex. -/
def OutputPhase.Free : OutputPhase → Prop
  | .draining .. | .collecting _ => False
  | _ => True

/-- `DeviceConnectionForOutput` and the clock. -/
structure OutputConnection (Q : PendingQueue) where
  clients : List (OutputClient Q)
  sender : OutputSender maxSendCacheBytes
  phase : OutputPhase
  eventFd : Bool
  timer : TimerValue
  now : Int

namespace OutputConnection

variable {Q : PendingQueue}

def pendings (s : OutputConnection Q) : List Q.Queue := s.clients.map OutputClient.pending

def setClient (s : OutputConnection Q) (i : Nat) (c : OutputClient Q) : OutputConnection Q :=
  { s with clients := s.clients.set i c }

/-- The arguments of a round of the drain of client `c`. -/
def drainCall (c : OutputClient Q) (drained : Nat) : DrainCall :=
  ⟨decide (drained + 1 > maxDrainPerClient), c.isPendingFull⟩

/-- The drain of client `i` ends. -/
def endDrain (s : OutputConnection Q) (i : Nat) (c : OutputClient Q) (reason : DrainStop) :
    OutputConnection Q :=
  { s with clients := s.clients.set i { c with ended := some reason }, phase := .draining (i + 1) 0 }

def consumeRealtimeEvent (s : OutputConnection Q) (i drained : Nat) (c : OutputClient Q)
    (event : MidiEvent) : OutputConnection Q :=
  { s with
    clients := s.clients.set i c
    sender := (s.sender.forward ⟨i, event⟩).1
    phase := .draining i (drained + 1) }

def consumeNonRealtimeEvent (s : OutputConnection Q) (i drained : Nat) (c : OutputClient Q)
    (event : MidiEvent) : OutputConnection Q :=
  match c.enqueueNonRealtime event with
  | some c' => { s with clients := s.clients.set i c', phase := .draining i (drained + 1) }
  | none => s.endDrain i c .pendingFull

/-- The rest of a round of the drain of client `i`, after the accesses to its ring; `c` is the
client with these. -/
def finishRound (s : OutputConnection Q) (i drained : Nat) (c : OutputClient Q) :
    DrainRound → OutputConnection Q
  | .took event =>
      if event.timestamp = 0 then s.consumeRealtimeEvent i drained c event
      else s.consumeNonRealtimeEvent i drained c event
  | .stopped reason => s.endDrain i c reason

/-- A round of the loop of `CollectDueEventsFromClientHeaps`, and the end of the loop. -/
def collect (s : OutputConnection Q) (now : Int) : OutputConnection Q :=
  match collectRound s.now ⟨s.pendings, s.sender, now⟩ with
  | some (t, _) =>
      { s with
        clients := List.zipWith (fun c pending => { c with pending }) s.clients t.clients
        sender := t.sender
        phase := .collecting t.now }
  | none => { s with phase := .flushing }

def flush (s : OutputConnection Q) : OutputConnection Q :=
  { s with sender := s.sender.flushSendCacheToDriver, phase := .arming }

/-- `UpdateNextTimer`, with which a wakeup ends. -/
def arm (s : OutputConnection Q) : OutputConnection Q :=
  { s with
    timer := (updateNextTimer Q s.now s.pendings).1
    eventFd := s.eventFd || (updateNextTimer Q s.now s.pendings).2
    phase := .waiting }

/-- `DrainEventFd` and `DrainTimerFd`; the timer has expired or not. -/
def wake (s : OutputConnection Q) (expired : Bool) : OutputConnection Q :=
  { s with
    clients := s.clients.map OutputClient.noticed
    eventFd := false
    timer := if expired then ⟨0, 0⟩ else s.timer
    phase := .draining 0 0 }

/-- The ring of client `i` and the eventfd after a step of the client. -/
def clientWrote (s : OutputConnection Q) (i : Nat) (c : OutputClient Q) (ring : ClientRing)
    (a : Party.Action ringInterface) : OutputConnection Q :=
  { s with
    clients := s.clients.set i { c with ring }
    eventFd := s.eventFd || c.ring.notifies a }

/-- What happens in a step. -/
inductive Action
  | addClient
  | tick
  | client (i : Nat) (a : Party.Action ringInterface)
  | wake (expired : Bool)
  | drain (i : Nat) (a : Party.Action ringInterface)
  | drained
  | collect
  | flush
  | arm

/-- One step of a client, of the worker, or of the clock. -/
inductive Step : OutputConnection Q → Action → OutputConnection Q → Prop
  | addClient {s} (free : s.phase.Free) :
      Step s .addClient { s with clients := s.clients ++ [.fresh Q] }
  | tick {s} (now : Int) (later : s.now ≤ now) (inRange : now < 2 ^ 63) :
      Step s .tick { s with now }
  | client {s i c ring a} (found : s.clients[i]? = some c)
      (step : TwoParty.Step _ c.ring (.inl a) ring) :
      Step s (.client i a) (s.clientWrote i c ring a)
  | wake {s} (expired : Bool) (waits : s.phase = .waiting) : Step s (.wake expired) (s.wake expired)
  | startRound {s i drained c l} (drains : s.phase = .draining i drained)
      (found : s.clients[i]? = some c) (idle : c.ring.right = .idle l) :
      Step s (.drain i .start)
        (s.setClient i { c with ring := c.ring.beginRound l (drainCall c drained) })
  | ringAccess {s i drained c ring cmd} (drains : s.phase = .draining i drained)
      (found : s.clients[i]? = some c) (step : TwoParty.Step _ c.ring (.inr (.command cmd)) ring) :
      Step s (.drain i (.command cmd)) (s.setClient i { c with ring })
  | finishRound {s i drained c l call round} (drains : s.phase = .draining i drained)
      (found : s.clients[i]? = some c) (busy : c.ring.right = .busy l call (.ret round)) :
      Step s (.drain i .finish)
        (s.finishRound i drained { c with ring := c.ring.endRound l round } round)
  | drained {s i drained} (drains : s.phase = .draining i drained) (last : s.clients.length ≤ i) :
      Step s .drained { s with phase := .drained }
  | startCollect {s} (after : s.phase = .drained) :
      Step s .collect { s with phase := .collecting s.now }
  | collect {s now} (collects : s.phase = .collecting now) : Step s .collect (s.collect now)
  | flush {s} (flushes : s.phase = .flushing) : Step s .flush s.flush
  | arm {s} (arms : s.phase = .arming) : Step s .arm s.arm

/-- A client is added, begins a call or goes on with it, or the worker wakes up or goes on. -/
inductive Move
  | addClient
  | start (i : Nat) (call : ProducerCall)
  | client (i : Nat)
  | wake
  | worker

/-- A client that is in no call begins one. -/
def performStart (s : OutputConnection Q) (i : Nat) (call : ProducerCall) (c : OutputClient Q) :
    Option (OutputConnection Q) :=
  match c.ring.left with
  | .idle accepted =>
      some (s.clientWrote i c
        { c.ring with
          left := .busy accepted call ((producer defaultRingBufferSize).program call) } .start)
  | .busy .. => none

/-- The next step of a client in its call. -/
def performClient (s : OutputConnection Q) (i : Nat) (c : OutputClient Q) :
    Option (OutputConnection Q) :=
  match c.ring.left with
  | .idle _ => none
  | .busy accepted call (.ret result) =>
      some (s.clientWrote i c
        { c.ring with
          left := .idle ((producer defaultRingBufferSize).finish accepted call result) } .finish)
  | .busy _ _ (.op cmd _) =>
      (TwoParty.State.commandLeft c.ring).map fun ring => s.clientWrote i c ring (.command cmd)

/-- The next step of the worker in a drain. -/
def performDrain (s : OutputConnection Q) (i drained : Nat) : Option (OutputConnection Q) :=
  match s.clients[i]? with
  | none => some { s with phase := .drained }
  | some c =>
      match c.ring.right with
      | .idle l => some (s.setClient i { c with ring := c.ring.beginRound l (drainCall c drained) })
      | .busy l _ (.ret round) =>
          some (s.finishRound i drained { c with ring := c.ring.endRound l round } round)
      | .busy _ _ (.op ..) =>
          (TwoParty.State.commandRight c.ring).map fun ring => s.setClient i { c with ring }

/-- The next step of the worker. -/
def performWorker (s : OutputConnection Q) : Option (OutputConnection Q) :=
  match s.phase with
  | .waiting => none
  | .draining i drained => s.performDrain i drained
  | .drained => some { s with phase := .collecting s.now }
  | .collecting now => some (s.collect now)
  | .flushing => some s.flush
  | .arming => some s.arm

/-- The state after a move, if it is possible. -/
def perform (move : Move) (s : OutputConnection Q) : Option (OutputConnection Q) :=
  match move with
  | .addClient =>
      if s.phase = .waiting then some { s with clients := s.clients ++ [.fresh Q] } else none
  | .start i call => s.clients[i]?.bind (s.performStart i call)
  | .client i => s.clients[i]?.bind (s.performClient i)
  | .wake => if s.phase = .waiting then some (s.wake false) else none
  | .worker => s.performWorker

/-- A connection whose worker has just started. -/
def Started (s : OutputConnection Q) : Prop :=
  s.clients = [] ∧ s.sender = .empty maxSendCacheBytes ∧ s.phase = .arming ∧ s.eventFd = false ∧
    0 ≤ s.now ∧ s.now < 2 ^ 63

/-- All runs of an output connection with any number of clients. -/
def machine (Q : PendingQueue) : Machine (OutputConnection Q) Action where
  init := Started
  step := Step

variable {s t : OutputConnection Q} {i drained : Nat} {c : OutputClient Q}

theorem step_of_performStart {call : ProducerCall} (hfound : s.clients[i]? = some c)
    (h : s.performStart i call c = some t) : Step s (.client i .start) t := by
  obtain ⟨⟨left, right, shared⟩, pending, ended⟩ := c
  cases left with
  | idle accepted =>
      obtain rfl := Option.some.inj h
      exact .client hfound (.left (.start trivial))
  | busy accepted call rest => contradiction

theorem step_of_performClient (hfound : s.clients[i]? = some c)
    (h : s.performClient i c = some t) : ∃ a, Step s a t := by
  obtain ⟨⟨left, right, shared⟩, pending, ended⟩ := c
  cases left with
  | idle accepted => contradiction
  | busy accepted call rest =>
      cases rest with
      | ret result =>
          obtain rfl := Option.some.inj h
          exact ⟨_, .client hfound (.left .finish)⟩
      | op cmd k =>
          obtain rfl := Option.some.inj h
          exact ⟨_, .client hfound (.left .command)⟩

theorem step_of_performDrain (hdrains : s.phase = .draining i drained)
    (h : s.performDrain i drained = some t) : ∃ a, Step s a t := by
  unfold performDrain at h
  split at h
  · next hnone =>
      obtain rfl := Option.some.inj h
      exact ⟨_, .drained hdrains (List.getElem?_eq_none_iff.mp hnone)⟩
  · next c hfound =>
      split at h
      · next l hidle =>
          obtain rfl := Option.some.inj h
          exact ⟨_, .startRound hdrains hfound hidle⟩
      · next l call round hbusy =>
          obtain rfl := Option.some.inj h
          exact ⟨_, .finishRound hdrains hfound hbusy⟩
      · obtain ⟨ring, hring, rfl⟩ := Option.map_eq_some_iff.mp h
        obtain ⟨cmd, hstep⟩ := TwoParty.commandRight_eq_some.mp hring
        exact ⟨_, .ringAccess hdrains hfound hstep⟩

theorem step_of_performWorker (h : s.performWorker = some t) : ∃ a, Step s a t := by
  unfold performWorker at h
  split at h
  · contradiction
  · next i drained hdrains => exact step_of_performDrain hdrains h
  · next hafter =>
      obtain rfl := Option.some.inj h
      exact ⟨_, .startCollect hafter⟩
  · next now hcollects =>
      obtain rfl := Option.some.inj h
      exact ⟨_, .collect hcollects⟩
  · next hflushes =>
      obtain rfl := Option.some.inj h
      exact ⟨_, .flush hflushes⟩
  · next harms =>
      obtain rfl := Option.some.inj h
      exact ⟨_, .arm harms⟩

/-- Every move is a step. -/
theorem step_of_perform {move : Move} (h : s.perform move = some t) : ∃ a, Step s a t := by
  cases move with
  | addClient =>
      obtain ⟨hwaits, hsome⟩ := Option.ite_none_right_eq_some.mp h
      obtain rfl := Option.some.inj hsome
      exact ⟨_, .addClient (hwaits ▸ trivial)⟩
  | start i call =>
      obtain ⟨c, hfound, hstarted⟩ := Option.bind_eq_some_iff.mp h
      exact ⟨_, step_of_performStart hfound hstarted⟩
  | client i =>
      obtain ⟨c, hfound, hdone⟩ := Option.bind_eq_some_iff.mp h
      exact step_of_performClient hfound hdone
  | wake =>
      obtain ⟨hwaits, hsome⟩ := Option.ite_none_right_eq_some.mp h
      obtain rfl := Option.some.inj hsome
      exact ⟨_, .wake false hwaits⟩
  | worker => exact step_of_performWorker h

end OutputConnection

end MidiFramework.Server
