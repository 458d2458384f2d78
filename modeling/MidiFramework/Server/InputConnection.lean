import MidiFramework.SharedRing.Acceptance
import MidiFramework.Client.InputDelivery
import MidiFramework.Server.OutputConnection

/-!
# An input connection and its clients

The thread of the driver hands the events of a device to the connection, which writes
each of them into the ring of every client it finds in a snapshot of its list. The
clients' threads read at the same time, and clients come and go.

## Implementation notes

One thread of the driver calls `HandleDeviceUmpInput`, so at most one write is under
way. A connection that was removed from the list stays as long as a snapshot holds it,
so the model keeps all connections that were ever made and the list is those not
removed. What was broadcast, what became of each event at each client, and when a
client came and went are records that no step depends on.
-/

namespace MidiFramework.Server

open Foundation Program Discipline SharedRing Client

/-- The capacity of the ring that `CreateRingBuffer` makes. -/
def defaultRing : Capacity := ⟨defaultRingBufferSize, by decide⟩

/-- What became of an event at a client: whether there was room when `TrySendToClient` began, and
what the ring answered. -/
structure Attempt where
  event : MidiEventInner
  room : Bool
  status : MidiStatusCode

/-- `ClientConnectionInServer` with the input port of the client. -/
structure InputClient where
  clientId : UInt32
  channel : InputChannel defaultRing
  attempts : List Attempt
  joined : Nat
  parted : Option Nat

namespace InputClient

/-- The events that were written for the client. -/
def accepted (c : InputClient) : List MidiEvent :=
  (c.attempts.filter (·.status = .ok)).map fun attempt => attempt.event.toMidiEvent

/-- A connection that was just made. -/
def fresh (clientId : UInt32) (direction : ProtocolDirection) (joined : Nat) : InputClient :=
  ⟨clientId, .opened defaultRing direction zeroRing, [], joined, none⟩

end InputClient

/-- Where the thread of the driver is: outside, in `HandleDeviceUmpInput` before the next event, in
`BroadcastToClients` with the rest of the snapshot, or in `TrySendToClient` for one client. -/
inductive Handling
  | waiting
  | events (rest : List MidiEventInner)
  | sending (event : MidiEventInner) (targets : List Nat) (rest : List MidiEventInner)
  | writing (event : MidiEventInner) (i : Nat) (room : Bool) (targets : List Nat)
      (rest : List MidiEventInner)

/-- `DeviceConnectionForInput`. -/
structure InputConnection where
  connections : List InputClient
  handling : Handling
  broadcast : List MidiEventInner

namespace InputConnection

/-- `SnapshotClients`: the connections in the list. -/
def snapshotClients (s : InputConnection) : List Nat :=
  (List.range s.connections.length).filter fun i => s.connections[i]?.any (·.parted.isNone)

def setConnection (s : InputConnection) (i : Nat) (c : InputClient) : InputConnection :=
  { s with connections := s.connections.set i c }

/-- `AddClientConnection`. -/
def addClientConnection (s : InputConnection) (clientId : UInt32) (direction : ProtocolDirection) :
    InputConnection :=
  { s with connections := s.connections ++ [.fresh clientId direction s.broadcast.length] }

/-- `RemoveClientConnection`. -/
def removeClientConnection (s : InputConnection) (clientId : UInt32) : InputConnection :=
  { s with
    connections := s.connections.map fun c =>
      if c.clientId = clientId ∧ c.parted = none then { c with parted := some s.broadcast.length }
      else c }

/-- `TrySendToClient` begins for client `i`. -/
def beginSend (s : InputConnection) (i : Nat) (c : InputClient) (accepted : List MidiEvent)
    (event : MidiEventInner) (targets : List Nat) (rest : List MidiEventInner) : InputConnection :=
  { s with
    connections := s.connections.set i
      { c with channel := { c.channel with ring := c.channel.ring.beginWrite accepted event } }
    handling := .writing event i (hasRoom defaultRing.bytes event c.channel.ring.shared) targets rest }

/-- `TryWriteEvent` returns; the notification may still be under way. -/
def endSend (s : InputConnection) (i : Nat) (c : InputClient) (accepted : List MidiEvent)
    (call : ProducerCall) (result : WriteResult) (event : MidiEventInner) (room : Bool) :
    InputConnection :=
  s.setConnection i
    { c with
      channel := c.channel.endWrite accepted call result
      attempts := c.attempts ++ [⟨event, room, result.status⟩] }

/-- A step of a client's own threads. -/
def OfClient : InputChannel.Action → Prop
  | .receive | .spurious | .stop | .stopStep => True
  | .startWrite _ | .write | .endWrite | .notify => False

instance : DecidablePred OfClient
  | .receive | .spurious | .stop | .stopStep => isTrue trivial
  | .startWrite _ | .write | .endWrite | .notify => isFalse id

inductive Action
  | input (events : List MidiEventInner)
  | handle
  | client (i : Nat) (a : InputChannel.Action)
  | addClientConnection (clientId : UInt32) (direction : ProtocolDirection)
  | removeClientConnection (clientId : UInt32)

/-- One step of the thread of the driver, of a client, or of a request that adds or removes one. -/
inductive Step : InputConnection → Action → InputConnection → Prop
  | input {s} (events : List MidiEventInner) (waits : s.handling = .waiting) :
      Step s (.input events) { s with handling := .events events }
  | next {s event rest} (handles : s.handling = .events (event :: rest)) :
      Step s .handle
        { s with
          handling := .sending event s.snapshotClients rest
          broadcast := s.broadcast ++ [event] }
  | done {s} (handles : s.handling = .events []) : Step s .handle { s with handling := .waiting }
  | send {s event i targets rest c accepted} (sends : s.handling = .sending event (i :: targets) rest)
      (found : s.connections[i]? = some c) (idle : c.channel.ring.left = .idle accepted)
      (away : c.channel.notifier.away = true) :
      Step s .handle (s.beginSend i c accepted event targets rest)
  | write {s event i room targets rest c channel}
      (writes : s.handling = .writing event i room targets rest)
      (found : s.connections[i]? = some c) (step : c.channel.Step .write channel) :
      Step s .handle (s.setConnection i { c with channel })
  | endWrite {s event i room targets rest c accepted call result}
      (writes : s.handling = .writing event i room targets rest)
      (found : s.connections[i]? = some c)
      (busy : c.channel.ring.left = .busy accepted call (.ret result)) :
      Step s .handle (s.endSend i c accepted call result event room)
  | notify {s event i room targets rest c channel}
      (writes : s.handling = .writing event i room targets rest)
      (found : s.connections[i]? = some c) (step : c.channel.Step .notify channel) :
      Step s .handle (s.setConnection i { c with channel })
  | returned {s event i room targets rest c accepted}
      (writes : s.handling = .writing event i room targets rest)
      (found : s.connections[i]? = some c) (idle : c.channel.ring.left = .idle accepted)
      (away : c.channel.notifier.away = true) :
      Step s .handle { s with handling := .sending event targets rest }
  | sent {s event rest} (sends : s.handling = .sending event [] rest) :
      Step s .handle { s with handling := .events rest }
  | client {s i a c channel} (own : OfClient a) (found : s.connections[i]? = some c)
      (step : c.channel.Step a channel) :
      Step s (.client i a) (s.setConnection i { c with channel })
  | addClientConnection {s} (clientId : UInt32) (direction : ProtocolDirection) :
      Step s (.addClientConnection clientId direction) (s.addClientConnection clientId direction)
  | removeClientConnection {s} (clientId : UInt32) :
      Step s (.removeClientConnection clientId) (s.removeClientConnection clientId)

/-- The step of the thread of the driver for the client it writes to. -/
def performWriting (s : InputConnection) (event : MidiEventInner) (i : Nat) (room : Bool)
    (targets : List Nat) (rest : List MidiEventInner) (c : InputClient) : Option InputConnection :=
  match c.channel.ring.left with
  | .busy accepted call (.ret result) => some (s.endSend i c accepted call result event room)
  | .busy _ _ (.op ..) =>
      (c.channel.perform .write).map fun channel => s.setConnection i { c with channel }
  | .idle _ =>
      if c.channel.notifier.away then some { s with handling := .sending event targets rest }
      else (c.channel.perform .notify).map fun channel => s.setConnection i { c with channel }

/-- The next step of the thread of the driver. -/
def performHandle (s : InputConnection) : Option InputConnection :=
  match s.handling with
  | .waiting => none
  | .events [] => some { s with handling := .waiting }
  | .events (event :: rest) =>
      some { s with
        handling := .sending event s.snapshotClients rest
        broadcast := s.broadcast ++ [event] }
  | .sending _ [] rest => some { s with handling := .events rest }
  | .sending event (i :: targets) rest =>
      s.connections[i]?.bind fun c =>
        match c.channel.ring.left with
        | .idle accepted =>
            if c.channel.notifier.away then some (s.beginSend i c accepted event targets rest)
            else none
        | .busy .. => none
  | .writing event i room targets rest =>
      s.connections[i]?.bind (s.performWriting event i room targets rest)

/-- A state after a step of the kind, if there is one. -/
def perform (a : Action) (s : InputConnection) : Option InputConnection :=
  match a with
  | .input events =>
      match s.handling with
      | .waiting => some { s with handling := .events events }
      | _ => none
  | .handle => s.performHandle
  | .client i a =>
      if OfClient a then
        s.connections[i]?.bind fun c =>
          (c.channel.perform a).map fun channel => s.setConnection i { c with channel }
      else none
  | .addClientConnection clientId direction => some (s.addClientConnection clientId direction)
  | .removeClientConnection clientId => some (s.removeClientConnection clientId)

/-- All runs of an input connection with any number of clients. -/
def machine : Machine InputConnection Action where
  init s := s = ⟨[], .waiting, []⟩
  step := Step

variable {s t : InputConnection} {a : Action}

theorem step_of_performWriting {event : MidiEventInner} {i : Nat} {room : Bool}
    {targets : List Nat} {rest : List MidiEventInner} {c : InputClient}
    (hwrites : s.handling = .writing event i room targets rest) (hfound : s.connections[i]? = some c)
    (h : s.performWriting event i room targets rest c = some t) : Step s .handle t := by
  unfold performWriting at h
  split at h
  · next accepted call result hbusy =>
      obtain rfl := Option.some.inj h
      exact .endWrite hwrites hfound hbusy
  · obtain ⟨channel, hchannel, rfl⟩ := Option.map_eq_some_iff.mp h
    exact .write hwrites hfound (InputChannel.step_of_perform hchannel)
  · next accepted hidle =>
      split at h
      · next haway =>
          obtain rfl := Option.some.inj h
          exact .returned hwrites hfound hidle haway
      · obtain ⟨channel, hchannel, rfl⟩ := Option.map_eq_some_iff.mp h
        exact .notify hwrites hfound (InputChannel.step_of_perform hchannel)

theorem step_of_performHandle (h : s.performHandle = some t) : Step s .handle t := by
  unfold performHandle at h
  split at h
  · contradiction
  · next hhandling =>
      obtain rfl := Option.some.inj h
      exact .done hhandling
  · next event rest hhandling =>
      obtain rfl := Option.some.inj h
      exact .next hhandling
  · next event rest hhandling =>
      obtain rfl := Option.some.inj h
      exact .sent hhandling
  · next event i targets rest hhandling =>
      obtain ⟨c, hfound, hbegun⟩ := Option.bind_eq_some_iff.mp h
      split at hbegun
      · next accepted hidle =>
          split at hbegun
          · next haway =>
              obtain rfl := Option.some.inj hbegun
              exact .send hhandling hfound hidle haway
          · contradiction
      · contradiction
  · next event i room targets rest hhandling =>
      obtain ⟨c, hfound, hwritten⟩ := Option.bind_eq_some_iff.mp h
      exact step_of_performWriting hhandling hfound hwritten

/-- What can be carried out is a step. -/
theorem step_of_perform (h : s.perform a = some t) : Step s a t := by
  cases a with
  | input events =>
      dsimp only [perform] at h
      split at h
      · next hwaits =>
          obtain rfl := Option.some.inj h
          exact .input events hwaits
      · contradiction
  | handle => exact step_of_performHandle h
  | client i a =>
      dsimp only [perform] at h
      split at h
      · next hown =>
          obtain ⟨c, hfound, hmoved⟩ := Option.bind_eq_some_iff.mp h
          obtain ⟨channel, hchannel, rfl⟩ := Option.map_eq_some_iff.mp hmoved
          exact .client hown hfound (InputChannel.step_of_perform hchannel)
      · contradiction
  | addClientConnection clientId direction =>
      obtain rfl := Option.some.inj h
      exact .addClientConnection clientId direction
  | removeClientConnection clientId =>
      obtain rfl := Option.some.inj h
      exact .removeClientConnection clientId

end InputConnection

end MidiFramework.Server
