import MidiFramework.Server.OutputConservation
import MidiFramework.SharedRing.Fifo

/-!
# Flushing an output port

`FlushOutputPort` drops what a client has written and the worker has not passed on.
The client calls it under the mutex under which it sends, and the server clears the
client's queue and ring under the mutex under which the worker drains. The ring has
nothing that keeps its writer or the worker away meanwhile: the two mutexes do. So
every run in which rings are flushed access by access looks like one in which each
flush happens in one step.

## Implementation notes

A call of the ring by a client is made with `outputPortsMutex_`, so none begins
between the call of `FlushOutputPort` and its return. `Flush` finds the flag free,
and only how many tries would fit before its deadline is left open. What a client was
told it wrote, and what the worker knows to be in the ring, are records, which the
flush cuts down to what the worker took.
-/

namespace MidiFramework.Server

open Foundation PriorityQueue SharedRing

/-- How far `FlushOutputPort` of a client is: not called, on the way to the server, or in `Flush`
with the rest of its accesses. -/
inductive Flushing
  | none
  | called
  | clearing (rest : RingProgram Unit)

/-- What the worker had taken of a client's events, and what had been sent on of them, when the client
was last flushed. -/
structure Epoch where
  taken : List MidiEvent := []
  sent : List MidiEvent := []

/-- The records of a ring whose unread events are dropped. -/
def ClientRing.dropUnread (ring : ClientRing) : ClientRing :=
  ⟨.idle ring.taken, .idle ⟨ring.taken, ring.taken.length⟩, ring.shared⟩

/-- The ring when the flush under way has come to its end. -/
def Flushing.settle (flushing : Flushing) (ring : ClientRing) : ClientRing :=
  match flushing with
  | .clearing rest => { ring with shared := (rest.run execTraced ring.shared).2 }
  | .none | .called => ring

namespace OutputClient

variable {Q : PendingQueue}

/-- `Flush`, up to the accesses to the ring. -/
def beginFlush (c : OutputClient Q) : OutputClient Q :=
  { c with ring := c.ring.dropUnread, pending := Q.empty }

def setShared (c : OutputClient Q) (shared : RingState) : OutputClient Q :=
  { c with ring := { c.ring with shared } }

/-- `Flush` in one step. -/
def flushed (c : OutputClient Q) (tries : Nat) : OutputClient Q :=
  c.beginFlush.setShared ((flush defaultRingBufferSize (tries + 1)).run execTraced c.ring.shared).2

end OutputClient

/-- An output connection with what its clients flush. -/
structure FlushingConnection (Q : PendingQueue) where
  conn : OutputConnection Q
  flushing : Nat → Flushing
  epoch : Nat → Epoch

namespace FlushingConnection

variable {Q : PendingQueue}

/-- The step takes the mutex of the clients. -/
def Locks (s : OutputConnection Q) : OutputConnection.Action → Prop
  | .addClient | .wake _ | .arm => True
  | .collect => s.phase = .drained
  | _ => False

/-- No flush holds the mutex of the clients. -/
def Unlocked (s : FlushingConnection Q) : Prop := ∀ i rest, s.flushing i ≠ .clearing rest

inductive Action
  | conn (a : OutputConnection.Action)
  | call (i : Nat)
  | flush (i : Nat)

/-- One step of the connection, or of the `FlushOutputPort` of a client. -/
inductive Step : FlushingConnection Q → Action → FlushingConnection Q → Prop
  | conn {s a conn} (step : s.conn.Step a conn) (locks : Locks s.conn a → s.Unlocked)
      (sends : ∀ i, a = .client i .start → s.flushing i = .none) :
      Step s (.conn a) { s with conn }
  | call {s i c accepted} (found : s.conn.clients[i]? = some c) (idle : c.ring.left = .idle accepted)
      (away : s.flushing i = .none) :
      Step s (.call i) { s with flushing := Function.update s.flushing i .called }
  | enter {s i c} (tries : Nat) (called : s.flushing i = .called)
      (found : s.conn.clients[i]? = some c) (free : s.conn.phase.Free) (unlocked : s.Unlocked) :
      Step s (.flush i)
        { conn := s.conn.setClient i c.beginFlush
          flushing := Function.update s.flushing i
            (.clearing (SharedRing.flush defaultRingBufferSize (tries + 1)))
          epoch := Function.update s.epoch i
            ⟨c.ring.taken, sentBy i s.conn.sender.contents⟩ }
  | access {s i c cmd k} (clears : s.flushing i = .clearing (.op cmd k))
      (found : s.conn.clients[i]? = some c) :
      Step s (.flush i)
        { s with
          conn := s.conn.setClient i (c.setShared (execTraced cmd c.ring.shared).2)
          flushing := Function.update s.flushing i
            (.clearing (k (execTraced cmd c.ring.shared).1)) }
  | leave {s i} (clears : s.flushing i = .clearing (.ret ())) :
      Step s (.flush i) { s with flushing := Function.update s.flushing i .none }

/-- All runs of an output connection whose clients flush. -/
def machine (Q : PendingQueue) : Machine (FlushingConnection Q) Action where
  init s := s.conn.Started ∧ s.flushing = (fun _ => .none) ∧ s.epoch = fun _ => {}
  step := Step

/-- The connection when every flush under way has come to its end. -/
def settled (s : FlushingConnection Q) : OutputConnection Q :=
  { s.conn with
    clients := s.conn.clients.mapIdx fun i c => { c with ring := (s.flushing i).settle c.ring } }

end FlushingConnection

/-- An output connection where a flush is one step. -/
structure FlushedConnection (Q : PendingQueue) where
  conn : OutputConnection Q
  epoch : Nat → Epoch

namespace FlushedConnection

variable {Q : PendingQueue}

inductive Action
  | conn (a : OutputConnection.Action)
  | flush (i : Nat)

inductive Step : FlushedConnection Q → Action → FlushedConnection Q → Prop
  | conn {s a conn} (step : s.conn.Step a conn) : Step s (.conn a) { s with conn }
  | flush {s i c accepted l} (tries : Nat) (found : s.conn.clients[i]? = some c)
      (free : s.conn.phase.Free) (writes : c.ring.left = .idle accepted)
      (reads : c.ring.right = .idle l) :
      Step s (.flush i)
        { conn := s.conn.setClient i (c.flushed tries)
          epoch := Function.update s.epoch i
            ⟨c.ring.taken, sentBy i s.conn.sender.contents⟩ }

/-- All runs where nothing comes in between the accesses of a flush. -/
def machine (Q : PendingQueue) : Machine (FlushedConnection Q) Action where
  init s := s.conn.Started ∧ s.epoch = fun _ => {}
  step := Step

end FlushedConnection

end MidiFramework.Server
