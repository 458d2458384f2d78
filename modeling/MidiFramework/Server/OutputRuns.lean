import MidiFramework.Server.OutputConnection

/-!
# Uninterrupted turns of an output connection

A turn is a whole write of a client or a whole step of the worker with nothing in
between. Every sequence of turns is one of the runs of the connection. Within a
turn the queues of scheduled events do not change, and the only call of a client
is the one of the turn, so conditions on these need to be checked between the
turns only.
-/

namespace MidiFramework.Server

open Foundation PriorityQueue SharedRing

namespace OutputConnection

variable {Q : PendingQueue}

/-- A client, the worker or the clock has its turn. -/
inductive Turn
  | addClient
  | tick (now : Int)
  | write (i : Nat) (call : ProducerCall)
  | wake
  | drainRound
  | drained
  | collect
  | flush
  | arm

/-- The ring after a call of the client that nothing interrupts. -/
def written (ring : ClientRing) (accepted : List MidiEvent) (call : ProducerCall) : ClientRing :=
  let run := ((producer defaultRingBufferSize).program call).run execTraced ring.shared
  { ring with
    left := .idle ((producer defaultRingBufferSize).finish accepted call run.1)
    shared := run.2 }

/-- What a call of the client tells the worker. -/
def notified (ring : ClientRing) (call : ProducerCall) : Bool :=
  (((producer defaultRingBufferSize).program call).run execTraced ring.shared).1.notified

/-- The round of a drain that nothing interrupts. -/
def roundRun (ring : ClientRing) (call : DrainCall) : DrainRound × RingState :=
  (Server.drainRound defaultRingBufferSize call).run execTraced ring.shared

/-- The client at the place, if it is in no call. -/
def idleWriter (s : OutputConnection Q) (i : Nat) : Option (OutputClient Q × List MidiEvent) :=
  s.clients[i]?.bind fun c =>
    match c.ring.left with
    | .idle accepted => some (c, accepted)
    | .busy .. => none

/-- The client at the place, if the worker is in no round there. -/
def idleReader (s : OutputConnection Q) (i : Nat) : Option (OutputClient Q × DrainerLocal) :=
  s.clients[i]?.bind fun c =>
    match c.ring.right with
    | .idle l => some (c, l)
    | .busy .. => none

/-- The state after a turn, if the turn is possible. -/
def take (s : OutputConnection Q) : Turn → Option (OutputConnection Q)
  | .addClient =>
      if s.phase = .waiting then some { s with clients := s.clients ++ [.fresh Q] } else none
  | .tick now => if s.now ≤ now ∧ now < 2 ^ 63 then some { s with now } else none
  | .write i call =>
      (s.idleWriter i).map fun (c, accepted) =>
        { s.setClient i { c with ring := written c.ring accepted call } with
          eventFd := s.eventFd || notified c.ring call }
  | .wake => if s.phase = .waiting then some (s.wake false) else none
  | .drainRound =>
      match s.phase with
      | .draining i drained =>
          (s.idleReader i).map fun (c, l) =>
            let run := roundRun c.ring (drainCall c drained)
            s.finishRound i drained
              { c with ring := { c.ring with right := .idle (l.after run.1), shared := run.2 } } run.1
      | _ => none
  | .drained =>
      match s.phase with
      | .draining i _ => if s.clients.length ≤ i then some { s with phase := .drained } else none
      | _ => none
  | .collect =>
      match s.phase with
      | .drained => some { s with phase := .collecting s.now }
      | .collecting now => some (s.collect now)
      | _ => none
  | .flush => if s.phase = .flushing then some s.flush else none
  | .arm => if s.phase = .arming then some s.arm else none

/-- The state after the turns, if they are possible one after the other and the queues meet the
condition before each. -/
def takeAll (P : List Q.Queue → Prop) [DecidablePred P] (s : OutputConnection Q) :
    List Turn → Option (OutputConnection Q)
  | [] => some s
  | turn :: rest =>
      if P s.pendings then (s.take turn).bind fun t => t.takeAll P rest else none

/-- The states within a turn, the one before it included. -/
inductive Within (s : OutputConnection Q) : Turn → OutputConnection Q → Prop
  | before (turn) : Within s turn s
  | write {i call t c} (within : Within s (.write i call) t) (found : t.clients[i]? = some c)
      (accepted rest shared eventFd) : Within s (.write i call)
        { t.setClient i { c with ring := { c.ring with left := .busy accepted call rest, shared } } with
          eventFd }
  | drainRound {i t c} (within : Within s .drainRound t) (found : t.clients[i]? = some c)
      (l call rest shared) : Within s .drainRound
        (t.setClient i { c with ring := { c.ring with right := .busy l call rest, shared } })

/-- A step on a ring leaves the queues as they are. -/
theorem pendings_setRing {s : OutputConnection Q} {i : Nat} {c : OutputClient Q}
    (hfound : s.clients[i]? = some c) (ring : ClientRing) :
    (s.clients.set i { c with ring }).map OutputClient.pending = s.pendings := by
  have hsame : (s.clients.map OutputClient.pending)[i]? = some c.pending := by
    rw [List.getElem?_map, hfound, Option.map_some]
  obtain ⟨hlt, hget⟩ := List.getElem?_eq_some_iff.mp hsame
  rw [List.map_set, ← hget, List.set_getElem_self]
  rfl

theorem Within.pendings_eq {s t : OutputConnection Q} {turn : Turn} (h : Within s turn t) :
    t.pendings = s.pendings := by
  induction h with
  | before turn => rfl
  | write within found accepted rest shared eventFd ih => exact (pendings_setRing found _).trans ih
  | drainRound within found l call rest shared ih => exact (pendings_setRing found _).trans ih

/-- The calls within a turn are those before it and the one of the turn. -/
theorem Within.calls {s t : OutputConnection Q} {turn : Turn} (h : Within s turn t)
    (hall : ∀ c ∈ s.clients, ∀ accepted call rest, c.ring.left = .busy accepted call rest →
      call.notifies = true)
    (hturn : ∀ i call, turn = .write i call → call.notifies = true) :
    ∀ c ∈ t.clients, ∀ accepted call rest, c.ring.left = .busy accepted call rest →
      call.notifies = true := by
  induction h with
  | before turn => exact hall
  | @write i call t c within found accepted rest shared eventFd ih =>
      intro d hd accepted' call' rest' hbusy
      cases List.mem_or_eq_of_mem_set hd with
      | inl hold => exact ih hturn d hold accepted' call' rest' hbusy
      | inr hnew =>
          subst hnew
          cases hbusy
          exact hturn i call rfl
  | drainRound within found l call rest shared ih =>
      intro d hd accepted' call' rest' hbusy
      cases List.mem_or_eq_of_mem_set hd with
      | inl hold => exact ih hturn d hold accepted' call' rest' hbusy
      | inr hnew =>
          subst hnew
          exact ih hturn _ (List.mem_of_getElem? found) accepted' call' rest' hbusy

section Reach

variable {s s₀ t : OutputConnection Q} {i : Nat} {c : OutputClient Q} {P : List Q.Queue → Prop}
  {cond : OutputConnection Q → Action → Prop}

theorem getElem?_setClient (hfound : s.clients[i]? = some c) (d : OutputClient Q) :
    (s.setClient i d).clients[i]? = some d :=
  List.getElem?_set_self (List.getElem?_eq_some_iff.mp hfound).1

/-- The connection after an access of client `i` that left its call at `left`. -/
def afterAccess (s : OutputConnection Q) (i : Nat) (c : OutputClient Q)
    (left : Party.Control (producer defaultRingBufferSize)) (shared : RingState) (notified : Bool) :
    OutputConnection Q :=
  { s.setClient i { c with ring := { c.ring with left, shared } } with
    eventFd := s.eventFd || notified }

theorem afterAccess_afterAccess (s : OutputConnection Q) (i : Nat) (c : OutputClient Q)
    (left left' : Party.Control (producer defaultRingBufferSize)) (shared shared' : RingState)
    (notified : Bool) :
    (s.afterAccess i c left shared false).afterAccess i
        { c with ring := { c.ring with left, shared } } left' shared' notified =
      s.afterAccess i c left' shared' notified := by
  simp only [afterAccess, setClient, List.set_set, Bool.or_false]

theorem finishRound_setClient (s : OutputConnection Q) (i drained : Nat) (c d : OutputClient Q)
    (round : DrainRound) :
    (s.setClient i c).finishRound i drained d round = s.finishRound i drained d round := by
  cases round with
  | stopped reason => simp only [finishRound, endDrain, setClient, List.set_set]
  | took event =>
      simp only [finishRound, consumeRealtimeEvent, consumeNonRealtimeEvent]
      split
      · simp only [setClient, List.set_set]
      split <;> simp only [endDrain, setClient, List.set_set]

theorem idleWriter_eq_some {accepted : List MidiEvent}
    (h : s.idleWriter i = some (c, accepted)) :
    s.clients[i]? = some c ∧ c.ring.left = .idle accepted := by
  obtain ⟨d, hd, hleft⟩ := Option.bind_eq_some_iff.mp h
  split at hleft
  · next hidle =>
      cases hleft
      exact ⟨hd, hidle⟩
  · cases hleft

theorem idleReader_eq_some {l : DrainerLocal} (h : s.idleReader i = some (c, l)) :
    s.clients[i]? = some c ∧ c.ring.right = .idle l := by
  obtain ⟨d, hd, hright⟩ := Option.bind_eq_some_iff.mp h
  split at hright
  · next hidle =>
      cases hright
      exact ⟨hd, hidle⟩
  · cases hright

theorem startWrite_step {ring : ClientRing} {accepted : List MidiEvent} (call : ProducerCall)
    (hidle : ring.left = .idle accepted) :
    (clientRing defaultRingBufferSize).Step ring (.inl .start)
      { ring with
        left := .busy accepted call ((producer defaultRingBufferSize).program call) } := by
  obtain ⟨left, right, shared⟩ := ring
  obtain rfl : left = .idle accepted := hidle
  exact .left (.start trivial)

/-- The rest of a call of a client, run to its end. -/
theorem reachable_write {accepted : List MidiEvent} {call : ProducerCall}
    {p : RingProgram WriteResult} (reach : (machine Q).ReachableWith cond s)
    (hcond : ∀ t a, Within s₀ (.write i call) t → cond t a) (hwithin : Within s₀ (.write i call) s)
    (hfound : s.clients[i]? = some c) (hbusy : c.ring.left = .busy accepted call p) :
    (machine Q).ReachableWith cond (s.afterAccess i c
      (.idle ((producer defaultRingBufferSize).finish accepted call
        (p.run execTraced c.ring.shared).1))
      (p.run execTraced c.ring.shared).2 (p.run execTraced c.ring.shared).1.notified) := by
  induction p generalizing s c with
  | ret result =>
      obtain ⟨⟨left, right, shared⟩, pending, ended⟩ := c
      obtain rfl : left = .busy accepted call (.ret result) := hbusy
      exact reach.step (hcond _ _ hwithin) (.client hfound (.left .finish))
  | op cmd k ih =>
      obtain ⟨⟨left, right, shared⟩, pending, ended⟩ := c
      obtain rfl : left = .busy accepted call (.op cmd k) := hbusy
      have hafter := reach.step (hcond _ _ hwithin) (.client hfound (.left .command))
      have hrest := ih _ hafter (.write hwithin hfound _ _ _ _) (getElem?_setClient hfound _) rfl
      exact (afterAccess_afterAccess s i _ _ _ _ _ _) ▸ hrest

/-- The rest of a round of a drain, run to its end. -/
theorem reachable_round {l : DrainerLocal} {call : DrainCall} {p : RingProgram DrainRound}
    {drained : Nat} (reach : (machine Q).ReachableWith cond s)
    (hcond : ∀ t a, Within s₀ .drainRound t → cond t a) (hwithin : Within s₀ .drainRound s)
    (hphase : s.phase = .draining i drained)
    (hfound : s.clients[i]? = some c) (hbusy : c.ring.right = .busy l call p) :
    (machine Q).ReachableWith cond (s.finishRound i drained
      { c with ring := { c.ring with
          right := .idle (l.after (p.run execTraced c.ring.shared).1)
          shared := (p.run execTraced c.ring.shared).2 } }
      (p.run execTraced c.ring.shared).1) := by
  induction p generalizing s c with
  | ret round => exact reach.step (hcond _ _ hwithin) (.finishRound hphase hfound hbusy)
  | op cmd k ih =>
      obtain ⟨⟨left, right, shared⟩, pending, ended⟩ := c
      obtain rfl : right = .busy l call (.op cmd k) := hbusy
      have hafter := reach.step (hcond _ _ hwithin) (.ringAccess hphase hfound (.right .command))
      have hrest := ih _ hafter (.drainRound hwithin hfound _ _ _ _) hphase
        (getElem?_setClient hfound _) rfl
      exact (finishRound_setClient s i _ _ _ _) ▸ hrest

/-- The state after a turn is reached. -/
theorem reachable_take {turn : Turn} (reach : (machine Q).ReachableWith cond s)
    (hcond : ∀ t a, Within s turn t → cond t a) (htake : s.take turn = some t) :
    (machine Q).ReachableWith cond t := by
  have hnow : ∀ a, cond s a := fun a => hcond s a (.before turn)
  cases turn with
  | addClient =>
      obtain ⟨hphase, hsome⟩ := Option.ite_none_right_eq_some.mp htake
      cases hsome
      exact reach.step (hnow _) (.addClient (hphase ▸ trivial))
  | tick now =>
      obtain ⟨⟨hlater, hrange⟩, hsome⟩ := Option.ite_none_right_eq_some.mp htake
      cases hsome
      exact reach.step (hnow _) (.tick now hlater hrange)
  | write i call =>
      obtain ⟨⟨c, accepted⟩, hwriter, rfl⟩ := Option.map_eq_some_iff.mp htake
      obtain ⟨hfound, hidle⟩ := idleWriter_eq_some hwriter
      have hstart := reach.step (hnow _) (.client hfound (startWrite_step call hidle))
      have hrun := reachable_write hstart hcond (.write (.before _) hfound _ _ _ _)
        (getElem?_setClient hfound _) rfl
      have hsame := afterAccess_afterAccess s i c
        (.busy accepted call ((producer defaultRingBufferSize).program call))
        (written c.ring accepted call).left c.ring.shared (written c.ring accepted call).shared
        (notified c.ring call)
      exact (congrArg ((machine Q).ReachableWith _) hsame).mp hrun
  | wake =>
      obtain ⟨hphase, hsome⟩ := Option.ite_none_right_eq_some.mp htake
      cases hsome
      exact reach.step (hnow _) (.wake false hphase)
  | drainRound =>
      simp only [take] at htake
      split at htake
      · next i drained hphase =>
          obtain ⟨⟨c, l⟩, hreader, rfl⟩ := Option.map_eq_some_iff.mp htake
          obtain ⟨hfound, hidle⟩ := idleReader_eq_some hreader
          have hstart := reach.step (hnow _) (.startRound hphase hfound hidle)
          have hrun := reachable_round hstart hcond (.drainRound (.before _) hfound _ _ _ _) hphase
            (getElem?_setClient hfound _) rfl
          exact (finishRound_setClient s i drained _ _ _) ▸ hrun
      · cases htake
  | drained =>
      simp only [take] at htake
      split at htake
      · next i drained hphase =>
          obtain ⟨hlast, hsome⟩ := Option.ite_none_right_eq_some.mp htake
          cases hsome
          exact reach.step (hnow _) (.drained hphase hlast)
      · cases htake
  | collect =>
      simp only [take] at htake
      split at htake
      · next hphase =>
          cases htake
          exact reach.step (hnow _) (.startCollect hphase)
      · next now hphase =>
          cases htake
          exact reach.step (hnow _) (.collect hphase)
      · cases htake
  | flush =>
      obtain ⟨hphase, hsome⟩ := Option.ite_none_right_eq_some.mp htake
      cases hsome
      exact reach.step (hnow _) (.flush hphase)
  | arm =>
      obtain ⟨hphase, hsome⟩ := Option.ite_none_right_eq_some.mp htake
      cases hsome
      exact reach.step (hnow _) (.arm hphase)

theorem reachable_takeAll [DecidablePred P] {turns : List Turn}
    (reach : (machine Q).ReachableWith (fun s _ => P s.pendings) s)
    (htake : s.takeAll P turns = some t) :
    (machine Q).ReachableWith (fun s _ => P s.pendings) t := by
  induction turns generalizing s with
  | nil => exact Option.some.inj htake ▸ reach
  | cons turn rest ih =>
      obtain ⟨hP, hnext⟩ := Option.ite_none_right_eq_some.mp htake
      obtain ⟨u, hu, hrest⟩ := Option.bind_eq_some_iff.mp hnext
      exact ih (reachable_take reach (fun t _ hwithin => hwithin.pendings_eq ▸ hP) hu) hrest

end Reach

section Wakeup

/-- A connection whose worker starts at the time. -/
def startedAt (Q : PendingQueue) (now : Int) : OutputConnection Q :=
  ⟨[], .empty maxSendCacheBytes, .arming, false, ⟨0, 0⟩, now⟩

/-- One client writes the events, and the worker wakes up once, at a time when `due` of them wait
and are due. -/
def wakeupTurns (events : List MidiEvent) (due : Nat) : List Turn :=
  [.arm, .addClient] ++ events.map (fun event => .write 0 (.tryWriteEvent (.ofWords event.timestamp event.words) true)) ++
    [.wake] ++ List.replicate (events.length + 1) .drainRound ++ [.drained] ++
    List.replicate (due + 2) .collect ++ [.flush, .arm]

/-- The state after that wakeup. -/
def afterWakeup (P : List Q.Queue → Prop) [DecidablePred P] (now : Int) (events : List MidiEvent)
    (due : Nat) : OutputConnection Q :=
  ((startedAt Q now).takeAll P (wakeupTurns events due)).getD (startedAt Q now)

theorem reachable_afterWakeup (P : List Q.Queue → Prop) [DecidablePred P] (now : Int)
    (hnow : 0 ≤ now ∧ now < 2 ^ 63) (events : List MidiEvent) (due : Nat) :
    (machine Q).ReachableWith (fun s _ => P s.pendings) (afterWakeup P now events due) := by
  have hstarted : (machine Q).ReachableWith (fun s _ => P s.pendings) (startedAt Q now) :=
    .init ⟨rfl, rfl, rfl, rfl, hnow.1, hnow.2⟩
  rw [afterWakeup]
  cases htake : (startedAt Q now).takeAll P (wakeupTurns events due) with
  | none => exact hstarted
  | some t => exact reachable_takeAll hstarted htake

end Wakeup

end OutputConnection

end MidiFramework.Server
