import MidiFramework.Foundation.BinaryHeap
import MidiFramework.Server.SendCache

/-!
# Scheduled events of an output connection

Each client has a priority queue of the events whose time has not come. A wakeup
takes the due events out of all queues, the earliest first, hands them on, and
sets the timer for the earliest event that is left.

## Implementation notes

The clock is the sequence of its readings. `steady_clock` does not go back, and
its nanoseconds since the start of the machine are not negative. The due time of
an event is the timestamp read as a signed number of nanoseconds.
-/

namespace MidiFramework.Server

open Foundation PriorityQueue SharedRing

/-- `std::chrono::nanoseconds` of a timestamp. -/
def dueTime (timestamp : UInt64) : Int := timestamp.toInt64.toInt

/-- `ClientConnectionInServer::PendingEvent` as `ConsumeNonRealtimeEvent` makes it. -/
structure PendingEvent where
  due : Int
  data : List UInt32
  timestamp : UInt64
  timed : due = dueTime timestamp
  deriving DecidableEq

/-- An event as it is read from the ring, in its queue. -/
def PendingEvent.ofEvent (event : MidiEvent) : PendingEvent :=
  ⟨dueTime event.timestamp, event.words, event.timestamp, rfl⟩

instance : Inhabited PendingEvent := ⟨.ofEvent ⟨0, []⟩⟩

def PendingEvent.event (e : PendingEvent) : MidiEvent := ⟨e.timestamp, e.data⟩

theorem PendingEvent.due_range (e : PendingEvent) : -2 ^ 63 ≤ e.due ∧ e.due < 2 ^ 63 :=
  e.timed ▸ ⟨e.timestamp.toInt64.le_toInt, e.timestamp.toInt64.toInt_lt⟩

/-- The queue type of `pending_`. -/
abbrev PendingQueue : Type 1 := PriorityQueue PendingEvent PendingEvent.due

/-- The readings of `steady_clock`, in nanoseconds. -/
structure SteadyClock where
  now : Nat → Int
  nonneg : ∀ n, 0 ≤ now n
  lt : ∀ n, now n < 2 ^ 63
  mono : ∀ m n, m ≤ n → now m ≤ now n

/-- The result of an `int64_t` computation whose exact value is `x`. -/
def toInt64 (x : Int) : Int := x.bmod (2 ^ 64)

theorem toInt64_eq {x : Int} (hlo : -2 ^ 63 ≤ x) (hhi : x < 2 ^ 63) : toInt64 x = x := by
  unfold toInt64
  exact Int.bmod_eq_of_le (by omega) (by omega)

variable {Q : PendingQueue} {maxBytes : Nat}

section EarliestDue

/-- One round of the loop of `FindClientWithEarliestDue`: the best client so far and its due time,
after the client at place `i`. -/
def considerClient (Q : PendingQueue) (best : Option (Nat × Int)) (i : Nat) (client : Q.Queue) :
    Option (Nat × Int) :=
  match Q.top client with
  | none => best
  | some top => if best.all fun b => top.due < b.2 then some (i, top.due) else best

def scanClients (Q : PendingQueue) (best : Option (Nat × Int)) (i : Nat) :
    List Q.Queue → Option (Nat × Int)
  | [] => best
  | client :: rest => scanClients Q (considerClient Q best i client) (i + 1) rest

/-- The place of the client with the earliest top, and the due time of that. -/
def findClientWithEarliestDue (Q : PendingQueue) (clients : List Q.Queue) : Option (Nat × Int) :=
  scanClients Q none 0 clients

variable {best : Option (Nat × Int)} {i : Nat} {client : Q.Queue} {clients : List Q.Queue}

theorem consider_eq_none (h : considerClient Q best i client = none) :
    best = none ∧ Q.elements client = 0 := by
  unfold considerClient at h
  split at h
  · next htop => exact ⟨h, Q.elements_of_top_none client htop⟩
  split at h
  · cases h
  · next hworse =>
      subst h
      exact absurd rfl hworse

/-- The best client after a round is the one before or the client looked at, and no element of
either has an earlier due time. -/
theorem consider_eq_some {j : Nat} {d : Int} (h : considerClient Q best i client = some (j, d)) :
    (best = some (j, d) ∨ j = i ∧ ∃ e, Q.top client = some e ∧ e.due = d) ∧
      (∀ b ∈ best, d ≤ b.2) ∧ ∀ e ∈ Q.elements client, d ≤ e.due := by
  unfold considerClient at h
  split at h
  · next htop =>
      refine ⟨.inl h, fun b hb => ?_, fun e he => ?_⟩
      · obtain rfl : (j, d) = b := Option.some.inj (h.symm.trans hb)
        exact le_rfl
      · rw [Q.elements_of_top_none client htop] at he
        exact absurd he (Multiset.notMem_zero e)
  next top htop =>
    have hleast := Q.key_top_le client top htop
    split at h
    · next hbetter =>
        obtain ⟨rfl, rfl⟩ := Prod.mk.inj (Option.some.inj h)
        refine ⟨.inr ⟨rfl, top, htop, rfl⟩, fun b hb => ?_, hleast⟩
        rw [Option.mem_def.mp hb] at hbetter
        exact (of_decide_eq_true hbetter).le
    · next hworse =>
        subst h
        refine ⟨.inl rfl, fun b hb => ?_, fun e he => ?_⟩
        · obtain rfl : (j, d) = b := Option.some.inj hb
          exact le_rfl
        · have hle : d ≤ top.due := not_lt.mp fun hlt => hworse (decide_eq_true hlt)
          exact hle.trans (hleast e he)

theorem scan_eq_none (h : scanClients Q best i clients = none) :
    best = none ∧ ∀ q ∈ clients, Q.elements q = 0 := by
  induction clients generalizing best i with
  | nil => exact ⟨h, by simp⟩
  | cons client rest ih =>
      obtain ⟨hbest, hrest⟩ := ih h
      obtain ⟨hnone, hclient⟩ := consider_eq_none hbest
      exact ⟨hnone, List.forall_mem_cons.mpr ⟨hclient, hrest⟩⟩

theorem scan_eq_some {j : Nat} {d : Int} (h : scanClients Q best i clients = some (j, d)) :
    (best = some (j, d) ∨
        ∃ k q e, clients[k]? = some q ∧ j = i + k ∧ Q.top q = some e ∧ e.due = d) ∧
      (∀ b ∈ best, d ≤ b.2) ∧ ∀ q ∈ clients, ∀ e ∈ Q.elements q, d ≤ e.due := by
  induction clients generalizing best i with
  | nil =>
      refine ⟨.inl h, fun b hb => ?_, by simp⟩
      obtain rfl : (j, d) = b := Option.some.inj (h.symm.trans hb)
      exact le_rfl
  | cons client rest ih =>
      obtain ⟨hfrom, hbest, hrest⟩ := ih h
      cases hconsider : considerClient Q best i client with
      | none =>
          obtain ⟨rfl, hempty⟩ := consider_eq_none hconsider
          rw [hconsider] at hfrom
          obtain hfalse | ⟨k, q, e, hk, rfl, htop, hdue⟩ := hfrom
          · cases hfalse
          refine ⟨.inr ⟨k + 1, q, e, hk, by omega, htop, hdue⟩, by simp, ?_⟩
          refine List.forall_mem_cons.mpr ⟨fun e he => ?_, hrest⟩
          rw [hempty] at he
          exact absurd he (Multiset.notMem_zero e)
      | some b =>
          have hd : d ≤ b.2 := hbest b hconsider
          obtain ⟨hfrom', hbest', hclient⟩ := consider_eq_some hconsider
          refine ⟨?_, fun c hc => hd.trans (hbest' c hc),
            List.forall_mem_cons.mpr ⟨fun e he => hd.trans (hclient e he), hrest⟩⟩
          obtain heq | ⟨k, q, e, hk, rfl, htop, hdue⟩ := hfrom
          · obtain rfl : b = (j, d) := Option.some.inj (hconsider.symm.trans heq)
            obtain hold | ⟨rfl, e, htop, hdue⟩ := hfrom'
            · exact .inl hold
            · exact .inr ⟨0, client, e, rfl, rfl, htop, hdue⟩
          · exact .inr ⟨k + 1, q, e, hk, by omega, htop, hdue⟩

theorem findClient_eq_none (h : findClientWithEarliestDue Q clients = none) :
    ∀ q ∈ clients, Q.elements q = 0 := (scan_eq_none h).2

/-- The client found shows an event with the due time returned, and no pending event is due before
it. -/
theorem findClient_eq_some {j : Nat} {d : Int}
    (h : findClientWithEarliestDue Q clients = some (j, d)) :
    (∃ q e, clients[j]? = some q ∧ Q.top q = some e ∧ e.due = d) ∧
      ∀ q ∈ clients, ∀ e ∈ Q.elements q, d ≤ e.due := by
  obtain ⟨hfrom, -, hleast⟩ := scan_eq_some h
  obtain hfalse | ⟨k, q, e, hk, rfl, htop, hdue⟩ := hfrom
  · cases hfalse
  · exact ⟨⟨q, e, (Nat.zero_add k).symm ▸ hk, htop, hdue⟩, hleast⟩

end EarliestDue

section Collect

/-- `PopPendingTop`. -/
def popPendingTop (Q : PendingQueue) (client : Q.Queue) : Option (PendingEvent × Q.Queue) :=
  (Q.top client).map fun dueEvent => (dueEvent, Q.pop client)

/-- The queues of the clients, the send cache, and `now` of
`CollectDueEventsFromClientHeaps`. -/
structure Collecting (Q : PendingQueue) (maxBytes : Nat) where
  clients : List Q.Queue
  sender : OutputSender maxBytes
  now : Int

/-- An event that is handed on, with the place of its client. -/
def PendingEvent.ofClient (e : PendingEvent) (client : Nat) : OutputEvent := ⟨client, e.event⟩

/-- One round of the loop of `CollectDueEventsFromClientHeaps`, where the clock shows `reading`;
`none` where the loop ends. The second component is whether the clock was read. -/
def collectRound (reading : Int) (s : Collecting Q maxBytes) : Option (Collecting Q maxBytes × Bool) :=
  match findClientWithEarliestDue Q s.clients with
  | none => none
  | some (earliestClient, earliestDueTime) =>
      if earliestDueTime > s.now then none
      else
        match s.clients[earliestClient]?.bind (popPendingTop Q) with
        | none => none
        | some (dueEvent, client) =>
            let forwarded := s.sender.forward (dueEvent.ofClient earliestClient)
            some (⟨s.clients.set earliestClient client, forwarded.1,
              if forwarded.2 then reading else s.now⟩, forwarded.2)

/-- The loop with as many rounds as there are events, and the number of clock readings after it. -/
def collectLoop (clock : SteadyClock) : (fuel readings : Nat) → Collecting Q maxBytes →
    Collecting Q maxBytes × Nat
  | 0, readings, s => (s, readings)
  | fuel + 1, readings, s =>
      match collectRound (clock.now readings) s with
      | none => (s, readings)
      | some (s', read) => collectLoop clock fuel (if read then readings + 1 else readings) s'

def collectDueEventsFromClientHeaps (clock : SteadyClock) (readings : Nat)
    (clients : List Q.Queue) (sender : OutputSender maxBytes) : Collecting Q maxBytes × Nat :=
  collectLoop clock (Q.total clients) (readings + 1) ⟨clients, sender, clock.now readings⟩

/-- What a round takes: the top of a client's queue that is due and that no pending event is due
before. -/
structure Took (s s' : Collecting Q maxBytes) (i : Nat) (q : Q.Queue) (e : PendingEvent) : Prop where
  found : s.clients[i]? = some q
  top : Q.top q = some e
  least : ∀ p ∈ s.clients, ∀ b ∈ Q.elements p, e.due ≤ b.due
  due : e.due ≤ s.now
  clients : s'.clients = s.clients.set i (Q.pop q)
  sender : s'.sender = (s.sender.forward (e.ofClient i)).1

variable {reading : Int} {s s' : Collecting Q maxBytes} {read : Bool}

theorem collectRound_eq_none (h : collectRound reading s = none) :
    ∀ q ∈ s.clients, ∀ e ∈ Q.elements q, s.now < e.due := by
  unfold collectRound at h
  split at h
  · next hnone =>
      intro q hq e he
      rw [findClient_eq_none hnone q hq] at he
      exact absurd he (Multiset.notMem_zero e)
  next j d hsome =>
    obtain ⟨⟨q, e, hfound, htop, hdue⟩, hleast⟩ := findClient_eq_some hsome
    split at h
    · next hlater => exact fun q hq e he => lt_of_lt_of_le hlater (hleast q hq e he)
    · rw [hfound, Option.bind_some, popPendingTop, htop] at h
      cases h

theorem collectRound_eq_some (h : collectRound reading s = some (s', read)) :
    (∃ i q e, Took s s' i q e) ∧ s'.now = if read then reading else s.now := by
  unfold collectRound at h
  split at h
  · cases h
  next j d hsome =>
    obtain ⟨⟨q, e, hfound, htop, rfl⟩, hleast⟩ := findClient_eq_some hsome
    split at h
    · cases h
    next hdue =>
      rw [hfound, Option.bind_some, popPendingTop, htop] at h
      obtain ⟨rfl, rfl⟩ := Prod.mk.inj (Option.some.inj h)
      exact ⟨⟨j, q, e, hfound, htop, hleast, not_lt.mp hdue, rfl, rfl⟩, rfl⟩

/-- What the loop leaves behind when it took the listed events. -/
structure Collected (s s' : Collecting Q maxBytes) (taken : List (Nat × PendingEvent)) : Prop where
  drains : Q.Drains s.clients taken s'.clients
  notEarly : ∀ x ∈ taken, x.2.due ≤ s'.now
  notLeft : ∀ q ∈ s'.clients, ∀ e ∈ Q.elements q, s.now < e.due
  contents : s'.sender.contents = s.sender.contents ++
    (taken.map fun x => x.2.ofClient x.1).filter (OutputSender.Sendable maxBytes)

/-- The readings during the loop are those of the clock from the first on. -/
theorem collectLoop_spec (clock : SteadyClock) (fuel readings : Nat) (s : Collecting Q maxBytes)
    (hnow : s.now = clock.now (readings - 1)) (hpos : 0 < readings)
    (hfuel : Q.total s.clients ≤ fuel) :
    ∃ taken, Collected s (collectLoop clock fuel readings s).1 taken ∧
      readings ≤ (collectLoop clock fuel readings s).2 ∧
      (collectLoop clock fuel readings s).1.now =
        clock.now ((collectLoop clock fuel readings s).2 - 1) := by
  induction fuel generalizing readings s with
  | zero =>
      refine ⟨[], ⟨.nil _, by simp, ?_, (List.append_nil _).symm⟩, le_rfl, hnow⟩
      intro q hq e he
      rw [elements_eq_zero_of_total (Nat.le_zero.mp hfuel) q hq] at he
      exact absurd he (Multiset.notMem_zero e)
  | succ fuel ih =>
      unfold collectLoop
      split
      · next hnone =>
          exact ⟨[], ⟨.nil _, by simp, collectRound_eq_none hnone, (List.append_nil _).symm⟩,
            le_rfl, hnow⟩
      next s' read hsome =>
        obtain ⟨⟨i, q, e, took⟩, hnow'⟩ := collectRound_eq_some hsome
        have htotal := total_set took.found took.top
        rw [← took.clients] at htotal
        have hreadings : readings ≤ if read then readings + 1 else readings := by
          split <;> omega
        have hnext : s'.now = clock.now ((if read then readings + 1 else readings) - 1) := by
          rw [hnow']
          split
          · rfl
          · exact hnow
        obtain ⟨taken, hcollected, hle, hlast⟩ := ih _ s' hnext (by omega) (by omega)
        have hlater : s.now ≤
            (collectLoop clock fuel (if read then readings + 1 else readings) s').1.now := by
          rw [hnow, hlast]
          exact clock.mono _ _ (by omega)
        have hlater' : s.now ≤ s'.now := by
          rw [hnow, hnext]
          exact clock.mono _ _ (by omega)
        refine ⟨(i, e) :: taken, ⟨?_, ?_, ?_, ?_⟩, hreadings.trans hle, hlast⟩
        · exact .cons took.found took.top took.least (took.clients ▸ hcollected.drains)
        · exact List.forall_mem_cons.mpr ⟨took.due.trans hlater, hcollected.notEarly⟩
        · exact fun q hq e he => lt_of_le_of_lt hlater' (hcollected.notLeft q hq e he)
        · rw [hcollected.contents, took.sender, OutputSender.contents_forward, List.append_assoc,
            List.map_cons, List.filter_cons, OutputSender.added]
          simp only [decide_eq_true_eq]
          split <;> rfl

end Collect

section Timer

/-- `it_value` of an `itimerspec`. -/
structure TimerValue where
  sec : Int
  nsec : Int
  deriving DecidableEq

/-- `MIDI_NS_PER_SECOND`. -/
def nsPerSecond : Int := 1000000000

/-- The nanoseconds until the timer expires; zero disarms it. -/
def TimerValue.ns (v : TimerValue) : Int := v.sec * nsPerSecond + v.nsec

/-- `timerfd_settime` takes the value. -/
def TimerValue.Valid (v : TimerValue) : Prop := 0 ≤ v.sec ∧ 0 ≤ v.nsec ∧ v.nsec < nsPerSecond

/-- `UpdateNextTimer` where the clock shows `now`: the value the timer is set to, and whether the
worker is woken through the eventfd. -/
def updateNextTimer (Q : PendingQueue) (now : Int) (clients : List Q.Queue) : TimerValue × Bool :=
  match findClientWithEarliestDue Q clients with
  | none => (⟨0, 0⟩, false)
  | some (_, earliestDueTime) =>
      if earliestDueTime < now then (⟨0, 1⟩, true)
      else
        let deltaNs := toInt64 (earliestDueTime - now)
        let deltaNs := if deltaNs ≤ 0 then 1 else deltaNs
        (⟨deltaNs.tdiv nsPerSecond, deltaNs.tmod nsPerSecond⟩, false)

/-- A pending event is due at `due`, and none before. -/
def EarliestDue (Q : PendingQueue) (clients : List Q.Queue) (due : Int) : Prop :=
  (∃ q ∈ clients, ∃ e ∈ Q.elements q, e.due = due) ∧
    ∀ q ∈ clients, ∀ e ∈ Q.elements q, due ≤ e.due

/-- The timer for an event that is due at `due`: after the exact distance, or at once. -/
structure TimerFor (now due : Int) (set : TimerValue × Bool) : Prop where
  valid : set.1.Valid
  future : now < due → set.1.ns = due - now
  notFuture : due ≤ now → set.1.ns = 1
  woken : set.2 = true ↔ due < now

variable {clients : List Q.Queue} {now : Int}

theorem timerValue_ns (delta : Int) (h : 0 ≤ delta) :
    (TimerValue.mk (delta.tdiv nsPerSecond) (delta.tmod nsPerSecond)).Valid ∧
      (TimerValue.mk (delta.tdiv nsPerSecond) (delta.tmod nsPerSecond)).ns = delta := by
  have hdiv := Int.tdiv_eq_ediv_of_nonneg h (b := nsPerSecond)
  have hmod := Int.tmod_eq_emod_of_nonneg h (b := nsPerSecond)
  simp only [TimerValue.Valid, TimerValue.ns, nsPerSecond] at *
  omega

/-- If an event is pending, the timer is set for the earliest. -/
theorem updateNextTimer_spec (hnow : 0 ≤ now) (hpending : ∃ q ∈ clients, Q.elements q ≠ 0) :
    ∃ due, EarliestDue Q clients due ∧ TimerFor now due (updateNextTimer Q now clients) := by
  unfold updateNextTimer
  split
  · next hnone =>
      obtain ⟨q, hq, hne⟩ := hpending
      exact absurd (findClient_eq_none hnone q hq) hne
  next j due hsome =>
    obtain ⟨⟨q, e, hfound, htop, rfl⟩, hleast⟩ := findClient_eq_some hsome
    have hrange := e.due_range
    refine ⟨e.due, ⟨⟨q, List.mem_of_getElem? hfound, e, mem_elements_of_top htop, rfl⟩, hleast⟩, ?_⟩
    split
    · next hpast =>
        refine ⟨⟨by decide, by decide, by decide⟩, ?_, fun _ => rfl, iff_of_true rfl hpast⟩
        omega
    next hnotPast =>
      dsimp only
      rw [toInt64_eq (by omega) (by omega)]
      obtain ⟨hvalid, hns⟩ := timerValue_ns
        (if e.due - now ≤ 0 then 1 else e.due - now) (by split <;> omega)
      refine ⟨hvalid, fun hfuture => ?_, fun hdue => ?_, iff_of_false Bool.false_ne_true hnotPast⟩
      · rw [hns, if_neg (by omega)]
      · rw [hns, if_pos (by omega)]

theorem updateNextTimer_empty (hempty : ∀ q ∈ clients, Q.elements q = 0) :
    updateNextTimer Q now clients = (⟨0, 0⟩, false) := by
  unfold updateNextTimer
  split
  · rfl
  next j due hsome =>
    obtain ⟨⟨q, e, hfound, htop, -⟩, -⟩ := findClient_eq_some hsome
    have hmem := mem_elements_of_top htop
    rw [hempty q (List.mem_of_getElem? hfound)] at hmem
    exact absurd hmem (Multiset.notMem_zero e)

end Timer

section Delivery

/-- What `CollectDueEventsFromClientHeaps`, `FlushSendCacheToDriver` and `UpdateNextTimer` leave
behind, with the last reading of the clock in the first and that in the last. -/
structure DueHandled (Q : PendingQueue) (maxBytes : Nat) where
  clients : List Q.Queue
  sender : OutputSender maxBytes
  collectedAt : Int
  timerAt : Int
  timer : TimerValue × Bool

/-- The last three steps of `HandleWakeupOnce`. -/
def handleDueEvents (clock : SteadyClock) (readings : Nat) (clients : List Q.Queue)
    (sender : OutputSender maxBytes) : DueHandled Q maxBytes :=
  let collected := collectDueEventsFromClientHeaps clock readings clients sender
  { clients := collected.1.clients
    sender := collected.1.sender.flushSendCacheToDriver
    collectedAt := clock.now (collected.2 - 1)
    timerAt := clock.now collected.2
    timer := updateNextTimer Q (clock.now collected.2) collected.1.clients }

/-- The listed events were taken: in the order of their due times, none before its time, and all
whose time had come at the first reading of the clock. The others stay, and the driver gets those
taken that have a payload which the cache can hold, after what was there before. -/
structure DeliversDue (Q : PendingQueue) (first : Int) (before : List Q.Queue)
    (sender : OutputSender maxBytes) (result : DueHandled Q maxBytes)
    (taken : List (Nat × PendingEvent)) : Prop where
  inOrder : taken.Pairwise fun x y => x.2.due ≤ y.2.due
  notEarly : ∀ x ∈ taken, x.2.due ≤ result.collectedAt
  notLeft : ∀ q ∈ result.clients, ∀ e ∈ Q.elements q, first < e.due
  length : result.clients.length = before.length
  unchanged : ∀ i, Q.held before i = takenFrom taken i + Q.held result.clients i
  cached : result.sender.cached = []
  handed : result.sender.handed.flatten = sender.contents ++
    (taken.map fun x => x.2.ofClient x.1).filter (OutputSender.Sendable maxBytes)

theorem handleDueEvents_delivers (clock : SteadyClock) (readings : Nat) (before : List Q.Queue)
    (sender : OutputSender maxBytes) :
    ∃ taken, DeliversDue Q (clock.now readings) before sender
      (handleDueEvents clock readings before sender) taken := by
  obtain ⟨taken, hcollected, -, hlast⟩ := collectLoop_spec clock (Q.total before) (readings + 1)
    ⟨before, sender, clock.now readings⟩ rfl (Nat.succ_pos _) le_rfl
  have hcontents := (collectDueEventsFromClientHeaps clock readings before sender).1.sender
    |>.contents_flush
  have hcached := (collectDueEventsFromClientHeaps clock readings before sender).1.sender
    |>.cached_flush
  refine ⟨taken, hcollected.drains.sorted, fun x hx => ?_, hcollected.notLeft,
    hcollected.drains.length_eq, hcollected.drains.held_eq, hcached, ?_⟩
  · exact (hcollected.notEarly x hx).trans_eq hlast
  · rw [OutputSender.contents, hcached, List.append_nil] at hcontents
    exact hcontents.trans hcollected.contents

/-- The due events of all clients come in order, never early and never left behind, and afterwards
the timer is armed for the earliest event that is left. -/
theorem scheduled_delivery (Q : PendingQueue) (maxBytes : Nat) (clock : SteadyClock)
    (readings : Nat) (before : List Q.Queue) (sender : OutputSender maxBytes) :
    (∃ taken, DeliversDue Q (clock.now readings) before sender
      (handleDueEvents clock readings before sender) taken) ∧
    ((∃ q ∈ (handleDueEvents clock readings before sender).clients, Q.elements q ≠ 0) →
      ∃ due, EarliestDue Q (handleDueEvents clock readings before sender).clients due ∧
        TimerFor (handleDueEvents clock readings before sender).timerAt due
          (handleDueEvents clock readings before sender).timer) :=
  ⟨handleDueEvents_delivers clock readings before sender,
    fun hpending => updateNextTimer_spec (clock.nonneg _) hpending⟩

/-- Every event that was taken went to the driver. -/
def HandsOnAll (Q : PendingQueue) (before : List Q.Queue) (sender : OutputSender maxBytes)
    (result : DueHandled Q maxBytes) : Prop :=
  ∃ taken : List (Nat × PendingEvent),
    (∀ i, Q.held before i = takenFrom taken i + Q.held result.clients i) ∧
      result.sender.handed.flatten = sender.contents ++ taken.map fun x => x.2.ofClient x.1

theorem not_handsOnAll {before : List Q.Queue} {sender : OutputSender maxBytes}
    {result : DueHandled Q maxBytes} (hhanded : result.sender.handed = [])
    (htaken : (Q.held before 0).card ≠ (Q.held result.clients 0).card) :
    ¬ HandsOnAll Q before sender result := by
  rintro ⟨taken, hheld, hcontents⟩
  rw [hhanded] at hcontents
  obtain rfl := List.map_eq_nil_iff.mp (List.append_eq_nil_iff.mp hcontents.symm).2
  have hsame : Q.held before 0 = Q.held result.clients 0 :=
    (hheld 0).trans (Multiset.zero_add _)
  exact htaken (congrArg Multiset.card hsame)

/-- A clock that stands still. -/
def stoppedClock : SteadyClock := ⟨fun _ => 5, fun _ => by decide, fun _ => by decide, fun _ _ _ => Int.le_refl 5⟩

abbrev binaryPendingQueue : PendingQueue := binaryHeap PendingEvent PendingEvent.due

/-- One client with one event that is due. -/
def singleDue (words : List UInt32) : List binaryPendingQueue.Queue :=
  [binaryPendingQueue.push binaryPendingQueue.empty (.ofEvent ⟨1, words⟩)]

/-- An event without a payload is taken and does not reach the driver, and neither does one that the
cache cannot hold. -/
theorem taken_not_handed :
    ¬ HandsOnAll binaryPendingQueue (singleDue []) (.empty (64 * 1024))
      (handleDueEvents stoppedClock 0 (singleDue []) (.empty (64 * 1024))) ∧
    ¬ HandsOnAll binaryPendingQueue (singleDue [1, 2]) (.empty 4)
      (handleDueEvents stoppedClock 0 (singleDue [1, 2]) (.empty 4)) :=
  ⟨not_handsOnAll (by decide +kernel) (by decide +kernel),
    not_handsOnAll (by decide +kernel) (by decide +kernel)⟩

end Delivery

end MidiFramework.Server
