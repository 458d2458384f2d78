import MidiFramework.Server.InputConnection

/-!
# Every client gets what was broadcast while it was there

For each client the events that `TrySendToClient` was called with are exactly those
broadcast between its coming and its going, in order and once each. Whether one of
them is written depends on the ring of this client alone, and one that has room is
written. What the client's callback gets is what was written, in order.
-/

namespace MidiFramework.Server

open Foundation Program Discipline SharedRing Client Common

/-! ### A single write -/

theorem writeLoop_counts (cap : Nat) (events : List MidiEventInner) (r w n : Nat) :
    (writeLoop cap events r w n).Always (fun _ => True) fun m => m ≤ n + events.length := by
  induction events generalizing r w n with
  | nil => exact Nat.le_refl n
  | cons event rest ih =>
      unfold writeLoop
      split
      · exact Nat.le_add_right n _
      split
      · exact Nat.le_add_right n _
      refine Always.bind (Always.trivial _) fun ret _ => ?_
      split
      · exact Nat.le_add_right n _
      refine Always.bind (Always.trivial _) fun v _ => ?_
      split
      · change n + 1 ≤ n + (rest.length + 1)
        omega
      · refine (ih _ _ (n + 1)).mono fun m hm => ?_
        rw [List.length_cons]
        omega

/-- The status of a single write says whether the event was written. -/
theorem tryWriteEvent_counts (cap : Nat) (event : MidiEventInner) (notify : Bool) :
    (tryWriteEvent cap event notify).Always (fun _ => True)
      fun r => r.eventsWritten = if r.status = .ok then 1 else 0 := by
  unfold tryWriteEvent tryWriteEvents
  dsimp only
  split
  · next hstatus => exact (if_neg hstatus).symm
  refine Always.bind (Always.trivial _) fun r _ => Always.bind (Always.trivial _) fun w _ => ?_
  split
  · rfl
  refine Always.bind (writeLoop_counts cap _ _ _ 0) fun n hn => ?_
  split
  · rfl
  · next hne =>
      have hone : n = 1 := by
        have hle : n ≤ 0 + 1 := hn
        omega
      subst hone
      rfl

/-! ### Each client for itself -/

theorem getElem?_setConnection {connections : List InputClient} {i j : Nat} {c c' d : InputClient}
    (hfound : connections[i]? = some c) (hd : (connections.set i c')[j]? = some d) :
    (i = j ∧ d = c') ∨ (i ≠ j ∧ connections[j]? = some d) := by
  by_cases hij : i = j
  · subst hij
    rw [List.getElem?_set_self (List.getElem?_eq_some_iff.mp hfound).1] at hd
    exact .inl ⟨rfl, (Option.some.inj hd).symm⟩
  · rw [List.getElem?_set_ne hij] at hd
    exact .inr ⟨hij, hd⟩

namespace InputConnection

variable {s t : InputConnection} {i j : Nat} {c d : InputClient}

/-- What a step does to one connection: it is a new one, or nothing or one step happens on its
channel. -/
theorem channel_step {a : Action} (hstep : Step s a t) (hfound : t.connections[j]? = some d) :
    d.channel = .opened defaultRing d.channel.direction zeroRing ∨
      ∃ c, s.connections[j]? = some c ∧
        (d.channel = c.channel ∨ ∃ b, c.channel.Step b d.channel) := by
  have hset : ∀ {i c c'} {b : InputChannel.Action}, s.connections[i]? = some c →
      c.channel.Step b c'.channel → (s.connections.set i c')[j]? = some d →
      ∃ c, s.connections[j]? = some c ∧ (d.channel = c.channel ∨ ∃ b, c.channel.Step b d.channel) := by
    intro i c c' b hc hb hd
    obtain ⟨rfl, rfl⟩ | ⟨-, hold⟩ := getElem?_setConnection hc hd
    · exact ⟨c, hc, .inr ⟨b, hb⟩⟩
    · exact ⟨d, hold, .inl rfl⟩
  cases hstep with
  | send sends found idle away => exact .inr (hset found (.startWrite _ idle away) hfound)
  | write writes found step => exact .inr (hset found step hfound)
  | endWrite writes found busy => exact .inr (hset found (.endWrite busy) hfound)
  | notify writes found step => exact .inr (hset found step hfound)
  | client own found step => exact .inr (hset found step hfound)
  | addClientConnection clientId direction =>
      change (s.connections ++ [_])[j]? = some d at hfound
      rw [List.getElem?_append] at hfound
      split at hfound
      · exact .inr ⟨d, hfound, .inl rfl⟩
      · rw [List.mem_singleton.mp (List.mem_of_getElem? hfound)]
        exact .inl rfl
  | removeClientConnection clientId =>
      change (s.connections.map _)[j]? = some d at hfound
      rw [List.getElem?_map] at hfound
      obtain ⟨c, hc, rfl⟩ := Option.map_eq_some_iff.mp hfound
      refine .inr ⟨c, hc, .inl ?_⟩
      split <;> rfl
  | _ => exact .inr ⟨d, hfound, .inl rfl⟩

/-- What a client and the connection do together is a run of the client's input port. -/
theorem channel_reachable {cond : InputConnection → Action → Prop}
    {P : InputChannel defaultRing → Prop}
    (hcond : ∀ s a, cond s a → ∀ c ∈ s.connections, P c.channel)
    (reach : machine.ReachableWith cond s) (hfound : s.connections[i]? = some c) :
    (InputChannel.machine defaultRing).ReachableWith (fun s _ => P s) c.channel := by
  refine reach.invariant (fun s => ∀ i c, s.connections[i]? = some c →
    (InputChannel.machine defaultRing).ReachableWith (fun s _ => P s) c.channel) ?_ ?_ i c hfound
  · rintro _ rfl i c hc
    cases hc
  · intro s a t _ ih hmeets hstep j d hd
    obtain hopened | ⟨c, hc, hsame | ⟨b, hb⟩⟩ := channel_step hstep hd
    · exact .init ⟨_, zeroRing, by decide, hopened⟩
    · rw [hsame]
      exact ih j c hc
    · exact (ih j c hc).step (hcond s a hmeets c (List.mem_of_getElem? hc)) hb

end InputConnection

namespace InputClient

/-- `TryWriteEvent` is under way in the ring of the client. -/
def Busy (c : InputClient) : Prop :=
  ∃ accepted call rest, c.channel.ring.left = .busy accepted call rest

/-- The write of the event under way in the ring of the client: it notifies, its status will count
it, and where there was room it will be written. -/
structure Writes (event : MidiEventInner) (room : Bool) (c : InputClient) : Prop where
  call : ∀ accepted call rest, c.channel.ring.left = .busy accepted call rest →
    call = .tryWriteEvent event true
  counts : ∀ accepted call rest, c.channel.ring.left = .busy accepted call rest →
    rest.Always (fun _ => True) fun r => r.eventsWritten = if r.status = .ok then 1 else 0
  roomy : room = true → ∀ accepted call rest, c.channel.ring.left = .busy accepted call rest →
    (writerRole (fun _ => True) defaultRing.bytes).Sat (fun r _ => r.status = .ok) rest
      c.channel.ring.shared

theorem accepted_append (c : InputClient) (attempt : Attempt) :
    InputClient.accepted { c with attempts := c.attempts ++ [attempt] } =
      c.accepted ++ if attempt.status = .ok then [attempt.event.toMidiEvent] else [] := by
  rw [accepted, accepted, List.filter_append, List.map_append]
  by_cases hok : attempt.status = .ok
  · rw [if_pos hok, List.filter_cons_of_pos (by simpa using hok)]
    rfl
  · rw [if_neg hok, List.filter_cons_of_neg (by simpa using hok)]
    rfl

end InputClient

namespace InputConnection

variable {s t : InputConnection} {i j : Nat} {c d : InputClient} {event : MidiEventInner}
  {room : Bool} {targets : List Nat} {rest : List MidiEventInner}

/-- The thread of the driver is in `TrySendToClient` for connection `j`. -/
def WritesTo (s : InputConnection) (j : Nat) : Prop :=
  ∃ event room targets rest, s.handling = .writing event j room targets rest

/-- The event of the write under way for connection `j`. -/
def inHand (s : InputConnection) (j : Nat) (c : InputClient) : List MidiEventInner :=
  match s.handling, c.channel.ring.left with
  | .writing event i _ _ _, .busy .. => if i = j then [event] else []
  | _, _ => []

/-- The event of the broadcast under way that connection `j` has still to be sent. -/
def due (s : InputConnection) (j : Nat) : List MidiEventInner :=
  match s.handling with
  | .sending event targets _ | .writing event _ _ targets _ => if j ∈ targets then [event] else []
  | .waiting | .events _ => []

/-- What was broadcast between the coming and the going of the client. -/
def heard (s : InputConnection) (c : InputClient) : List MidiEventInner :=
  (s.broadcast.take (c.parted.getD s.broadcast.length)).drop c.joined

/-- Connection `j` was sent what it has heard, in order and once each. -/
structure Fair (s : InputConnection) (j : Nat) (c : InputClient) : Prop where
  ledger : c.attempts.map Attempt.event ++ s.inHand j c ++ s.due j = s.heard c
  joined : c.joined ≤ s.broadcast.length
  parted : ∀ n, c.parted = some n → n ≤ s.broadcast.length
  room : ∀ attempt ∈ c.attempts, attempt.room = true → attempt.status = .ok
  accepted : c.channel.ring.accepted = c.accepted
  quiet : ¬s.WritesTo j → ¬c.Busy ∧ c.channel.notifier.away = true
  writes : ∀ event room targets rest, s.handling = .writing event j room targets rest →
    c.Writes event room

/-- The targets of the broadcast are connections, each at most once. -/
def Orderly (s : InputConnection) : Prop :=
  match s.handling with
  | .sending _ targets _ => targets.Nodup ∧ ∀ i ∈ targets, i < s.connections.length
  | .writing _ i _ targets _ => (i :: targets).Nodup ∧ ∀ i ∈ targets, i < s.connections.length
  | .waiting | .events _ => True

theorem due_sending (h : s.handling = .sending event targets rest) :
    s.due j = if j ∈ targets then [event] else [] := by
  rw [due, h]

theorem due_writing (h : s.handling = .writing event i room targets rest) :
    s.due j = if j ∈ targets then [event] else [] := by
  rw [due, h]

theorem Orderly.grow (h : s.Orderly) (hhandling : t.handling = s.handling)
    (hlength : s.connections.length ≤ t.connections.length) : t.Orderly := by
  unfold Orderly at h ⊢
  rw [hhandling]
  split at h
  · exact ⟨h.1, fun i hi => (h.2 i hi).trans_le hlength⟩
  · exact ⟨h.1, fun i hi => (h.2 i hi).trans_le hlength⟩
  · trivial
  · trivial

theorem inHand_of_not_busy (h : ¬c.Busy) : s.inHand j c = [] := by
  unfold inHand
  split
  · next hleft => exact absurd ⟨_, _, _, hleft⟩ h
  · rfl

theorem inHand_of_busy (h : c.Busy) (hd : d.Busy) (hhandling : t.handling = s.handling) :
    t.inHand j d = s.inHand j c := by
  obtain ⟨_, _, _, hleft⟩ := h
  obtain ⟨_, _, _, hleft'⟩ := hd
  rw [inHand, inHand, hleft, hleft', hhandling]
  cases s.handling <;> rfl

theorem inHand_of_not_writesTo (h : ¬s.WritesTo j) : s.inHand j c = [] := by
  unfold inHand
  split
  · next hhandling _ =>
      split
      · next hsame =>
          subst hsame
          exact absurd ⟨_, _, _, _, hhandling⟩ h
      · rfl
  · rfl

/-- A connection that the step does not touch. -/
theorem Fair.same (h : s.Fair j c) (hbroadcast : t.broadcast = s.broadcast) (hs : ¬s.WritesTo j)
    (ht : ¬t.WritesTo j) (hdue : t.due j = s.due j) : t.Fair j c := by
  have hheard : t.heard c = s.heard c := by rw [heard, heard, hbroadcast]
  refine ⟨?_, hbroadcast ▸ h.joined, hbroadcast ▸ h.parted, h.room, h.accepted,
    fun _ => h.quiet hs, fun event room targets rest hwrites => absurd ⟨_, _, _, _, hwrites⟩ ht⟩
  have hledger := h.ledger
  rw [inHand_of_not_writesTo hs] at hledger
  rw [inHand_of_not_writesTo ht, hdue, hheard]
  exact hledger

/-- The thread of the driver is where it was, and another connection is touched. -/
theorem Fair.beside (h : s.Fair j c) (hbroadcast : t.broadcast = s.broadcast)
    (hhandling : t.handling = s.handling) : t.Fair j c := by
  refine ⟨?_, hbroadcast ▸ h.joined, hbroadcast ▸ h.parted, h.room, h.accepted, ?_, ?_⟩
  · rw [inHand, due, heard, hhandling, hbroadcast]
    exact h.ledger
  · rw [WritesTo, hhandling]
    exact h.quiet
  · rw [hhandling]
    exact h.writes

/-- All connections are served fairly. -/
structure Sound (s : InputConnection) : Prop where
  fair : ∀ j c, s.connections[j]? = some c → s.Fair j c
  orderly : s.Orderly

theorem Sound.set (h : s.Sound) {c' : InputClient} (hfound : s.connections[i]? = some c)
    (hconnections : t.connections = s.connections.set i c') (horderly : t.Orderly)
    (hself : t.Fair i c')
    (hothers : ∀ j d, i ≠ j → s.Fair j d → t.Fair j d) : t.Sound := by
  refine ⟨fun j d hd => ?_, horderly⟩
  rw [hconnections] at hd
  obtain ⟨rfl, rfl⟩ | ⟨hij, hold⟩ := getElem?_setConnection hfound hd
  · exact hself
  · exact hothers j d hij (h.fair j d hold)

theorem snapshotClients_nodup (s : InputConnection) : s.snapshotClients.Nodup :=
  List.nodup_range.filter _

theorem mem_snapshotClients (hfound : s.connections[j]? = some c) :
    j ∈ s.snapshotClients ↔ c.parted = none := by
  have hlt := (List.getElem?_eq_some_iff.mp hfound).1
  rw [snapshotClients, List.mem_filter, List.mem_range, hfound]
  simp [hlt]

/-- The next event is broadcast. -/
theorem Sound.next (h : s.Sound) (hhandling : s.handling = .events (event :: rest)) :
    Sound { s with
      handling := .sending event s.snapshotClients rest, broadcast := s.broadcast ++ [event] } := by
  refine ⟨fun j c hc => ?_, s.snapshotClients_nodup, fun i hi => ?_⟩
  · change s.connections[j]? = some c at hc
    have hfair := h.fair j c hc
    have hnot : ¬s.WritesTo j := by
      rintro ⟨_, _, _, _, hwrites⟩
      cases hhandling.symm.trans hwrites
    have hledger := hfair.ledger
    rw [inHand_of_not_writesTo hnot, due, hhandling, List.append_nil, List.append_nil] at hledger
    refine ⟨?_, hfair.joined.trans (by simp), fun n hn => (hfair.parted n hn).trans (by simp),
      hfair.room, hfair.accepted, fun _ => hfair.quiet hnot, fun _ _ _ _ hwrites => by cases hwrites⟩
    rw [inHand_of_not_writesTo (by rintro ⟨_, _, _, _, hwrites⟩; cases hwrites), List.append_nil,
      hledger]
    change s.heard c ++ (if j ∈ s.snapshotClients then [event] else []) = _
    rw [heard, heard]
    dsimp only
    cases hparted : c.parted with
    | none =>
        rw [if_pos ((mem_snapshotClients hc).mpr hparted), Option.getD_none, Option.getD_none,
          List.take_length, List.take_length, List.drop_append_of_le_length hfair.joined]
    | some n =>
        have hnone : j ∉ s.snapshotClients := fun hj => by
          rw [(mem_snapshotClients hc).mp hj] at hparted
          cases hparted
        rw [if_neg hnone, List.append_nil, Option.getD_some, Option.getD_some,
          List.take_append_of_le_length (hfair.parted n hparted)]
  · exact List.mem_range.mp (List.mem_of_mem_filter hi)

/-- The thread of the driver goes on between two broadcasts. -/
theorem Sound.between (h : s.Sound) {handling : Handling}
    (hold : s.handling = .waiting ∨ (∃ events, s.handling = .events events) ∨
      ∃ event rest, s.handling = .sending event [] rest)
    (hnew : handling = .waiting ∨ ∃ events, handling = .events events) :
    Sound { s with handling := handling } := by
  have hnot : ∀ j, ¬s.WritesTo j ∧ s.due j = [] := by
    intro j
    rw [WritesTo, due]
    obtain hs | ⟨events, hs⟩ | ⟨event, rest, hs⟩ := hold
    all_goals
      rw [hs]
      exact ⟨nofun, by simp⟩
  have hnot' : ∀ j, ¬WritesTo { s with handling := handling } j ∧
      due { s with handling := handling } j = [] := by
    intro j
    rw [WritesTo, due]
    obtain rfl | ⟨events, rfl⟩ := hnew
    · exact ⟨nofun, rfl⟩
    · exact ⟨nofun, rfl⟩
  refine ⟨fun j c hc => (h.fair j c hc).same rfl (hnot j).1 (hnot' j).1 ?_, ?_⟩
  · rw [(hnot j).2, (hnot' j).2]
  · obtain rfl | ⟨events, rfl⟩ := hnew
    · trivial
    · trivial

/-- `TrySendToClient` begins. -/
theorem Sound.send (h : s.Sound) (hreach : c.channel.Sound) {accepted : List MidiEvent}
    (hhandling : s.handling = .sending event (i :: targets) rest)
    (hfound : s.connections[i]? = some c) (hidle : c.channel.ring.left = .idle accepted) :
    (s.beginSend i c accepted event targets rest).Sound := by
  have hfair := h.fair i c hfound
  have hnot : ∀ j, ¬s.WritesTo j := by
    rintro j ⟨_, _, _, _, hwrites⟩
    cases hhandling.symm.trans hwrites
  have horderly := h.orderly
  rw [Orderly, hhandling] at horderly
  obtain ⟨hnodup, hbound⟩ := horderly
  have hfresh := (List.nodup_cons.mp hnodup).1
  have hshared := hreach.ring.writes
  refine h.set hfound rfl ⟨hnodup, fun k hk => ?_⟩ ?_ fun j d hij hd => ?_
  · exact (hbound k (List.mem_cons_of_mem i hk)).trans_eq List.length_set.symm
  · refine ⟨?_, hfair.joined, hfair.parted, hfair.room, ?_, fun hno => absurd ⟨_, _, _, _, rfl⟩ hno, ?_⟩
    · have hledger := hfair.ledger
      rw [inHand_of_not_writesTo (hnot i), due_sending hhandling, if_pos (List.mem_cons_self ..),
        List.append_nil] at hledger
      change _ ++ (if i = i then [event] else []) ++ (if i ∈ targets then [event] else []) = s.heard c
      rw [if_pos rfl, if_neg hfresh, List.append_nil, hledger]
    · change accepted = _
      have haccepted := hfair.accepted
      rw [InputRing.accepted, hidle] at haccepted
      exact haccepted
    · intro event' room' targets' rest' hwrites
      cases hwrites
      refine ⟨fun _ _ _ hbusy => by cases hbusy; rfl, fun _ _ _ hbusy => ?_, fun hroom _ _ _ hbusy => ?_⟩
      · cases hbusy
        exact tryWriteEvent_counts _ _ _
      · cases hbusy
        rw [hidle] at hshared
        obtain ⟨w, A, d, hwriting, -⟩ := hshared
        rw [hasRoom, Bool.and_eq_true, decide_eq_true_eq, hwriting.write] at hroom
        exact triple_tryWriteEvent_room (by decide) (fun _ => trivial) true
          hwriting.inv.layout.read_lt hroom.1 hroom.2 _ ⟨hwriting, Between.refl _ _⟩
  · refine hd.same rfl (hnot j) ?_ ?_
    · rintro ⟨_, _, _, _, hwrites⟩
      cases hwrites
      exact hij rfl
    · rw [due_sending hhandling, due_writing rfl]
      simp only [List.mem_cons, Ne.symm hij, false_or]

/-- Something happens to connection `i` that leaves the thread of the driver where it is. -/
theorem Sound.touch (h : s.Sound) {c' : InputClient} (hfound : s.connections[i]? = some c)
    (hself : (s.setConnection i c').Fair i c') : (s.setConnection i c').Sound :=
  h.set hfound rfl (h.orderly.grow rfl List.length_set.ge) hself fun _ _ _ hd => hd.beside rfl rfl

/-- The channel of connection `i` goes on, and the server's side of it only within the write. -/
theorem Fair.channel (h : s.Fair i c) {channel : InputChannel defaultRing}
    (haccepted : channel.ring.accepted = c.channel.ring.accepted)
    (hbusy : InputClient.Busy { c with channel } ↔ c.Busy)
    (haway : ¬s.WritesTo i → channel.notifier = c.channel.notifier)
    (hwrites : ∀ event room, c.Writes event room → InputClient.Writes event room { c with channel }) :
    (s.setConnection i { c with channel }).Fair i { c with channel } := by
  refine ⟨?_, h.joined, h.parted, h.room, haccepted.trans h.accepted, fun hno => ?_, fun event room targets
    rest hhandling => hwrites event room (h.writes event room targets rest hhandling)⟩
  · have hhand : (s.setConnection i { c with channel }).inHand i { c with channel } =
        s.inHand i c := by
      by_cases hb : c.Busy
      · exact inHand_of_busy hb (hbusy.mpr hb) rfl
      · rw [inHand_of_not_busy hb, inHand_of_not_busy (mt hbusy.mp hb)]
    rw [hhand]
    exact h.ledger
  · obtain ⟨hidle, hnotifier⟩ := h.quiet hno
    refine ⟨mt hbusy.mp hidle, ?_⟩
    change channel.notifier.away = true
    rw [haway hno]
    exact hnotifier

/-- What the client's own threads do to the channel: the server's side stays as it is, and the ring
moves as a reader may. -/
theorem own_step {channel channel' : InputChannel defaultRing} (hsound : channel.Sound)
    {a : InputChannel.Action} (hown : OfClient a) (hstep : channel.Step a channel') :
    channel'.ring.left = channel.ring.left ∧ channel'.notifier = channel.notifier ∧
      ReaderMoves (fun _ => True) defaultRing.bytes channel.ring.shared channel'.ring.shared := by
  have hrefl : ReaderMoves (fun _ => True) defaultRing.bytes channel.ring.shared
      channel.ring.shared := .refl _
  have hwake : channel.wakeAll.ring = channel.ring ∧ channel.wakeAll.notifier = channel.notifier := by
    unfold InputChannel.wakeAll
    split <;> exact ⟨rfl, rfl⟩
  cases hstep with
  | @receive l idle =>
      have hsame : (channel.receive l).ring.left = channel.ring.left ∧
          (channel.receive l).notifier = channel.notifier ∧
          (channel.receive l).ring.shared = channel.ring.shared := by
        unfold InputChannel.receive
        split <;> (try split) <;> (try split) <;> (try split) <;> exact ⟨rfl, rfl, rfl⟩
      exact ⟨hsame.1, hsame.2.1, hsame.2.2 ▸ hrefl⟩
  | @ringAccess ring cmd step =>
      exact ⟨(InputRing.readAccess hsound.ring.reads step).1, rfl,
        InputRing.readAccess_moves hsound.ring.reads step⟩
  | @endCall l call result busy =>
      have hsame : (channel.endCall l call result).ring.left = channel.ring.left ∧
          (channel.endCall l call result).notifier = channel.notifier ∧
          (channel.endCall l call result).ring.shared = channel.ring.shared := by
        cases call with
        | peekNext => exact ⟨rfl, rfl, rfl⟩
        | drainRound => cases result <;> exact ⟨rfl, rfl, rfl⟩
      exact ⟨hsame.1, hsame.2.1, hsame.2.2 ▸ hrefl⟩
  | spurious => exact ⟨congrArg _ hwake.1, hwake.2, hwake.1 ▸ hrefl⟩
  | stop runs => exact ⟨rfl, rfl, hrefl⟩
  | stopStep wakes =>
      have hsame : channel.stopStep.ring = channel.ring ∧
          channel.stopStep.notifier = channel.notifier := by
        unfold InputChannel.stopStep InputChannel.wakeAll
        dsimp only
        split
        · split <;> exact ⟨rfl, rfl⟩
        · exact ⟨rfl, rfl⟩
      exact ⟨congrArg _ hsame.1, hsame.2, hsame.1 ▸ hrefl⟩
  | startWrite => exact hown.elim
  | write => exact hown.elim
  | endWrite => exact hown.elim
  | notify => exact hown.elim

theorem Sound.client (h : s.Sound) (hsound : c.channel.Sound) {a : InputChannel.Action}
    {channel : InputChannel defaultRing} (hown : OfClient a) (hfound : s.connections[i]? = some c)
    (hstep : c.channel.Step a channel) : (s.setConnection i { c with channel }).Sound := by
  obtain ⟨hleft, hnotifier, hmoves⟩ := own_step hsound hown hstep
  refine h.touch hfound ((h.fair i c hfound).channel ?_ ?_ (fun _ => hnotifier) ?_)
  · rw [InputRing.accepted, hleft, InputRing.accepted]
  · rw [InputClient.Busy, InputClient.Busy, hleft]
  · rintro event room ⟨hcall, hcounts, hroomy⟩
    refine ⟨hleft ▸ hcall, hleft ▸ hcounts, fun hroom accepted call rest hbusy => ?_⟩
    exact (hroomy hroom accepted call rest (hleft ▸ hbusy)).rely hmoves

theorem Sound.write (h : s.Sound) {channel : InputChannel defaultRing}
    (hfound : s.connections[i]? = some c) (hstep : c.channel.Step .write channel) :
    (s.setConnection i { c with channel }).Sound := by
  cases hstep with
  | @write ring cmd step =>
      obtain ⟨accepted, call, k, hleft, hleft', hshared⟩ := InputRing.writeAccess step
      refine h.touch hfound ((h.fair i c hfound).channel ?_ ?_ (fun _ => rfl) ?_)
      · rw [InputRing.accepted, InputRing.accepted, hleft, hleft']
      · exact ⟨fun _ => ⟨_, _, _, hleft⟩, fun _ => ⟨_, _, _, hleft'⟩⟩
      · rintro event room ⟨hcall, hcounts, hroomy⟩
        refine ⟨fun _ _ _ hbusy => ?_, fun _ _ _ hbusy => ?_, fun hroom _ _ _ hbusy => ?_⟩
        all_goals cases hleft'.symm.trans hbusy
        · exact hcall _ _ _ hleft
        · exact (hcounts _ _ _ hleft).2 _
        · change Sat _ _ _ ring.shared
          rw [hshared]
          exact (hroomy hroom _ _ _ hleft _ (ReaderMoves.refl _)).2

theorem Sound.notify (h : s.Sound) {channel : InputChannel defaultRing}
    (hhandling : s.handling = .writing event i room targets rest)
    (hfound : s.connections[i]? = some c) (hstep : c.channel.Step .notify channel) :
    (s.setConnection i { c with channel }).Sound := by
  cases hstep with
  | notify wakes =>
      have hring : c.channel.notify.ring = c.channel.ring := by
        unfold InputChannel.notify InputChannel.wakeAll
        dsimp only
        split
        · split <;> rfl
        · rfl
      refine h.touch hfound ((h.fair i c hfound).channel ?_ ?_ (fun hno => ?_) ?_)
      · rw [hring]
      · rw [InputClient.Busy, InputClient.Busy, hring]
      · exact absurd ⟨_, _, _, _, hhandling⟩ hno
      · rintro event room ⟨hcall, hcounts, hroomy⟩
        exact ⟨hring ▸ hcall, hring ▸ hcounts, hring ▸ hroomy⟩

/-- `TryWriteEvent` returns, and what became of the event is noted. -/
theorem Sound.endSend (h : s.Sound) {accepted : List MidiEvent} {call : ProducerCall}
    {result : WriteResult} (hhandling : s.handling = .writing event i room targets rest)
    (hfound : s.connections[i]? = some c)
    (hbusy : c.channel.ring.left = .busy accepted call (.ret result)) :
    (s.endSend i c accepted call result event room).Sound := by
  have hfair := h.fair i c hfound
  obtain ⟨hcall, hcounts, hroomy⟩ := hfair.writes _ _ _ _ hhandling
  obtain rfl := hcall _ _ _ hbusy
  have hcount : result.eventsWritten = if result.status = .ok then 1 else 0 := hcounts _ _ _ hbusy
  refine h.touch hfound ⟨?_, hfair.joined, hfair.parted, ?_, ?_, fun hno => ?_, ?_⟩
  · have hledger := hfair.ledger
    have hhand : s.inHand i c = [event] := by
      rw [inHand, hhandling, hbusy]
      exact if_pos rfl
    rw [hhand] at hledger
    have hidle : ∀ attempts, ¬InputClient.Busy
        { c with channel := c.channel.endWrite accepted (.tryWriteEvent event true) result, attempts } := by
      rintro attempts ⟨_, _, _, hleft⟩
      cases hleft
    rw [inHand_of_not_busy (hidle _), List.append_nil]
    change (c.attempts ++ [_]).map Attempt.event ++ s.due i = s.heard c
    rw [List.map_append]
    exact hledger
  · intro attempt hattempt hroom
    rw [List.mem_append, List.mem_singleton] at hattempt
    obtain hold | rfl := hattempt
    · exact hfair.room attempt hold hroom
    · exact hroomy hroom _ _ _ hbusy _ (ReaderMoves.refl _)
  · have haccepted : accepted = c.accepted := by
      rw [← hfair.accepted, InputRing.accepted, hbusy]
    have happend := InputClient.accepted_append c ⟨event, room, result.status⟩
    change accepted ++ ([event].take result.eventsWritten).map MidiEventInner.toMidiEvent = _
    rw [haccepted, hcount]
    refine Eq.trans ?_ happend.symm
    split <;> rfl
  · exact absurd ⟨_, _, _, _, hhandling⟩ hno
  · intro _ _ _ _ _
    refine ⟨fun _ _ _ hleft => ?_, fun _ _ _ hleft => ?_, fun _ _ _ _ hleft => ?_⟩
    all_goals cases hleft

/-- `TrySendToClient` returns. -/
theorem Sound.returned (h : s.Sound) {accepted : List MidiEvent}
    (hhandling : s.handling = .writing event i room targets rest)
    (hfound : s.connections[i]? = some c) (hidle : c.channel.ring.left = .idle accepted)
    (haway : c.channel.notifier.away = true) :
    Sound { s with handling := .sending event targets rest } := by
  have horderly := h.orderly
  rw [Orderly, hhandling] at horderly
  refine ⟨fun j d hd => ?_, (List.nodup_cons.mp horderly.1).2, horderly.2⟩
  change s.connections[j]? = some d at hd
  have hfair := h.fair j d hd
  have hnot : ¬WritesTo { s with handling := .sending event targets rest } j := by
    rintro ⟨_, _, _, _, hwrites⟩
    cases hwrites
  have hdue : due { s with handling := .sending event targets rest } j = s.due j := by
    rw [due_sending rfl, due_writing hhandling]
  by_cases hij : i = j
  · subst hij
    obtain rfl : d = c := Option.some.inj (hd.symm.trans hfound)
    have hidle' : ¬d.Busy := fun ⟨_, _, _, hleft⟩ => by cases hidle.symm.trans hleft
    have hledger := hfair.ledger
    rw [inHand_of_not_busy hidle'] at hledger
    refine ⟨?_, hfair.joined, hfair.parted, hfair.room, hfair.accepted, fun _ => ⟨hidle', haway⟩,
      fun _ _ _ _ hwrites => absurd ⟨_, _, _, _, hwrites⟩ hnot⟩
    rw [inHand_of_not_writesTo hnot, hdue]
    exact hledger
  · refine hfair.same rfl ?_ hnot hdue
    rintro ⟨_, _, _, _, hwrites⟩
    cases hhandling.symm.trans hwrites
    exact hij rfl

theorem Sound.addClientConnection (h : s.Sound) (clientId : UInt32) (direction : ProtocolDirection) :
    (s.addClientConnection clientId direction).Sound := by
  have hbound : ∀ j, s.connections.length ≤ j → s.due j = [] ∧ ∀ d, s.connections[j]? ≠ some d := by
    intro j hj
    refine ⟨?_, fun d hd => Nat.not_lt.mpr hj (List.getElem?_eq_some_iff.mp hd).1⟩
    have horderly := h.orderly
    rw [due]
    split
    · next hs =>
        rw [Orderly, hs] at horderly
        exact if_neg fun hmem => Nat.not_lt.mpr hj (horderly.2 j hmem)
    · next hs =>
        rw [Orderly, hs] at horderly
        exact if_neg fun hmem => Nat.not_lt.mpr hj (horderly.2 j hmem)
    · rfl
    · rfl
  refine ⟨fun j d hd => ?_, ?_⟩
  · change (s.connections ++ [_])[j]? = some d at hd
    rw [List.getElem?_append] at hd
    split at hd
    · exact (h.fair j d hd).beside rfl rfl
    · next hj =>
        rw [List.mem_singleton.mp (List.mem_of_getElem? hd)]
        have hidle : ¬(InputClient.fresh clientId direction s.broadcast.length).Busy :=
          fun ⟨_, _, _, hleft⟩ => by cases hleft
        refine ⟨?_, le_rfl, nofun, nofun, rfl, fun _ => ⟨hidle, rfl⟩, fun _ _ _ _ _ =>
          ⟨nofun, nofun, fun _ => nofun⟩⟩
        rw [inHand_of_not_busy hidle]
        change [] ++ [] ++ s.due j = (s.broadcast.take s.broadcast.length).drop s.broadcast.length
        rw [(hbound j (Nat.not_lt.mp hj)).1, List.take_length, List.drop_length]
        rfl
  · exact h.orderly.grow rfl ((Nat.le_add_right _ _).trans_eq List.length_append.symm)

theorem Sound.removeClientConnection (h : s.Sound) (clientId : UInt32) :
    (s.removeClientConnection clientId).Sound := by
  refine ⟨fun j d hd => ?_, h.orderly.grow rfl (List.length_map _).ge⟩
  change (s.connections.map _)[j]? = some d at hd
  rw [List.getElem?_map] at hd
  obtain ⟨c, hc, rfl⟩ := Option.map_eq_some_iff.mp hd
  have hfair := h.fair j c hc
  split
  · next hremoved =>
      refine ⟨?_, hfair.joined, fun n hn => ?_, hfair.room, hfair.accepted, hfair.quiet, fun event room
        targets rest hwrites => ?_⟩
      · have hledger := hfair.ledger
        rw [heard, hremoved.2] at hledger
        exact hledger
      · cases hn
        exact le_rfl
      · obtain ⟨hcall, hcounts, hroomy⟩ := hfair.writes _ _ _ _ hwrites
        exact ⟨hcall, hcounts, hroomy⟩
  · exact hfair.beside rfl rfl

theorem Sound.step {a : Action} (h : s.Sound)
    (hchannel : ∀ (i : Nat) (c : InputClient), s.connections[i]? = some c → c.channel.Sound)
    (hstep : Step s a t) : t.Sound := by
  cases hstep with
  | input events waits => exact h.between (.inl waits) (.inr ⟨_, rfl⟩)
  | next handles => exact h.next handles
  | done handles => exact h.between (.inr (.inl ⟨_, handles⟩)) (.inl rfl)
  | send sends found idle away => exact h.send (hchannel _ _ found) sends found idle
  | write writes found step => exact h.write found step
  | endWrite writes found busy => exact h.endSend writes found busy
  | notify writes found step => exact h.notify writes found step
  | returned writes found idle away => exact h.returned writes found idle away
  | sent sends => exact h.between (.inr (.inr ⟨_, _, sends⟩)) (.inr ⟨_, rfl⟩)
  | client own found step => exact h.client (hchannel _ _ found) own found step
  | addClientConnection clientId direction => exact h.addClientConnection clientId direction
  | removeClientConnection clientId => exact h.removeClientConnection clientId

theorem channel_sound {cond : InputConnection → Action → Prop} (reach : machine.ReachableWith cond s)
    (hfound : s.connections[i]? = some c) : c.channel.Sound :=
  InputChannel.sound_of_reachable
    (channel_reachable (P := fun _ => True) (fun _ _ _ _ _ => trivial) reach hfound)

theorem sound_of_reachable {cond : InputConnection → Action → Prop}
    (reach : machine.ReachableWith cond s) : s.Sound := by
  refine reach.invariant Sound ?_ ?_
  · rintro _ rfl
    refine ⟨fun j c hc => ?_, trivial⟩
    cases hc
  · exact fun s a t reach h _ hstep => h.step (fun _ _ => channel_sound reach) hstep

/-- What is published for a client goes no further than the event in hand. -/
theorem published_within (h : s.Fair i c) (hsound : c.channel.Sound)
    (hwrites : c.Busy → s.WritesTo i) :
    c.channel.ring.published <+: c.accepted ++ (s.inHand i c).map MidiEventInner.toMidiEvent := by
  rw [← h.accepted]
  by_cases hb : c.Busy
  · obtain ⟨event, room, targets, rest, hhandling⟩ := hwrites hb
    obtain ⟨accepted, call, left, hleft⟩ := hb
    obtain rfl := (h.writes _ _ _ _ hhandling).call _ _ _ hleft
    have hwithin := hsound.ring.published_busy hleft
    have hhand : s.inHand i c = [event] := by
      rw [inHand, hhandling, hleft]
      exact if_pos rfl
    rw [InputRing.accepted, hleft, hhand]
    exact hwithin
  · have hall := hsound.ring.published_idle hb
    rw [inHand_of_not_busy hb, List.map_nil, List.append_nil]
    exact hall ▸ List.prefix_refl _

section Played

/-- Two clients come, and two notes arrive. The first one is written for both, and handed to the
callback of the first client. The second one has still to be sent to both. -/
def twoClients : List Action :=
  [.addClientConnection 7 .midi1ToMidi2, .addClientConnection 8 .none] ++
    List.replicate 8 (.client 0 .receive) ++
    [.input [InputChannel.noteOn, InputChannel.noteOff]] ++ List.replicate 24 .handle ++
    List.replicate 45 (.client 0 .receive) ++ List.replicate 24 .handle

/-- The steps from the beginning, as long as all rings are readable. -/
def played (actions : List Action) : Option InputConnection :=
  Machine.replay perform (fun s => ∀ c ∈ s.connections, c.channel.ring.Readable) actions
    ⟨[], .waiting, []⟩

theorem played_reachable {actions : List Action} (h : played actions = some s) :
    machine.ReachableWith (fun s _ => ∀ c ∈ s.connections, c.channel.ring.Readable) s := by
  have hbegun : machine.ReachableWith (fun s _ => ∀ c ∈ s.connections, c.channel.ring.Readable)
      ⟨[], .waiting, []⟩ :=
    .init rfl
  exact hbegun.replay (fun _ _ _ h => ⟨_, step_of_perform h⟩) (fun _ _ => of_decide_eq_true) h

end Played

/-- The thread of the driver waits. -/
def Waits (s : InputConnection) : Bool :=
  match s.handling with
  | .waiting => true
  | _ => false

theorem waiting_of_waits (h : s.Waits = true) : s.handling = .waiting := by
  unfold Waits at h
  split at h
  · next hhandling => exact hhandling
  · contradiction

end InputConnection

end MidiFramework.Server
