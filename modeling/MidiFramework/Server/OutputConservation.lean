import MidiFramework.Server.OutputFlow
import MidiFramework.Server.OutputRuns

/-!
# No event of an output connection is lost

Every step of the connection is, for each of its clients, a step of the flow of
the client's events. So every event that the worker took from a client's ring and
that has a payload is in the client's queue, in the send cache, or was handed to
the driver: in exactly one of them, once, and as the client wrote it. The events
without a timestamp go to the driver in the order of the client's writes.
-/

namespace MidiFramework.Server

open Foundation PriorityQueue SharedRing

variable {Q : PendingQueue}

/-- The events of client `i` among those sent on. -/
def sentBy (i : Nat) (contents : List OutputEvent) : List MidiEvent :=
  (contents.filter fun e => e.client = i).map OutputEvent.event

theorem sentBy_append (i : Nat) (xs ys : List OutputEvent) :
    sentBy i (xs ++ ys) = sentBy i xs ++ sentBy i ys := by
  rw [sentBy, List.filter_append, List.map_append, sentBy, sentBy]

theorem sentBy_eq_nil {i : Nat} {contents : List OutputEvent}
    (h : ∀ e ∈ contents, e.client ≠ i) : sentBy i contents = [] := by
  rw [sentBy, List.filter_eq_nil_iff.mpr fun e he => by simpa using h e he, List.map_nil]

theorem sentBy_singleton (i j : Nat) (event : MidiEvent) :
    sentBy j [⟨i, event⟩] = if i = j then [event] else [] := by
  by_cases hij : i = j
  · rw [if_pos hij, sentBy, List.filter_cons_of_pos (by simpa using hij)]
    rfl
  · rw [if_neg hij, sentBy_eq_nil (by simpa using hij)]

/-- An event of client `i` that goes on is seen by client `i` only. -/
theorem sentBy_forward (i j : Nat) (sender : OutputSender maxSendCacheBytes) (event : MidiEvent)
    (hfits : event.words.length * 4 ≤ maxSendCacheBytes) :
    sentBy j (sender.forward ⟨i, event⟩).1.contents =
      sentBy j sender.contents ++ if i = j then Flow.onward event else [] := by
  rw [OutputSender.contents_forward, sentBy_append, OutputSender.added, Flow.onward]
  by_cases hpayload : HasPayload event
  · rw [if_pos (show OutputSender.Sendable _ ⟨i, event⟩ from ⟨hpayload, hfits⟩), sentBy_singleton,
      List.filter_cons_of_pos (by simpa using hpayload), List.filter_nil]
  · rw [if_neg fun h => hpayload h.1, List.filter_cons_of_neg (by simpa using hpayload),
      List.filter_nil, ite_self]
    rfl

namespace OutputClient

/-- The events in the client's queue. -/
def waiting (c : OutputClient Q) : Multiset MidiEvent := (Q.elements c.pending).map PendingEvent.event

/-- The flow of the client's events when `sent` was sent on. -/
def flow (c : OutputClient Q) (sent : List MidiEvent) : Flow := ⟨c.ring.taken, c.waiting, sent⟩

/-- Both users of the ring keep to their roles, and the queue is within its limit and holds only
events that the send cache can hold. -/
structure Sound (c : OutputClient Q) : Prop where
  ring : TwoParty.Holds (W := clientRing defaultRingBufferSize)
    (producerProof (by decide) fun _ => trivial) (drainerProof (fun _ => True) (by decide)) c.ring
  full : ∀ l call rest, c.ring.right = .busy l call rest → call.full = c.isPendingFull
  limited : (Q.elements c.pending).card ≤ maxPending
  fits : ∀ e ∈ c.waiting, e.words.length * 4 ≤ maxSendCacheBytes

end OutputClient

section Rings

variable {c : OutputClient Q} {ring : ClientRing} {l : DrainerLocal} {call : DrainCall}
  {round : DrainRound}

theorem ClientRing.taken_busy {rest : RingProgram DrainRound}
    (hbusy : ring.right = .busy l call rest) : ring.taken = l.taken := by
  rw [taken, hbusy]

theorem ClientRing.taken_idle (hidle : ring.right = .idle l) : ring.taken = l.taken := by
  rw [taken, hidle]

theorem ClientRing.taken_congr {ring' : ClientRing} (h : ring'.right = ring.right) :
    ring'.taken = ring.taken := by
  rw [taken, h, taken]

namespace OutputClient

/-- A step of a client or of the worker on the ring. -/
theorem Sound.ringStep (h : c.Sound)
    {a : Party.Action ringInterface ⊕ Party.Action ringInterface}
    (hstep : (clientRing defaultRingBufferSize).Step c.ring a ring)
    (hfull : ∀ l call rest, ring.right = .busy l call rest → call.full = c.isPendingFull) :
    Sound { c with ring } :=
  ⟨h.ring.step rfl rfl
    (fun c s t (hg : WriterGuarantee (fun _ => True) _ c s t) => hg.moves)
    (fun c s t (hg : ReaderGuarantee (fun _ => True) _ c s t) => hg.moves) hstep,
    hfull, h.limited, h.fits⟩

theorem endRound_step (hbusy : ring.right = .busy l call (.ret round)) :
    (clientRing defaultRingBufferSize).Step ring (.inr .finish) (ring.endRound l round) := by
  obtain ⟨left, right, shared⟩ := ring
  obtain rfl : right = .busy l call (.ret round) := hbusy
  exact .right .finish

/-- The end of a round. -/
theorem Sound.endRound (h : c.Sound) (hbusy : c.ring.right = .busy l call (.ret round)) :
    Sound { c with ring := c.ring.endRound l round } :=
  h.ringStep (endRound_step hbusy) fun l' call' rest hright => by cases hright

theorem Sound.ended (h : c.Sound) (ended : Option DrainStop) : Sound { c with ended } :=
  ⟨h.ring, h.full, h.limited, h.fits⟩

/-- What the round did to the ring. -/
theorem Sound.roundDone (h : c.Sound) (hbusy : c.ring.right = .busy l call (.ret round)) :
    DrainedRound (fun _ => True) defaultRingBufferSize l call round c.ring.shared := by
  have hright := h.ring.2
  rw [hbusy] at hright
  exact hright c.ring.shared (WriterMoves.refl _)

variable {event : MidiEvent}

/-- A taken event is small, and if it is scheduled the client's queue has room. -/
theorem Sound.tookEvent (h : c.Sound)
    (hbusy : c.ring.right = .busy l call (.ret (.took event))) :
    event.words.length * 4 ≤ maxSendCacheBytes ∧
      (event.timestamp ≠ 0 → c.isPendingFull = false) := by
  obtain ⟨K, A, hdone, -, -⟩ := h.roundDone hbusy
  cases hdone with
  | took r x reading size unfilled =>
      have hpayload := x.payload_le_size
      have hfull := h.full l call _ hbusy
      refine ⟨?_, fun hne => hfull ▸ unfilled hne⟩
      change x.words.length * 4 ≤ 64 * 1024
      simp only [defaultRingBufferSize] at size
      omega

theorem taken_endRound (hbusy : ring.right = .busy l call (.ret (.took event))) :
    (ring.endRound l (.took event)).taken = ring.taken ++ [event] := by
  rw [ClientRing.taken_busy hbusy]
  rfl

theorem waiting_push (c : OutputClient Q) (event : MidiEvent) :
    (Q.elements (Q.push c.pending (.ofEvent event))).map PendingEvent.event =
      event ::ₘ c.waiting := by
  rw [Q.elements_push, Multiset.map_cons]
  rfl

theorem waiting_pop {e : PendingEvent} (htop : Q.top c.pending = some e) :
    c.waiting = e.event ::ₘ (Q.elements (Q.pop c.pending)).map PendingEvent.event := by
  rw [waiting, Q.elements_of_top c.pending e htop, Multiset.map_cons]

/-- A scheduled event goes into the client's queue. -/
theorem Sound.push (h : c.Sound) (hidle : c.ring.right = .idle l)
    (hroom : c.isPendingFull = false) (hfits : event.words.length * 4 ≤ maxSendCacheBytes) :
    Sound { c with pending := Q.push c.pending (.ofEvent event) } := by
  have hless := of_decide_eq_false hroom
  refine ⟨h.ring, fun l' call rest hbusy => ?_, ?_, fun e he => ?_⟩
  · cases hidle.symm.trans hbusy
  · change (Q.elements (Q.push c.pending (.ofEvent event))).card ≤ maxPending
    rw [Q.elements_push, Multiset.card_cons]
    omega
  · change e ∈ (Q.elements (Q.push c.pending (.ofEvent event))).map PendingEvent.event at he
    rw [waiting_push] at he
    cases Multiset.mem_cons.mp he with
    | inl heq => exact heq ▸ hfits
    | inr hold => exact h.fits e hold

/-- A due event leaves the client's queue. -/
theorem Sound.pop (h : c.Sound) (hidle : c.ring.right = .idle l) {e : PendingEvent}
    (htop : Q.top c.pending = some e) : Sound { c with pending := Q.pop c.pending } := by
  have hcard := congrArg Multiset.card (Q.elements_of_top c.pending e htop)
  rw [Multiset.card_cons] at hcard
  have hlimited := h.limited
  refine ⟨h.ring, fun l' call rest hbusy => ?_, ?_, fun e' he' => h.fits e' ?_⟩
  · cases hidle.symm.trans hbusy
  · change (Q.elements (Q.pop c.pending)).card ≤ maxPending
    omega
  · exact waiting_pop htop ▸ Multiset.mem_cons_of_mem he'

/-- Noting what was published changes nothing else. -/
theorem Sound.noticed (h : c.Sound) (hidle : c.ring.right = .idle l) : c.noticed.Sound := by
  obtain ⟨⟨left, right, shared⟩, pending, ended⟩ := c
  obtain rfl : right = .idle l := hidle
  obtain ⟨r, K, A, hreading, hK, -⟩ := h.ring.2
  refine ⟨⟨h.ring.1, r, K, shared.appended, ⟨hreading.inv, hreading.read, hreading.taken,
    List.prefix_refl _⟩, hK, rfl⟩, fun _ _ _ hbusy => ?_, h.limited, h.fits⟩
  cases hbusy

theorem fresh_sound : (OutputClient.fresh Q).Sound := by
  have hinv : RingState.Inv (fun _ => True) defaultRingBufferSize
      ⟨⟨0, 0, 0, fun _ => 0⟩, [], 0⟩ :=
    EmptyRing.inv ⟨rfl, by decide, by decide, rfl, rfl⟩
  refine ⟨⟨⟨_, [], _, ⟨hinv, rfl, rfl, rfl⟩, rfl⟩, _, [], [], ⟨hinv, rfl, rfl, List.nil_prefix⟩,
    rfl, rfl⟩, fun _ _ _ hbusy => ?_, ?_, fun e he => ?_⟩
  · cases hbusy
  · rw [fresh, Q.elements_empty, Multiset.card_zero]
    exact Nat.zero_le _
  · rw [waiting, fresh, Q.elements_empty, Multiset.map_zero] at he
    exact absurd he (Multiset.notMem_zero e)

end OutputClient

end Rings

section Senders

variable {i : Nat} {event : MidiEvent} {sender sender' : OutputSender maxSendCacheBytes}

/-- The events were sent on, and all of them are of client `i`. -/
structure SendsOn (i : Nat) (events : List MidiEvent) (sender sender' : OutputSender maxSendCacheBytes) :
    Prop where
  sent : ∀ j, sentBy j sender'.contents = sentBy j sender.contents ++ if i = j then events else []
  origin : ∀ e ∈ sender'.contents, e ∈ sender.contents ∨ e.client = i
  unsent : sender'.unsent = sender.unsent

theorem SendsOn.nothing (i : Nat) (sender : OutputSender maxSendCacheBytes) :
    SendsOn i [] sender sender :=
  ⟨fun j => by rw [ite_self, List.append_nil], fun e he => .inl he, rfl⟩

theorem SendsOn.forward (i : Nat) (sender : OutputSender maxSendCacheBytes)
    (hfits : event.words.length * 4 ≤ maxSendCacheBytes) :
    SendsOn i (Flow.onward event) sender (sender.forward ⟨i, event⟩).1 := by
  refine ⟨fun j => sentBy_forward i j sender event hfits, fun e he => ?_,
    OutputSender.unsent_forward sender hfits⟩
  rw [OutputSender.contents_forward, OutputSender.added] at he
  cases List.mem_append.mp he with
  | inl hold => exact .inl hold
  | inr hnew =>
      split at hnew
      · exact .inr (congrArg OutputEvent.client (List.mem_singleton.mp hnew))
      · cases hnew

end Senders

namespace OutputConnection

/-- The worker is in no round of a drain. -/
def AllIdle (clients : List (OutputClient Q)) : Prop := ∀ c ∈ clients, ∃ l, c.ring.right = .idle l

/-- What holds between the steps. The worker is at no ring but the one it drains. -/
structure Sound (s : OutputConnection Q) : Prop where
  client : ∀ (i : Nat) (c : OutputClient Q), s.clients[i]? = some c → c.Sound
  origin : ∀ e ∈ s.sender.contents, e.client < s.clients.length
  unsent : s.sender.unsent = []
  busy : ∀ i c l call rest, s.clients[i]? = some c → c.ring.right = .busy l call rest →
    ∃ drained, s.phase = .draining i drained

/-- The flow of the events of `c`, which is the client at the place `i`. -/
def flowOf (s : OutputConnection Q) (i : Nat) (c : OutputClient Q) : Flow :=
  c.flow (sentBy i s.sender.contents)

/-- The worker collects, and the time of the timestamp has come. -/
def Due (s : OutputConnection Q) (timestamp : UInt64) : Prop :=
  ∃ now, s.phase = .collecting now ∧ dueTime timestamp ≤ now

/-- For each client a step of the flow of its events; the flow of a new client starts. -/
def Flows (s t : OutputConnection Q) : Prop :=
  ∀ j d', t.clients[j]? = some d' →
    (∃ d, s.clients[j]? = some d ∧ Flow.Step s.Due (s.flowOf j d) (t.flowOf j d')) ∨
      t.flowOf j d' = Flow.start

/-- Client `i` changes and sends on the events. -/
structure Changes (s t : OutputConnection Q) (i : Nat) (c c' : OutputClient Q)
    (events : List MidiEvent) : Prop where
  found : s.clients[i]? = some c
  clients : t.clients = s.clients.set i c'
  sends : SendsOn i events s.sender t.sender

/-- The connection stays sound, and the events flow. -/
structure Advances (s t : OutputConnection Q) : Prop where
  sound : t.Sound
  flows : Flows s t

variable {s t : OutputConnection Q} {i drained : Nat} {c c' : OutputClient Q}
  {events : List MidiEvent}

theorem flowOf_eq (c : OutputClient Q) {sent : List MidiEvent}
    (h : sentBy i s.sender.contents = sent) : s.flowOf i c = c.flow sent := by
  rw [flowOf, h]

theorem busy_of_idle {phase : OutputPhase} {clients : List (OutputClient Q)}
    (hidle : AllIdle clients) (i : Nat) (c : OutputClient Q) (l : DrainerLocal) (call : DrainCall)
    (rest : RingProgram DrainRound) (hfound : clients[i]? = some c)
    (hbusy : c.ring.right = .busy l call rest) : ∃ drained, phase = .draining i drained := by
  obtain ⟨l', hl'⟩ := hidle c (List.mem_of_getElem? hfound)
  cases hl'.symm.trans hbusy

theorem Sound.idle (h : s.Sound) (hphase : ∀ i drained, s.phase ≠ .draining i drained) :
    AllIdle s.clients := by
  intro c hc
  obtain ⟨i, hi⟩ := List.getElem?_of_mem hc
  cases hright : c.ring.right with
  | idle l => exact ⟨l, rfl⟩
  | busy l call rest =>
      obtain ⟨drained, hdraining⟩ := h.busy i c l call rest hi hright
      exact absurd hdraining (hphase i drained)

theorem getElem?_set_cases {clients : List (OutputClient Q)} (hfound : clients[i]? = some c) {j : Nat}
    {d : OutputClient Q} (hd : (clients.set i c')[j]? = some d) :
    (i = j ∧ d = c') ∨ (i ≠ j ∧ clients[j]? = some d) := by
  by_cases hij : i = j
  · subst hij
    rw [List.getElem?_set_self (List.getElem?_eq_some_iff.mp hfound).1] at hd
    exact .inl ⟨rfl, (Option.some.inj hd).symm⟩
  · rw [List.getElem?_set_ne hij] at hd
    exact .inr ⟨hij, hd⟩

theorem Changes.cases (h : Changes s t i c c' events) {j : Nat} {d : OutputClient Q}
    (hd : t.clients[j]? = some d) : (i = j ∧ d = c') ∨ (i ≠ j ∧ s.clients[j]? = some d) :=
  getElem?_set_cases h.found (h.clients ▸ hd)

/-- While client `i` is drained, the worker is at no other ring. -/
theorem Changes.idle (h : Changes s t i c c' events) (hs : s.Sound)
    (hphase : s.phase = .draining i drained) {l : DrainerLocal} (hc' : c'.ring.right = .idle l) :
    AllIdle t.clients := by
  intro d hd
  obtain ⟨j, hj⟩ := List.getElem?_of_mem hd
  obtain ⟨rfl, rfl⟩ | ⟨hij, hold⟩ := h.cases hj
  · exact ⟨l, hc'⟩
  · cases hright : d.ring.right with
    | idle l => exact ⟨l, rfl⟩
    | busy l call rest =>
        obtain ⟨drained', hdraining⟩ := hs.busy j d l call rest hold hright
        cases hphase.symm.trans hdraining
        exact absurd rfl hij

theorem Changes.sound (h : Changes s t i c c' events) (hs : s.Sound) (hc' : c'.Sound)
    (hbusy : ∀ j d l call rest, t.clients[j]? = some d → d.ring.right = .busy l call rest →
      ∃ drained, t.phase = .draining j drained) : t.Sound := by
  have hlt := (List.getElem?_eq_some_iff.mp h.found).1
  refine ⟨fun j d hd => ?_, fun e he => ?_, h.sends.unsent.trans hs.unsent, hbusy⟩
  · obtain ⟨rfl, rfl⟩ | ⟨hij, hold⟩ := h.cases hd
    · exact hc'
    · exact hs.client j d hold
  · rw [h.clients, List.length_set]
    cases h.sends.origin e he with
    | inl hold => exact hs.origin e hold
    | inr hnew => exact hnew ▸ hlt

theorem Changes.flows (h : Changes s t i c c' events)
    (hflow : Flow.Step s.Due (s.flowOf i c) (c'.flow (sentBy i s.sender.contents ++ events))) :
    Flows s t := by
  intro j d hd
  obtain ⟨rfl, rfl⟩ | ⟨hij, hold⟩ := h.cases hd
  · have hsent := h.sends.sent i
    rw [if_pos rfl] at hsent
    exact .inl ⟨c, h.found, flowOf_eq d hsent ▸ hflow⟩
  · have hsent := h.sends.sent j
    rw [if_neg hij, List.append_nil] at hsent
    exact .inl ⟨d, hold, flowOf_eq d hsent ▸ Flow.Step.stay (s.flowOf j d)⟩

/-- The flow does not change. -/
theorem Changes.stays (h : Changes s t i c c' []) (htaken : c'.ring.taken = c.ring.taken)
    (hwaiting : c'.waiting = c.waiting) : Flows s t := by
  refine h.flows ?_
  rw [OutputClient.flow, htaken, hwaiting, List.append_nil]
  exact .stay (s.flowOf i c)

/-- A step after which the worker is in no round. -/
theorem advances_of_same (hs : s.Sound) (hclients : t.clients = s.clients)
    (hcontents : t.sender.contents = s.sender.contents) (hunsent : t.sender.unsent = s.sender.unsent)
    (hbusy : ∀ i c l call rest, s.clients[i]? = some c → c.ring.right = .busy l call rest →
      ∃ drained, t.phase = .draining i drained) : Advances s t := by
  refine ⟨⟨hclients ▸ hs.client, ?_, hunsent.trans hs.unsent, hclients ▸ hbusy⟩, fun j d hd => ?_⟩
  · rw [hclients, hcontents]
    exact hs.origin
  · rw [hclients] at hd
    have hsent := flowOf_eq d (congrArg (sentBy j) hcontents)
    exact .inl ⟨d, hd, hsent ▸ Flow.Step.stay (s.flowOf j d)⟩

section Clients

theorem Sound.addClient (h : s.Sound) : Advances s { s with clients := s.clients ++ [.fresh Q] } := by
  have hnew : ∀ {j d}, (s.clients ++ [OutputClient.fresh Q])[j]? = some d →
      s.clients[j]? = some d ∨ (s.clients.length ≤ j ∧ d = .fresh Q) := by
    intro j d hd
    rw [List.getElem?_append] at hd
    split at hd
    · exact .inl hd
    · next hlt => exact .inr ⟨Nat.not_lt.mp hlt, List.mem_singleton.mp (List.mem_of_getElem? hd)⟩
  refine ⟨⟨fun j d hd => ?_, fun e he => ?_, h.unsent, fun j d l call rest hd hbusy => ?_⟩,
    fun j d hd => ?_⟩
  · obtain hold | ⟨-, rfl⟩ := hnew hd
    · exact h.client j d hold
    · exact OutputClient.fresh_sound
  · rw [List.length_append]
    exact Nat.lt_succ_of_lt (h.origin e he)
  · obtain hold | ⟨-, rfl⟩ := hnew hd
    · exact h.busy j d l call rest hold hbusy
    · cases hbusy
  · obtain hold | ⟨hlast, rfl⟩ := hnew hd
    · exact .inl ⟨d, hold, .stay _⟩
    · have hsent : sentBy j s.sender.contents = [] :=
        sentBy_eq_nil fun e he => ((h.origin e he).trans_le hlast).ne
      refine .inr ((flowOf_eq _ hsent).trans ?_)
      rw [OutputClient.flow, OutputClient.waiting, OutputClient.fresh, Q.elements_empty,
        Multiset.map_zero]
      rfl

/-- A step on the ring of one client, by the client or in the round of a drain. -/
theorem Sound.setRing (h : s.Sound) (hfound : s.clients[i]? = some c) {ring : ClientRing}
    {a : Party.Action ringInterface ⊕ Party.Action ringInterface}
    (hstep : (clientRing defaultRingBufferSize).Step c.ring a ring)
    (htaken : ring.taken = c.ring.taken)
    (hfull : ∀ l call rest, ring.right = .busy l call rest → call.full = c.isPendingFull)
    (hbusy : ∀ l call rest, ring.right = .busy l call rest → ∃ drained, s.phase = .draining i drained)
    (eventFd : Bool) : Advances s { s.setClient i { c with ring } with eventFd } := by
  have hchanges : Changes s { s.setClient i { c with ring } with eventFd } i c { c with ring } [] :=
    ⟨hfound, rfl, .nothing i s.sender⟩
  refine ⟨hchanges.sound h ((h.client i c hfound).ringStep hstep hfull) ?_,
    hchanges.stays htaken rfl⟩
  intro j d l call rest hd hright
  obtain ⟨rfl, rfl⟩ | ⟨hij, hold⟩ := hchanges.cases hd
  · exact hbusy l call rest hright
  · exact h.busy j d l call rest hold hright

theorem right_of_client_step {ring ring' : ClientRing} {a : Party.Action ringInterface}
    (h : (clientRing defaultRingBufferSize).Step ring (.inl a) ring') : ring'.right = ring.right := by
  cases h
  rfl

theorem Sound.clientWrote (h : s.Sound) (hfound : s.clients[i]? = some c) {ring : ClientRing}
    {a : Party.Action ringInterface}
    (hstep : (clientRing defaultRingBufferSize).Step c.ring (.inl a) ring) :
    Advances s (s.clientWrote i c ring a) := by
  have hright := right_of_client_step hstep
  refine h.setRing hfound hstep (ClientRing.taken_congr hright) ?_ ?_ _
  · exact fun l call rest hbusy => (h.client i c hfound).full l call rest (hright ▸ hbusy)
  · exact fun l call rest hbusy => h.busy i c l call rest hfound (hright ▸ hbusy)

end Clients

section Drain

variable {ring : ClientRing} {l : DrainerLocal}

theorem beginRound_step (call : DrainCall) (hidle : ring.right = .idle l) :
    (clientRing defaultRingBufferSize).Step ring (.inr .start) (ring.beginRound l call) := by
  obtain ⟨left, right, shared⟩ := ring
  obtain rfl : right = .idle l := hidle
  exact .right (.start trivial)

theorem Sound.startRound (h : s.Sound) (hphase : s.phase = .draining i drained)
    (hfound : s.clients[i]? = some c) (hidle : c.ring.right = .idle l) :
    Advances s (s.setClient i { c with ring := c.ring.beginRound l (drainCall c drained) }) := by
  refine h.setRing hfound (beginRound_step (drainCall c drained) hidle) ?_ ?_
    (fun _ _ _ _ => ⟨drained, hphase⟩) s.eventFd
  · rw [ClientRing.taken_idle hidle]
    rfl
  · intro l' call rest hbusy
    cases hbusy
    rfl

theorem right_of_ringAccess {ring ring' : ClientRing} {cmd : RingCmd}
    (h : (clientRing defaultRingBufferSize).Step ring (.inr (.command cmd)) ring') :
    ∃ l call rest rest', ring.right = .busy l call rest ∧ ring'.right = .busy l call rest' := by
  cases h with
  | right hp =>
      cases hp with
      | command => exact ⟨_, _, _, _, rfl, rfl⟩

theorem Sound.ringAccess (h : s.Sound) (hphase : s.phase = .draining i drained)
    (hfound : s.clients[i]? = some c) {cmd : RingCmd}
    (hstep : (clientRing defaultRingBufferSize).Step c.ring (.inr (.command cmd)) ring) :
    Advances s (s.setClient i { c with ring }) := by
  obtain ⟨l, call, rest, rest', hbefore, hafter⟩ := right_of_ringAccess hstep
  refine h.setRing hfound hstep ?_ ?_ (fun _ _ _ _ => ⟨drained, hphase⟩) s.eventFd
  · rw [ClientRing.taken_busy hbefore, ClientRing.taken_busy hafter]
  · intro l' call' rest'' hbusy
    cases hafter.symm.trans hbusy
    exact (h.client i c hfound).full l call rest hbefore

variable {call : DrainCall} {event : MidiEvent}

/-- The worker has what it took in the queue of the client or sent it on. -/
theorem Sound.finishRound (h : s.Sound) (hphase : s.phase = .draining i drained)
    (hfound : s.clients[i]? = some c) {round : DrainRound}
    (hbusy : c.ring.right = .busy l call (.ret round)) :
    Advances s (s.finishRound i drained { c with ring := c.ring.endRound l round } round) := by
  have hclient := h.client i c hfound
  have hend := hclient.endRound hbusy
  cases round with
  | stopped reason =>
      have hchanges : Changes s (s.finishRound i drained
          { c with ring := c.ring.endRound l (.stopped reason) } (.stopped reason)) i c
          { c with ring := c.ring.endRound l (.stopped reason), ended := some reason } [] :=
        ⟨hfound, rfl, .nothing i s.sender⟩
      refine ⟨hchanges.sound h (hend.ended (some reason)) ?_,
        hchanges.stays (ClientRing.taken_busy hbusy).symm rfl⟩
      exact busy_of_idle (hchanges.idle h hphase rfl)
  | took event =>
      obtain ⟨hfits, hroom⟩ := hclient.tookEvent hbusy
      have htaken := OutputClient.taken_endRound hbusy
      by_cases hzero : event.timestamp = 0
      · rw [OutputConnection.finishRound, if_pos hzero]
        have hchanges : Changes s (s.consumeRealtimeEvent i drained
            { c with ring := c.ring.endRound l (.took event) } event) i c
            { c with ring := c.ring.endRound l (.took event) } (Flow.onward event) :=
          ⟨hfound, rfl, .forward i s.sender hfits⟩
        refine ⟨hchanges.sound h hend (busy_of_idle (hchanges.idle h hphase rfl)),
          hchanges.flows ?_⟩
        rw [OutputClient.flow, htaken]
        exact .pass event hzero
      · have hfull : ({ c with ring := c.ring.endRound l (.took event) } :
            OutputClient Q).isPendingFull = false := hroom hzero
        have hpush := hend.push rfl hfull hfits
        rw [OutputConnection.finishRound, if_neg hzero, consumeNonRealtimeEvent,
          OutputClient.enqueueNonRealtime, hfull]
        have hchanges : Changes s { s with
            clients := s.clients.set i { c with
              ring := c.ring.endRound l (.took event)
              pending := Q.push c.pending (.ofEvent event) }
            phase := .draining i (drained + 1) } i c
            { c with
              ring := c.ring.endRound l (.took event)
              pending := Q.push c.pending (.ofEvent event) } [] :=
          ⟨hfound, rfl, .nothing i s.sender⟩
        refine ⟨hchanges.sound h hpush (busy_of_idle (hchanges.idle h hphase rfl)),
          hchanges.flows ?_⟩
        rw [OutputClient.flow, htaken, OutputClient.waiting, OutputClient.waiting_push,
          List.append_nil]
        exact .queue event hzero

end Drain

section Collection

theorem zipWith_pendings (clients : List (OutputClient Q)) :
    List.zipWith (fun c pending => { c with pending }) clients
      (clients.map OutputClient.pending) = clients := by
  induction clients with
  | nil => rfl
  | cons c rest ih => rw [List.map_cons, List.zipWith_cons_cons, ih]

theorem zipWith_pendings_set {clients : List (OutputClient Q)} (hfound : clients[i]? = some c)
    (q : Q.Queue) :
    List.zipWith (fun c pending => { c with pending }) clients
      ((clients.map OutputClient.pending).set i q) = clients.set i { c with pending := q } := by
  induction clients generalizing i with
  | nil => cases hfound
  | cons d rest ih =>
      cases i with
      | zero =>
          obtain rfl : d = c := Option.some.inj hfound
          rw [List.map_cons, List.set_cons_zero, List.zipWith_cons_cons, zipWith_pendings,
            List.set_cons_zero]
      | succ i =>
          rw [List.map_cons, List.set_cons_succ, List.zipWith_cons_cons, ih hfound,
            List.set_cons_succ]

/-- A round that takes a due event of client `i`. -/
structure Collects (s t : OutputConnection Q) (now : Int) (i : Nat) (c : OutputClient Q)
    (e : PendingEvent) : Prop where
  found : s.clients[i]? = some c
  top : Q.top c.pending = some e
  due : e.due ≤ now
  clients : t.clients = s.clients.set i { c with pending := Q.pop c.pending }
  sender : t.sender = (s.sender.forward ⟨i, e.event⟩).1

/-- A round of the collection takes a due event or ends the loop. -/
theorem collect_cases (s : OutputConnection Q) (now : Int) :
    (s.collect now = { s with phase := .flushing } ∧
        ∀ c ∈ s.clients, ∀ e ∈ Q.elements c.pending, now < e.due) ∨
      ∃ i c e now', Collects s (s.collect now) now i c e ∧ (now' = s.now ∨ now' = now) ∧
        s.collect now = { s with
          clients := (s.collect now).clients
          sender := (s.collect now).sender
          phase := .collecting now' } := by
  unfold collect
  split
  · next t read hround =>
      obtain ⟨⟨i, q, e, took⟩, hnow⟩ := collectRound_eq_some hround
      have htime : t.now = s.now ∨ t.now = now := by
        rw [hnow]
        split
        · exact .inl rfl
        · exact .inr rfl
      have hfound := took.found
      rw [show (⟨s.pendings, s.sender, now⟩ : Collecting Q maxSendCacheBytes).clients = s.pendings
        from rfl, pendings, List.getElem?_map] at hfound
      obtain ⟨c, hc, rfl⟩ := Option.map_eq_some_iff.mp hfound
      refine .inr ⟨i, c, e, t.now, ⟨hc, took.top, took.due, ?_, took.sender⟩, htime, rfl⟩
      change List.zipWith _ s.clients t.clients = _
      rw [took.clients]
      exact zipWith_pendings_set hc _
  · next hround =>
      refine .inl ⟨rfl, fun c hc e he => ?_⟩
      exact collectRound_eq_none hround c.pending (List.mem_map_of_mem hc) e he

theorem Sound.collect (h : s.Sound) {now : Int} (hphase : s.phase = .collecting now) :
    Advances s (s.collect now) := by
  have hidle := h.idle fun i drained hdraining => by cases hphase.symm.trans hdraining
  obtain ⟨hend, -⟩ | ⟨i, c, e, now', hcollects, -⟩ := collect_cases s now
  · rw [hend]
    exact advances_of_same h rfl rfl rfl (busy_of_idle hidle)
  · have hclient := h.client i c hcollects.found
    obtain ⟨l, hl⟩ := hidle c (List.mem_of_getElem? hcollects.found)
    have hpop := OutputClient.waiting_pop hcollects.top
    have hfits := hclient.fits e.event (hpop ▸ Multiset.mem_cons_self _ _)
    have hchanges : Changes s (s.collect now) i c { c with pending := Q.pop c.pending }
        (Flow.onward e.event) :=
      ⟨hcollects.found, hcollects.clients, hcollects.sender ▸ .forward i s.sender hfits⟩
    refine ⟨hchanges.sound h (hclient.pop hl hcollects.top) (busy_of_idle ?_), hchanges.flows ?_⟩
    · rw [hcollects.clients]
      intro d hd
      cases List.mem_or_eq_of_mem_set hd with
      | inl hold => exact hidle d hold
      | inr hnew => exact hnew ▸ ⟨l, hl⟩
    · rw [flowOf, OutputClient.flow, hpop]
      exact .deliver e.event ⟨now, hphase, e.timed ▸ hcollects.due⟩

theorem noticed_idle {l : DrainerLocal} (hidle : c.ring.right = .idle l) :
    c.noticed.ring.right = .idle { l with seen := c.ring.shared.appended.length } := by
  rw [OutputClient.noticed, ClientRing.noticed, hidle]

theorem Sound.wake (h : s.Sound) (hphase : s.phase = .waiting) (expired : Bool) :
    Advances s (s.wake expired) := by
  have hidle := h.idle fun i drained hdraining => by cases hphase.symm.trans hdraining
  have hnoticed : ∀ {j : Nat} {d' : OutputClient Q}, (s.clients.map OutputClient.noticed)[j]? = some d' →
      ∃ (d : OutputClient Q) (l : DrainerLocal), s.clients[j]? = some d ∧ d.ring.right = .idle l ∧ d' = d.noticed := by
    intro j d' hd'
    rw [List.getElem?_map] at hd'
    obtain ⟨d, hd, rfl⟩ := Option.map_eq_some_iff.mp hd'
    obtain ⟨l, hl⟩ := hidle d (List.mem_of_getElem? hd)
    exact ⟨d, l, hd, hl, rfl⟩
  refine ⟨⟨fun j d' hd' => ?_, fun e he => ?_, h.unsent, fun j d' l call rest hd' hbusy => ?_⟩,
    fun j d' hd' => ?_⟩
  · obtain ⟨d, l, hd, hl, rfl⟩ := hnoticed hd'
    exact (h.client j d hd).noticed hl
  · change e.client < (s.clients.map OutputClient.noticed).length
    rw [List.length_map]
    exact h.origin e he
  · obtain ⟨d, l', hd, hl', rfl⟩ := hnoticed hd'
    cases (noticed_idle hl').symm.trans hbusy
  · obtain ⟨d, l, hd, hl, rfl⟩ := hnoticed hd'
    have htaken : d.noticed.ring.taken = d.ring.taken := by
      rw [ClientRing.taken_idle (noticed_idle hl), ClientRing.taken_idle hl]
    have hsame : d.noticed.flow (sentBy j s.sender.contents) = s.flowOf j d := by
      rw [OutputClient.flow, htaken]
      rfl
    refine .inl ⟨d, hd, ?_⟩
    change Flow.Step s.Due (s.flowOf j d) (d.noticed.flow (sentBy j s.sender.contents))
    rw [hsame]
    exact .stay _

end Collection

section Runs

theorem Sound.step (h : s.Sound) {a : Action} (hstep : Step s a t) : Advances s t := by
  cases hstep with
  | addClient free => exact h.addClient
  | tick now later inRange => exact advances_of_same h rfl rfl rfl h.busy
  | client found step => exact h.clientWrote found step
  | wake expired waits => exact h.wake waits expired
  | startRound drains found idle => exact h.startRound drains found idle
  | ringAccess drains found step => exact h.ringAccess drains found step
  | finishRound drains found busy => exact h.finishRound drains found busy
  | drained drains last =>
      refine advances_of_same h rfl rfl rfl fun i c l call rest hfound hbusy => ?_
      obtain ⟨drained, hdraining⟩ := h.busy i c l call rest hfound hbusy
      have hlt := (List.getElem?_eq_some_iff.mp hfound).1
      cases drains.symm.trans hdraining
      exact absurd hlt (Nat.not_lt.mpr last)
  | startCollect after =>
      exact advances_of_same h rfl rfl rfl
        (busy_of_idle (h.idle fun i drained hd => by cases after.symm.trans hd))
  | collect collects => exact h.collect collects
  | flush flushes =>
      exact advances_of_same h rfl s.sender.contents_flush s.sender.unsent_flush
        (busy_of_idle (h.idle fun i drained hd => by cases flushes.symm.trans hd))
  | arm arms =>
      exact advances_of_same h rfl rfl rfl
        (busy_of_idle (h.idle fun i drained hd => by cases arms.symm.trans hd))

variable {cond : OutputConnection Q → Action → Prop}

theorem sound_of_reachable (reach : (machine Q).ReachableWith cond s) : s.Sound := by
  refine reach.invariant Sound ?_ fun s a t _ h _ hstep => (h.step hstep).sound
  rintro ⟨clients, sender, phase, eventFd, timer, now⟩ ⟨rfl, rfl, -⟩
  exact ⟨fun i c hc => (by cases hc), fun e he => (by cases he), rfl,
    fun i c l call rest hc _ => (by cases hc)⟩

/-- What holds of a flow at the start and is kept by its steps holds of the events of each client,
in every run. -/
theorem flow_invariant (P : Flow → Prop) (hstart : P Flow.start)
    (hstep : ∀ s a i c f, (machine Q).ReachableWith cond s → cond s a → s.clients[i]? = some c →
      P (s.flowOf i c) → Flow.Step s.Due (s.flowOf i c) f → P f)
    (reach : (machine Q).ReachableWith cond s) (hfound : s.clients[i]? = some c) :
    P (s.flowOf i c) := by
  refine reach.invariant (fun s => ∀ i c, s.clients[i]? = some c → P (s.flowOf i c)) ?_ ?_ i c hfound
  · rintro ⟨clients, sender, phase, eventFd, timer, now⟩ ⟨rfl, -⟩ i c hc
    cases hc
  · intro s a t reach ih meets hmove j d' hd'
    obtain ⟨d, hd, hflow⟩ | hnew := ((sound_of_reachable reach).step hmove).flows j d' hd'
    · exact hstep s a j d _ reach meets hd (ih j d hd) hflow
    · exact hnew ▸ hstart

theorem accounted_of_reachable (reach : (machine Q).ReachableWith cond s)
    (hfound : s.clients[i]? = some c) : (s.flowOf i c).Accounted :=
  flow_invariant Flow.Accounted Flow.accounted_start
    (fun _ _ _ _ _ _ _ _ h hstep => h.step hstep) reach hfound

end Runs

end OutputConnection

section Committed

variable {c : OutputClient Q} {l : DrainerLocal} {call : DrainCall} {round : DrainRound}

theorem DrainedRound.taken_le {ok : UInt32 → Prop} {cap : Nat} {s : RingState}
    (h : DrainedRound ok cap l call round s) :
    l.taken <+: s.appended.map Record.toMidiEvent := by
  obtain ⟨K, A, hdone, hK, -⟩ := h
  rw [← hK]
  cases hdone with
  | took r x reading size unfilled =>
      exact ((List.prefix_append K [x]).trans reading.taken_le).map _
  | nothing r reading drained => exact reading.taken_le.map _
  | budget r reading spent => exact reading.taken_le.map _
  | pendingFull r reading full => exact reading.taken_le.map _

theorem DrainedRound.removed_le {ok : UInt32 → Prop} {cap : Nat} {s : RingState}
    (h : DrainedRound ok cap l call round s) : s.removed ≤ l.taken.length + 1 := by
  obtain ⟨K, A, hdone, hK, -⟩ := h
  have hlength : K.length = l.taken.length := by rw [← hK, List.length_map]
  cases hdone with
  | took r x reading size unfilled =>
      rw [← reading.length_le, List.length_append, List.length_singleton, hlength]
  | nothing r reading drained => exact (reading.length_le.symm.trans hlength).le.trans (Nat.le_succ _)
  | budget r reading spent => exact (reading.length_le.symm.trans hlength).le.trans (Nat.le_succ _)
  | pendingFull r reading full =>
      exact (reading.length_le.symm.trans hlength).le.trans (Nat.le_succ _)

theorem removed_le_run {α : Type} (p : RingProgram α) (s : RingState) :
    s.removed ≤ (p.run execTraced s).2.removed := by
  induction p generalizing s with
  | ret a => exact le_rfl
  | op cmd k ih =>
      have hstep : s.removed ≤ (execTraced cmd s).2.removed := by
        change s.removed ≤ cmd.removedAfter s
        unfold RingCmd.removedAfter
        split
        · exact Nat.le_succ _
        · exact le_rfl
      exact hstep.trans (ih _ _)

namespace OutputClient

/-- What holds within a round. -/
theorem Sound.withinRound (h : c.Sound) {rest : RingProgram DrainRound}
    (hbusy : c.ring.right = .busy l call rest) :
    (readerRole (fun _ => True) defaultRingBufferSize).Sat
      (DrainedRound (fun _ => True) defaultRingBufferSize l call) rest c.ring.shared := by
  have hright := h.ring.2
  rw [hbusy] at hright
  exact hright

/-- What holds between two rounds. -/
theorem Sound.betweenRounds (h : c.Sound) (hidle : c.ring.right = .idle l) :
    ∃ r K A, Reading (fun _ => True) defaultRingBufferSize r K A c.ring.shared ∧
      c.ring.taken = K.map Record.toMidiEvent := by
  have hright := h.ring.2
  rw [hidle] at hright
  obtain ⟨r, K, A, hreading, hK, -⟩ := hright
  exact ⟨r, K, A, hreading, (ClientRing.taken_idle hidle).trans hK.symm⟩

/-- The events the worker took are the first that the client published. -/
theorem Sound.taken_published (h : c.Sound) : c.ring.taken <+: c.ring.published := by
  cases hcontrol : c.ring.right with
  | idle l =>
      obtain ⟨r, K, A, hreading, htaken⟩ := h.betweenRounds hcontrol
      rw [htaken]
      exact hreading.taken_le.map _
  | busy l call rest =>
      have hsat := h.withinRound hcontrol
      have hend := hsat.run.taken_le
      have hmoves : ReaderMoves (fun _ => True) defaultRingBufferSize c.ring.shared _ :=
        hsat.run_within ReaderMoves.refl ReaderMoves.trans fun c s t hg => hg.moves
      rw [ClientRing.taken_busy hcontrol, ClientRing.published, ← hmoves.appended]
      exact hend

/-- Between two rounds the worker has taken what it committed. -/
theorem Sound.taken_committed (h : c.Sound) (hidle : c.ring.right = .idle l) :
    c.ring.taken = (c.ring.shared.appended.take c.ring.shared.removed).map Record.toMidiEvent := by
  obtain ⟨r, K, A, hreading, htaken⟩ := h.betweenRounds hidle
  rw [htaken, ← hreading.taken]

/-- At any moment at most one committed event is still in the worker's hands. -/
theorem Sound.removed_le (h : c.Sound) : c.ring.shared.removed ≤ c.ring.taken.length + 1 := by
  cases hcontrol : c.ring.right with
  | idle l =>
      obtain ⟨r, K, A, hreading, htaken⟩ := h.betweenRounds hcontrol
      rw [htaken, List.length_map, hreading.length_le]
      exact Nat.le_succ _
  | busy l call rest =>
      have hsat := h.withinRound hcontrol
      rw [ClientRing.taken_busy hcontrol]
      exact (removed_le_run rest c.ring.shared).trans hsat.run.removed_le

end OutputClient

end Committed

namespace OutputConnection

/-- Where the events of `c`, which is the client at the place `i`, are. Between two rounds of a drain
the worker has what it committed, and within a round it may have one event in its hands. Each event
with a payload that it took is in one of the client's queue, the send cache and what was handed to
the driver, once and as it was. The driver gets those without a timestamp in the order in which the
client published them. -/
structure Conserves (sender : OutputSender maxSendCacheBytes) (i : Nat) (c : OutputClient Q) :
    Prop where
  committed : ∀ l, c.ring.right = .idle l → c.ring.taken =
    (c.ring.shared.appended.take c.ring.shared.removed).map Record.toMidiEvent
  inHands : c.ring.shared.removed ≤ c.ring.taken.length + 1
  published : c.ring.taken <+: c.ring.published
  accounts : (c.ring.taken.filter HasPayload : Multiset MidiEvent) =
    c.waiting.filter HasPayload + (sentBy i sender.cached : Multiset MidiEvent) +
      (sentBy i sender.handed.flatten : Multiset MidiEvent)
  untimed : (sentBy i sender.handed.flatten).filter (fun e => e.timestamp = 0) <+:
    c.ring.published.filter fun e => HasPayload e ∧ e.timestamp = 0

variable {s : OutputConnection Q} {i : Nat} {c : OutputClient Q}

theorem sentBy_contents (i : Nat) (sender : OutputSender maxSendCacheBytes) :
    sentBy i sender.contents = sentBy i sender.handed.flatten ++ sentBy i sender.cached :=
  sentBy_append i _ _

/-- What was sent on has a payload. -/
theorem filter_sent {f : Flow} (h : f.Accounted) : f.sent.filter (fun e => e.timestamp = 0) = Flow.ofTime 0 f.sent := by
  refine List.filter_congr fun e he => ?_
  have hmem : e ∈ (f.taken.filter HasPayload : Multiset MidiEvent) :=
    h.accounts ▸ Multiset.mem_add.mpr (.inr he)
  have hpayload : HasPayload e := of_decide_eq_true (List.mem_filter.mp hmem).2
  rw [decide_eq_decide]
  exact ⟨fun hzero => ⟨hpayload, hzero⟩, fun hboth => hboth.2⟩

theorem conserves_of_reachable {cond : OutputConnection Q → Action → Prop}
    (reach : (machine Q).ReachableWith cond s) (hfound : s.clients[i]? = some c) :
    Conserves s.sender i c := by
  have hclient := (sound_of_reachable reach).client i c hfound
  have haccounted := accounted_of_reachable reach hfound
  have hsplit := sentBy_contents i s.sender
  refine ⟨fun l hidle => hclient.taken_committed hidle, hclient.removed_le, hclient.taken_published,
    ?_, ?_⟩
  · have haccounts := haccounted.accounts
    change (c.ring.taken.filter HasPayload : Multiset MidiEvent) =
      c.waiting.filter HasPayload + (sentBy i s.sender.contents : Multiset MidiEvent) at haccounts
    rw [haccounts, hsplit, ← Multiset.coe_add, Multiset.add_assoc]
    exact congrArg _ (Multiset.add_comm _ _)
  · have hsent := (filter_sent haccounted).trans haccounted.untimed
    change (sentBy i s.sender.contents).filter _ = Flow.ofTime 0 c.ring.taken at hsent
    rw [hsplit, List.filter_append] at hsent
    exact (hsent ▸ List.prefix_append _ _).trans (hclient.taken_published.filter _)

/-- In every run no event is lost, sent twice or changed, and `SendToDriver` is not reached. -/
theorem output_conservation (Q : PendingQueue) (s : OutputConnection Q)
    (reach : (machine Q).Reachable s) :
    s.sender.unsent = [] ∧ ∀ i c, s.clients[i]? = some c → Conserves s.sender i c :=
  ⟨(sound_of_reachable reach).unsent, fun _ _ hfound => conserves_of_reachable reach hfound⟩

/-- A wakeup with an event without a timestamp between two scheduled ones, of which one is due. -/
theorem output_conservation_wakeup :
    ∃ s : OutputConnection binaryPendingQueue, (machine binaryPendingQueue).Reachable s ∧
      s.sender.handed = [[⟨0, ⟨0, [2]⟩⟩, ⟨0, ⟨7, [1]⟩⟩]] ∧
      s.sender.unsent = [] ∧ ∀ i c, s.clients[i]? = some c → Conserves s.sender i c :=
  have hreach := reachable_afterWakeup (Q := binaryPendingQueue) (fun _ => True)
    10 (by decide) [⟨7, [1]⟩, ⟨0, [2]⟩, ⟨50, [3]⟩] 1
  ⟨_, hreach, by decide +kernel, output_conservation binaryPendingQueue _ hreach⟩

end OutputConnection

end MidiFramework.Server
