import MidiFramework.Server.OutputFlush

/-!
# What is sent on after a flush

A flush under way may be taken to have come to its end at once: no other access
meets the ring before. After a flush the ring is a sound one with nothing unread.
What the worker takes from then on is, event by event, in the client's queue or sent
on, and nothing that was written before is sent on any more, apart from what had
been sent on already.
-/

namespace MidiFramework.Server

open Foundation PriorityQueue SharedRing

variable {Q : PendingQueue}

/-! ### A flush in one step -/

namespace OutputClient

variable {c : OutputClient Q} {accepted : List MidiEvent} {l : DrainerLocal}

theorem flushed_shared (hflag : c.ring.shared.mem.flushFlag = 0) (tries : Nat) :
    (c.flushed tries).ring.shared =
      ⟨⟨0, 0, 0, c.ring.shared.mem.data.clear defaultRingBufferSize⟩,
        c.ring.shared.appended.take c.ring.shared.removed, c.ring.shared.removed⟩ := by
  rw [flushed, run_flush defaultRingBufferSize tries hflag]
  rfl

/-- A client that is in no call, at whose ring the worker is not, is sound after the flush. -/
theorem Sound.flushed (h : c.Sound) (hreads : c.ring.right = .idle l)
    (hflag : c.ring.shared.mem.flushFlag = 0) (tries : Nat) : (c.flushed tries).Sound := by
  have hright := h.ring.2
  rw [hreads] at hright
  obtain ⟨r, K, A, hreading, hK, -⟩ := hright
  have hle := hreading.inv.removed_le
  have hshared := flushed_shared hflag tries
  have hinv : RingState.Inv (fun _ => True) defaultRingBufferSize (c.flushed tries).ring.shared := by
    rw [hshared]
    refine ⟨?_, ?_⟩
    · change Layout _ _ _ 0 0 ((c.ring.shared.appended.take c.ring.shared.removed).drop
        c.ring.shared.removed)
      rw [List.drop_take_self]
      exact Layout.empty (by decide) (Nat.dvd_zero 8)
    · change c.ring.shared.removed ≤ (c.ring.shared.appended.take c.ring.shared.removed).length
      rw [List.length_take, Nat.min_eq_left hle]
  have htaken : (c.ring.shared.appended.take c.ring.shared.removed).map Record.toMidiEvent =
      c.ring.taken := by
    rw [hreading.taken, hK, ClientRing.taken_idle hreads]
  refine ⟨⟨⟨0, _, _, ⟨hinv, ?_, rfl, rfl⟩, ?_⟩, 0, K, _, ⟨hinv, ?_, ?_, List.prefix_refl _⟩, ?_, ?_⟩,
    fun _ _ _ hbusy => (by cases hbusy), ?_, fun e he => ?_⟩
  · rw [hshared]
    rfl
  · rw [hshared]
    exact htaken
  · rw [hshared]
    rfl
  · rw [hshared]
    change (c.ring.shared.appended.take c.ring.shared.removed).take c.ring.shared.removed = K
    rw [List.take_take, Nat.min_self, hreading.taken]
  · exact hK.trans (ClientRing.taken_idle hreads).symm
  · rw [hshared, ← htaken, List.length_map]
  · change (Q.elements Q.empty).card ≤ maxPending
    rw [Q.elements_empty, Multiset.card_zero]
    exact Nat.zero_le _
  · change e ∈ (Q.elements Q.empty).map PendingEvent.event at he
    rw [Q.elements_empty, Multiset.map_zero] at he
    exact absurd he (Multiset.notMem_zero e)

end OutputClient

namespace OutputConnection

variable {s t : OutputConnection Q} {i : Nat} {c c' : OutputClient Q} {a : Action}

/-- What a step does to the ring of client `i`: an access of the client or of the worker, or nothing
to what the two share. -/
structure RingStep (i : Nat) (a : Action) (ring ring' : ClientRing) : Prop where
  taken : ring.taken <+: ring'.taken
  moves : ring'.left = ring.left ∧ ring'.shared = ring.shared ∨
    (∃ b, a = .client i b ∧ (clientRing defaultRingBufferSize).Step ring (.inl b) ring') ∨
      ∃ cmd, (clientRing defaultRingBufferSize).Step ring (.inr (.command cmd)) ring' ∧
        ring'.left = ring.left

theorem RingStep.stays (i : Nat) (a : Action) (ring : ClientRing) : RingStep i a ring ring :=
  ⟨List.prefix_refl _, .inl ⟨rfl, rfl⟩⟩

theorem left_of_ringAccess {ring ring' : ClientRing} {cmd : RingCmd}
    (h : (clientRing defaultRingBufferSize).Step ring (.inr (.command cmd)) ring') :
    ring'.left = ring.left := by
  cases h
  rfl

theorem ring_of_finishRound (s : OutputConnection Q) (i drained : Nat) (c : OutputClient Q)
    (round : DrainRound) : ∃ c', (s.finishRound i drained c round).clients = s.clients.set i c' ∧
      c'.ring = c.ring := by
  cases round with
  | stopped reason => exact ⟨_, rfl, rfl⟩
  | took event =>
      unfold finishRound
      dsimp only
      split
      · exact ⟨c, rfl, rfl⟩
      · unfold consumeNonRealtimeEvent OutputClient.enqueueNonRealtime
        split
        · next c' h =>
            split at h
            · cases h
            · cases h
              exact ⟨_, rfl, rfl⟩
        · exact ⟨_, rfl, rfl⟩

theorem ring_of_step (hstep : Step s a t) (hfound : t.clients[i]? = some c') :
    (s.clients.length ≤ i ∧ c' = .fresh Q) ∨
      ∃ c, s.clients[i]? = some c ∧ RingStep i a c.ring c'.ring := by
  have hset : ∀ {j : Nat} {d d' : OutputClient Q}, s.clients[j]? = some d →
      (s.clients.set j d')[i]? = some c' → (i = j → RingStep i a d.ring d'.ring) →
      ∃ c, s.clients[i]? = some c ∧ RingStep i a c.ring c'.ring := by
    intro j d d' hd hd' hmoves
    obtain ⟨rfl, rfl⟩ | ⟨-, hold⟩ := getElem?_set_cases hd hd'
    · exact ⟨d, hd, hmoves rfl⟩
    · exact ⟨c', hold, .stays i a c'.ring⟩
  cases hstep with
  | addClient free =>
      change (s.clients ++ [_])[i]? = some c' at hfound
      rw [List.getElem?_append] at hfound
      split at hfound
      · exact .inr ⟨c', hfound, .stays i _ c'.ring⟩
      · next hlt =>
          exact .inl ⟨Nat.not_lt.mp hlt, List.mem_singleton.mp (List.mem_of_getElem? hfound)⟩
  | client found step =>
      refine .inr (hset found hfound fun hij => ?_)
      subst hij
      have hright := right_of_client_step step
      exact ⟨ClientRing.taken_congr hright ▸ List.prefix_refl _, .inr (.inl ⟨_, rfl, step⟩)⟩
  | wake expired waits =>
      change (s.clients.map OutputClient.noticed)[i]? = some c' at hfound
      rw [List.getElem?_map] at hfound
      obtain ⟨c, hc, rfl⟩ := Option.map_eq_some_iff.mp hfound
      refine .inr ⟨c, hc, ?_⟩
      obtain ⟨⟨left, right, shared⟩, pending, ended⟩ := c
      cases right with
      | idle l => exact ⟨List.prefix_refl _, .inl ⟨rfl, rfl⟩⟩
      | busy l call rest => exact .stays i _ _
  | startRound drains found idle =>
      refine .inr (hset found hfound fun _ => ⟨?_, .inl ⟨rfl, rfl⟩⟩)
      rw [ClientRing.taken_idle idle]
      exact List.prefix_refl _
  | @ringAccess j drained c ring cmd drains found step =>
      refine .inr (hset found hfound fun _ => ?_)
      obtain ⟨l, call, rest, rest', hbefore, hafter⟩ := right_of_ringAccess step
      have htaken : c.ring.taken = ClientRing.taken ring := by
        rw [ClientRing.taken_busy hbefore, ClientRing.taken_busy hafter]
      exact ⟨htaken ▸ List.prefix_refl _, .inr (.inr ⟨cmd, step, left_of_ringAccess step⟩)⟩
  | @finishRound j drained c l call round drains found busy =>
      obtain ⟨d, hclients, hring⟩ := ring_of_finishRound s j drained
        { c with ring := c.ring.endRound l round } round
      rw [hclients] at hfound
      refine .inr (hset found hfound fun _ => ?_)
      rw [hring]
      refine ⟨?_, .inl ⟨rfl, rfl⟩⟩
      rw [ClientRing.taken_busy busy]
      change l.taken <+: (l.after round).taken
      cases round with
      | took event => exact List.prefix_append _ _
      | stopped reason => exact List.prefix_refl _
  | @collect now collects =>
      obtain ⟨hend, -⟩ | ⟨j, d, e, now', hcollects, -⟩ := collect_cases s now
      · rw [hend] at hfound
        exact .inr ⟨c', hfound, .stays i _ c'.ring⟩
      · rw [hcollects.clients] at hfound
        exact .inr (hset hcollects.found hfound fun _ => .stays i _ d.ring)
  | _ => exact .inr ⟨c', hfound, .stays i _ c'.ring⟩

theorem length_le_of_step (hstep : Step s a t) : s.clients.length ≤ t.clients.length := by
  cases hstep with
  | addClient free => simp
  | client found step => exact List.length_set.ge
  | wake expired waits => exact (List.length_map _).ge
  | startRound drains found idle => exact List.length_set.ge
  | ringAccess drains found step => exact List.length_set.ge
  | @finishRound j drained c l call round drains found busy =>
      obtain ⟨d, hclients, -⟩ := ring_of_finishRound s j drained
        { c with ring := c.ring.endRound l round } round
      rw [hclients, List.length_set]
  | @collect now collects =>
      obtain ⟨hend, -⟩ | ⟨j, d, e, now', hcollects, -⟩ := collect_cases s now
      · rw [hend]
      · rw [hcollects.clients, List.length_set]
  | _ => exact Nat.le_refl _

/-- What was sent on stays sent on. -/
theorem contents_of_step (hstep : Step s a t) : s.sender.contents <+: t.sender.contents := by
  have hforward : ∀ e : OutputEvent, s.sender.contents <+: (s.sender.forward e).1.contents := by
    intro e
    rw [OutputSender.contents_forward]
    exact List.prefix_append _ _
  cases hstep with
  | @finishRound j drained c l call round drains found busy =>
      cases round with
      | stopped reason => exact List.prefix_refl _
      | took event =>
          unfold finishRound
          dsimp only
          split
          · exact hforward _
          · unfold consumeNonRealtimeEvent
            split <;> exact List.prefix_refl _
  | @collect now collects =>
      obtain ⟨hend, -⟩ | ⟨j, d, e, now', hcollects, -⟩ := collect_cases s now
      · rw [hend]
      · rw [hcollects.sender]
        exact hforward _
  | flush flushes => exact s.sender.contents_flush ▸ List.prefix_refl _
  | _ => exact List.prefix_refl _

theorem sentBy_of_step (hstep : Step s a t) (i : Nat) :
    sentBy i s.sender.contents <+: sentBy i t.sender.contents :=
  ((contents_of_step hstep).filter _).map _

/-- The flag of a ring is left alone by the client and the worker. -/
theorem RingStep.flag {ring' : ClientRing} (h : RingStep i a c.ring ring') (hsound : c.Sound) :
    ring'.shared.mem.flushFlag = c.ring.shared.mem.flushFlag := by
  obtain ⟨-, hshared⟩ | ⟨b, -, hstep⟩ | ⟨cmd, hstep, -⟩ := h.moves
  · rw [hshared]
  · have hguarantee := hsound.ring.stepGuarantee rfl rfl hstep
    cases b with
    | start => exact congrArg (fun s : RingState => s.mem.flushFlag) hguarantee
    | command cmd =>
        have hwriter : WriterGuarantee (fun _ => True) defaultRingBufferSize cmd c.ring.shared
            ring'.shared := hguarantee
        exact hwriter.moves.flag
    | finish => exact congrArg (fun s : RingState => s.mem.flushFlag) hguarantee
  · have hreader : ReaderGuarantee (fun _ => True) defaultRingBufferSize cmd c.ring.shared
        ring'.shared := hsound.ring.stepGuarantee rfl rfl hstep
    exact hreader.moves.flag

end OutputConnection

namespace Flow

variable {due : UInt64 → Prop} {before : Epoch} {f g : Flow}

/-- The events after those taken and sent on before are accounted for by themselves. -/
def Since (before : Epoch) (f : Flow) : Prop :=
  ∃ taken sent, f.taken = before.taken ++ taken ∧ f.sent = before.sent ++ sent ∧
    Accounted ⟨taken, f.waiting, sent⟩

theorem Since.step (h : f.Since before) (hstep : Step due f g) : g.Since before := by
  obtain ⟨taken, sent, htaken, hsent, haccounted⟩ := h
  cases hstep with
  | stay => exact ⟨taken, sent, htaken, hsent, haccounted⟩
  | @pass _ waiting _ event untimed =>
      have hpass : Step due ⟨taken, waiting, sent⟩ _ := .pass event untimed
      refine ⟨taken ++ [event], sent ++ onward event, ?_, ?_, haccounted.step hpass⟩
      · rw [← List.append_assoc, ← htaken]
      · rw [← List.append_assoc, ← hsent]
  | @queue _ waiting _ event timed =>
      have hqueue : Step due ⟨taken, waiting, sent⟩ _ := .queue event timed
      refine ⟨taken ++ [event], sent, ?_, hsent, haccounted.step hqueue⟩
      rw [← List.append_assoc, ← htaken]
  | @deliver _ waiting _ event isDue =>
      have hdeliver : Step due ⟨taken, event ::ₘ waiting, sent⟩ _ := .deliver event isDue
      refine ⟨taken, sent ++ onward event, htaken, ?_, haccounted.step hdeliver⟩
      rw [← List.append_assoc, ← hsent]

theorem since_start : start.Since {} := ⟨[], [], rfl, rfl, accounted_start⟩

end Flow

namespace FlushedConnection

open OutputConnection

variable {s t : FlushedConnection Q} {a : Action}

/-- The connection is sound, no ring is being flushed, and the events of each client are accounted for
since its last flush. -/
structure Sound (s : FlushedConnection Q) : Prop where
  conn : s.conn.Sound
  unset : ∀ c ∈ s.conn.clients, c.ring.shared.mem.flushFlag = 0
  since : ∀ i c, s.conn.clients[i]? = some c → (s.conn.flowOf i c).Since (s.epoch i)
  unflushed : ∀ i, s.conn.clients.length ≤ i → s.epoch i = {}

theorem Sound.connStep (h : s.Sound) {b : OutputConnection.Action} {conn : OutputConnection Q}
    (hstep : s.conn.Step b conn) : Sound { s with conn } := by
  obtain ⟨hsound, hflows⟩ := h.conn.step hstep
  have hlength := length_le_of_step hstep
  refine ⟨hsound, fun c' hc' => ?_, fun j d' hd' => ?_, fun i hi => h.unflushed i (hlength.trans hi)⟩
  · obtain ⟨i, hi⟩ := List.getElem?_of_mem hc'
    obtain ⟨-, rfl⟩ | ⟨c, hc, hring⟩ := ring_of_step hstep hi
    · rfl
    · rw [hring.flag (h.conn.client i c hc)]
      exact h.unset c (List.mem_of_getElem? hc)
  · change (conn.flowOf j d').Since (s.epoch j)
    obtain ⟨d, hd, hflow⟩ | hstart := hflows j d' hd'
    · exact (h.since j d hd).step hflow
    · -- nothing was taken or sent on, so nothing was before the flush
      have hepoch : s.epoch j = {} := by
        obtain ⟨hlast, -⟩ | ⟨d, hd, hring⟩ := ring_of_step hstep hd'
        · exact h.unflushed j hlast
        · obtain ⟨taken, sent, htaken, hsent, -⟩ := h.since j d hd
          have htakenNil : d.ring.taken = [] := by
            have hnil : d'.ring.taken = [] := congrArg Flow.taken hstart
            exact List.prefix_nil.mp (hnil ▸ hring.taken)
          have hsentNil : sentBy j s.conn.sender.contents = [] := by
            have hnil : sentBy j conn.sender.contents = [] := congrArg Flow.sent hstart
            exact List.prefix_nil.mp (hnil ▸ sentBy_of_step hstep j)
          have htakenBefore := List.append_eq_nil_iff.mp (htaken.symm.trans htakenNil)
          have hsentBefore := List.append_eq_nil_iff.mp (hsent.symm.trans hsentNil)
          exact congrArg₂ Epoch.mk htakenBefore.1 hsentBefore.1
      rw [hstart, hepoch]
      exact Flow.since_start

theorem Sound.flush (h : s.Sound) {i : Nat} {c : OutputClient Q} {l : DrainerLocal} (tries : Nat)
    (hfound : s.conn.clients[i]? = some c) (hreads : c.ring.right = .idle l) :
    Sound
      { conn := s.conn.setClient i (c.flushed tries)
        epoch := Function.update s.epoch i ⟨c.ring.taken, sentBy i s.conn.sender.contents⟩ } := by
  have hflag := h.unset c (List.mem_of_getElem? hfound)
  have hlt := (List.getElem?_eq_some_iff.mp hfound).1
  have hlength : (s.conn.clients.set i (c.flushed tries)).length = s.conn.clients.length :=
    List.length_set
  refine ⟨⟨fun j d hd => ?_, fun e he => ?_, h.conn.unsent, fun j d l call rest hd hbusy => ?_⟩,
    fun d hd => ?_, fun j d hd => ?_, fun j hj => ?_⟩
  · obtain ⟨rfl, rfl⟩ | ⟨-, hold⟩ := getElem?_set_cases hfound hd
    · exact (h.conn.client i c hfound).flushed hreads hflag tries
    · exact h.conn.client j d hold
  · exact (h.conn.origin e he).trans_eq hlength.symm
  · obtain ⟨rfl, rfl⟩ | ⟨-, hold⟩ := getElem?_set_cases hfound hd
    · cases hbusy
    · exact h.conn.busy j d l call rest hold hbusy
  · obtain hold | rfl := List.mem_or_eq_of_mem_set hd
    · exact h.unset d hold
    · rw [OutputClient.flushed_shared hflag]
  · obtain ⟨rfl, rfl⟩ | ⟨hij, hold⟩ := getElem?_set_cases hfound hd
    · dsimp only
      rw [Function.update_self]
      refine ⟨[], [], (List.append_nil _).symm, (List.append_nil _).symm, ?_⟩
      have hwaiting : (c.flushed tries).waiting = 0 := by
        change (Q.elements Q.empty).map PendingEvent.event = 0
        rw [Q.elements_empty, Multiset.map_zero]
      change Flow.Accounted ⟨[], (c.flushed tries).waiting, []⟩
      rw [hwaiting]
      exact Flow.accounted_start
    · dsimp only
      rw [Function.update_of_ne (Ne.symm hij)]
      exact h.since j d hold
  · change (s.conn.clients.set i (c.flushed tries)).length ≤ j at hj
    rw [hlength] at hj
    dsimp only
    rw [Function.update_of_ne (hlt.trans_le hj).ne']
    exact h.unflushed j hj

theorem sound_of_reachable (reach : (machine Q).Reachable s) : s.Sound := by
  refine reach.invariant Sound ?_ fun s a t _ h _ hstep => ?_
  · rintro ⟨conn, epoch⟩ ⟨hstarted, rfl⟩
    have hnone := hstarted.1
    have hreach : (OutputConnection.machine Q).Reachable conn := .init hstarted
    refine ⟨OutputConnection.sound_of_reachable hreach, fun c hc => ?_, fun i c hc => ?_,
      fun _ _ => rfl⟩
    · rw [hnone] at hc
      cases hc
    · rw [hnone] at hc
      cases hc
  · cases hstep with
    | conn step => exact h.connStep step
    | flush tries found free writes reads => exact h.flush tries found reads

end FlushedConnection

/-! ### A flush access by access -/

namespace FlushingConnection

open OutputConnection

variable {s t : FlushingConnection Q} {a : Action} {i j : Nat} {c : OutputClient Q}

/-- The connection with its records, every flush at its end. -/
def atRest (s : FlushingConnection Q) : FlushedConnection Q := ⟨s.settled, s.epoch⟩

/-- The mutexes keep the writer and the worker away from a ring that is flushed. -/
structure Excludes (s : FlushingConnection Q) : Prop where
  sends : ∀ i, s.flushing i ≠ .none → ∃ c accepted, s.conn.clients[i]? = some c ∧
    c.ring.left = .idle accepted
  drains : ∀ i rest, s.flushing i = .clearing rest → s.conn.phase.Free
  only : ∀ i j rest rest', s.flushing i = .clearing rest → s.flushing j = .clearing rest' → i = j

theorem getElem?_settled (s : FlushingConnection Q) (i : Nat) :
    s.settled.clients[i]? =
      s.conn.clients[i]?.map fun c => { c with ring := (s.flushing i).settle c.ring } :=
  List.getElem?_mapIdx

theorem settle_of_not_clearing {flushing : Flushing} (h : ∀ rest, flushing ≠ .clearing rest)
    (ring : ClientRing) : flushing.settle ring = ring := by
  cases flushing with
  | clearing rest => exact absurd rfl (h rest)
  | _ => rfl

theorem settled_of_unlocked (h : s.Unlocked) : s.settled = s.conn := by
  have hclients : s.settled.clients = s.conn.clients := by
    refine List.ext_getElem? fun i => ?_
    rw [getElem?_settled]
    cases s.conn.clients[i]? with
    | none => rfl
    | some c => exact congrArg (fun ring => some { c with ring }) (settle_of_not_clearing (h i) c.ring)
  exact congrArg (fun clients => { s.conn with clients }) hclients

/-- A ring that is not flushed is where it is. -/
theorem settled_found (hfound : s.conn.clients[i]? = some c)
    (hclear : ∀ rest, s.flushing i ≠ .clearing rest) : s.settled.clients[i]? = some c := by
  rw [getElem?_settled, hfound, Option.map_some, settle_of_not_clearing hclear]

/-- Another client changes. -/
theorem settled_set (s : FlushingConnection Q) (c : OutputClient Q)
    (hclear : ∀ rest, s.flushing i ≠ .clearing rest) :
    (s.conn.clients.set i c).mapIdx (fun j c => { c with ring := (s.flushing j).settle c.ring }) =
      s.settled.clients.set i c := by
  refine List.ext_getElem? fun j => ?_
  rw [List.getElem?_mapIdx]
  by_cases hij : i = j
  · subst hij
    rw [List.getElem?_set_self', List.getElem?_set_self', getElem?_settled]
    cases s.conn.clients[i]? with
    | none => rfl
    | some d => exact congrArg (fun ring => some { c with ring }) (settle_of_not_clearing hclear c.ring)
  · rw [List.getElem?_set_ne hij, List.getElem?_set_ne hij, getElem?_settled]

theorem settled_congr (hconn : t.conn = s.conn)
    (hsettle : ∀ i ring, (t.flushing i).settle ring = (s.flushing i).settle ring) :
    t.settled = s.settled := by
  unfold settled
  rw [hconn]
  simp only [hsettle]

/-- The next access of the flush under way brings the ring no closer to its end. -/
theorem settled_access {cmd : RingCmd} {k : cmd.Resp → RingProgram Unit}
    (hclears : s.flushing i = .clearing (.op cmd k)) (hfound : s.conn.clients[i]? = some c) :
    settled
      { s with
        conn := s.conn.setClient i (c.setShared (execTraced cmd c.ring.shared).2)
        flushing := Function.update s.flushing i (.clearing (k (execTraced cmd c.ring.shared).1)) } =
      s.settled := by
  refine congrArg (fun clients => { s.conn with clients })
    (?_ : (settled _).clients = s.settled.clients)
  refine List.ext_getElem? fun j => ?_
  rw [getElem?_settled, getElem?_settled]
  change ((s.conn.clients.set i _)[j]?).map _ = _
  dsimp only
  by_cases hij : i = j
  · subst hij
    rw [List.getElem?_set_self (List.getElem?_eq_some_iff.mp hfound).1, hfound, Option.map_some,
      Option.map_some, Function.update_self, hclears]
    rfl
  · rw [List.getElem?_set_ne hij, Function.update_of_ne (Ne.symm hij)]

/-- The flush that begins is, at its end, a flush in one step. -/
theorem settled_enter (hunlocked : s.Unlocked) (hfound : s.conn.clients[i]? = some c) (tries : Nat)
    (epoch : Nat → Epoch) :
    settled
      { conn := s.conn.setClient i c.beginFlush
        flushing := Function.update s.flushing i
          (.clearing (SharedRing.flush defaultRingBufferSize (tries + 1)))
        epoch } = s.conn.setClient i (c.flushed tries) := by
  refine congrArg (fun clients => { s.conn with clients })
    (?_ : (settled _).clients = s.conn.clients.set i (c.flushed tries))
  refine List.ext_getElem? fun j => ?_
  rw [getElem?_settled]
  change ((s.conn.clients.set i _)[j]?).map _ = _
  dsimp only
  by_cases hij : i = j
  · subst hij
    have hlt := (List.getElem?_eq_some_iff.mp hfound).1
    rw [List.getElem?_set_self hlt, List.getElem?_set_self hlt, Option.map_some,
      Function.update_self]
    rfl
  · rw [List.getElem?_set_ne hij, List.getElem?_set_ne hij, Function.update_of_ne (Ne.symm hij)]
    cases s.conn.clients[j]? with
    | none => rfl
    | some d =>
        exact congrArg (fun ring => some { d with ring })
          (settle_of_not_clearing (hunlocked j) d.ring)

theorem start_of_idle {ring ring' : ClientRing} {accepted : List MidiEvent}
    {b : Party.Action ringInterface} (hidle : ring.left = .idle accepted)
    (hstep : (clientRing defaultRingBufferSize).Step ring (.inl b) ring') : b = .start := by
  obtain ⟨left, right, shared⟩ := ring
  obtain rfl : left = .idle accepted := hidle
  cases hstep with
  | left hp =>
      cases hp with
      | start henabled => rfl

/-- A client whose call is under way is not being flushed. -/
theorem Excludes.not_clearing (h : s.Excludes) (hfound : s.conn.clients[j]? = some c)
    {ring : ClientRing} {b : Party.Action ringInterface}
    (hstep : (clientRing defaultRingBufferSize).Step c.ring (.inl b) ring)
    (hsends : b = .start → s.flushing j = .none) : ∀ rest, s.flushing j ≠ .clearing rest := by
  intro rest hclears
  obtain ⟨d, accepted, hd, hidle⟩ := h.sends j (by rw [hclears]; exact nofun)
  obtain rfl : d = c := Option.some.inj (hd.symm.trans hfound)
  have haway := hsends (start_of_idle hidle hstep)
  rw [hclears] at haway
  cases haway

/-- While a ring is flushed, the connection goes on elsewhere. -/
theorem Excludes.beside (h : s.Excludes) {rest : RingProgram Unit} {b : OutputConnection.Action}
    {conn : OutputConnection Q} (hclears : s.flushing i = .clearing rest) (hstep : s.conn.Step b conn)
    (hlocks : Locks s.conn b → s.Unlocked)
    (hsends : ∀ i, b = .client i .start → s.flushing i = .none) :
    s.settled.Step b (settled { s with conn }) ∧ conn.clients[i]? = s.conn.clients[i]? := by
  have hlocked : ¬Locks s.conn b := fun hlocks' => hlocks hlocks' i rest hclears
  have hfree := h.drains i rest hclears
  cases hstep with
  | tick now later inRange => exact ⟨.tick now later inRange, rfl⟩
  | flush flushes => exact ⟨.flush flushes, rfl⟩
  | @client j c ring b found step =>
      have hclear := h.not_clearing found step fun hstart => hsends j (hstart ▸ rfl)
      have hij : j ≠ i := by
        rintro rfl
        exact hclear rest hclears
      have hset : settled { s with conn := s.conn.clientWrote j c ring b } =
          s.settled.clientWrote j c ring b :=
        congrArg (fun clients =>
          { s.conn with clients, eventFd := s.conn.eventFd || c.ring.notifies b })
          (settled_set s { c with ring } hclear)
      refine ⟨?_, List.getElem?_set_ne hij⟩
      rw [hset]
      exact .client (settled_found found hclear) step
  | addClient free => exact absurd trivial hlocked
  | wake expired waits => exact absurd trivial hlocked
  | startCollect after => exact absurd after hlocked
  | arm arms => exact absurd trivial hlocked
  | startRound drains found idle =>
      rw [drains] at hfree
      exact hfree.elim
  | ringAccess drains found step =>
      rw [drains] at hfree
      exact hfree.elim
  | finishRound drains found busy =>
      rw [drains] at hfree
      exact hfree.elim
  | drained drains last =>
      rw [drains] at hfree
      exact hfree.elim
  | collect collects =>
      rw [collects] at hfree
      exact hfree.elim

theorem settle_update {flushing : Nat → Flushing} {f : Flushing} (hsame : ∀ ring, f.settle ring =
    (flushing i).settle ring) (j : Nat) (ring : ClientRing) :
    (Function.update flushing i f j).settle ring = (flushing j).settle ring := by
  by_cases hij : j = i
  · subst hij
    rw [Function.update_self]
    exact hsame ring
  · rw [Function.update_of_ne hij]

/-- A step does nothing once every flush is at its end, or is one step there. -/
theorem atRest_step (h : s.Excludes) (hsound : s.atRest.Sound) (hstep : Step s a t) :
    t.atRest = s.atRest ∨ ∃ b, FlushedConnection.Step s.atRest b t.atRest := by
  cases hstep with
  | @conn b conn step locks sends =>
      by_cases hunlocked : s.Unlocked
      · have hs := settled_of_unlocked hunlocked
        have ht : settled { s with conn } = conn := settled_of_unlocked hunlocked
        refine .inr ⟨.conn b, ?_⟩
        rw [atRest, atRest, hs, ht]
        exact .conn step
      · obtain ⟨i, rest, hclears⟩ : ∃ i rest, s.flushing i = .clearing rest := by
          simpa [Unlocked] using hunlocked
        exact .inr ⟨.conn b, .conn (h.beside hclears step locks sends).1⟩
  | @call i c accepted found idle away =>
      refine .inl (congrArg (FlushedConnection.mk · s.epoch) (settled_congr rfl ?_))
      exact settle_update fun ring => by rw [away]; rfl
  | @enter i c tries called found free unlocked =>
      have hs := settled_of_unlocked unlocked
      obtain ⟨d, accepted, hd, hleft⟩ := h.sends i (by rw [called]; exact nofun)
      obtain rfl : d = c := Option.some.inj (hd.symm.trans found)
      obtain ⟨l, hl⟩ := hsound.conn.idle (fun j drained hphase => by
        change s.conn.phase = _ at hphase
        rw [hphase] at free
        exact free) d (by rw [atRest, hs]; exact List.mem_of_getElem? found)
      refine .inr ⟨.flush i, ?_⟩
      rw [atRest, atRest, settled_enter unlocked found, hs]
      exact .flush tries found free hleft hl
  | @access i c cmd k clears found =>
      exact .inl (congrArg (FlushedConnection.mk · s.epoch) (settled_access clears found))
  | @leave i clears =>
      refine .inl (congrArg (FlushedConnection.mk · s.epoch) (settled_congr rfl ?_))
      exact settle_update fun ring => by rw [clears]; rfl

theorem update_clearing {flushing : Nat → Flushing} {f : Flushing} {rest : RingProgram Unit}
    (h : Function.update flushing i f j = .clearing rest) :
    (j = i ∧ f = .clearing rest) ∨ (j ≠ i ∧ flushing j = .clearing rest) := by
  by_cases hij : j = i
  · subst hij
    rw [Function.update_self] at h
    exact .inl ⟨rfl, h⟩
  · rw [Function.update_of_ne hij] at h
    exact .inr ⟨hij, h⟩

theorem update_under_way {flushing : Nat → Flushing} {f : Flushing} (hij : j ≠ i)
    (h : Function.update flushing i f j ≠ .none) : flushing j ≠ .none := by
  rwa [Function.update_of_ne hij] at h

theorem Excludes.connStep (h : s.Excludes) {b : OutputConnection.Action} {conn : OutputConnection Q}
    (hstep : s.conn.Step b conn) (hlocks : Locks s.conn b → s.Unlocked)
    (hsends : ∀ i, b = .client i .start → s.flushing i = .none) : Excludes { s with conn } := by
  refine ⟨fun i hi => ?_, fun i rest hclears => ?_, h.only⟩
  · obtain ⟨c, accepted, hc, hidle⟩ := h.sends i hi
    have hlt := (List.getElem?_eq_some_iff.mp hc).1
    obtain ⟨c', hc'⟩ : ∃ c', conn.clients[i]? = some c' :=
      ⟨_, List.getElem?_eq_getElem (hlt.trans_le (length_le_of_step hstep))⟩
    refine ⟨c', accepted, hc', ?_⟩
    obtain ⟨hlast, -⟩ | ⟨d, hd, hring⟩ := ring_of_step hstep hc'
    · exact absurd hlt (Nat.not_lt.mpr hlast)
    obtain rfl : d = c := Option.some.inj (hd.symm.trans hc)
    obtain ⟨hleft, -⟩ | ⟨a, rfl, hclient⟩ | ⟨cmd, -, hleft⟩ := hring.moves
    · rw [hleft, hidle]
    · have haway := hsends i (start_of_idle hidle hclient ▸ rfl)
      exact absurd haway hi
    · rw [hleft, hidle]
  · have hlocked : ¬Locks s.conn b := fun hlocks' => hlocks hlocks' i rest hclears
    have hfree := h.drains i rest hclears
    cases hstep with
    | flush flushes => trivial
    | addClient free => exact absurd trivial hlocked
    | wake expired waits => exact absurd trivial hlocked
    | startCollect after => exact absurd after hlocked
    | arm arms => exact absurd trivial hlocked
    | finishRound drains found busy =>
        rw [drains] at hfree
        exact hfree.elim
    | collect collects =>
        rw [collects] at hfree
        exact hfree.elim
    | drained drains last =>
        rw [drains] at hfree
        exact hfree.elim
    | _ => exact hfree

theorem Excludes.step (h : s.Excludes) (hstep : Step s a t) : t.Excludes := by
  cases hstep with
  | conn step locks sends => exact h.connStep step locks sends
  | @call i c accepted found idle away =>
      refine ⟨fun j hj => ?_, fun j rest hclears => ?_, fun j k rest rest' hclears hclears' => ?_⟩
      · by_cases hij : j = i
        · subst hij
          exact ⟨c, accepted, found, idle⟩
        · exact h.sends j (update_under_way hij hj)
      · obtain ⟨-, hcalled⟩ | ⟨-, hold⟩ := update_clearing hclears
        · cases hcalled
        · exact h.drains j rest hold
      · obtain ⟨-, hcalled⟩ | ⟨-, hold⟩ := update_clearing hclears
        · cases hcalled
        obtain ⟨-, hcalled⟩ | ⟨-, hold'⟩ := update_clearing hclears'
        · cases hcalled
        · exact h.only j k rest rest' hold hold'
  | @enter i c tries called found free unlocked =>
      refine ⟨fun j hj => ?_, fun j rest hclears => free, fun j k rest rest' hclears hclears' => ?_⟩
      · by_cases hij : j = i
        · subst hij
          exact ⟨c.beginFlush, c.ring.taken,
            List.getElem?_set_self (List.getElem?_eq_some_iff.mp found).1, rfl⟩
        · obtain ⟨d, accepted, hd, hidle⟩ := h.sends j (update_under_way hij hj)
          exact ⟨d, accepted, (List.getElem?_set_ne (Ne.symm hij)).trans hd, hidle⟩
      · obtain ⟨rfl, -⟩ | ⟨-, hold⟩ := update_clearing hclears
        · obtain ⟨rfl, -⟩ | ⟨-, hold'⟩ := update_clearing hclears'
          · rfl
          · exact absurd hold' (unlocked k rest')
        · exact absurd hold (unlocked j rest)
  | @access i c cmd k clears found =>
      have hclearing : ∀ {j rest}, Function.update s.flushing i
          (.clearing (k (execTraced cmd c.ring.shared).1)) j = .clearing rest →
          ∃ rest', s.flushing j = .clearing rest' := by
        intro j rest hj
        obtain ⟨rfl, -⟩ | ⟨-, hold⟩ := update_clearing hj
        · exact ⟨_, clears⟩
        · exact ⟨rest, hold⟩
      refine ⟨fun j hj => ?_, fun j rest hj => ?_, fun j k rest rest' hj hk => ?_⟩
      · by_cases hij : j = i
        · subst hij
          obtain ⟨d, accepted, hd, hidle⟩ := h.sends j (by rw [clears]; exact nofun)
          obtain rfl : d = c := Option.some.inj (hd.symm.trans found)
          exact ⟨_, accepted, List.getElem?_set_self (List.getElem?_eq_some_iff.mp found).1, hidle⟩
        · obtain ⟨d, accepted, hd, hidle⟩ := h.sends j (update_under_way hij hj)
          exact ⟨d, accepted, (List.getElem?_set_ne (Ne.symm hij)).trans hd, hidle⟩
      · obtain ⟨rest', hold⟩ := hclearing hj
        exact h.drains j rest' hold
      · obtain ⟨p, hold⟩ := hclearing hj
        obtain ⟨p', hold'⟩ := hclearing hk
        exact h.only j _ p p' hold hold'
  | @leave i clears =>
      refine ⟨fun j hj => ?_, fun j rest hclears => ?_, fun j k rest rest' hclears hclears' => ?_⟩
      · by_cases hij : j = i
        · subst hij
          exact absurd (Function.update_self j Flushing.none s.flushing) hj
        · exact h.sends j (update_under_way hij hj)
      · obtain ⟨-, hnone⟩ | ⟨-, hold⟩ := update_clearing hclears
        · cases hnone
        · exact h.drains j rest hold
      · obtain ⟨-, hnone⟩ | ⟨-, hold⟩ := update_clearing hclears
        · cases hnone
        obtain ⟨-, hnone⟩ | ⟨-, hold'⟩ := update_clearing hclears'
        · cases hnone
        · exact h.only j k rest rest' hold hold'

/-- Every run looks like one in which each flush is one step. -/
theorem refines_of_reachable (reach : (machine Q).Reachable s) :
    s.Excludes ∧ (FlushedConnection.machine Q).Reachable s.atRest := by
  refine reach.invariant
    (fun s => s.Excludes ∧ (FlushedConnection.machine Q).Reachable s.atRest) ?_ ?_
  · rintro ⟨conn, flushing, epoch⟩ ⟨hstarted, rfl, rfl⟩
    refine ⟨⟨fun i hi => absurd rfl hi, nofun, nofun⟩, .init ⟨?_, rfl⟩⟩
    have hsettled : settled ⟨conn, fun _ => .none, fun _ => {}⟩ = conn := settled_of_unlocked nofun
    rw [atRest, hsettled]
    exact hstarted
  · rintro s a t - ⟨hexcludes, hreach⟩ - hstep
    refine ⟨hexcludes.step hstep, ?_⟩
    obtain hsame | ⟨b, hb⟩ :=
      atRest_step hexcludes (FlushedConnection.sound_of_reachable hreach) hstep
    · exact hsame ▸ hreach
    · exact hreach.step trivial hb

section Runs

theorem setClient_setClient {conn : OutputConnection Q} {d : OutputClient Q} :
    (conn.setClient i c).setClient i d = conn.setClient i d := by
  rw [OutputConnection.setClient, OutputConnection.setClient, OutputConnection.setClient,
    List.set_set]

/-- A run of the connection is one in which no client flushes. -/
theorem reachable_of_conn {conn : OutputConnection Q}
    (reach : (OutputConnection.machine Q).Reachable conn) :
    (machine Q).Reachable ⟨conn, fun _ => .none, fun _ => {}⟩ := by
  refine reach.invariant
    (fun conn => (machine Q).Reachable ⟨conn, fun _ => .none, fun _ => {}⟩) ?_ ?_
  · exact fun conn hstarted => .init ⟨hstarted, rfl, rfl⟩
  · intro conn a conn' _ ih _ hstep
    exact ih.step trivial (.conn hstep (fun _ => nofun) fun _ _ => rfl)

/-- The rest of a flush, run to its end. -/
theorem reachable_clearing {rest : RingProgram Unit} (reach : (machine Q).Reachable s)
    (hfound : s.conn.clients[i]? = some c) (hclears : s.flushing i = .clearing rest) :
    (machine Q).Reachable
      ⟨s.conn.setClient i (c.setShared (rest.run execTraced c.ring.shared).2),
        Function.update s.flushing i .none, s.epoch⟩ := by
  induction rest generalizing s c with
  | ret u =>
      have hsame : s.conn.setClient i (c.setShared c.ring.shared) = s.conn := by
        have hset := List.set_getElem_self (List.getElem?_eq_some_iff.mp hfound).1
        rw [(List.getElem?_eq_some_iff.mp hfound).2] at hset
        exact congrArg (fun clients => { s.conn with clients }) hset
      change (machine Q).Reachable ⟨s.conn.setClient i (c.setShared c.ring.shared), _, _⟩
      rw [hsame]
      exact reach.step trivial (.leave hclears)
  | op cmd k ih =>
      have haccess := reach.step trivial (.access hclears hfound)
      have hrest := ih _ haccess (List.getElem?_set_self (List.getElem?_eq_some_iff.mp hfound).1)
        (Function.update_self _ _ _)
      dsimp only at hrest
      rw [Function.update_idem] at hrest
      have hset : (s.conn.setClient i (c.setShared (execTraced cmd c.ring.shared).2)).setClient i
          (c.setShared ((k (execTraced cmd c.ring.shared).1).run execTraced
            (execTraced cmd c.ring.shared).2).2) =
          s.conn.setClient i (c.setShared ((Program.op cmd k).run execTraced c.ring.shared).2) :=
        setClient_setClient
      exact hset ▸ hrest

/-- A client flushes and nothing comes in between. -/
theorem reachable_flush {accepted : List MidiEvent} (reach : (machine Q).Reachable s)
    (hfound : s.conn.clients[i]? = some c) (hidle : c.ring.left = .idle accepted)
    (haway : ∀ j, s.flushing j = .none) (hfree : s.conn.phase.Free) :
    ∃ t, (machine Q).Reachable t ∧ t.conn = s.conn.setClient i (c.flushed 0) ∧
      (∀ j, t.flushing j = .none) ∧
      t.epoch i = ⟨c.ring.taken, sentBy i s.conn.sender.contents⟩ := by
  have hcall := reach.step trivial (.call hfound hidle (haway i))
  have hunlocked : ∀ j rest, Function.update s.flushing i .called j ≠ .clearing rest := by
    intro j rest hclears
    obtain ⟨-, hcalled⟩ | ⟨-, hold⟩ := update_clearing hclears
    · cases hcalled
    · rw [haway j] at hold
      cases hold
  have henter := hcall.step trivial (.enter 0 (Function.update_self _ _ _) hfound hfree hunlocked)
  have hleave := reachable_clearing henter
    (List.getElem?_set_self (List.getElem?_eq_some_iff.mp hfound).1) (Function.update_self _ _ _)
  refine ⟨_, hleave, ?_, fun j => ?_, ?_⟩
  · exact setClient_setClient
  · by_cases hij : j = i
    · subst hij
      exact Function.update_self _ _ _
    · dsimp only
      rw [Function.update_of_ne hij, Function.update_of_ne hij, Function.update_of_ne hij]
      exact haway j
  · exact Function.update_self i _ s.epoch

/-- A client that is in no call flushes while the worker waits. -/
theorem exists_flushed {conn : OutputConnection Q} {taken sent : List MidiEvent}
    (reach : (OutputConnection.machine Q).Reachable conn)
    (htaken : (conn.idleWriter i).map (·.1.ring.taken) = some taken)
    (hsent : sentBy i conn.sender.contents = sent) (hwaits : conn.phase = .waiting) :
    ∃ s c, (machine Q).Reachable s ∧ s.conn.clients[i]? = some c ∧
      (∀ j, s.flushing j = .none) ∧ s.epoch i = ⟨taken, sent⟩ := by
  obtain ⟨⟨c, accepted⟩, hwriter, hc⟩ := Option.map_eq_some_iff.mp htaken
  obtain ⟨hfound, hidle⟩ := OutputConnection.idleWriter_eq_some hwriter
  have hfree : conn.phase.Free := by
    rw [hwaits]
    trivial
  obtain ⟨t, hreach, ht, haway, hepoch⟩ :=
    reachable_flush (reachable_of_conn reach) hfound hidle (fun _ => rfl) hfree
  refine ⟨t, c.flushed 0, hreach, ?_, haway, hepoch.trans (congrArg₂ Epoch.mk hc hsent)⟩
  rw [ht]
  exact List.getElem?_set_self (List.getElem?_eq_some_iff.mp hfound).1

/-- The client flushes when the worker has sent two of its three events on. -/
theorem exists_flushed_wakeup :
    ∃ (s : FlushingConnection binaryPendingQueue) (c : OutputClient binaryPendingQueue),
      (machine binaryPendingQueue).Reachable s ∧ s.conn.clients[0]? = some c ∧
        (∀ j, s.flushing j = .none) ∧
        s.epoch 0 = ⟨[⟨7, [1]⟩, ⟨0, [2]⟩, ⟨50, [3]⟩], [⟨0, [2]⟩, ⟨7, [1]⟩]⟩ :=
  exists_flushed
    (OutputConnection.reachable_afterWakeup (Q := binaryPendingQueue) (fun _ => True)
      10 (by decide) [⟨7, [1]⟩, ⟨0, [2]⟩, ⟨50, [3]⟩] 1).reachable
    (by decide +kernel) (by decide +kernel) (by decide +kernel)

end Runs

/-- The two mutexes make a flush one step: in every run the connection is, but for the flush under
way, one of the connection with flushes in one step, and while a ring is flushed nobody else changes
the client. -/
theorem flush_is_atomic (reach : (machine Q).Reachable s) :
    (FlushedConnection.machine Q).Reachable s.atRest ∧
      ∀ i rest b t, s.flushing i = .clearing rest → Step s (.conn b) t →
        t.conn.clients[i]? = s.conn.clients[i]? := by
  obtain ⟨hexcludes, hreach⟩ := refines_of_reachable reach
  refine ⟨hreach, fun i rest b t hclears hstep => ?_⟩
  cases hstep with
  | conn step locks sends => exact (hexcludes.beside hclears step locks sends).2

/-- Of a run in which a client flushed after two events had been sent on. -/
theorem flush_is_atomic_wakeup :
    ∃ s, (s.epoch 0).sent = [⟨0, [2]⟩, ⟨7, [1]⟩] ∧
      (FlushedConnection.machine binaryPendingQueue).Reachable s.atRest ∧
      ∀ i rest b t, s.flushing i = .clearing rest → Step s (.conn b) t →
        t.conn.clients[i]? = s.conn.clients[i]? := by
  obtain ⟨s, c, hreach, -, -, hepoch⟩ := exists_flushed_wakeup
  exact ⟨s, hepoch ▸ rfl, flush_is_atomic hreach⟩

end FlushingConnection

end MidiFramework.Server
