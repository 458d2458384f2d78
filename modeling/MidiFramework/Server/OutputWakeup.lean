import MidiFramework.Server.OutputConservation

/-!
# The worker of an output connection is woken for every unread event

While the worker waits, an unread event is announced by the eventfd, or the timer
is armed, or the client that published it has yet to notify. The drain of a ring
stops with unread events for two reasons only: the client's queue is full, or a
record cannot be read because its sequence word is not one of a published record.
After the first the timer is armed, unless all queues have run empty by then.

## Implementation notes

A drain that has taken as many events as it may has taken all that were there
when the wakeup began, because the ring holds fewer.
-/

namespace MidiFramework.Server

open Foundation Program SharedRing

/-- More records than this are not in a ring. -/
def maxRecords : Nat := defaultRingBufferSize / sizeofEventHeader

namespace ClientRing

/-- The number of events that were published when the wakeup began. -/
def seen (ring : ClientRing) : Nat :=
  match ring.right with
  | .idle l => l.seen
  | .busy l _ _ => l.seen

/-- A call of the client is under way that has published an event and notifies at its end. -/
def WillNotify (ring : ClientRing) : Prop :=
  ∃ accepted call rest, ring.left = .busy accepted call rest ∧ call.notifies = true ∧
    accepted.length < ring.shared.appended.length

/-- The call of the client notifies, if there is one. -/
def Notifies (ring : ClientRing) : Prop :=
  ∀ accepted call rest, ring.left = .busy accepted call rest → call.notifies = true

/-- Every unread record and the wrap marker have sequence words of published headers. -/
def Readable (ring : ClientRing) : Prop := ring.shared.Inv Published defaultRingBufferSize

/-- The events published since the wakeup began are announced, or will be at the end of the call
that published them. -/
structure Announced (eventFd : Bool) (ring : ClientRing) : Prop where
  told : (eventFd = true ∨ ring.WillNotify) ∨ ring.shared.appended.length ≤ ring.seen
  before : ∀ accepted call rest, ring.left = .busy accepted call rest →
    accepted.length ≤ ring.shared.appended.length
  tells : ∀ accepted call rest, ring.left = .busy accepted call rest →
    rest.Always (fun _ => True) fun r => 0 < r.eventsWritten → r.notified = call.notifies

/-- If its records can be read, the worker knows where it is in the ring. -/
def Reads (ring : ClientRing) : Prop :=
  ring.Readable → (drainerProof Published (by decide : defaultRingBufferSize < 2 ^ 31)).Holds
    ring.right ring.shared

/-- The client keeps to its role. -/
def Writes (ring : ClientRing) : Prop :=
  (producerProof (by decide : defaultRingBufferSize < 2 ^ 31)
    (fun _ => trivial : ∀ _ : UInt32, True)).Holds
    ring.left ring.shared

section Client

variable {ring ring' : ClientRing} {a : Party.Action ringInterface} {eventFd : Bool}

/-- What a step of a client leaves as it is. -/
structure ClientStep (ring ring' : ClientRing) : Prop where
  right : ring'.right = ring.right
  appended : ring.shared.appended.length ≤ ring'.shared.appended.length
  reads : ring.Readable → ring.Reads → ring'.Reads

theorem seen_congr (h : ring'.right = ring.right) : ring'.seen = ring.seen := by
  rw [seen, h, seen]

theorem clientStep_of_step (hwrites : ring.Writes)
    (hstep : (clientRing defaultRingBufferSize).Step ring (.inl a) ring') :
    ClientStep ring ring' := by
  cases hstep with
  | left hp =>
      cases hp with
      | start enabled => exact ⟨rfl, le_rfl, fun hreadable hreads _ => hreads hreadable⟩
      | finish => exact ⟨rfl, le_rfl, fun hreadable hreads _ => hreads hreadable⟩
      | command =>
          have hmoves := (TwoParty.Proof.Holds.guarantee hwrites .command).moves
          refine ⟨rfl, hmoves.appended.length_le, fun hreadable hreads hreadable' => ?_⟩
          exact (hreads hreadable).rely ⟨hmoves.read, hmoves.flag, hmoves.removed, hmoves.appended,
            hmoves.data, fun _ => hreadable'⟩

/-- A promise to notify is kept. -/
theorem told_of_step (hwrites : ring.Writes) (hannounced : Announced eventFd ring)
    (htold : eventFd = true ∨ ring.WillNotify)
    (hstep : (clientRing defaultRingBufferSize).Step ring (.inl a) ring') :
    (eventFd || ring.notifies a) = true ∨ ring'.WillNotify := by
  obtain htold | ⟨accepted, call, rest, hbusy, hnotifies, hless⟩ := htold
  · exact .inl (by rw [htold, Bool.true_or])
  obtain ⟨left, right, shared⟩ := ring
  obtain rfl : left = .busy accepted call rest := hbusy
  cases hstep with
  | left hp =>
      cases hp with
      | command =>
          have hmoves := (TwoParty.Proof.Holds.guarantee hwrites .command).moves
          refine .inr ⟨accepted, call, _, rfl, hnotifies, ?_⟩
          exact Nat.lt_of_lt_of_le hless hmoves.appended.length_le
      | @finish _ _ result =>
          obtain ⟨A, rfl, hn, B, w, d, hwriting, hB⟩ := hwrites shared (ReaderMoves.refl _)
          -- something was published in the call, so it reports that it wrote
          have hwrote : 0 < result.eventsWritten := by
            refine Nat.pos_of_ne_zero fun hzero => ?_
            rw [hzero, List.take_zero, List.map_nil, List.map_eq_nil_iff] at hB
            rw [hwriting.appended, hB, List.append_nil, List.length_map] at hless
            exact Nat.lt_irrefl _ hless
          have hresult : result.notified = call.notifies :=
            hannounced.tells (A.map Record.toMidiEvent) call (.ret result) rfl hwrote
          change (eventFd || result.notified) = true ∨ _
          rw [hresult, hnotifies, Bool.or_true]
          exact .inl rfl

theorem Announced.client (h : Announced eventFd ring) (hwrites : ring.Writes)
    (hnotifies : ring.Notifies)
    (hstep : (clientRing defaultRingBufferSize).Step ring (.inl a) ring') :
    Announced (eventFd || ring.notifies a) ring' := by
  have hclient := clientStep_of_step hwrites hstep
  refine ⟨?_, ?_, ?_⟩
  · obtain htold | hseen := h.told
    · exact .inl (told_of_step hwrites h htold hstep)
    cases Nat.lt_or_eq_of_le hclient.appended with
    | inr hsame => exact .inr (hsame ▸ seen_congr hclient.right ▸ hseen)
    | inl hmore =>
        obtain ⟨left, right, shared⟩ := ring
        cases hstep with
        | left hp =>
            cases hp with
            | start enabled => exact absurd hmore (Nat.lt_irrefl _)
            | finish => exact absurd hmore (Nat.lt_irrefl _)
            | @command accepted call c k _ =>
                exact .inl (.inr ⟨accepted, call, _, rfl, hnotifies _ _ _ rfl,
                  Nat.lt_of_le_of_lt (h.before _ _ _ rfl) hmore⟩)
  · obtain ⟨left, right, shared⟩ := ring
    cases hstep with
    | left hp =>
        cases hp with
        | start enabled =>
            intro accepted call rest hbusy
            cases hbusy
            obtain ⟨w, A, d, hwriting, rfl⟩ := hwrites
            exact (List.length_map _).trans_le (congrArg List.length hwriting.appended).ge
        | finish => exact nofun
        | command =>
            intro accepted call rest hbusy
            cases hbusy
            exact (h.before _ _ _ rfl).trans hclient.appended
  · obtain ⟨left, right, shared⟩ := ring
    cases hstep with
    | left hp =>
        cases hp with
        | start enabled =>
            intro accepted call rest hbusy
            cases hbusy
            exact ProducerCall.always_notifies _ _
        | finish => exact nofun
        | command =>
            intro accepted call rest hbusy
            cases hbusy
            exact (h.tells _ _ _ rfl).2 _

end Client

section Worker

variable {ring ring' : ClientRing} {a : Party.Action ringInterface} {eventFd : Bool}

theorem Announced.alarm (h : Announced eventFd ring) {eventFd' : Bool}
    (hmono : eventFd = true → eventFd' = true) : Announced eventFd' ring :=
  ⟨h.told.imp_left (Or.imp_left hmono), h.before, h.tells⟩

/-- A step of the worker that keeps what it saw. -/
theorem Announced.worker (h : Announced eventFd ring) (hleft : ring'.left = ring.left)
    (happended : ring'.shared.appended = ring.shared.appended) (hseen : ring'.seen = ring.seen) :
    Announced eventFd ring' := by
  refine ⟨?_, hleft ▸ happended ▸ h.before, hleft ▸ h.tells⟩
  rw [happended, hseen, WillNotify, hleft, happended]
  exact h.told

/-- A step of the worker on a ring that it can read. -/
theorem worker_step (hreadable : ring.Readable) (hreads : ring.Reads)
    (hstep : (clientRing defaultRingBufferSize).Step ring (.inr a) ring') :
    ring'.left = ring.left ∧ ring'.shared.appended = ring.shared.appended ∧ ring'.Reads := by
  have hholds := hreads hreadable
  cases hstep with
  | right hp =>
      refine ⟨rfl, ?_, fun _ => hholds.step hp⟩
      cases hp with
      | start enabled => rfl
      | finish => rfl
      | command =>
          exact (TwoParty.Proof.Holds.guarantee hholds .command).moves.appended

/-- The worker notes what was published. -/
theorem Reads.noticed (hreads : ring.Reads) {l : DrainerLocal} (hidle : ring.right = .idle l) :
    ring.noticed.Reads := by
  obtain ⟨left, right, shared⟩ := ring
  obtain rfl : right = .idle l := hidle
  intro hreadable
  obtain ⟨r, K, A, hreading, hK, -⟩ := hreads hreadable
  exact ⟨r, K, shared.appended,
    ⟨hreading.inv, hreading.read, hreading.taken, List.prefix_refl _⟩, hK, rfl⟩

/-- Fewer records are unread than the ring can hold. -/
theorem unread_le (hreadable : ring.Readable) : ring.shared.unread.length ≤ maxRecords := by
  have hlength := hreadable.layout.length_lt
  simp only [maxRecords, defaultRingBufferSize, sizeofEventHeader] at hlength ⊢
  omega

end Worker

end ClientRing

/-- `timerfd_settime` arms the timer with the value. -/
def TimerValue.Armed (v : TimerValue) : Prop := v.ns ≠ 0

variable {Q : PendingQueue}

namespace OutputClient

/-- After the drain of the ring: what was there when the wakeup began was taken, or the queue was
full. -/
def Caught (c : OutputClient Q) : Prop :=
  c.ring.seen ≤ c.ring.taken.length ∨ c.ended = some .pendingFull

/-- Before and during the drain of the ring, when `drained` events were taken in it. -/
structure Behind (c : OutputClient Q) (drained : Nat) : Prop where
  within : c.ring.seen + drained ≤ c.ring.taken.length + maxRecords
  spent : ∀ l call rest, c.ring.right = .busy l call rest → call.spent = true →
    maxDrainPerClient ≤ drained

end OutputClient

namespace OutputConnection

/-- A further wakeup is certain: the eventfd is signalled, or the client is about to signal it, or
the timer is armed. -/
def Guaranteed (s : OutputConnection Q) (c : OutputClient Q) : Prop :=
  (s.eventFd = true ∨ c.ring.WillNotify) ∨ s.timer.Armed

/-- All rings were drained in this wakeup. -/
def AfterDrain : OutputPhase → Prop
  | .drained | .collecting _ | .flushing | .arming => True
  | .waiting | .draining .. => False

/-- How far the worker is with client `j`. -/
def Progress (s : OutputConnection Q) (j : Nat) (c : OutputClient Q) : Prop :=
  match s.phase with
  | .draining i drained => if j < i then c.Caught else c.Behind (if j = i then drained else 0)
  | .waiting => c.ring.seen ≤ c.ring.taken.length ∨ s.Guaranteed c
  | _ => c.Caught

/-- What is known of client `j`. -/
structure Watched (s : OutputConnection Q) (j : Nat) (c : OutputClient Q) : Prop where
  announced : c.ring.Announced s.eventFd
  reads : c.ring.Reads
  progress : s.Progress j c

def AllWatched (s : OutputConnection Q) : Prop :=
  ∀ j d, s.clients[j]? = some d → s.Watched j d

/-- The clients notify, the worker can read their records, and where `UpdateNextTimer` finds all
queues empty, each client whose ring was left because its queue was full is heard anyway. -/
structure Heeded (s : OutputConnection Q) : Prop where
  notifies : ∀ c ∈ s.clients, c.ring.Notifies
  readable : ∀ c ∈ s.clients, c.ring.Readable
  timed : s.phase = .arming → (∀ c ∈ s.clients, Q.elements c.pending = 0) →
    ∀ c ∈ s.clients, c.ended = some .pendingFull → s.eventFd = true ∨ c.ring.WillNotify

/-- While the worker waits, a further wakeup is certain for every unread event. -/
def NoStuckOutput (s : OutputConnection Q) : Prop :=
  s.phase = .waiting → ∀ c ∈ s.clients, c.ring.shared.unread ≠ [] → s.Guaranteed c

section Others

variable {s t : OutputConnection Q} {i j drained : Nat} {c c' d : OutputClient Q}

theorem Guaranteed.mono (h : s.Guaranteed d) (htimer : t.timer = s.timer)
    (hmono : s.eventFd = true → t.eventFd = true) : t.Guaranteed d := by
  rw [Guaranteed, htimer]
  exact h.imp_left (Or.imp_left hmono)

/-- Steps within a phase. -/
theorem Progress.imp (h : s.Progress j c) (hphase : t.phase = s.phase)
    (hcaught : c.Caught → c'.Caught) (hbehind : ∀ n, c.Behind n → c'.Behind n)
    (hwaits : c.ring.seen ≤ c.ring.taken.length ∨ s.Guaranteed c →
      c'.ring.seen ≤ c'.ring.taken.length ∨ t.Guaranteed c') : t.Progress j c' := by
  rw [Progress] at h ⊢
  rw [hphase]
  cases hs : s.phase with
  | waiting =>
      rw [hs] at h
      exact hwaits h
  | draining i drained =>
      rw [hs] at h
      dsimp only at h ⊢
      by_cases hdone : j < i
      · rw [if_pos hdone] at h ⊢
        exact hcaught h
      · rw [if_neg hdone] at h ⊢
        exact hbehind _ h
  | drained =>
      rw [hs] at h
      exact hcaught h
  | collecting now =>
      rw [hs] at h
      exact hcaught h
  | flushing =>
      rw [hs] at h
      exact hcaught h
  | arming =>
      rw [hs] at h
      exact hcaught h

/-- A client that the step does not touch. -/
theorem Watched.mono (h : s.Watched j d) (hphase : t.phase = s.phase) (htimer : t.timer = s.timer)
    (hmono : s.eventFd = true → t.eventFd = true) : t.Watched j d :=
  ⟨h.announced.alarm hmono, h.reads, h.progress.imp hphase id (fun _ => id)
    (Or.imp_right fun hg => hg.mono htimer hmono)⟩

theorem progress_self (hphase : s.phase = .draining i drained) :
    s.Progress i c ↔ c.Behind drained := by
  rw [Progress, hphase]
  dsimp only
  rw [if_neg (Nat.lt_irrefl i), if_pos rfl]

/-- Only client `i` is touched. -/
theorem AllWatched.set (h : s.AllWatched) (hfound : s.clients[i]? = some c)
    (hclients : t.clients = s.clients.set i c') (hself : t.Watched i c')
    (hothers : ∀ j d, i ≠ j → s.Watched j d → t.Watched j d) : t.AllWatched := by
  intro j d hd
  rw [hclients] at hd
  obtain ⟨rfl, rfl⟩ | ⟨hij, hold⟩ := getElem?_set_cases hfound hd
  · exact hself
  · exact hothers j d hij (h j d hold)

end Others

section Steps

variable {s t : OutputConnection Q} {i j drained : Nat} {c c' d : OutputClient Q}
  {ring : ClientRing}

theorem fresh_watched (hphase : s.phase.Free) : s.Watched j (OutputClient.fresh Q) := by
  have hinv : RingState.Inv Published defaultRingBufferSize ⟨⟨0, 0, 0, fun _ => 0⟩, [], 0⟩ :=
    EmptyRing.inv ⟨rfl, by decide, by decide, rfl, rfl⟩
  have hcaught : (OutputClient.fresh Q).ring.seen ≤ (OutputClient.fresh Q).ring.taken.length := le_rfl
  refine ⟨⟨.inr le_rfl, nofun, nofun⟩,
    fun _ => ⟨_, [], [], ⟨hinv, rfl, rfl, List.nil_prefix⟩, rfl, rfl⟩, ?_⟩
  rw [Progress]
  cases hs : s.phase with
  | waiting => exact .inl hcaught
  | draining i drained => exact (hs ▸ hphase : (OutputPhase.draining i drained).Free).elim
  | collecting now => exact (hs ▸ hphase : (OutputPhase.collecting now).Free).elim
  | drained => exact .inl hcaught
  | flushing => exact .inl hcaught
  | arming => exact .inl hcaught

theorem AllWatched.addClient (h : s.AllWatched) (hfree : s.phase.Free) :
    AllWatched { s with clients := s.clients ++ [.fresh Q] } := by
  intro j d hd
  change (s.clients ++ [OutputClient.fresh Q])[j]? = some d at hd
  rw [List.getElem?_append] at hd
  split at hd
  · exact (h j d hd).mono rfl rfl id
  · rw [List.mem_singleton.mp (List.mem_of_getElem? hd)]
    exact fresh_watched hfree

/-- A client writes, and may signal the eventfd. -/
theorem AllWatched.clientWrote (h : s.AllWatched) (hsound : s.Sound) (hheeded : s.Heeded)
    (hfound : s.clients[i]? = some c) {a : Party.Action ringInterface}
    (hstep : (clientRing defaultRingBufferSize).Step c.ring (.inl a) ring) :
    (s.clientWrote i c ring a).AllWatched := by
  have hmem := List.mem_of_getElem? hfound
  have hwatched := h i c hfound
  have hwrites : c.ring.Writes := (hsound.client i c hfound).ring.1
  have hclient := ClientRing.clientStep_of_step hwrites hstep
  have hmono : s.eventFd = true → (s.eventFd || c.ring.notifies a) = true :=
    fun htrue => by rw [htrue, Bool.true_or]
  have hseen := ClientRing.seen_congr hclient.right
  have htaken := ClientRing.taken_congr hclient.right
  refine h.set hfound rfl ⟨?_, ?_, ?_⟩ fun j d _ hd => hd.mono rfl rfl hmono
  · exact hwatched.announced.client hwrites (hheeded.notifies c hmem) hstep
  · exact hclient.reads (hheeded.readable c hmem) hwatched.reads
  · refine hwatched.progress.imp rfl ?_ (fun n hn => ⟨?_, ?_⟩) ?_
    · rw [OutputClient.Caught, OutputClient.Caught]
      dsimp only
      rw [hseen, htaken]
      exact id
    · dsimp only
      rw [hseen, htaken]
      exact hn.within
    · exact fun l call rest hbusy => hn.spent l call rest (hclient.right ▸ hbusy)
    · dsimp only
      rw [hseen, htaken]
      refine Or.imp_right (Or.imp_left fun htold => ?_)
      exact ClientRing.told_of_step hwrites hwatched.announced htold hstep

theorem seen_noticed {l : DrainerLocal} (hidle : c.ring.right = .idle l) :
    c.noticed.ring.seen = c.ring.shared.appended.length := by
  rw [ClientRing.seen, noticed_idle hidle]

/-- A wakeup begins: what is unread now is what the drain has to take. -/
theorem AllWatched.wake (h : s.AllWatched) (hsound : s.Sound) (hheeded : s.Heeded)
    (hphase : s.phase = .waiting) (expired : Bool) : (s.wake expired).AllWatched := by
  have hidle := hsound.idle fun i drained hdraining => by cases hphase.symm.trans hdraining
  intro j d' hd'
  change (s.clients.map OutputClient.noticed)[j]? = some d' at hd'
  rw [List.getElem?_map] at hd'
  obtain ⟨d, hd, rfl⟩ := Option.map_eq_some_iff.mp hd'
  have hmem := List.mem_of_getElem? hd
  obtain ⟨l, hl⟩ := hidle d hmem
  have hwatched := h j d hd
  have hseen := seen_noticed hl
  have hright := noticed_idle hl
  have hsame : d.noticed.ring.left = d.ring.left ∧ d.noticed.ring.shared = d.ring.shared := by
    rw [OutputClient.noticed, ClientRing.noticed, hl]
    exact ⟨rfl, rfl⟩
  refine ⟨⟨.inr ?_, ?_, ?_⟩, hwatched.reads.noticed hl, ?_⟩
  · rw [hseen, hsame.2]
  · rw [hsame.1, hsame.2]
    exact hwatched.announced.before
  · rw [hsame.1]
    exact hwatched.announced.tells
  · have hunread := ClientRing.unread_le (hheeded.readable d hmem)
    have hcommitted := (hsound.client j d hd).taken_committed hl
    have htaken : d.noticed.ring.taken = d.ring.taken := by
      rw [ClientRing.taken_idle hright, ClientRing.taken_idle hl]
    have hbehind : d.noticed.Behind 0 := by
      refine ⟨?_, fun l' call rest hbusy => by cases hright.symm.trans hbusy⟩
      rw [hseen, htaken, hcommitted, List.length_map, List.length_take]
      rw [RingState.unread, List.length_drop] at hunread
      omega
    change if j < 0 then d.noticed.Caught else d.noticed.Behind (if j = 0 then 0 else 0)
    rw [if_neg (Nat.not_lt_zero j), ite_self]
    exact hbehind

/-- A step of the worker in a round of the drain. -/
theorem AllWatched.drainStep (h : s.AllWatched) (hheeded : s.Heeded)
    (hphase : s.phase = .draining i drained) (hfound : s.clients[i]? = some c)
    {a : Party.Action ringInterface}
    (hstep : (clientRing defaultRingBufferSize).Step c.ring (.inr a) ring)
    (hseen : ring.seen = c.ring.seen) (hbehind : OutputClient.Behind { c with ring } drained) :
    (s.setClient i { c with ring }).AllWatched := by
  have hwatched := h i c hfound
  obtain ⟨hleft, happended, hreads⟩ :=
    ClientRing.worker_step (hheeded.readable c (List.mem_of_getElem? hfound)) hwatched.reads hstep
  refine h.set hfound rfl ⟨?_, hreads, ?_⟩ fun j d _ hd => hd.mono rfl rfl id
  · exact hwatched.announced.worker hleft happended hseen
  · exact (progress_self (s := s.setClient i { c with ring }) hphase).mpr hbehind

theorem AllWatched.startRound (h : s.AllWatched) (hheeded : s.Heeded)
    (hphase : s.phase = .draining i drained) (hfound : s.clients[i]? = some c) {l : DrainerLocal}
    (hidle : c.ring.right = .idle l) :
    (s.setClient i { c with ring := c.ring.beginRound l (drainCall c drained) }).AllWatched := by
  have hseen : (c.ring.beginRound l (drainCall c drained)).seen = c.ring.seen := by
    rw [ClientRing.seen, ClientRing.seen, hidle]
    rfl
  have htaken : (c.ring.beginRound l (drainCall c drained)).taken = c.ring.taken := by
    rw [ClientRing.taken_idle hidle]
    rfl
  have hbehind := (progress_self hphase).mp (h i c hfound).progress
  refine h.drainStep hheeded hphase hfound (beginRound_step (drainCall c drained) hidle) hseen
    ⟨?_, fun l' call rest hbusy hspent => ?_⟩
  · dsimp only
    rw [hseen, htaken]
    exact hbehind.within
  · cases hbusy
    exact Nat.le_of_lt_succ (of_decide_eq_true hspent)

theorem AllWatched.ringAccess (h : s.AllWatched) (hheeded : s.Heeded)
    (hphase : s.phase = .draining i drained) (hfound : s.clients[i]? = some c) {cmd : RingCmd}
    (hstep : (clientRing defaultRingBufferSize).Step c.ring (.inr (.command cmd)) ring) :
    (s.setClient i { c with ring }).AllWatched := by
  obtain ⟨l, call, rest, rest', hbefore, hafter⟩ := right_of_ringAccess hstep
  have hseen : ring.seen = c.ring.seen := by
    rw [ClientRing.seen, ClientRing.seen, hbefore, hafter]
  have htaken : ring.taken = c.ring.taken := by
    rw [ClientRing.taken_busy hbefore, ClientRing.taken_busy hafter]
  have hbehind := (progress_self hphase).mp (h i c hfound).progress
  refine h.drainStep hheeded hphase hfound hstep hseen ⟨?_, fun l' call' rest'' hbusy hspent => ?_⟩
  · dsimp only
    rw [hseen, htaken]
    exact hbehind.within
  · cases hafter.symm.trans hbusy
    exact hbehind.spent l call rest hbefore hspent

/-- A round that took an event and found room for it. -/
theorem finishRound_took (s : OutputConnection Q) (i drained : Nat) (c : OutputClient Q)
    {event : MidiEvent} (hroom : event.timestamp ≠ 0 → c.isPendingFull = false) :
    ∃ pending sender, s.finishRound i drained c (.took event) =
      { s with
        clients := s.clients.set i { c with pending }
        sender
        phase := .draining i (drained + 1) } := by
  by_cases hzero : event.timestamp = 0
  · exact ⟨c.pending, _, if_pos hzero⟩
  · refine ⟨Q.push c.pending (.ofEvent event), s.sender, ?_⟩
    rw [finishRound, if_neg hzero, consumeNonRealtimeEvent, OutputClient.enqueueNonRealtime,
      hroom hzero]
    rfl

/-- Why a drain ended: the worker has what was there when the wakeup began, or the queue is full. -/
theorem caught_of_stopped (hreadable : c.ring.Readable) (hreads : c.ring.Reads)
    (hbehind : c.Behind drained) {l : DrainerLocal} {call : DrainCall} {reason : DrainStop}
    (hbusy : c.ring.right = .busy l call (.ret (.stopped reason))) :
    c.ring.seen ≤ c.ring.taken.length ∨ reason = .pendingFull := by
  have hholds := hreads hreadable
  rw [hbusy] at hholds
  obtain ⟨K, A, hdone, hK, hA⟩ := hholds c.ring.shared (WriterMoves.refl _)
  have hseen : c.ring.seen = A.length := by
    rw [ClientRing.seen, hbusy, hA]
  have htaken : c.ring.taken.length = K.length := by
    rw [ClientRing.taken_busy hbusy, ← hK, List.length_map]
  cases hdone with
  | nothing r reading drained =>
      rw [hseen, htaken]
      exact .inl (drained fun v hv => hv).length_le
  | budget r reading spent =>
      -- more was taken than the ring can hold
      have hmany := hbehind.spent l call _ hbusy spent
      have hwithin := hbehind.within
      simp only [maxDrainPerClient, maxRecords, defaultRingBufferSize, sizeofEventHeader] at hmany hwithin
      exact .inl (by omega)
  | pendingFull r reading full => exact .inr rfl

theorem AllWatched.finishRound (h : s.AllWatched) (hsound : s.Sound) (hheeded : s.Heeded)
    (hphase : s.phase = .draining i drained) (hfound : s.clients[i]? = some c) {l : DrainerLocal}
    {call : DrainCall} {round : DrainRound} (hbusy : c.ring.right = .busy l call (.ret round)) :
    (s.finishRound i drained { c with ring := c.ring.endRound l round } round).AllWatched := by
  have hwatched := h i c hfound
  have hreadable := hheeded.readable c (List.mem_of_getElem? hfound)
  have hbehind := (progress_self hphase).mp hwatched.progress
  obtain ⟨hleft, happended, hreads⟩ :=
    ClientRing.worker_step hreadable hwatched.reads (OutputClient.endRound_step hbusy)
  have hseen : (c.ring.endRound l round).seen = c.ring.seen := by
    rw [ClientRing.seen, ClientRing.seen, hbusy]
    cases round with
    | took event => rfl
    | stopped reason => rfl
  have hannounced := hwatched.announced.worker hleft happended hseen
  cases round with
  | stopped reason =>
      refine h.set hfound rfl ⟨hannounced, hreads, ?_⟩ fun j d hij hd => ⟨hd.announced, hd.reads, ?_⟩
      · change if i < i + 1 then _ else _
        rw [if_pos (Nat.lt_succ_self i)]
        refine (caught_of_stopped hreadable hwatched.reads hbehind hbusy).imp (fun hle => ?_)
          (congrArg some)
        rw [hseen]
        exact hle.trans_eq (congrArg List.length (ClientRing.taken_busy hbusy))
      · have hprogress := hd.progress
        rw [Progress, hphase] at hprogress
        dsimp only at hprogress
        rw [if_neg (Ne.symm hij)] at hprogress
        change if j < i + 1 then _ else d.Behind (if j = i + 1 then 0 else 0)
        rw [ite_self]
        by_cases hdone : j < i
        · rw [if_pos hdone] at hprogress
          rw [if_pos (Nat.lt_succ_of_lt hdone)]
          exact hprogress
        · rw [if_neg hdone] at hprogress
          rw [if_neg (by omega)]
          exact hprogress
  | took event =>
      obtain ⟨-, hroom⟩ := (hsound.client i c hfound).tookEvent hbusy
      obtain ⟨pending, sender, hfinish⟩ :=
        finishRound_took s i drained { c with ring := c.ring.endRound l (.took event) } hroom
      rw [hfinish]
      refine h.set hfound rfl ⟨hannounced, hreads, ?_⟩ fun j d hij hd => ⟨hd.announced, hd.reads, ?_⟩
      · refine (progress_self rfl).mpr ⟨?_, fun l' call' rest hbusy' => by cases hbusy'⟩
        dsimp only
        have hwithin := hbehind.within
        rw [hseen, OutputClient.taken_endRound hbusy, List.length_append, List.length_singleton]
        omega
      · have hprogress := hd.progress
        rw [Progress, hphase] at hprogress
        dsimp only at hprogress
        rw [if_neg (Ne.symm hij)] at hprogress
        change if j < i then d.Caught else d.Behind (if j = i then drained + 1 else 0)
        rw [if_neg (Ne.symm hij)]
        exact hprogress

theorem progress_afterDrain (hphase : AfterDrain s.phase) : s.Progress j c ↔ c.Caught := by
  rw [Progress]
  cases hs : s.phase with
  | waiting => exact (hs ▸ hphase : AfterDrain .waiting).elim
  | draining i drained => exact (hs ▸ hphase : AfterDrain (.draining i drained)).elim
  | drained => exact Iff.rfl
  | collecting now => exact Iff.rfl
  | flushing => exact Iff.rfl
  | arming => exact Iff.rfl

/-- The queues may change after the drain, the rings and the eventfd do not. -/
theorem Watched.settle (h : s.Watched j c) (hcaught : c.Caught) (hphase : AfterDrain t.phase)
    (heventFd : t.eventFd = s.eventFd) (pending : Q.Queue) : t.Watched j { c with pending } :=
  ⟨heventFd ▸ h.announced, h.reads, (progress_afterDrain hphase).mpr hcaught⟩

theorem AllWatched.settle (h : s.AllWatched) (hphase : AfterDrain s.phase)
    (hphase' : AfterDrain t.phase) (hclients : t.clients = s.clients)
    (heventFd : t.eventFd = s.eventFd) : t.AllWatched := by
  intro j d hd
  rw [hclients] at hd
  have hwatched := h j d hd
  exact hwatched.settle ((progress_afterDrain hphase).mp hwatched.progress) hphase' heventFd d.pending

theorem AllWatched.allDrained (h : s.AllWatched) (hphase : s.phase = .draining i drained)
    (hlast : s.clients.length ≤ i) : AllWatched { s with phase := .drained } := by
  intro j d hd
  have hwatched := h j d hd
  have hprogress := hwatched.progress
  have hlt := (List.getElem?_eq_some_iff.mp hd).1
  rw [Progress, hphase] at hprogress
  dsimp only at hprogress
  rw [if_pos (Nat.lt_of_lt_of_le hlt hlast)] at hprogress
  exact hwatched.settle (t := { s with phase := .drained }) hprogress trivial rfl d.pending

theorem AllWatched.collect (h : s.AllWatched) {now : Int} (hphase : s.phase = .collecting now) :
    (s.collect now).AllWatched := by
  have hafter : AfterDrain s.phase := hphase ▸ trivial
  obtain ⟨hend, -⟩ | ⟨i, c, e, now', hcollects, -, hsame⟩ := collect_cases s now
  · rw [hend]
    exact h.settle hafter trivial rfl rfl
  · have hphase' : AfterDrain (s.collect now).phase := by
      rw [hsame]
      trivial
    have heventFd : (s.collect now).eventFd = s.eventFd := by rw [hsame]
    have hsettle : ∀ j d pending, s.Watched j d →
        (s.collect now).Watched j { d with pending } := fun j d pending hd =>
      hd.settle ((progress_afterDrain hafter).mp hd.progress) hphase' heventFd pending
    refine h.set hcollects.found hcollects.clients ?_ fun j d _ hd => hsettle j d d.pending hd
    exact hsettle i c _ (h i c hcollects.found)

/-- With an event in a queue the timer is armed. -/
theorem armed_of_pending (hnow : 0 ≤ s.now) (hpending : ∃ c ∈ s.clients, Q.elements c.pending ≠ 0) :
    s.arm.timer.Armed := by
  obtain ⟨c, hc, hne⟩ := hpending
  have hqueue : ∃ q ∈ s.pendings, Q.elements q ≠ 0 := ⟨c.pending, List.mem_map_of_mem hc, hne⟩
  obtain ⟨due, -, hset⟩ := updateNextTimer_spec hnow hqueue
  change (updateNextTimer Q s.now s.pendings).1.ns ≠ 0
  cases lt_or_ge s.now due with
  | inl hfuture =>
      have hns := hset.future hfuture
      intro hzero
      omega
  | inr hdue =>
      rw [hset.notFuture hdue]
      decide

/-- The wakeup ends: a client that was left with unread events is heard of again. -/
theorem AllWatched.arm (h : s.AllWatched) (hheeded : s.Heeded) (hnow : 0 ≤ s.now)
    (hphase : s.phase = .arming) : s.arm.AllWatched := by
  intro j d hd
  change s.clients[j]? = some d at hd
  have hmem := List.mem_of_getElem? hd
  have hwatched := h j d hd
  have hmono : s.eventFd = true → s.arm.eventFd = true := fun htrue => by
    rw [OutputConnection.arm, htrue, Bool.true_or]
  refine ⟨hwatched.announced.alarm hmono, hwatched.reads, ?_⟩
  change d.ring.seen ≤ d.ring.taken.length ∨ s.arm.Guaranteed d
  have hcaught := (progress_afterDrain (hphase ▸ trivial)).mp hwatched.progress
  refine hcaught.imp_right fun hfull => ?_
  by_cases hempty : ∀ c ∈ s.clients, Q.elements c.pending = 0
  · exact .inl ((hheeded.timed hphase hempty d hmem hfull).imp_left hmono)
  · rw [not_forall] at hempty
    obtain ⟨c, hc⟩ := hempty
    rw [Classical.not_imp] at hc
    exact .inr (armed_of_pending hnow ⟨c, hc⟩)

end Steps

section Runs

variable {s t : OutputConnection Q}

theorem now_finishRound (s : OutputConnection Q) (i drained : Nat) (c : OutputClient Q)
    (round : DrainRound) : (s.finishRound i drained c round).now = s.now := by
  cases round with
  | stopped reason => rfl
  | took event =>
      rw [finishRound]
      split
      · rfl
      · rw [consumeNonRealtimeEvent]
        split
        · rfl
        · rfl

theorem now_le_of_step {a : Action} (hstep : Step s a t) : s.now ≤ t.now := by
  cases hstep with
  | tick now later inRange => exact later
  | finishRound drains found busy => exact (now_finishRound _ _ _ _ _).ge
  | @collect now collects =>
      obtain ⟨hend, -⟩ | ⟨i, c, e, now', -, -, hsame⟩ := collect_cases s now
      · rw [hend]
      · rw [hsame]
  | _ => exact le_rfl

theorem AllWatched.step (h : s.AllWatched) (hsound : s.Sound) (hnow : 0 ≤ s.now)
    (hheeded : s.Heeded) {a : Action} (hstep : Step s a t) : t.AllWatched := by
  cases hstep with
  | addClient free => exact h.addClient free
  | tick now later inRange => exact fun j d hd => (h j d hd).mono rfl rfl id
  | client found step => exact h.clientWrote hsound hheeded found step
  | wake expired waits => exact h.wake hsound hheeded waits expired
  | startRound drains found idle => exact h.startRound hheeded drains found idle
  | ringAccess drains found step => exact h.ringAccess hheeded drains found step
  | finishRound drains found busy => exact h.finishRound hsound hheeded drains found busy
  | drained drains last => exact h.allDrained drains last
  | startCollect after => exact h.settle (after ▸ trivial) trivial rfl rfl
  | collect collects => exact h.collect collects
  | flush flushes => exact h.settle (flushes ▸ trivial) trivial rfl rfl
  | arm arms => exact h.arm hheeded hnow arms

theorem watched_of_reachable (reach : (machine Q).ReachableWith (fun s _ => s.Heeded) s) :
    s.AllWatched ∧ 0 ≤ s.now := by
  refine reach.invariant (fun s => s.AllWatched ∧ 0 ≤ s.now) ?_ ?_
  · rintro ⟨clients, sender, phase, eventFd, timer, now⟩ ⟨rfl, -, -, -, hnow, -⟩
    exact ⟨fun j d hd => (by cases hd), hnow⟩
  · intro s a t reach ⟨hwatched, hnow⟩ hheeded hstep
    exact ⟨hwatched.step (sound_of_reachable reach) hnow hheeded hstep,
      hnow.trans (now_le_of_step hstep)⟩

/-- While the clients are heeded, no output is stuck. -/
theorem noStuckOutput_of_heeded (Q : PendingQueue) (s : OutputConnection Q)
    (reach : (machine Q).ReachableWith (fun s _ => s.Heeded) s) : s.NoStuckOutput := by
  intro hphase c hc hunread
  obtain ⟨i, hfound⟩ := List.getElem?_of_mem hc
  have hsound := sound_of_reachable reach
  have hidle := hsound.idle fun i drained hdraining => by cases hphase.symm.trans hdraining
  obtain ⟨l, hl⟩ := hidle c hc
  have hwatched := (watched_of_reachable reach).1 i c hfound
  have hprogress := hwatched.progress
  rw [Progress, hphase] at hprogress
  refine hprogress.elim (fun hseen => ?_) id
  obtain htold | hold := hwatched.announced.told
  · exact .inl htold
  · -- everything published was there when the wakeup began and was taken
    have htaken := congrArg List.length ((hsound.client i c hfound).taken_committed hl)
    rw [List.length_map, List.length_take] at htaken
    rw [RingState.unread, ne_eq, List.drop_eq_nil_iff] at hunread
    omega

section Played

theorem notifies_busy {ring : ClientRing} {accepted : List MidiEvent} {call : ProducerCall}
    {rest : RingProgram WriteResult} (hbusy : ring.left = .busy accepted call rest) :
    ring.Notifies ↔ call.notifies = true := by
  constructor
  · intro h
    exact h accepted call rest hbusy
  · intro h accepted' call' rest' hbusy'
    cases hbusy.symm.trans hbusy'
    exact h

instance : DecidablePred ClientRing.Notifies := fun ring =>
  match hleft : ring.left with
  | .idle _ => isTrue fun _ _ _ hbusy => by cases hleft.symm.trans hbusy
  | .busy _ _ _ => decidable_of_iff _ (notifies_busy hleft).symm

instance : DecidablePred ClientRing.Readable := fun ring =>
  inferInstanceAs (Decidable (ring.shared.Inv Published defaultRingBufferSize))

/-- The clients notify, the worker can read their records, and no queue was full. -/
def Calm (s : OutputConnection Q) : Prop :=
  ∀ c ∈ s.clients, c.ring.Notifies ∧ c.ring.Readable ∧ c.ended ≠ some .pendingFull

instance : DecidablePred (Calm (Q := Q)) := fun s =>
  inferInstanceAs (Decidable (∀ c ∈ s.clients, _))

theorem Calm.heeded (h : s.Calm) : s.Heeded :=
  ⟨fun c hc => (h c hc).1, fun c hc => (h c hc).2.1, fun _ _ c hc hfull =>
    absurd hfull (h c hc).2.2⟩

/-- The moves from the start of the worker, as long as it is calm. -/
def played (now : Int) (moves : List Move) : Option (OutputConnection Q) :=
  Machine.replay perform (fun s => s.Calm) moves (startedAt Q now)

theorem played_reachable {now : Int} {moves : List Move} (hnow : 0 ≤ now ∧ now < 2 ^ 63)
    (h : played now moves = some s) : (machine Q).ReachableWith (fun s _ => s.Heeded) s := by
  have hstarted : (machine Q).ReachableWith (fun s _ => s.Heeded) (startedAt Q now) :=
    .init ⟨rfl, rfl, rfl, rfl, hnow.1, hnow.2⟩
  exact hstarted.replay (fun _ _ _ => step_of_perform)
    (fun _ _ hcalm => (of_decide_eq_true hcalm).heeded) h

/-- A client writes an event without a timestamp and one that is due, the worker hands both on, and
while it waits the client publishes a third event. -/
def thirdWrite : List Move :=
  [.worker, .addClient, .start 0 (.tryWriteEvent (.ofWords 0 [0x20903C7F]) true)] ++
    List.replicate 18 (.client 0) ++
    [.start 0 (.tryWriteEvent (.ofWords 7 [0x40903C00, 0x80000000]) true)] ++
    List.replicate 19 (.client 0) ++ [.wake] ++ List.replicate 43 .worker ++
    [.start 0 (.tryWriteEvent (.ofWords 0 [0x20803C00]) true)] ++ List.replicate 16 (.client 0)

end Played

theorem noStuckOutput_thirdWrite :
    ∃ s : OutputConnection binaryPendingQueue, played 10 thirdWrite = some s ∧
      s.sender.handed.flatten.length = 2 ∧ s.phase = .waiting ∧
      (s.clients.map fun c => c.ring.shared.unread.length) = [1] ∧ s.NoStuckOutput := by
  have hplayed : (played (Q := binaryPendingQueue) 10 thirdWrite).any (fun s =>
      s.sender.handed.flatten.length = 2 ∧ s.phase = .waiting ∧
        (s.clients.map fun c => c.ring.shared.unread.length) = [1]) = true := by
    decide +kernel
  obtain ⟨s, hs, hstate⟩ := (Option.any_eq_true ..).mp hplayed
  obtain ⟨hhanded, hphase, hunread⟩ := of_decide_eq_true hstate
  exact ⟨s, hs, hhanded, hphase, hunread,
    noStuckOutput_of_heeded binaryPendingQueue s (played_reachable (by decide) hs)⟩

end Runs

end OutputConnection

end MidiFramework.Server
