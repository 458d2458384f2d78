import MidiFramework.Client.InputDelivery

/-!
# How the receiver thread of an input port ends

After `StopReceiverThread` has called `FutexWake` the thread is not blocked in the
kernel again, and while the server does not write it comes to its end by itself.
-/

namespace MidiFramework.Client

open Foundation Program Discipline SharedRing Common

namespace InputChannel

variable {capacity : Capacity} {s t : InputChannel capacity}

/-- `StopReceiverThread` has called `FutexWake` and waits for the thread to end. -/
def Joining (s : InputChannel capacity) : Prop := s.running = false ∧ s.stopper.away = true

theorem Attended.exit_of_joining (h : s.Attended) (hjoining : s.Joining) : s.word = isPreExit :=
  (h.exits hjoining.1).resolve_left (not_approaches_of_away hjoining.2)

theorem wakesNext_of_stopStep (h : s.Attended) (hwakes : s.stopper.away = false)
    (haway : (s.stopper.next s.word).1.away = true) : s.stopper.wakesNext = true := by
  have hstops := h.stops
  cases hstopper : s.stopper with
  | idle =>
      rw [hstopper] at hwakes
      contradiction
  | returned v code =>
      rw [hstopper] at hwakes
      contradiction
  | wake v => rfl
  | load v =>
      rw [hstopper, Waking.next, if_pos h.word] at haway
      contradiction
  | exchange v =>
      rw [hstopper] at haway hstops
      obtain rfl : v = isPreExit := hstops
      contradiction

/-- The thread blocks only in the system call, which finds the word not ready. -/
theorem blocked_of_receive {l : ReceiverLocal} (h : (s.receive l).Blocked) :
    s.Blocked ∨ s.word = isNotReady := by
  obtain ⟨n, hn⟩ := h
  unfold InputChannel.receive at hn
  cases hthread : s.thread with
  | wait m =>
      rw [hthread] at hn
      dsimp only at hn
      split at hn
      · next hword => exact .inr hword
      · contradiction
  | blocked m => exact .inl ⟨m, hthread⟩
  | _ =>
      rw [hthread] at hn
      dsimp only at hn
      repeat' split at hn
      all_goals first | contradiction | exact .inl ⟨n, hn⟩

theorem blocked_of_endCall {l : ReceiverLocal} {call : ReceiverCall} {result : call.Result}
    (hsound : s.Sound) (hbusy : s.ring.right = .busy l call (.ret result))
    (h : (s.endCall l call result).Blocked) : s.Blocked := by
  obtain ⟨n, hn⟩ := h
  obtain ⟨rfl, look, hthread⟩ | ⟨rfl, hthread⟩ := hsound.inCall hbusy
  · unfold InputChannel.endCall at hn
    rw [hthread] at hn
    dsimp only at hn
    obtain hwaited | ⟨m, hexchange⟩ | ⟨hwait, -⟩ := look.after_cases (result.1 = .ok)
    · rw [hwaited] at hn
      contradiction
    · rw [hexchange] at hn
      contradiction
    · rw [hwait] at hn
      contradiction
  · cases result with
    | event copied => cases hn
    | discarded => exact ⟨n, hn⟩
    | empty => cases hn

theorem not_blocked_step {a : Action} (hsound : s.Sound) (hattended : s.Attended)
    (h : s.Joining → ¬s.Blocked) (hstep : Step s a t) (hjoining : t.Joining) : ¬t.Blocked := by
  cases hstep with
  | notify wakes =>
      unfold InputChannel.notify at hjoining ⊢
      dsimp only at hjoining ⊢
      split
      · exact not_blocked_wakeAll
      · next hwakes =>
          rw [if_neg hwakes] at hjoining
          exact h hjoining
  | stopStep wakes =>
      unfold InputChannel.stopStep at hjoining ⊢
      dsimp only at hjoining ⊢
      split
      · exact not_blocked_wakeAll
      · next hwakes =>
          rw [if_neg hwakes] at hjoining
          exact absurd (wakesNext_of_stopStep hattended wakes hjoining.2) hwakes
  | spurious => exact not_blocked_wakeAll
  | stop runs => exact absurd hjoining.2 Bool.false_ne_true
  | @receive l idle =>
      have hsame : (s.receive l).running = s.running ∧ (s.receive l).stopper = s.stopper := by
        unfold InputChannel.receive
        split <;> (try split) <;> (try split) <;> (try split) <;> exact ⟨rfl, rfl⟩
      have hbefore : s.Joining := by
        rw [Joining, hsame.1, hsame.2] at hjoining
        exact hjoining
      intro hblocked
      obtain hblocked | hword := blocked_of_receive hblocked
      · exact h hbefore hblocked
      · rw [hattended.exit_of_joining hbefore] at hword
        contradiction
  | @endCall l call result busy =>
      have hsame : (s.endCall l call result).running = s.running ∧
          (s.endCall l call result).stopper = s.stopper := by
        cases call with
        | peekNext => exact ⟨rfl, rfl⟩
        | drainRound => cases result <;> exact ⟨rfl, rfl⟩
      have hbefore : s.Joining := by
        rw [Joining, hsame.1, hsame.2] at hjoining
        exact hjoining
      exact fun hblocked => h hbefore (blocked_of_endCall hsound busy hblocked)
  | _ => exact h hjoining

/-- While `StopReceiverThread` waits for the thread, it is not blocked. -/
theorem not_blocked_of_joining (reach : (machine capacity).Reachable s) (hjoining : s.Joining) :
    ¬s.Blocked := by
  refine reach.invariant (fun s => s.Joining → ¬s.Blocked) ?_ ?_ hjoining
  · rintro s ⟨direction, mem, -, rfl⟩ hjoining
    cases hjoining.1
  · intro s a t reach h _ hstep
    exact not_blocked_step (sound_of_reachable reach) (attended_of_reachable reach) h hstep

/-- The receiver thread goes on alone. -/
def Alone : InputChannel capacity → InputChannel capacity → Prop :=
  Relation.ReflTransGen fun s t => Step s .receive t

/-- The thread is told to end in a reachable state. -/
structure Quitting (s : InputChannel capacity) : Prop where
  reach : (machine capacity).Reachable s
  joining : s.Joining

/-- The thread can only end by going on alone. -/
def Ends (s : InputChannel capacity) : Prop := ∃ t, Alone s t ∧ t.thread = .ended

theorem Ends.of_step (hstep : Step s .receive t) (h : t.Ends) : s.Ends := by
  obtain ⟨u, hu, hended⟩ := h
  exact ⟨u, hu.head hstep, hended⟩

/-- How many published events the receiver has not taken. -/
def remaining (s : InputChannel capacity) : Nat :=
  s.ring.published.length - s.ring.reader.taken.length

section Quitting

variable {l : ReceiverLocal} {call : ReceiverCall}

theorem Quitting.receive (h : s.Quitting) (hidle : s.ring.right = .idle l) :
    (s.receive l).Quitting := by
  refine ⟨h.reach.step trivial (.receive hidle), ?_⟩
  have hsame : (s.receive l).running = s.running ∧ (s.receive l).stopper = s.stopper := by
    unfold InputChannel.receive
    split <;> (try split) <;> (try split) <;> (try split) <;> exact ⟨rfl, rfl⟩
  rw [Joining, hsame.1, hsame.2]
  exact h.joining

/-- The thread goes on where it is; `t` is where the code leads. -/
theorem Quitting.ends_receive (h : s.Quitting) (hidle : s.ring.right = .idle l)
    (hreceive : s.receive l = t) (hnext : t.Quitting → t.Ends) : s.Ends := by
  subst hreceive
  exact .of_step (.receive hidle) (hnext (h.receive hidle))

/-- A call that runs alone returns. -/
theorem Quitting.ends_call {p : RingProgram call.Result} (h : s.Quitting)
    (hbusy : s.ring.right = .busy l call p)
    (hreturn : ∀ (t : InputChannel capacity) result, t.Quitting → t.ring.right = .busy l call (.ret result) →
      t.thread = s.thread → t.remaining = s.remaining → t.Ends) : s.Ends := by
  induction p generalizing s with
  | ret result => exact hreturn s result h hbusy rfl rfl
  | op c k ih =>
      obtain ⟨⟨left, right, shared⟩, word, running, direction, thread, batch, calls, notifier, stopper⟩ := s
      obtain rfl : right = .busy l call (.op c k) := hbusy
      have hstep : (inputRing capacity.bytes).Step ⟨left, .busy l call (.op c k), shared⟩
          (.inr (.command c)) ⟨left, .busy l call (k (execTraced c shared).1), (execTraced c shared).2⟩ :=
        .right .command
      obtain ⟨-, happended, hreader, -⟩ :=
        InputRing.readAccess (sound_of_reachable h.reach).ring.reads hstep
      refine .of_step (.ringAccess hstep) (ih _ ⟨h.reach.step trivial (.ringAccess hstep), h.joining⟩
        rfl fun t result ht hret hthread hleft => hreturn t result ht hret hthread ?_)
      rw [hleft, InputChannel.remaining, InputChannel.remaining]
      dsimp only
      rw [hreader, InputRing.published, InputRing.published, happended]

theorem ends_ended (hthread : s.thread = .ended) : s.Ends := ⟨s, .refl, hthread⟩

theorem Quitting.idle (h : s.Quitting) (hthread : s.thread.Shape s.ring.right →
    ∃ l, s.ring.right = .idle l) : ∃ l, s.ring.right = .idle l :=
  hthread (sound_of_reachable h.reach).shape

theorem Quitting.ends_loop (h : s.Quitting) (hthread : s.thread = .loop) : s.Ends := by
  obtain ⟨l, hidle⟩ := h.idle fun hshape => by rwa [hthread] at hshape
  refine h.ends_receive hidle rfl fun _ => ends_ended ?_
  simp [InputChannel.receive, hthread, h.joining.1]

theorem Quitting.ends_waited (h : s.Quitting) (hthread : s.thread = .waited) : s.Ends := by
  obtain ⟨l, hidle⟩ := h.idle fun hshape => by rwa [hthread] at hshape
  refine h.ends_receive hidle rfl fun _ => ends_ended ?_
  simp [InputChannel.receive, hthread, h.joining.1]

theorem Quitting.ends_checkRunning (h : s.Quitting) {look : Look}
    (hthread : s.thread = .checkRunning look) : s.Ends := by
  obtain ⟨l, hidle⟩ := h.idle fun hshape => by rwa [hthread] at hshape
  refine h.ends_receive hidle rfl fun hquitting => hquitting.ends_waited ?_
  simp [InputChannel.receive, hthread, h.joining.1]

theorem Quitting.word (h : s.Quitting) : s.word = isPreExit :=
  (attended_of_reachable h.reach).exit_of_joining h.joining

theorem Quitting.ends_exchange (h : s.Quitting) {n : Nat} (hthread : s.thread = .exchange n) :
    s.Ends := by
  obtain ⟨l, hidle⟩ := h.idle fun hshape => by rwa [hthread] at hshape
  refine h.ends_receive hidle rfl fun hquitting => hquitting.ends_waited ?_
  have hready : isPreExit ≠ isReady := by decide
  simp only [InputChannel.receive, hthread, h.word, if_neg hready, if_true]
  split <;> rfl

theorem Quitting.ends_wait (h : s.Quitting) {n : Nat} (hthread : s.thread = .wait n) : s.Ends := by
  obtain ⟨l, hidle⟩ := h.idle fun hshape => by rwa [hthread] at hshape
  have hready : isPreExit ≠ isNotReady := by decide
  have hrunning : (s.receive l).thread = .checkRunning ⟨n, true⟩ := by
    simp [InputChannel.receive, hthread, h.word, hready]
  exact h.ends_receive hidle rfl fun hquitting => hquitting.ends_checkRunning hrunning

theorem Quitting.ends_checkParams (h : s.Quitting) (hthread : s.thread = .checkParams) :
    s.Ends := by
  obtain ⟨l, hidle⟩ := h.idle fun hshape => by rwa [hthread] at hshape
  refine h.ends_receive hidle rfl fun hquitting => hquitting.ends_exchange (n := 0) ?_
  simp [InputChannel.receive, hthread, (attended_of_reachable h.reach).word]

theorem Quitting.ends_peeking (h : s.Quitting) {look : Look} (hthread : s.thread = .peeking look) :
    s.Ends := by
  have hshape := (sound_of_reachable h.reach).shape
  rw [hthread] at hshape
  obtain ⟨l, rest, hbusy⟩ := hshape
  refine h.ends_call hbusy fun t result ht hret hthread' _ => ?_
  rw [hthread] at hthread'
  have hnext : (t.endCall l .peekNext result).Quitting :=
    ⟨ht.reach.step trivial (.endCall hret), ht.joining⟩
  have hplace : (t.endCall l .peekNext result).thread = look.after (result.1 = .ok) := by
    unfold InputChannel.endCall
    rw [hthread']
  refine .of_step (.endCall hret) ?_
  obtain hwaited | ⟨n, hexchange⟩ | ⟨hwait, -⟩ := look.after_cases (result.1 = .ok)
  · exact hnext.ends_waited (hplace.trans hwaited)
  · exact hnext.ends_exchange (hplace.trans hexchange)
  · exact hnext.ends_wait (hplace.trans hwait)

theorem Quitting.ends_dispatching (h : s.Quitting) (hthread : s.thread = .dispatching) :
    s.Ends := by
  obtain ⟨l, hidle⟩ := h.idle fun hshape => by rwa [hthread] at hshape
  refine h.ends_receive hidle rfl fun hquitting => hquitting.ends_loop ?_
  simp [InputChannel.receive, hthread]

/-- After the `FutexWake` of `CommitRead` the drain goes on. -/
theorem Quitting.ends_waking {place : Waking} (h : s.Quitting) (hthread : s.thread = .waking place)
    (hdrain : ∀ t : InputChannel capacity, t.Quitting → t.thread = .draining → t.remaining = s.remaining →
      t.Ends) : s.Ends := by
  obtain ⟨n, hn⟩ : ∃ n, place.steps = n := ⟨_, rfl⟩
  induction n using Nat.strong_induction_on generalizing s place with
  | _ n ih =>
      obtain ⟨l, hidle⟩ := h.idle fun hshape => by rwa [hthread] at hshape
      have hleft : (s.receive l).remaining = s.remaining := by
        simp [InputChannel.receive, hthread, InputChannel.remaining]
      refine h.ends_receive hidle rfl fun hquitting => ?_
      by_cases haway : (place.next s.word).1.away = true
      · refine hdrain _ hquitting ?_ hleft
        simp [InputChannel.receive, hthread, haway]
      · have hless := (steps_next place s.word).resolve_left haway
        have hwaking : (s.receive l).thread = .waking (place.next s.word).1 := by
          simp [InputChannel.receive, hthread, haway]
        exact ih _ (hn ▸ hless) hquitting hwaking (fun t ht hat hsame =>
          hdrain t ht hat (hsame.trans hleft)) rfl

/-- Alone the thread drains the ring: each round takes an event, or is the last. -/
theorem Quitting.ends_draining (h : s.Quitting) (hthread : s.thread = .draining) : s.Ends := by
  obtain ⟨n, hn⟩ : ∃ n, s.remaining = n := ⟨_, rfl⟩
  induction n using Nat.strong_induction_on generalizing s with
  | _ n ih =>
      -- the thread is in a round, or begins one
      have hround : ∀ {u : InputChannel capacity} {l call} {rest : RingProgram call.Result},
          u.Quitting → u.thread = .draining → u.remaining = n → u.ring.right = .busy l call rest →
          u.Ends := by
        intro u l call rest hu huthread hun hbusy
        refine hu.ends_call hbusy fun t result ht hret htthread htleft => ?_
        have hsound := sound_of_reachable ht.reach
        obtain ⟨rfl, look, hpeeking⟩ | ⟨rfl, -⟩ := hsound.inCall hret
        · cases (hpeeking.symm.trans htthread).trans huthread
        have hnext : (t.endCall l .drainRound result).Quitting := by
          refine ⟨ht.reach.step trivial (.endCall hret), ?_⟩
          cases result <;> exact ht.joining
        have hreturned := hsound.ring.reads.returned hret
        refine .of_step (.endCall hret) ?_
        cases result with
        | discarded =>
            obtain ⟨K, A, hdrained, -⟩ := hreturned
            cases hdrained
        | empty => exact hnext.ends_dispatching rfl
        | event copied =>
            have hwaking : (t.endCall l .drainRound (.event copied)).thread =
                .waking (.load isReady) := rfl
            refine hnext.ends_waking hwaking fun v hv hvthread hvleft => ?_
            have htaken := (sound_of_reachable hnext.reach).ring.taken.length_le
            have hmore : (t.endCall l .drainRound (.event copied)).ring.reader.taken.length =
                t.ring.reader.taken.length + 1 := by
              rw [InputRing.reader_busy hret]
              exact List.length_append
            have hsame : (t.endCall l .drainRound (.event copied)).ring.published =
                t.ring.published := rfl
            refine ih v.remaining ?_ hv hvthread rfl
            rw [hvleft, ← hun, ← htleft, InputChannel.remaining, InputChannel.remaining, hmore, hsame]
            rw [hmore, hsame] at htaken
            omega
      cases hright : s.ring.right with
      | busy l call rest => exact hround h hthread hn hright
      | idle l =>
          refine h.ends_receive hright rfl fun hquitting => ?_
          have hbusy : (s.receive l).ring.right = .busy { l with seen := s.ring.shared.appended.length }
              .drainRound (drainOne capacity.bytes) := by
            unfold InputChannel.receive
            rw [hthread]
            rfl
          refine hround hquitting ?_ ?_ hbusy
          · simp [InputChannel.receive, hthread]
          · rw [← hn, InputChannel.remaining, InputChannel.remaining, InputRing.reader_busy hbusy,
              InputRing.reader_idle hright]
            simp only [InputChannel.receive, hthread]
            rfl

end Quitting

/-- Once `StopReceiverThread` waits for the thread, it is not blocked, and if the server does not
write it ends. -/
theorem stop_ends (reach : (machine capacity).Reachable s) (hjoining : s.Joining) :
    ¬s.Blocked ∧ ∃ t, Alone s t ∧ t.thread = .ended := by
  have hquitting : s.Quitting := ⟨reach, hjoining⟩
  have hblocked := not_blocked_of_joining reach hjoining
  refine ⟨hblocked, ?_⟩
  cases hthread : s.thread with
  | loop => exact hquitting.ends_loop hthread
  | checkParams => exact hquitting.ends_checkParams hthread
  | exchange n => exact hquitting.ends_exchange hthread
  | checkRunning look => exact hquitting.ends_checkRunning hthread
  | peeking look => exact hquitting.ends_peeking hthread
  | wait n => exact hquitting.ends_wait hthread
  | blocked n => exact absurd ⟨n, hthread⟩ hblocked
  | waited => exact hquitting.ends_waited hthread
  | draining => exact hquitting.ends_draining hthread
  | waking place =>
      exact hquitting.ends_waking hthread fun t ht hdraining _ => ht.ends_draining hdraining
  | dispatching => exact hquitting.ends_dispatching hthread
  | ended => exact ends_ended hthread

/-- The sleeping thread after `StopReceiverThread` has woken it. -/
def woken : InputChannel smallest :=
  { asleep with
    running := false
    word := isPreExit
    thread := .checkRunning ⟨0, true⟩
    stopper := .returned isPreExit .success }

theorem stop_ends_woken : ¬woken.Blocked ∧ ∃ t, Alone woken t ∧ t.thread = .ended := by
  have hasleep : (machine smallest).Reachable asleep := asleep_reachable.reachable
  have hstop := hasleep.step trivial (.stop rfl)
  have hload := hstop.step trivial (.stopStep rfl)
  have hexchange := hload.step trivial (.stopStep rfl)
  have hwake := hexchange.step trivial (.stopStep rfl)
  exact stop_ends (s := woken) hwake ⟨rfl, rfl⟩

end InputChannel

end MidiFramework.Client
