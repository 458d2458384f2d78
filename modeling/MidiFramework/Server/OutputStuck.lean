import MidiFramework.Server.OutputRuns
import MidiFramework.Server.OutputWakeup
import MidiFramework.SharedRing.Progress

/-!
# A client whose queue is full when its events are due

A client schedules as many events as its queue holds, all for the same time, and
one more, which stays in the ring. When the time comes, the drain stops at the
full queue, the collection empties it, and `UpdateNextTimer` disarms the timer.
The worker waits for the next write with an event in the ring.

## Implementation notes

The events have no payload, so their records are headers. Each is written and
taken before the next, so the ring is empty between two wakeups.
-/

namespace MidiFramework.Server

open Foundation Program PriorityQueue SharedRing

/-- The places of a ring of the default size where the headers begin. -/
def headerPlaces : Nat := defaultRingBufferSize / sizeofEventHeader

/-- The sequence words at these places are those of at most `n` writes. -/
def SlotsUsed (n : Nat) (d : ByteMemory) : Prop :=
  ∀ k < headerPlaces, (d.load32 (sequenceField (24 * k))).toNat ≤ 3 * n

section Slots

variable {d : ByteMemory} {j k n : Nat} {event : MidiEventInner}

theorem sequence_recordWritten_ne (hempty : event.words = []) (hne : j ≠ k) :
    (recordWritten d (24 * j) event).load32 (sequenceField (24 * k)) =
      d.load32 (sequenceField (24 * k)) := by
  have happart : 24 * j + 24 ≤ 24 * k ∨ 24 * k + 24 ≤ 24 * j := by omega
  rw [recordWritten, hempty, ByteMemory.storeWords, begun]
  simp only [sequenceField, flagsField, lengthField, timestampField]
  rw [ByteMemory.load32_store32_ne (by omega), ByteMemory.load32_store32_ne (by omega),
    ByteMemory.load32_store32_ne (by omega), ByteMemory.load32_store64_ne (by omega),
    ByteMemory.load32_store32_ne (by omega)]

theorem sequence_recordWritten (j : Nat) :
    (recordWritten d (24 * j) event).load32 (sequenceField (24 * j)) = publishedWord d (24 * j) :=
  ByteMemory.load32_store32 _ _

theorem publishedWord_le (h : Nat) (hlt : (d.load32 (sequenceField h)).toNat < 2 ^ 32 - 3) :
    (publishedWord d h).toNat ≤ (d.load32 (sequenceField h)).toNat + 3 := by
  rw [publishedWord, writerSequence]
  split
  · rw [UInt32.toNat_add, UInt32.toNat_add]
    simp only [seqWriteStartIncrement, seqWriteCompleteTotal, UInt32.reduceToNat]
    omega
  · rw [UInt32.toNat_add]
    simp only [seqWriteCompleteTotal, UInt32.reduceToNat]
    omega

theorem SlotsUsed.record (h : SlotsUsed n d) (hempty : event.words = [])
    (hn : n < 2 ^ 20) : SlotsUsed (n + 1) (recordWritten d (24 * j) event) := by
  intro k hk
  by_cases hjk : j = k
  · subst hjk
    have hfound := h j hk
    have hpublished := publishedWord_le (d := d) (24 * j) (by omega)
    rw [sequence_recordWritten]
    omega
  · have hfound := h k hk
    rw [sequence_recordWritten_ne hempty hjk]
    omega

theorem SlotsUsed.renews (h : SlotsUsed n d) (hk : k < headerPlaces) (hn : n < 2 ^ 20) :
    Renews Published (d.load32 (sequenceField (24 * k))) := by
  have hfound := h k hk
  refine (published_writerSequence _).mpr ?_
  rintro (hsame | hsame)
  · rw [hsame] at hfound
    simp only [UInt32.reduceToNat] at hfound
    omega
  · rw [hsame] at hfound
    simp only [UInt32.reduceToNat] at hfound
    omega

end Slots

/-- The ring is empty, and at most `n` events without a payload were written. -/
structure Worn (n : Nat) (s : RingState) : Prop where
  inv : s.Inv Published defaultRingBufferSize
  empty : s.unread = []
  level : s.readIndex = s.writeIndex
  place : ∃ k ≤ headerPlaces, s.writeIndex = 24 * k
  slots : SlotsUsed n s.mem.data

/-- The ring holds the record, the last of at most `n`. -/
structure WornWith (n : Nat) (x : Record) (s : RingState) : Prop where
  inv : s.Inv Published defaultRingBufferSize
  unread : s.unread = [x]
  place : ∃ k ≤ headerPlaces, 0 < k ∧ s.writeIndex = 24 * k
  slots : SlotsUsed n s.mem.data

section Rounds

variable {n : Nat} {x : Record} {s : RingState}

/-- Where the next header is written. -/
def nextPlace (k : Nat) : Nat := if k < headerPlaces then k else 0

theorem nextPlace_lt (k : Nat) : nextPlace k < headerPlaces := by
  rw [nextPlace]
  split
  · assumption
  · decide

theorem Worn.write (h : Worn n s) (hn : n < 2 ^ 20) (timestamp : UInt64) :
    ∃ x, x.toMidiEvent = ⟨timestamp, []⟩ ∧ WornWith (n + 1) x
      ((tryWriteEvent defaultRingBufferSize (.ofWords timestamp []) true).run execTraced s).2 := by
  obtain ⟨k, hk, hw⟩ := h.place
  have hplaces : headerPlaces = 85 := rfl
  have hcap : defaultRingBufferSize = 2048 := rfl
  have hsettled : SharedRing.Settled Published defaultRingBufferSize s := ⟨h.inv, by omega⟩
  have hsize : recordSize (MidiEventInner.ofWords timestamp []).words.length = 24 :=
    (by decide : recordSize 0 = 24)
  have hroom : Accepts defaultRingBufferSize s.readIndex s.writeIndex 24 := by
    rw [Accepts, freeBytes, usedBytes, h.level, if_pos le_rfl]
    omega
  have hplace : SharedRing.place defaultRingBufferSize s.writeIndex 24 = 24 * nextPlace k := by
    rw [SharedRing.place, nextPlace]
    split <;> split <;> omega
  have hdata : placeData defaultRingBufferSize s.mem.data s.writeIndex 24 = s.mem.data := by
    rw [placeData]
    split
    · rfl
    · rfl
  have hslots : ∀ i ∈ headerSlots defaultRingBufferSize s.readIndex s.writeIndex 24,
      Renews Published (s.mem.data.load32 (sequenceField i)) := by
    intro i hi
    rw [headerSlots, if_pos hroom.1] at hi
    by_cases hhere : 24 ≤ defaultRingBufferSize - s.writeIndex
    · rw [if_pos hhere] at hi
      rw [List.mem_singleton.mp hi, hw]
      exact h.slots.renews (by omega) hn
    · rw [if_neg hhere, if_neg hhere, List.nil_append] at hi
      have hzero : i = 0 := by
        split at hi
        · exact List.mem_singleton.mp hi
        · cases hi
      rw [hzero]
      exact h.slots.renews (k := 0) (by decide) hn
  have hvalid : validateOneEvent defaultRingBufferSize (.ofWords timestamp []) = true := by
    have hneeded : getEventRecordSize 0 = some 24 := by decide
    simp only [validateOneEvent, MidiEventInner.ofWords, List.length_nil, hneeded,
      Option.isSome_some, Bool.true_and]
    decide
  have hlength : (MidiEventInner.ofWords timestamp []).words.length =
      (MidiEventInner.ofWords timestamp []).length := rfl
  obtain ⟨hattempt, -, -⟩ := run_tryWriteOneEvent (by decide) hsettled hlength (hsize ▸ hslots)
  have hrun := (run_tryWriteEvent (by decide) (by decide) hsettled hvalid true rfl).1
  have hkept := run_writerMoves (ProducerCall.triple (by decide) (fun _ => trivial)
    (.tryWriteEvent (.ofWords timestamp []) true) s (h.inv.mono fun _ _ => trivial).writing)
  rw [hrun]
  have hremoved := hkept.removed
  change ((tryWriteEvent defaultRingBufferSize (.ofWords timestamp []) true).run execTraced s).2.removed
    = s.removed at hremoved
  rw [hrun] at hremoved
  rw [hsize] at hattempt hremoved ⊢
  generalize (tryWriteOneEvent defaultRingBufferSize (.ofWords timestamp []) 24 s.readIndex
    s.writeIndex).run execTraced s = out at hattempt hremoved ⊢
  cases hattempt with
  | refused full returned d' writing => exact absurd hroom full
  | accepted room returned writing =>
      rw [hplace, hdata] at writing
      have hnext := nextPlace_lt k
      refine ⟨⟨24 * nextPlace k, timestamp, []⟩, rfl, writing.inv, ?_, ?_, ?_⟩
      · have hall := h.empty
        rw [RingState.unread, List.drop_eq_nil_iff] at hall
        rw [RingState.unread, writing.appended, hremoved, List.drop_append_of_le_length
          h.inv.removed_le, List.drop_eq_nil_of_le hall]
        rfl
      · refine ⟨nextPlace k + 1, hnext, Nat.succ_pos _, ?_⟩
        rw [writing.write, advance, if_neg (by omega)]
        rfl
      · rw [writing.data]
        exact h.slots.record rfl hn

theorem level_of_empty {d : ByteMemory} {r w : Nat} (h : Layout Published defaultRingBufferSize d r w [])
    (hw : 0 < w) : r = w := by
  cases h.shape with
  | inl straight => exact straight
  | inr wrapped =>
      obtain ⟨e, ys, zs, hparts, -, -, -, hzs⟩ := wrapped.parts
      rw [(List.append_eq_nil_iff.mp hparts.symm).2] at hzs
      exact absurd hzs hw.ne

/-- What an uninterrupted round of the drain does to the ring. -/
theorem round_done (hinv : s.Inv Published defaultRingBufferSize) (call : DrainCall)
    {run : DrainRound × RingState}
    (hrun : (Server.drainRound defaultRingBufferSize call).run execTraced s = run) :
    ∃ K, s.appended = K ++ s.unread ∧
      RoundDone Published defaultRingBufferSize K s.appended call run.1 run.2 ∧
      ReaderMoves Published defaultRingBufferSize s run.2 := by
  have hsat := triple_drainRound (by decide) call s hinv.reading
  exact ⟨_, hinv.reading.split, hrun ▸ hsat.run, hrun ▸ run_readerMoves hsat⟩

/-- Nothing new is left unread. -/
theorem unread_eq_nil {t : RingState} {r : Nat} {K A : List Record}
    (hreading : Reading Published defaultRingBufferSize r K A t) (hall : t.appended = K) :
    t.unread = [] :=
  List.append_right_eq_self.mp (hreading.split.symm.trans hall)

theorem Worn.of_moves {t : RingState} (hinv : t.Inv Published defaultRingBufferSize)
    (hempty : t.unread = []) (hplace : ∃ k ≤ headerPlaces, 0 < k ∧ s.writeIndex = 24 * k)
    (hslots : SlotsUsed n s.mem.data) (hmoves : ReaderMoves Published defaultRingBufferSize s t) :
    Worn n t := by
  obtain ⟨k, hk, hpos, hw⟩ := hplace
  have hwrite : t.writeIndex = 24 * k := by
    rw [RingState.writeIndex, hmoves.write]
    exact hw
  refine ⟨hinv, hempty, ?_, ⟨k, hk, hwrite⟩, hmoves.data ▸ hslots⟩
  exact level_of_empty (hempty ▸ hinv.layout) (by omega)

variable {call : DrainCall} {run : DrainRound × RingState}

/-- The record is taken, or it stays because the client's queue is full. -/
theorem WornWith.round (h : WornWith n x s) (hspent : call.spent = false)
    (hrun : (Server.drainRound defaultRingBufferSize call).run execTraced s = run) :
    run.1 = .took x.toMidiEvent ∧ Worn n run.2 ∧ 0 < run.2.writeIndex ∧
        (x.timestamp ≠ 0 → call.full = false) ∨
      run.1 = .stopped .pendingFull ∧ run.2.unread = [x] ∧ call.full = true := by
  obtain ⟨round, t⟩ := run
  obtain ⟨K, hsplit, hdone, hmoves⟩ := round_done h.inv call hrun
  rw [h.unread] at hsplit
  obtain ⟨k, hk, hpos, hw⟩ := h.place
  have hwrite : 0 < t.writeIndex := by
    rw [RingState.writeIndex, hmoves.write]
    change 0 < s.writeIndex
    omega
  cases hdone with
  | took r y reading size unfilled =>
      have hafter := reading.split
      rw [hmoves.appended, hsplit, List.append_assoc] at hafter
      obtain ⟨rfl, hnil⟩ := List.cons.inj (List.append_cancel_left hafter)
      exact .inl ⟨rfl, .of_moves reading.inv hnil.symm h.place h.slots hmoves, hwrite, unfilled⟩
  | nothing r reading drained =>
      have hle := (drained fun v hv => hv).length_le
      rw [hsplit, List.length_append, List.length_singleton] at hle
      omega
  | budget r reading spent => cases hspent.symm.trans spent
  | pendingFull r reading full =>
      have hafter := reading.split
      rw [hmoves.appended, hsplit] at hafter
      exact .inr ⟨rfl, (List.append_cancel_left hafter).symm, full⟩

/-- The record is taken if the client's queue has room. -/
theorem WornWith.took (h : WornWith n x s) (call : DrainCall) (hspent : call.spent = false)
    (hroom : call.full = false)
    (hrun : (Server.drainRound defaultRingBufferSize call).run execTraced s = run) :
    run.1 = .took x.toMidiEvent ∧ Worn n run.2 ∧ 0 < run.2.writeIndex := by
  obtain ⟨htook, hworn, hwrite, -⟩ | ⟨-, -, hfull⟩ := h.round hspent hrun
  · exact ⟨htook, hworn, hwrite⟩
  · cases hroom.symm.trans hfull

/-- The record stays if the client's queue is full. -/
theorem WornWith.left (h : WornWith n x s) (call : DrainCall) (hspent : call.spent = false)
    (hfull : call.full = true) (htimed : x.timestamp ≠ 0)
    (hrun : (Server.drainRound defaultRingBufferSize call).run execTraced s = run) :
    run.1 = .stopped .pendingFull ∧ run.2.unread = [x] := by
  obtain ⟨-, -, -, hunfilled⟩ | ⟨hstopped, hunread, -⟩ := h.round hspent hrun
  · cases hfull.symm.trans (hunfilled htimed)
  · exact ⟨hstopped, hunread⟩

/-- An empty ring ends the drain. -/
theorem Worn.round (h : Worn n s) (hpos : 0 < s.writeIndex)
    (hrun : (Server.drainRound defaultRingBufferSize call).run execTraced s = run) :
    ∃ reason, run.1 = .stopped reason ∧ Worn n run.2 := by
  obtain ⟨round, t⟩ := run
  obtain ⟨K, hsplit, hdone, hmoves⟩ := round_done h.inv call hrun
  rw [h.empty, List.append_nil] at hsplit
  have hplace : ∃ k ≤ headerPlaces, 0 < k ∧ s.writeIndex = 24 * k := by
    obtain ⟨k, hk, hw⟩ := h.place
    exact ⟨k, hk, by omega, hw⟩
  have hstays : ∀ {r}, Reading Published defaultRingBufferSize r K s.appended t → Worn n t :=
    fun reading =>
    .of_moves reading.inv (unread_eq_nil reading (hmoves.appended.trans hsplit)) hplace h.slots hmoves
  cases hdone with
  | took r y reading size unfilled =>
      have hafter := congrArg List.length (hmoves.appended.symm.trans reading.split)
      rw [List.length_append, List.length_append, List.length_singleton, hsplit] at hafter
      omega
  | nothing r reading drained => exact ⟨_, rfl, hstays reading⟩
  | budget r reading spent => exact ⟨_, rfl, hstays reading⟩
  | pendingFull r reading full => exact ⟨_, rfl, hstays reading⟩

end Rounds

variable {Q : PendingQueue}

namespace OutputConnection

/-- Every call of a client notifies. -/
def Notifying (s : OutputConnection Q) : Prop := ∀ c ∈ s.clients, c.ring.Notifies

/-- A connection with one client that is in no call. -/
def alone (accepted : List MidiEvent) (right : (clientRing defaultRingBufferSize).right.Control)
    (shared : RingState) (pending : Q.Queue) (ended : Option DrainStop)
    (sender : OutputSender maxSendCacheBytes) (phase : OutputPhase) (eventFd : Bool)
    (timer : TimerValue) (now : Int) : OutputConnection Q :=
  ⟨[⟨⟨.idle accepted, right, shared⟩, pending, ended⟩], sender, phase, eventFd, timer, now⟩

variable {accepted : List MidiEvent} {l : DrainerLocal}
  {right : (clientRing defaultRingBufferSize).right.Control} {shared : RingState}
  {pending : Q.Queue} {ended : Option DrainStop} {sender : OutputSender maxSendCacheBytes}
  {phase : OutputPhase} {eventFd : Bool} {timer : TimerValue} {now : Int} {t : OutputConnection Q}
  {n : Nat}

/-- A turn of a connection with one client. -/
theorem alone_take (turn : Turn)
    (reach : (machine Q).ReachableWith (fun s _ => s.Notifying)
      (alone accepted right shared pending ended sender phase eventFd timer now))
    (hturn : ∀ i call, turn = .write i call → call.notifies = true)
    (htake : (alone accepted right shared pending ended sender phase eventFd timer now).take turn =
      some t) : (machine Q).ReachableWith (fun s _ => s.Notifying) t := by
  refine reachable_take reach (fun u _ hwithin => hwithin.calls (fun c hc => ?_) hturn) htake
  rw [List.mem_singleton.mp hc]
  exact nofun

/-- The event that the client sends again and again. -/
def futureEvent : MidiEvent := ⟨7, []⟩

/-- The worker waits, and the client's queue holds `n` events that are due at 7 ns. -/
structure Loaded (n : Nat) (s : OutputConnection Q) : Prop where
  reach : (machine Q).ReachableWith (fun s _ => s.Notifying) s
  holds : ∃ accepted l shared pending ended sender eventFd timer,
    s = alone accepted (.idle l) shared pending ended sender .waiting eventFd timer 5 ∧
    Worn n shared ∧ (Q.elements pending).card = n ∧ ∀ e ∈ Q.elements pending, e.due = 7

/-- The client writes one event more and the worker wakes up. -/
theorem written_and_woken
    (reach : (machine Q).ReachableWith (fun s _ => s.Notifying)
      (alone accepted (.idle l) shared pending ended sender .waiting eventFd timer now))
    (hworn : Worn n shared) (hn : n < 2 ^ 20) (now' : Int) (hlater : now ≤ now')
    (hrange : now' < 2 ^ 63) :
    ∃ accepted' shared' x, x.toMidiEvent = futureEvent ∧ WornWith (n + 1) x shared' ∧
      (machine Q).ReachableWith (fun s _ => s.Notifying)
        (alone accepted' (.idle ⟨l.taken, shared'.appended.length⟩) shared' pending none sender
          (.draining 0 0) false timer now') := by
  obtain ⟨x, hx, hwith⟩ := hworn.write hn 7
  have hwritten := alone_take (.write 0 (.tryWriteEvent (.ofWords 7 []) true)) reach
    (fun i call hcall => by cases hcall; rfl) rfl
  have hticked := alone_take (.tick now') hwritten nofun (if_pos ⟨hlater, hrange⟩)
  have hwoken := alone_take .wake hticked nofun rfl
  exact ⟨_, _, x, hx, hwith, hwoken⟩

section Drain

variable {drained : Nat} {run : DrainRound × RingState}

theorem alone_round (hrun : (Server.drainRound defaultRingBufferSize
      (drainCall ⟨⟨.idle accepted, .idle l, shared⟩, pending, ended⟩ drained)).run execTraced shared =
        run) :
    (alone accepted (.idle l) shared pending ended sender (.draining 0 drained) eventFd timer
      now).take .drainRound =
      some ((alone accepted (.idle l) shared pending ended sender (.draining 0 drained) eventFd timer
        now).finishRound 0 drained
          ⟨⟨.idle accepted, .idle (l.after run.1), run.2⟩, pending, ended⟩ run.1) := by
  subst hrun
  rfl

/-- A round that takes a scheduled event. -/
theorem alone_took (hrun : (Server.drainRound defaultRingBufferSize
      (drainCall ⟨⟨.idle accepted, .idle l, shared⟩, pending, ended⟩ drained)).run execTraced shared =
        run) {event : MidiEvent} (htook : run.1 = .took event) (htimed : event.timestamp ≠ 0)
    (hroom : (Q.elements pending).card < maxPending) :
    (alone accepted (.idle l) shared pending ended sender (.draining 0 drained) eventFd timer
      now).take .drainRound =
      some (alone accepted (.idle (l.after (.took event))) run.2 (Q.push pending (.ofEvent event))
        ended sender (.draining 0 (drained + 1)) eventFd timer now) := by
  have hfull : (⟨⟨.idle accepted, .idle (l.after (.took event)), run.2⟩, pending, ended⟩ :
      OutputClient Q).isPendingFull = false := decide_eq_false (Nat.not_le.mpr hroom)
  rw [alone_round hrun, htook, finishRound, if_neg htimed, consumeNonRealtimeEvent,
    OutputClient.enqueueNonRealtime, hfull]
  rfl

theorem alone_stopped (hrun : (Server.drainRound defaultRingBufferSize
      (drainCall ⟨⟨.idle accepted, .idle l, shared⟩, pending, ended⟩ drained)).run execTraced shared =
        run) {reason : DrainStop} (hstopped : run.1 = .stopped reason) :
    (alone accepted (.idle l) shared pending ended sender (.draining 0 drained) eventFd timer
      now).take .drainRound =
      some (alone accepted (.idle l) run.2 pending (some reason) sender (.draining 1 0) eventFd timer
        now) := by
  rw [alone_round hrun, hstopped]
  rfl

end Drain

section Collection

variable {time : Int}

theorem alone_collect
    (reach : (machine Q).ReachableWith (fun s _ => s.Notifying)
      (alone accepted right shared pending ended sender (.collecting time) eventFd timer now)) :
    (machine Q).ReachableWith (fun s _ => s.Notifying)
      ((alone accepted right shared pending ended sender (.collecting time) eventFd timer now).collect
        time) :=
  alone_take .collect reach nofun rfl

/-- With nothing due the collection ends at once. -/
theorem collect_early
    (reach : (machine Q).ReachableWith (fun s _ => s.Notifying)
      (alone accepted right shared pending ended sender (.collecting time) eventFd timer now))
    (hdue : ∀ e ∈ Q.elements pending, e.due = 7) (hearly : time < 7) :
    (machine Q).ReachableWith (fun s _ => s.Notifying)
      (alone accepted right shared pending ended sender .flushing eventFd timer now) := by
  have hcollect := alone_collect reach
  obtain ⟨hend, -⟩ | ⟨i, c, e, now', hcollects, -, -⟩ := collect_cases
    (alone accepted right shared pending ended sender (.collecting time) eventFd timer now) time
  · rw [hend] at hcollect
    exact hcollect
  · obtain rfl := List.mem_singleton.mp (List.mem_of_getElem? hcollects.found)
    have htop := hdue e (mem_elements_of_top hcollects.top)
    have hpast := hcollects.due
    omega

/-- When all events are due, the collection empties the queue. -/
theorem collect_due
    (reach : (machine Q).ReachableWith (fun s _ => s.Notifying)
      (alone accepted right shared pending ended sender (.collecting time) eventFd timer now))
    (hdue : ∀ e ∈ Q.elements pending, e.due = 7) (htime : 7 ≤ time) (hnow : 7 ≤ now) :
    ∃ pending' sender', Q.elements pending' = 0 ∧
      (machine Q).ReachableWith (fun s _ => s.Notifying)
        (alone accepted right shared pending' ended sender' .flushing eventFd timer now) := by
  induction hcard : (Q.elements pending).card generalizing pending sender time with
  | zero =>
      have hcollect := alone_collect reach
      have hempty := Multiset.card_eq_zero.mp hcard
      obtain ⟨hend, -⟩ | ⟨i, c, e, now', hcollects, -, -⟩ := collect_cases
        (alone accepted right shared pending ended sender (.collecting time) eventFd timer now) time
      · rw [hend] at hcollect
        exact ⟨pending, sender, hempty, hcollect⟩
      · obtain rfl := List.mem_singleton.mp (List.mem_of_getElem? hcollects.found)
        have hmem := mem_elements_of_top hcollects.top
        rw [hempty] at hmem
        exact absurd hmem (Multiset.notMem_zero e)
  | succ m ih =>
      have hcollect := alone_collect reach
      obtain ⟨hend, hlater⟩ | ⟨i, c, e, now', hcollects, hread, hsame⟩ := collect_cases
        (alone accepted right shared pending ended sender (.collecting time) eventFd timer now) time
      · obtain ⟨e, he⟩ := Multiset.card_pos_iff_exists_mem.mp
          (Nat.lt_of_lt_of_eq (Nat.succ_pos m) hcard.symm)
        have hless := hlater _ (List.mem_singleton_self _) e he
        have hseven := hdue e he
        omega
      · obtain rfl := List.mem_singleton.mp (List.mem_of_getElem? hcollects.found)
        obtain rfl : i = 0 := Nat.lt_one_iff.mp (List.getElem?_eq_some_iff.mp hcollects.found).1
        have helements := Q.elements_of_top pending e hcollects.top
        have hsize := congrArg Multiset.card helements
        rw [Multiset.card_cons, hcard] at hsize
        have hstate : (alone accepted right shared pending ended sender (.collecting time) eventFd
            timer now).collect time = alone accepted right shared (Q.pop pending) ended
              (sender.forward ⟨0, e.event⟩).1 (.collecting now') eventFd timer now := by
          rw [hsame, hcollects.clients, hcollects.sender]
          rfl
        have hwhen : 7 ≤ now' := by
          cases hread with
          | inl hfresh => exact hfresh ▸ hnow
          | inr hold => exact hold ▸ htime
        rw [hstate] at hcollect
        refine ih hcollect (fun e' he' => hdue e' ?_) hwhen (by omega)
        rw [helements]
        exact Multiset.mem_cons_of_mem he'

end Collection

section Loading

variable {s : OutputConnection Q}

/-- The connection before the worker has woken up. -/
def loading (Q : PendingQueue) : OutputConnection Q :=
  alone [] (.idle ⟨[], 0⟩) ClientRing.fresh.shared Q.empty none (.empty maxSendCacheBytes) .waiting
    false ⟨0, 0⟩ 5

theorem reachable_loading (Q : PendingQueue) :
    (machine Q).ReachableWith (fun s _ => s.Notifying) (loading Q) := by
  have hstarted : (machine Q).ReachableWith (fun s _ => s.Notifying) (startedAt Q 5) :=
    .init ⟨rfl, rfl, rfl, rfl, (by decide : (0 : Int) ≤ 5), (by decide : (5 : Int) < 2 ^ 63)⟩
  have harmed : (machine Q).ReachableWith (fun s _ => s.Notifying) (startedAt Q 5).arm :=
    hstarted.step (fun _ hc => (List.not_mem_nil hc).elim) (.arm rfl)
  have hadded := harmed.step (fun _ hc => (List.not_mem_nil hc).elim) (.addClient trivial)
  exact hadded

theorem loaded_zero (Q : PendingQueue) : Loaded 0 (loading Q) := by
  refine ⟨reachable_loading Q, ⟨_, _, _, _, _, _, _, _, rfl, ?_, ?_, ?_⟩⟩
  · refine ⟨EmptyRing.inv ⟨rfl, by decide, by decide, rfl, rfl⟩, rfl, rfl, ⟨0, Nat.zero_le _, rfl⟩, ?_⟩
    intro k hk
    rfl
  · rw [Q.elements_empty]
    rfl
  · rw [Q.elements_empty]
    exact fun e he => (Multiset.notMem_zero e he).elim

/-- One event more waits in the queue. -/
theorem Loaded.succ (h : Loaded n s) (hn : n < maxPending) : ∃ t : OutputConnection Q, Loaded (n + 1) t := by
  have hmax : maxPending = 1024 := rfl
  obtain ⟨hreach, accepted, l, shared, pending, ended, sender, eventFd, timer, rfl, hworn, hcard, hdue⟩ := h
  obtain ⟨accepted', shared', x, hx, hwith, hwoken⟩ :=
    written_and_woken hreach hworn (by omega) 5 le_rfl (by decide)
  obtain ⟨htook, hempty, hpos⟩ := hwith.took (drainCall (Q := Q)
    ⟨⟨.idle accepted', .idle ⟨l.taken, shared'.appended.length⟩, shared'⟩, pending, none⟩ 0)
    rfl (decide_eq_false (Nat.not_le.mpr (hcard.trans_lt hn))) rfl
  rw [hx] at htook
  have hpushed := alone_take .drainRound hwoken nofun
    (alone_took rfl htook (by decide) (by omega))
  obtain ⟨reason, hstopped, hagain⟩ := hempty.round hpos rfl
  have hleft := alone_take .drainRound hpushed nofun (alone_stopped rfl hstopped)
  have hdrained := alone_take .drained hleft nofun rfl
  have hstart := alone_take .collect hdrained nofun rfl
  have hqueue : ∀ e ∈ Q.elements (Q.push pending (.ofEvent futureEvent)), e.due = 7 := by
    intro e he
    rw [Q.elements_push] at he
    cases Multiset.mem_cons.mp he with
    | inl hnew => rw [hnew]; rfl
    | inr hold => exact hdue e hold
  have hcollected := collect_early hstart hqueue (by decide : (5 : Int) < 7)
  have hflushed := alone_take .flush hcollected nofun rfl
  have harmed := alone_take .arm hflushed nofun rfl
  refine ⟨_, harmed, ⟨_, _, _, _, _, _, _, _, rfl, hagain, ?_, hqueue⟩⟩
  rw [Q.elements_push, Multiset.card_cons, hcard]

theorem exists_loaded (Q : PendingQueue) (n : Nat) (hn : n ≤ maxPending) :
    ∃ t : OutputConnection Q, Loaded n t := by
  induction n with
  | zero => exact ⟨_, loaded_zero Q⟩
  | succ n ih =>
      obtain ⟨t, ht⟩ := ih (Nat.le_of_succ_le hn)
      exact ht.succ hn

end Loading

/-- The worker waits for the next write while the ring of the client holds an event. -/
theorem Loaded.stuck {s : OutputConnection Q} (h : Loaded maxPending s) :
    ∃ t : OutputConnection Q, (machine Q).ReachableWith (fun s _ => s.Notifying) t ∧
      ¬ t.NoStuckOutput := by
  have hmax : maxPending = 1024 := rfl
  obtain ⟨hreach, accepted, l, shared, pending, ended, sender, eventFd, timer, rfl, hworn, hcard, hdue⟩ := h
  obtain ⟨accepted', shared', x, hx, hwith, hwoken⟩ :=
    written_and_woken hreach hworn (by omega) 7 (by decide) (by decide)
  have htimed : x.timestamp ≠ 0 := fun hzero =>
    (by decide : futureEvent.timestamp ≠ 0) (hx ▸ hzero)
  obtain ⟨hstopped, hunread⟩ := hwith.left (drainCall (Q := Q)
    ⟨⟨.idle accepted', .idle ⟨l.taken, shared'.appended.length⟩, shared'⟩, pending, none⟩ 0)
    rfl (decide_eq_true hcard.ge) htimed rfl
  have hleft := alone_take .drainRound hwoken nofun (alone_stopped rfl hstopped)
  have hdrained := alone_take .drained hleft nofun rfl
  have hstart := alone_take .collect hdrained nofun rfl
  obtain ⟨pending', sender', hempty, hcollected⟩ := collect_due hstart hdue le_rfl le_rfl
  have hflushed := alone_take .flush hcollected nofun rfl
  have harmed := alone_take .arm hflushed nofun rfl
  refine ⟨_, harmed, fun hfine => ?_⟩
  have hnext := hfine rfl _ (List.mem_singleton_self _) (hunread ▸ List.cons_ne_nil _ _)
  have htimer : updateNextTimer Q 7 [pending'] = (⟨0, 0⟩, false) :=
    updateNextTimer_empty fun q hq => List.mem_singleton.mp hq ▸ hempty
  obtain (hsignalled | ⟨_, _, _, hbusy, -⟩) | htimed := hnext
  · change (false || (updateNextTimer Q 7 [pending']).2) = true at hsignalled
    rw [htimer] at hsignalled
    cases hsignalled
  · cases hbusy
  · change (updateNextTimer Q 7 [pending']).1.ns ≠ 0 at htimed
    rw [htimer] at htimed
    exact htimed rfl

/-- Although every write is followed by its notification, an event stays in the ring of a waiting
worker. -/
theorem stuck_after_full_queue :
    ∃ s : OutputConnection binaryPendingQueue,
      (machine binaryPendingQueue).ReachableWith (fun s _ => s.Notifying) s ∧ ¬ s.NoStuckOutput := by
  obtain ⟨t, ht⟩ := exists_loaded binaryPendingQueue maxPending le_rfl
  exact ht.stuck

end OutputConnection

end MidiFramework.Server
