import MidiFramework.SharedRing.Fifo

/-!
# Progress of a retrying writer

An event that passes `ValidateOneEvent` is smaller than the data area. A writer
that is refused lets the reader drain the ring and tries again. Whether it is
ever accepted depends on where the reader stands: past a wrap marker the reader
goes on at the start, but in a tail that is too short for a header it stays
where it is, and the record has to fit before it.

## Implementation notes

Sequence words are assumed to be usable, as in `queue_of_usable_slots`.
-/

namespace MidiFramework.SharedRing

open Foundation Program

section Peeking

variable {ok : UInt32 → Prop} {cap : Nat} {m : RingMemory}

theorem run_loadRead (m : RingMemory) :
    (loadPosition .readPosition).run exec m = (m.readPosition.toNat, m) := rfl

theorem run_loadWrite (m : RingMemory) :
    (loadPosition .writePosition).run exec m = (m.writePosition.toNat, m) := rfl

theorem run_load32 (off : Nat) (m : RingMemory) :
    (load32 off).run exec m = (m.data.load32 off, m) := rfl

theorem run_load64 (off : Nat) (m : RingMemory) :
    (load64 off).run exec m = (m.data.load64 off, m) := rfl

theorem run_sub32 (a b : Nat) (m : RingMemory) :
    (sub32 a b).run exec m = (wrap32 ((a : Int) - b), m) := rfl

/-- A reader that stands at the write position finds nothing and stays. -/
theorem run_peekLoop_caughtUp (hr : m.readPosition.toNat < cap)
    (hrw : m.readPosition.toNat = m.writePosition.toNat) (k : Nat) (outEvent : PeekedEvent) :
    (peekLoop cap (k + 1) outEvent).run exec m = ((.wouldBlock, outEvent), m) := by
  have hupdate : updateReadIndexIfNeed cap m.readPosition.toNat m.writePosition.toNat =
      return (.wouldBlock, m.readPosition.toNat) := by
    have hw : m.writePosition.toNat < cap := hrw ▸ hr
    unfold updateReadIndexIfNeed
    rw [if_neg (by simp [isValidOffset, hr, hw]), if_pos hrw]
  rw [peekLoop, run_bind, run_loadRead, run_bind, run_loadWrite]
  dsimp only
  rw [hupdate]
  rfl

/-- A reader in a short tail finds nothing when the writer is at the start, and stays. -/
theorem run_peekLoop_tail (hr : m.readPosition.toNat < cap) (hcap : cap < 2 ^ 32)
    (hshort : cap - m.readPosition.toNat < 24) (hw : m.writePosition.toNat = 0) (k : Nat)
    (outEvent : PeekedEvent) :
    (peekLoop cap (k + 1) outEvent).run exec m = ((.wouldBlock, outEvent), m) := by
  by_cases hrw : m.readPosition.toNat = m.writePosition.toNat
  · exact run_peekLoop_caughtUp hr hrw k outEvent
  have hupdate : (updateReadIndexIfNeed cap m.readPosition.toNat m.writePosition.toNat).run exec m =
      ((.wouldBlock, 0), m) := by
    have htail : wrap32 ((cap : Int) - m.readPosition.toNat) = cap - m.readPosition.toNat :=
      wrap32_sub hr.le hcap
    unfold updateReadIndexIfNeed
    rw [if_neg (by simp [isValidOffset, hr, hw]; omega), if_neg hrw, run_bind, run_sub32, htail]
    dsimp only
    rw [if_pos (show _ < sizeofEventHeader from hshort), if_pos hw.symm]
    rfl
  rw [peekLoop, run_bind, run_loadRead, run_bind, run_loadWrite, run_bind, hupdate]
  rfl

theorem run_readHeaderSafely {header : Nat}
    (h : Published (m.data.load32 (sequenceField header))) :
    (readHeaderSafely header).run exec m =
      (some (⟨m.data.load64 (timestampField header), m.data.load32 (lengthField header),
        m.data.load32 (flagsField header), m.data.load32 (sequenceField header)⟩,
        m.data.load32 (sequenceField header)), m) := by
  unfold readHeaderSafely
  rw [run_bind, run_load32]
  dsimp only
  rw [if_neg h.1, if_neg (not_not.mpr h.2), run_bind, run_load64, run_bind, run_load32, run_bind,
    run_load32, run_bind, run_load32]
  dsimp only
  rw [if_neg (not_not.mpr rfl)]
  rfl

/-- A reader at a wrap marker goes on at the start. -/
theorem run_peekLoop_marker (hr : m.readPosition.toNat < cap) (hcap : cap < 2 ^ 32)
    (hroom : 24 ≤ cap - m.readPosition.toNat) (hw : m.writePosition.toNat < cap)
    (hrw : m.readPosition.toNat ≠ m.writePosition.toNat)
    (hmarker : Marker Published m.data m.readPosition.toNat) (k : Nat) (outEvent : PeekedEvent) :
    (peekLoop cap (k + 1) outEvent).run exec m =
      (peekLoop cap k outEvent).run exec { m with readPosition := 0 } := by
  have hupdate : (updateReadIndexIfNeed cap m.readPosition.toNat m.writePosition.toNat).run exec m =
      ((.ok, m.readPosition.toNat), m) := by
    have htail : wrap32 ((cap : Int) - m.readPosition.toNat) = cap - m.readPosition.toNat :=
      wrap32_sub hr.le hcap
    unfold updateReadIndexIfNeed
    rw [if_neg (by simp [isValidOffset, hr, hw]), if_neg hrw, run_bind, run_sub32, htail]
    dsimp only
    rw [if_neg (by simpa [sizeofEventHeader] using hroom)]
    rfl
  have hwrap (timestamp : UInt64) (sequence : UInt32) :
      (handleWrapIfNeeded ⟨timestamp, 0, flagWrap, sequence⟩).run exec m =
        (.ok, { m with readPosition := 0 }) := by
    unfold handleWrapIfNeeded
    rw [if_neg (by simp [flagWrap]), if_neg (by simp)]
    rfl
  rw [peekLoop, run_bind, run_loadRead, run_bind, run_loadWrite, run_bind, hupdate]
  dsimp only
  rw [if_neg (by simp), run_bind, run_readHeaderSafely hmarker.sequence, hmarker.length,
    hmarker.flags]
  dsimp only
  rw [run_bind, hwrap, if_pos rfl]

end Peeking

section Resting

variable {cap : Nat} {s : RingState}

/-- Nothing is unread, and the reader has gone past any wrap marker. -/
structure Resting (cap : Nat) (s : RingState) : Prop where
  settled : Settled Published cap s
  empty : s.unread = []
  stands : s.readIndex = s.writeIndex ∨ (cap - s.readIndex < 24 ∧ s.writeIndex = 0)

/-- Where the reader of an empty ring stands after `PeekNext`. -/
def restIndex (cap r w : Nat) : Nat := if r = w ∨ cap - r < 24 then r else 0

/-- What `PeekNext` does in a ring that holds nothing. -/
theorem run_peekNext_empty (hcap : cap < 2 ^ 31) (hroom : 25 ≤ cap) (hs : Settled Published cap s)
    (hempty : s.unread = []) :
    ((peekNext cap).run execTraced s).1.1 = .wouldBlock ∧
      Resting cap ((peekNext cap).run execTraced s).2 ∧
      ((peekNext cap).run execTraced s).2.readIndex = restIndex cap s.readIndex s.writeIndex ∧
      ((peekNext cap).run execTraced s).2.writeIndex = s.writeIndex := by
  have hmoves : ReaderMoves Published cap s ((peekNext cap).run execTraced s).2 :=
    run_readerMoves (triple_peekNext hcap s hs.inv.reading)
  have hwrite : ((peekNext cap).run execTraced s).2.writeIndex = s.writeIndex := by
    rw [RingState.writeIndex, hmoves.write, RingState.writeIndex]
  have hreading : ∃ r, Reading Published cap r (s.appended.take s.removed) s.appended
      ((peekNext cap).run execTraced s).2 := by
    cases (triple_peekNext hcap s hs.inv.reading).run with
    | event r x q returned heading => exact ⟨r, heading.toReading⟩
    | nothing r returned reading drained => exact ⟨r, reading⟩
  obtain ⟨r, hreading⟩ := hreading
  have hunread : ((peekNext cap).run execTraced s).2.unread = [] := by
    have hsplit := hreading.split
    have hall : s.appended = s.appended.take s.removed := by
      conv_lhs => rw [hs.inv.reading.split, hempty, List.append_nil]
    rw [hmoves.appended] at hsplit
    exact List.append_right_eq_self.mp (hsplit.symm.trans hall)
  have hsettled : Settled Published cap ((peekNext cap).run execTraced s).2 :=
    ⟨hreading.inv, hwrite ▸ hs.write⟩
  have hlayout := hs.inv.layout
  rw [hempty] at hlayout
  have hr := hlayout.read_lt
  have hw := hlayout.write_lt
  have hstart : s.readIndex ≠ s.writeIndex →
      s.writeIndex = 0 ∧ TurnsBack Published s.mem.data cap s.readIndex := by
    intro hrw
    have hbehind : s.writeIndex < s.readIndex := by
      by_contra hle
      exact hrw (hlayout.straight (Nat.not_lt.mp hle))
    obtain ⟨e, ys, zs, hparts, hfront, he, hturn, hback⟩ := hlayout.wrapped hbehind
    obtain ⟨rfl, rfl⟩ := List.append_eq_nil_iff.mp hparts.symm
    obtain rfl : s.readIndex = e := hfront
    exact ⟨Eq.symm hback, hturn⟩
  have hrun := run_exec (peekNext cap) s
  have hpeek : (peekNext cap).run exec s.mem = (peekLoop cap 3 {}).run exec s.mem := by
    rw [peekNext, if_neg (by simp only [sizeofEventHeader]; omega)]
  have hresult : (peekNext cap).run exec s.mem =
      ((.wouldBlock, {}), { s.mem with
        readPosition := if s.readIndex = s.writeIndex ∨ cap - s.readIndex < 24 then
          s.mem.readPosition else 0 }) := by
    rw [hpeek]
    by_cases hrw : s.readIndex = s.writeIndex
    · rw [if_pos (.inl hrw)]
      exact run_peekLoop_caughtUp hr hrw 2 {}
    obtain ⟨hzero, hturn⟩ := hstart hrw
    by_cases hshort : cap - s.readIndex < 24
    · rw [if_pos (.inr hshort)]
      exact run_peekLoop_tail hr (by omega) hshort hzero 2 {}
    · rw [if_neg (by simp [hrw, hshort])]
      have hmarker := hturn.resolve_left hshort
      rw [run_peekLoop_marker hr (by omega) (Nat.not_lt.mp hshort) hw hrw hmarker 2 {}]
      have hcaught : (0 : UInt32).toNat = s.mem.writePosition.toNat := hzero.symm
      exact run_peekLoop_caughtUp (Nat.lt_of_le_of_lt (Nat.zero_le _) hr) hcaught 1 {}
  rw [hrun] at hresult
  have hstatus : ((peekNext cap).run execTraced s).1.1 = .wouldBlock :=
    congrArg (fun out => out.1.1) hresult
  have hread : ((peekNext cap).run execTraced s).2.readIndex =
      restIndex cap s.readIndex s.writeIndex := by
    have hmem := congrArg (fun out => out.2.readPosition.toNat) hresult
    unfold restIndex
    refine hmem.trans ?_
    dsimp only
    split
    · rfl
    · rfl
  refine ⟨hstatus, ⟨hsettled, hunread, ?_⟩, hread, hwrite⟩
  rw [hread, hwrite, restIndex]
  by_cases hrw : s.readIndex = s.writeIndex
  · rw [if_pos (.inl hrw)]
    exact .inl hrw
  by_cases hshort : cap - s.readIndex < 24
  · rw [if_pos (.inr hshort)]
    exact .inr ⟨hshort, (hstart hrw).1⟩
  · rw [if_neg (by simp [hrw, hshort])]
    exact .inl (hstart hrw).1.symm

end Resting

section Attempts

variable {ok : UInt32 → Prop} {cap : Nat} {s : RingState} {event : MidiEventInner}

/-- A valid event has its words behind the pointer, and its record leaves a byte of the data area
free. -/
theorem valid_size (hroom : 25 ≤ cap) (hcap : cap < 2 ^ 32)
    (hvalid : validateOneEvent cap event = true) :
    getEventRecordSize event.length = some (recordSize event.words.length) ∧
      event.words.length = event.length ∧ recordSize event.words.length < cap := by
  obtain ⟨size, hsize⟩ : ∃ size, getEventRecordSize event.length = some size := by
    cases h : getEventRecordSize event.length with
    | none => simp [validateOneEvent, h] at hvalid
    | some size => exact ⟨size, rfl⟩
  obtain ⟨rfl, hlen⟩ := validateOneEvent_size hvalid hsize
  have hlimit : wrap32 ((cap : Int) - 1) = cap - 1 := wrap32_sub (b := 1) (by omega) hcap
  simp only [validateOneEvent, hsize, hlimit, Bool.and_eq_true, decide_eq_true_eq] at hvalid
  exact ⟨hsize, hlen, by omega⟩

/-- What a call of `TryWriteEvent` with a valid event comes to. -/
theorem run_tryWriteEvent (hroom : 25 ≤ cap) (hcap : cap < 2 ^ 32) (hs : Settled ok cap s)
    (hvalid : validateOneEvent cap event = true) (notify : Bool)
    {out : (MidiStatusCode × Nat) × RingState}
    (hout : (tryWriteOneEvent cap event (recordSize event.words.length) s.readIndex
      s.writeIndex).run execTraced s = out) :
    ((tryWriteEvent cap event notify).run execTraced s).2 = out.2 ∧
      ((tryWriteEvent cap event notify).run execTraced s).1.eventsWritten =
        if out.1.1 = .ok then 1 else 0 := by
  obtain ⟨hsize, hlen, -⟩ := valid_size hroom hcap hvalid
  have hstatus : validateWriteArgs cap (some [event]) 1 = .ok := by
    unfold validateWriteArgs
    rw [if_neg (by decide), if_neg (by simp), if_neg (by simp only [sizeofEventHeader]; omega)]
  have hread : (loadPosition .readPosition).run execTraced s = (s.readIndex, s) := rfl
  have hwrite : (loadPosition .writePosition).run execTraced s = (s.writeIndex, s) := rfl
  have hvalidOffsets : ¬ (!isValidOffset s.readIndex cap || !isValidOffset s.writeIndex cap) =
      true := by
    simp [isValidOffset, hs.inv.layout.read_lt, hs.inv.layout.write_lt]
  have hloop : (writeLoop cap [event] s.readIndex s.writeIndex 0).run execTraced s =
      (if out.1.1 = .ok then 1 else 0, out.2) := by
    unfold writeLoop
    rw [if_neg (not_not.mpr hvalid), hsize]
    dsimp only
    rw [run_bind, hout]
    by_cases hok : out.1.1 = .ok
    · have hload : (loadPosition .readPosition).run execTraced out.2 =
          (out.2.readIndex, out.2) := rfl
      rw [if_neg (not_not.mpr hok), if_pos hok, run_bind, hload]
      split <;> rfl
    · rw [if_pos hok, if_neg hok]
      rfl
  have htake : List.take 1 ((some [event]).getD []) = [event] := rfl
  unfold tryWriteEvent tryWriteEvents
  dsimp only
  rw [if_neg (not_not.mpr hstatus), run_bind, hread, run_bind, hwrite]
  dsimp only
  rw [if_neg hvalidOffsets, run_bind, htake, hloop]
  by_cases hok : out.1.1 = .ok
  · rw [if_pos hok]
    exact ⟨rfl, rfl⟩
  · rw [if_neg hok]
    exact ⟨rfl, rfl⟩

end Attempts

section Retries

variable (cap : Nat) (event : MidiEventInner) (notify : Bool)

/-- Whether `TryWriteEvent` accepts the event. -/
def accepts (σ : Session) : Bool :=
  ((tryWriteEvent cap event notify).run exec σ.mem).1.eventsWritten == 1

/-- A drain of everything, with rounds enough for every accepted event. -/
def Session.drained (σ : Session) : Session := σ.afterDrain cap 0 (σ.accepted.length + 1)

/-- Whether the event is accepted within so many tries when the ring is drained after each
refusal. -/
def acceptedWithin : Nat → Session → Bool
  | 0, _ => false
  | tries + 1, σ =>
      accepts cap event notify σ ||
        acceptedWithin tries ((σ.afterWrite cap (.tryWriteEvent event notify)).drained cap)

/-- The reader does not stand in a tail too short for a header, or the record fits before it. -/
def RoomAhead (σ : Session) : Prop :=
  24 ≤ cap - σ.mem.readPosition.toNat ∨ recordSize event.length < σ.mem.readPosition.toNat

instance (σ : Session) : Decidable (RoomAhead cap event σ) := inferInstanceAs (Decidable (_ ∨ _))

variable {cap event notify} {ok : UInt32 → Prop} {σ : Session} {s : RingState}

theorem Tracks.unread_nil (h : Tracks ok cap σ s) : s.unread = [] ↔ σ.delivered = σ.accepted := by
  have hlen := h.delivered_length
  have hle := h.settled.inv.removed_le
  have haccepted : σ.accepted.length = s.appended.length := by
    rw [← h.accepted, List.length_map]
  rw [RingState.unread, List.drop_eq_nil_iff]
  constructor
  · intro hall
    apply h.delivered_le.eq_of_length
    omega
  · intro hall
    rw [hall] at hlen
    omega

/-- Nothing is unread when `PeekNext` finds nothing. -/
theorem Tracks.unread_of_blocked (hcap : cap < 2 ^ 31) (h : Tracks Published cap σ s)
    (hblocked : ((peekNext cap).run exec σ.mem).1.1 ≠ .ok) : s.unread = [] := by
  have hsat := (triple_peekNext hcap s h.settled.inv.reading).run
  rw [← h.mem, run_exec] at hblocked
  cases hsat with
  | event r x q returned heading => exact absurd (congrArg Prod.fst returned) hblocked
  | nothing r returned reading drained =>
      have hall := (drained fun _ h => h).length_le
      rw [List.length_take] at hall
      rw [RingState.unread, List.drop_eq_nil_iff]
      omega

/-- The ring holds nothing, and the reader has gone past any wrap marker. -/
structure Rests (cap : Nat) (σ : Session) (s : RingState) : Prop where
  tracks : Tracks Published cap σ s
  resting : Resting cap s

/-- `PeekNext` in an empty ring only goes past a wrap marker. -/
theorem Tracks.peekEmpty (hcap : cap < 2 ^ 31) (hroom : 25 ≤ cap) (h : Tracks Published cap σ s)
    (hempty : s.unread = []) :
    ∃ t, Rests cap (σ.after cap .peekNext) t ∧
      t.readIndex = restIndex cap s.readIndex s.writeIndex ∧ t.writeIndex = s.writeIndex := by
  obtain ⟨-, hresting, hread, hwrite⟩ := run_peekNext_empty hcap hroom h.settled hempty
  obtain ⟨t, ht⟩ := h.peek hcap
  have hsame : t.mem = ((peekNext cap).run execTraced s).2.mem := by
    rw [ht.mem, Session.after, ← h.mem, run_exec]
  have hunread : t.unread = [] := ht.unread_nil.mpr (h.unread_nil.mp hempty)
  have htread : t.readIndex = ((peekNext cap).run execTraced s).2.readIndex := by
    rw [RingState.readIndex, hsame, RingState.readIndex]
  have htwrite : t.writeIndex = ((peekNext cap).run execTraced s).2.writeIndex := by
    rw [RingState.writeIndex, hsame, RingState.writeIndex]
  refine ⟨t, ⟨ht, ht.settled, hunread, ?_⟩, htread.trans hread, htwrite.trans hwrite⟩
  rw [htread, htwrite]
  exact hresting.stands

/-- A drain of an empty ring is a call of `PeekNext`. -/
theorem Tracks.drained_eq (hcap : cap < 2 ^ 31) (hroom : 25 ≤ cap) (h : Tracks Published cap σ s)
    (hempty : s.unread = []) : σ.drained cap = σ.after cap .peekNext := by
  have hstatus := (run_peekNext_empty hcap hroom h.settled hempty).1
  have hstop : ((peekNext cap).run exec σ.mem).1.1 ≠ .ok := by
    rw [← h.mem, run_exec, hstatus]
    decide
  have hrun : (drainToBatch cap 0 (σ.accepted.length + 1)).run exec σ.mem =
      ((true, []), ((peekNext cap).run exec σ.mem).2) := by
    rw [drainToBatch, drainLoop, if_neg (by simp), run_bind, if_pos hstop]
    rfl
  rw [Session.drained, Session.afterDrain, hrun, List.append_nil]
  rfl

theorem Settled.any (h : Settled ok cap s) : Settled (fun _ => True) cap s :=
  ⟨h.inv.mono fun _ _ => trivial, h.write⟩

/-- Whether the event is accepted depends on the positions alone. -/
theorem accepts_iff (hcap : cap < 2 ^ 31) (hroom : 25 ≤ cap) (h : Tracks ok cap σ s)
    (hvalid : validateOneEvent cap event = true) :
    accepts cap event notify σ = true ↔
      Accepts cap s.readIndex s.writeIndex (recordSize event.length) := by
  obtain ⟨-, hwritten⟩ := run_tryWriteEvent hroom (by omega) h.settled.any hvalid notify rfl
  obtain ⟨-, hlen, -⟩ := valid_size hroom (by omega) hvalid
  have hattempt := (run_tryWriteOneEvent (by omega) h.settled.any hlen fun _ _ => trivial).1
  rw [accepts, ← h.mem, run_exec, hwritten, ← hlen]
  generalize (tryWriteOneEvent cap event (recordSize event.words.length) s.readIndex
    s.writeIndex).run execTraced s = out at hattempt
  cases hattempt with
  | accepted room returned writing => simp [returned, room]
  | refused full returned d' writing => simp [returned, full]

/-- What a refused attempt leaves. -/
theorem Tracks.refused (notify : Bool) (hcap : cap < 2 ^ 31) (hroom : 25 ≤ cap) (h : Tracks ok cap σ s)
    (hvalid : validateOneEvent cap event = true)
    (hslots : ∀ i ∈ headerSlots cap s.readIndex s.writeIndex (recordSize event.length),
      Renews ok (s.mem.data.load32 (sequenceField i)))
    (hfull : ¬ Accepts cap s.readIndex s.writeIndex (recordSize event.length)) :
    ∃ t, Tracks ok cap (σ.afterWrite cap (.tryWriteEvent event notify)) t ∧
      (σ.afterWrite cap (.tryWriteEvent event notify)).accepted = σ.accepted ∧
      t.readIndex = s.readIndex ∧
      t.writeIndex = refusedAt cap s.readIndex s.writeIndex (recordSize event.length) := by
  obtain ⟨-, hlen, -⟩ := valid_size hroom (by omega) hvalid
  have hrun := run_tryWriteEvent hroom (by omega) h.settled hvalid notify rfl
  have hmem : ((producer cap).program (.tryWriteEvent event notify)).run exec σ.mem =
      (((tryWriteEvent cap event notify).run execTraced s).1,
        ((tryWriteEvent cap event notify).run execTraced s).2.mem) := by
    rw [← h.mem]
    exact run_exec (tryWriteEvent cap event notify) s
  have hwritten : SlotsFind (Renews ok) cap (ProducerCall.tryWriteEvent event notify).offered
      σ.mem := by
    rw [← h.mem]
    exact fun _ => ⟨hslots, fun haccepts => absurd haccepts hfull⟩
  obtain ⟨t, ht⟩ := h.write hcap (.tryWriteEvent event notify) hwritten
  rw [← hlen] at hslots hfull ⊢
  obtain ⟨hattempt, -, hread⟩ := run_tryWriteOneEvent (by omega) h.settled hlen hslots
  generalize (tryWriteOneEvent cap event (recordSize event.words.length) s.readIndex
    s.writeIndex).run execTraced s = out at hattempt hread hrun
  obtain ⟨hstate, hcount⟩ := hrun
  cases hattempt with
  | accepted room returned writing => exact absurd room hfull
  | refused full returned d' writing =>
      rw [returned, if_neg (by simp)] at hcount
      have htmem : t.mem = out.2.mem := by
        rw [ht.mem, Session.afterWrite, hmem]
        exact congrArg RingState.mem hstate
      refine ⟨t, ht, ?_, ?_, ?_⟩
      · rw [Session.afterWrite, hmem]
        dsimp only
        rw [hcount, List.take_zero, List.map_nil, List.append_nil]
      · rw [RingState.readIndex, htmem, hread, RingState.readIndex]
      · rw [RingState.writeIndex, htmem]
        exact writing.write

/-- A refused attempt in an empty ring, and the drain after it. -/
theorem Rests.refused (notify : Bool) (hcap : cap < 2 ^ 31) (hroom : 25 ≤ cap) (h : Rests cap σ s)
    (hvalid : validateOneEvent cap event = true)
    (hslots : ∀ i ∈ headerSlots cap s.readIndex s.writeIndex (recordSize event.length),
      Renews Published (s.mem.data.load32 (sequenceField i)))
    (hfull : ¬ Accepts cap s.readIndex s.writeIndex (recordSize event.length)) :
    ∃ t, Rests cap ((σ.afterWrite cap (.tryWriteEvent event notify)).drained cap) t ∧
      t.readIndex = restIndex cap s.readIndex
        (refusedAt cap s.readIndex s.writeIndex (recordSize event.length)) ∧
      t.writeIndex = refusedAt cap s.readIndex s.writeIndex (recordSize event.length) := by
  obtain ⟨t, ht, haccepted, hread, hwrite⟩ :=
    h.tracks.refused notify hcap hroom hvalid hslots hfull
  have hempty : t.unread = [] := by
    rw [ht.unread_nil, haccepted]
    exact h.tracks.unread_nil.mp h.resting.empty
  obtain ⟨u, hu, huread, huwrite⟩ := ht.peekEmpty hcap hroom hempty
  rw [hread, hwrite] at huread
  rw [ht.drained_eq hcap hroom hempty]
  exact ⟨u, hu, huread, huwrite.trans hwrite⟩

/-- A reader in a short tail never makes room for a record that does not fit before it. -/
theorem Rests.never (hcap : cap < 2 ^ 31) (hroom : 25 ≤ cap)
    (hvalid : validateOneEvent cap event = true) (tries : Nat) (h : Rests cap σ s)
    (hshort : cap - s.readIndex < 24) (hlong : s.readIndex ≤ recordSize event.length) :
    acceptedWithin cap event notify tries σ = false := by
  have hsize := payload_le_recordSize event.length
  induction tries generalizing σ s with
  | zero => rfl
  | succ tries ih =>
      have hfull : ¬ Accepts cap s.readIndex s.writeIndex (recordSize event.length) := by
        rintro ⟨hfree, hplace⟩
        unfold freeBytes usedBytes at hfree
        rcases h.resting.stands with hrw | ⟨-, hzero⟩
        · omega
        · split at hfree <;> omega
      have hslots : ∀ i ∈ headerSlots cap s.readIndex s.writeIndex (recordSize event.length),
          Renews Published (s.mem.data.load32 (sequenceField i)) := by
        have hnone : headerSlots cap s.readIndex s.writeIndex (recordSize event.length) = [] := by
          unfold headerSlots
          split
          · rename_i hfree
            rcases h.resting.stands with hrw | ⟨-, hzero⟩
            · rw [if_neg (by omega), if_neg (by omega), if_neg (by omega)]
              rfl
            · unfold freeBytes usedBytes at hfree
              split at hfree <;> omega
          · rfl
        rw [hnone]
        simp
      obtain ⟨t, ht, hread, hwrite⟩ := h.refused notify hcap hroom hvalid hslots hfull
      have hsame : t.readIndex = s.readIndex := hread.trans (if_pos (.inr hshort))
      have hrefused : accepts cap event notify σ = false := by
        rw [Bool.eq_false_iff, ne_eq, accepts_iff hcap hroom h.tracks hvalid]
        exact hfull
      rw [acceptedWithin, hrefused, Bool.false_or]
      exact ih ht (hsame ▸ hshort) (hsame ▸ hlong)

/-- A reader that has gone past a wrap marker makes room for any valid record. -/
theorem Rests.second (hcap : cap < 2 ^ 31) (hroom : 25 ≤ cap) (h : Rests cap σ s)
    (hvalid : validateOneEvent cap event = true)
    (hslots : ∀ i ∈ headerSlots cap s.readIndex s.writeIndex (recordSize event.length),
      Renews Published (s.mem.data.load32 (sequenceField i)))
    (hahead : 24 ≤ cap - s.readIndex ∨ recordSize event.length < s.readIndex) :
    acceptedWithin cap event notify 2 σ = true := by
  obtain ⟨-, hlen, hsize⟩ := valid_size hroom (by omega) hvalid
  rw [hlen] at hsize
  have hlayout := h.tracks.settled.inv.layout
  have hr := hlayout.read_lt
  have hw := hlayout.write_lt
  rw [acceptedWithin, Bool.or_eq_true, accepts_iff hcap hroom h.tracks hvalid]
  by_cases hfits : Accepts cap s.readIndex s.writeIndex (recordSize event.length)
  · exact .inl hfits
  right
  obtain ⟨t, ht, hread, hwrite⟩ := h.refused notify hcap hroom hvalid hslots hfits
  have hempty : recordSize event.length ≤ freeBytes s.readIndex s.readIndex cap := by
    unfold freeBytes usedBytes
    rw [if_pos (Nat.le_refl _)]
    omega
  have hfar : 24 ≤ cap - s.readIndex ∧ s.readIndex = s.writeIndex := by
    unfold Accepts freeBytes usedBytes at hfits
    rcases h.resting.stands with hrw | ⟨hshort, hzero⟩
    · refine ⟨?_, hrw⟩
      rw [← hrw, if_pos (Nat.le_refl _)] at hfits
      omega
    · rw [hzero] at hfits
      split at hfits <;> omega
  obtain ⟨hfar, hrw⟩ := hfar
  have hturned : refusedAt cap s.readIndex s.writeIndex (recordSize event.length) = 0 ∧
      s.readIndex ≠ 0 := by
    rw [← hrw] at hfits ⊢
    have hover : ¬ recordSize event.length ≤ cap - s.readIndex := fun hle =>
      hfits ⟨hempty, .inl hle⟩
    rw [refusedAt, if_pos hempty, place, if_neg hover]
    omega
  obtain ⟨hzero, hne⟩ := hturned
  rw [hzero] at hread hwrite
  rw [restIndex, if_neg (by omega)] at hread
  rw [acceptedWithin, Bool.or_eq_true, accepts_iff hcap hroom ht.tracks hvalid, hread, hwrite]
  left
  constructor
  · unfold freeBytes usedBytes
    rw [if_pos (Nat.le_refl _)]
    omega
  · omega

end Retries

section Main

variable {capacity : Capacity} {event : MidiEventInner} {notify : Bool} {σ : Session}

theorem slotsUsable_published {cap : Nat} {call : ProducerCall}
    (h : Session.SlotsUsable cap σ (.write call)) :
    SlotsFind (Renews Published) cap call.offered σ.mem :=
  h.mono fun found => (published_writerSequence found).mpr

/-- A ring that has been drained until `PeekNext` returned `WOULD_BLOCK`. -/
theorem rests_of_blocked
    (reach : (sessionMachine capacity.bytes).ReachableWith
      (fun σ op => σ.SlotsUsable capacity.bytes op) σ)
    (hdrained : ((peekNext capacity.bytes).run exec σ.mem).1.1 = .wouldBlock) :
    25 ≤ capacity.bytes ∧ ∃ s, Rests capacity.bytes (σ.after capacity.bytes .peekNext) s := by
  have hlt := capacity.lt
  have hcap : capacity.bytes < 2 ^ 31 := by omega
  have hroom : 25 ≤ capacity.bytes := by
    by_contra hsmall
    have hbroken : peekNext capacity.bytes = return (.shmBroken, {}) :=
      if_pos (by simp only [sizeofEventHeader]; omega)
    rw [hbroken] at hdrained
    exact MidiStatusCode.noConfusion hdrained
  obtain ⟨s, hs⟩ := session_tracks Published hcap (by omega)
    (fun σ call h => slotsUsable_published h) reach
  have hempty := hs.unread_of_blocked hcap (by rw [hdrained]; decide)
  obtain ⟨t, ht, -, -⟩ := hs.peekEmpty hcap hroom hempty
  exact ⟨hroom, t, ht⟩

theorem Rests.roomAhead {cap : Nat} {s : RingState} (h : Rests cap σ s) :
    RoomAhead cap event σ ↔ 24 ≤ cap - s.readIndex ∨ recordSize event.length < s.readIndex := by
  rw [RoomAhead, ← h.tracks.mem]
  rfl

theorem never_accepted
    (reach : (sessionMachine capacity.bytes).ReachableWith
      (fun σ op => σ.SlotsUsable capacity.bytes op) σ)
    (hdrained : ((peekNext capacity.bytes).run exec σ.mem).1.1 = .wouldBlock)
    (hvalid : validateOneEvent capacity.bytes event = true)
    (hnone : ¬ RoomAhead capacity.bytes event (σ.after capacity.bytes .peekNext)) (tries : Nat) :
    acceptedWithin capacity.bytes event notify tries (σ.after capacity.bytes .peekNext) = false := by
  have hlt := capacity.lt
  obtain ⟨hroom, s, hs⟩ := rests_of_blocked reach hdrained
  rw [hs.roomAhead, not_or, Nat.not_le, Nat.not_lt] at hnone
  exact hs.never (by omega) hroom hvalid tries hnone.1 hnone.2

/-- From a ring that has been drained until `PeekNext` returned `WOULD_BLOCK`, a writer that
retries a valid event is accepted at the second try at the latest exactly if the reader does not
stand in a tail too short for a header or the record fits before the reader. Otherwise it is
never accepted. -/
theorem retry_accepted_iff
    (reach : (sessionMachine capacity.bytes).ReachableWith
      (fun σ op => σ.SlotsUsable capacity.bytes op) σ)
    (hdrained : ((peekNext capacity.bytes).run exec σ.mem).1.1 = .wouldBlock)
    (hvalid : validateOneEvent capacity.bytes event = true)
    (hslots : Session.SlotsUsable capacity.bytes (σ.after capacity.bytes .peekNext)
      (.write (.tryWriteEvent event notify))) :
    (acceptedWithin capacity.bytes event notify 2 (σ.after capacity.bytes .peekNext) = true ↔
      RoomAhead capacity.bytes event (σ.after capacity.bytes .peekNext)) ∧
    (¬ RoomAhead capacity.bytes event (σ.after capacity.bytes .peekNext) → ∀ tries,
      acceptedWithin capacity.bytes event notify tries (σ.after capacity.bytes .peekNext) =
        false) := by
  have hlt := capacity.lt
  obtain ⟨hroom, s, hs⟩ := rests_of_blocked reach hdrained
  have hheaders : ∀ i ∈ headerSlots capacity.bytes s.readIndex s.writeIndex
      (recordSize event.length), Renews Published (s.mem.data.load32 (sequenceField i)) := by
    have hfound := slotsUsable_published hslots
    rw [← hs.tracks.mem] at hfound
    exact (hfound hvalid).1
  have hnever := @never_accepted _ _ notify _ reach hdrained hvalid
  refine ⟨⟨fun haccepted => ?_, fun hahead => ?_⟩, hnever⟩
  · by_contra hnone
    rw [hnever hnone 2] at haccepted
    exact absurd haccepted (by decide)
  · exact hs.second (by omega) hroom hvalid hheaders (hs.roomAhead.mp hahead)

/-- A ring of 56 bytes from which an event of four words has been read. -/
def shortTail : Session :=
  [SessionOp.write (.tryWriteEvent (.ofWords 1 [0, 0, 0, 0]) true), .readNext].foldl
    (fun σ op => σ.after 56 op) ⟨zeroRing, [], []⟩

theorem shortTail_reachable : (sessionMachine 56).ReachableWith
    (fun σ op => σ.SlotsUsable 56 op) shortTail := by
  have hwrite : Session.SlotsUsable 56 ⟨zeroRing, [], []⟩
      (.write (.tryWriteEvent (.ofWords 1 [0, 0, 0, 0]) true)) :=
    fun _ => ⟨by decide, fun _ => trivial⟩
  have hread (σ : Session) : Session.SlotsUsable 56 σ .readNext := trivial
  have hends (σ : Session) : (sessionMachine 56).step σ .readNext (σ.after 56 .readNext) :=
    ⟨trivial, rfl⟩
  exact .step (.step (.init rfl) hwrite ⟨trivial, rfl⟩) (hread _) (hends _)

/-- A record that fits before the reader is accepted, and a longer one is refused for ever. -/
theorem retry_accepted_iff_shortTail :
    acceptedWithin 56 (.ofWords 2 [0x40903C00, 0x80000000]) true 2 (shortTail.after 56 .peekNext) =
        true ∧
      ∀ tries, acceptedWithin 56 (.ofWords 2 [0, 0, 0, 0, 0, 0]) true tries
        (shortTail.after 56 .peekNext) = false := by
  have hdrained : ((peekNext 56).run exec shortTail.mem).1.1 = .wouldBlock := by decide +kernel
  constructor
  · refine (@retry_accepted_iff ⟨56, by decide⟩ _ _ _ shortTail_reachable hdrained (by decide)
      fun _ => ⟨by decide +kernel, fun _ => trivial⟩).1.mpr ?_
    decide +kernel
  · refine (@retry_accepted_iff ⟨56, by decide⟩ _ _ _ shortTail_reachable hdrained (by decide)
      fun _ => ⟨by decide +kernel, fun _ => trivial⟩).2 ?_
    decide +kernel

/-- The reader stands at 40, where a header does not fit, and a record of 48 bytes is refused for
ever although the ring is empty. -/
theorem retry_not_accepted : ¬ ∀ (capacity : Capacity) (event : MidiEventInner) (notify : Bool)
    (σ : Session), (sessionMachine capacity.bytes).Reachable σ →
    ((peekNext capacity.bytes).run exec σ.mem).1.1 = .wouldBlock →
    validateOneEvent capacity.bytes event = true →
    ∃ tries, acceptedWithin capacity.bytes event notify tries
      (σ.after capacity.bytes .peekNext) = true := by
  intro h
  have hdrained : ((peekNext 56).run exec shortTail.mem).1.1 = .wouldBlock := by decide +kernel
  have hvalid : validateOneEvent 56 (.ofWords 2 [0, 0, 0, 0, 0, 0]) = true := by decide
  have hnone : ¬ RoomAhead 56 (.ofWords 2 [0, 0, 0, 0, 0, 0]) (shortTail.after 56 .peekNext) := by
    decide +kernel
  obtain ⟨tries, haccepted⟩ := h ⟨56, by decide⟩ (.ofWords 2 [0, 0, 0, 0, 0, 0]) true shortTail
    shortTail_reachable.reachable hdrained hvalid
  have hnever := @never_accepted ⟨56, by decide⟩ _ true _ shortTail_reachable hdrained hvalid
    hnone tries
  exact absurd (hnever.symm.trans haccepted) (by decide)

end Main

end MidiFramework.SharedRing
