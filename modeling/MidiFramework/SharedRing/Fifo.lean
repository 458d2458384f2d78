import MidiFramework.SharedRing.Concurrent

/-!
# The ring as a queue

Runs in which the operations do not overlap. Whatever the payloads are, what
the reader hands out is a prefix of what the writer reported as accepted. A
drain reaches everything that is unread as long as no header is written over a
word from which the writer's sequence number wraps to zero.

## Implementation notes

`DrainToBatch` has no bound of its own, so a drain is a step for every number
of rounds after which the loop has ended by itself.
-/

namespace MidiFramework.SharedRing

open Foundation Program Discipline

section SequenceWords

/-- A word found in a sequence field from which the next published number is
zero. -/
def Exhausted (found : UInt32) : Prop := found = 0xFFFFFFFD ∨ found = 0xFFFFFFFE

instance (found : UInt32) : Decidable (Exhausted found) := inferInstanceAs (Decidable (_ ∨ _))

theorem and_one_eq_zero (v : UInt32) : v &&& 1 = 0 ↔ v.toNat % 2 = 0 := by
  rw [← UInt32.toNat_inj, UInt32.toNat_and]
  change v.toNat &&& 1 = 0 ↔ _
  rw [Nat.and_one_is_mod]

/-- The writer publishes a readable sequence word exactly if the word it found
was not exhausted. -/
theorem published_writerSequence (found : UInt32) :
    Published (writerSequence found + seqWriteCompleteTotal) ↔ ¬ Exhausted found := by
  have hlt := found.toNat_lt
  unfold Published Exhausted writerSequence
  split
  · rename_i hodd
    rw [ne_eq, and_one_eq_zero] at hodd
    rw [and_one_eq_zero, ne_eq, ← UInt32.toNat_inj, ← UInt32.toNat_inj, ← UInt32.toNat_inj]
    simp only [UInt32.toNat_add, seqWriteCompleteTotal, seqWriteStartIncrement,
      UInt32.reduceToNat]
    omega
  · rename_i heven
    rw [ne_eq, not_not, and_one_eq_zero] at heven
    rw [and_one_eq_zero, ne_eq, ← UInt32.toNat_inj, ← UInt32.toNat_inj, ← UInt32.toNat_inj]
    simp only [UInt32.toNat_add, seqWriteCompleteTotal, UInt32.reduceToNat]
    omega

end SequenceWords

section Slots

/-- The headers an attempt to write `total` bytes fills: the wrap marker, if
there is one, and the record, if it is accepted. -/
def headerSlots (cap r w total : Nat) : List Nat :=
  if total ≤ freeBytes r w cap then
    if total ≤ cap - w then [w]
    else (if 24 ≤ cap - w then [w] else []) ++ (if total < r then [0] else [])
  else []

/-- Every header that `TryWriteEvents` of the events fills has a word that
meets `p` in its sequence field before. -/
def SlotsFind (p : UInt32 → Prop) (cap : Nat) : List MidiEventInner → RingMemory → Prop
  | [], _ => True
  | event :: rest, m =>
      let total := recordSize event.length
      let r := m.readPosition.toNat
      let w := m.writePosition.toNat
      validateOneEvent cap event = true →
        (∀ h ∈ headerSlots cap r w total, p (m.data.load32 (sequenceField h))) ∧
        (Accepts cap r w total →
          SlotsFind p cap rest ((tryWriteOneEvent cap event total r w).run exec m).2)

theorem SlotsFind.mono {p q : UInt32 → Prop} {cap : Nat} (hpq : ∀ v, p v → q v)
    {events : List MidiEventInner} {m : RingMemory} (h : SlotsFind p cap events m) :
    SlotsFind q cap events m := by
  induction events generalizing m with
  | nil => trivial
  | cons event rest ih =>
      intro hvalid
      obtain ⟨hslots, hrest⟩ := h hvalid
      exact ⟨fun h hh => hpq _ (hslots h hh), fun hroom => ih (hrest hroom)⟩

theorem slotsFind_of_all {p : UInt32 → Prop} {cap : Nat} (hp : ∀ v, p v)
    (events : List MidiEventInner) (m : RingMemory) : SlotsFind p cap events m := by
  induction events generalizing m with
  | nil => trivial
  | cons event rest ih => exact fun _ => ⟨fun _ _ => hp _, fun _ => ih _⟩

/-- The published word is acceptable to `ok` when this word was found. -/
def Renews (ok : UInt32 → Prop) (found : UInt32) : Prop :=
  ok (writerSequence found + seqWriteCompleteTotal)

variable {ok : UInt32 → Prop} {cap r w total : Nat} {d : ByteMemory}

theorem slotSound_of_slots (hw : w = 0 ∨ 24 ≤ w) (hr : r < cap) (hwc : w < cap)
    (h : ∀ h ∈ headerSlots cap r w total, Renews ok (d.load32 (sequenceField h))) :
    SlotSound cap d r w total ok := by
  unfold headerSlots at h
  constructor
  · intro hfree htail hroom
    rw [if_pos hfree, if_neg htail, if_pos hroom] at h
    exact h w (by simp)
  · rintro ⟨hfree, hroom⟩
    rw [if_pos hfree] at h
    unfold placeData place
    by_cases htail : total ≤ cap - w
    · rw [if_pos htail] at h ⊢
      rw [if_pos htail]
      exact h w (by simp)
    · obtain ⟨hrw, hpos⟩ := free_turnBack hr hwc hfree htail
      have hfar : 24 ≤ w := hw.resolve_left (by omega)
      have hzero : Renews ok (d.load32 (sequenceField 0)) := by
        rw [if_neg htail, if_pos (hroom.resolve_left htail)] at h
        exact h 0 (by simp)
      rw [if_neg htail, if_neg htail]
      split
      · have hsame : (markerWritten d w).load32 (sequenceField 0) =
            d.load32 (sequenceField 0) := by
          simp (disch := omega) only [markerWritten, begun, sequenceField, flagsField,
            lengthField, timestampField, ByteMemory.load32_store32_ne,
            ByteMemory.load32_store64_ne]
        unfold publishedWord
        rw [hsame]
        exact hzero
      · exact hzero

end Slots

section Writes

variable {ok : UInt32 → Prop} {cap : Nat}

/-- What holds of a ring between operations: the write position is at the start
or has a header's room before it. -/
structure Settled (ok : UInt32 → Prop) (cap : Nat) (s : RingState) : Prop where
  inv : s.Inv ok cap
  write : s.writeIndex = 0 ∨ 24 ≤ s.writeIndex

theorem RingState.Inv.writing {s : RingState} (h : s.Inv ok cap) :
    Writing ok cap s.writeIndex s.appended s.mem.data s :=
  ⟨h, rfl, rfl, rfl⟩

theorem RingState.Inv.owning {s : RingState} (h : s.Inv ok cap) :
    Owning ok cap s.readIndex s.writeIndex s.appended s.mem.data s :=
  ⟨h.writing, Between.refl _ _⟩

/-- A sequential run of a writing program moves the ring as a writer may. -/
theorem run_writerMoves {α : Type} {p : RingProgram α} {Q : α → RingState → Prop} {s : RingState}
    (h : (writerRole ok cap).Sat Q p s) : WriterMoves ok cap s (p.run execTraced s).2 :=
  h.run_within .refl .trans fun c s t (hg : WriterGuarantee ok cap c s t) => hg.moves

theorem run_readerMoves {α : Type} {p : RingProgram α} {Q : α → RingState → Prop} {s : RingState}
    (h : (readerRole ok cap).Sat Q p s) : ReaderMoves ok cap s (p.run execTraced s).2 :=
  h.run_within .refl .trans fun c s t (hg : ReaderGuarantee ok cap c s t) => hg.moves

theorem run_tryWriteOneEvent {s : RingState} {event : MidiEventInner} (hcap : cap < 2 ^ 32)
    (hs : Settled ok cap s) (hlen : event.words.length = event.length)
    (hslots : ∀ h ∈ headerSlots cap s.readIndex s.writeIndex (recordSize event.words.length),
      Renews ok (s.mem.data.load32 (sequenceField h))) :
    let out := (tryWriteOneEvent cap event (recordSize event.words.length) s.readIndex
      s.writeIndex).run execTraced s
    Attempted ok cap s.readIndex s.writeIndex s.appended s.mem.data event
      (recordSize event.words.length) out.1 out.2 ∧
    Settled ok cap out.2 ∧ out.2.mem.readPosition = s.mem.readPosition := by
  have hlayout := hs.inv.layout
  have hsound := slotSound_of_slots hs.write hlayout.read_lt hlayout.write_lt hslots
  have hsat := triple_tryWriteOneEvent hcap hlayout.read_lt hlayout.write_lt hlen hsound s
    hs.inv.owning
  have hsize := payload_le_recordSize event.words.length
  intro out
  have hattempt : Attempted ok cap s.readIndex s.writeIndex s.appended s.mem.data event
      (recordSize event.words.length) out.1 out.2 := hsat.run
  have hread : out.2.mem.readPosition = s.mem.readPosition := (run_writerMoves hsat).read
  clear_value out
  refine ⟨hattempt, ?_, hread⟩
  cases hattempt with
  | accepted room returned writing =>
      refine ⟨writing.inv, ?_⟩
      have hwrite := writing.write
      unfold advance at hwrite
      split at hwrite
      · exact .inl hwrite
      · exact .inr (hwrite ▸ by omega)
  | refused full returned d' writing =>
      refine ⟨writing.inv, ?_⟩
      have hwrite := writing.write
      have hold := hs.write
      unfold refusedAt place at hwrite
      split at hwrite
      · split at hwrite <;> omega
      · omega

theorem run_writeLoop (hcap : cap < 2 ^ 32) (events : List MidiEventInner) (n : Nat)
    {s : RingState} (hs : Settled ok cap s) (hslots : SlotsFind (Renews ok) cap events s.mem) :
    Settled ok cap ((writeLoop cap events s.readIndex s.writeIndex n).run execTraced s).2 := by
  induction events generalizing n s with
  | nil => exact hs
  | cons event rest ih =>
      unfold writeLoop
      split
      · exact hs
      rename_i hvalid
      split
      · exact hs
      rename_i needed hneeded
      obtain ⟨hneed, hlen⟩ := validateOneEvent_size (not_not.mp hvalid) hneeded
      obtain ⟨hheaders, hrest⟩ := hslots (not_not.mp hvalid)
      rw [← hlen] at hheaders hrest
      subst hneed
      obtain ⟨hattempt, hsettled, hread⟩ := run_tryWriteOneEvent hcap hs hlen hheaders
      have hmem := run_exec (tryWriteOneEvent cap event (recordSize event.words.length)
        s.readIndex s.writeIndex) s
      rw [run_bind]
      generalize (tryWriteOneEvent cap event (recordSize event.words.length) s.readIndex
        s.writeIndex).run execTraced s = out at hattempt hsettled hread hmem ⊢
      cases hattempt with
      | refused full returned d' writing =>
          rw [if_pos (by simp [returned])]
          exact hsettled
      | accepted room returned writing =>
          rw [if_neg (by simp [returned]), run_bind]
          have hload : (loadPosition .readPosition).run execTraced out.2 =
              (out.2.readIndex, out.2) := rfl
          have hwrite : out.1.2 = out.2.writeIndex := by rw [returned, writing.write]
          have hnext : SlotsFind (Renews ok) cap rest out.2.mem := by
            have hfound := hrest room
            change SlotsFind (Renews ok) cap rest ((tryWriteOneEvent cap event
              (recordSize event.words.length) s.readIndex s.writeIndex).run exec s.mem).2 at hfound
            rwa [hmem] at hfound
          rw [hload, hwrite]
          split
          · exact hsettled
          · exact ih (n + 1) hsettled hnext

theorem run_tryWriteEvents (hcap : cap < 2 ^ 32) (events : Option (List MidiEventInner))
    (eventCount : Nat) (notify : Bool) {s : RingState} (hs : Settled ok cap s)
    (hslots : SlotsFind (Renews ok) cap ((events.getD []).take eventCount) s.mem) :
    Settled ok cap ((tryWriteEvents cap events eventCount notify).run execTraced s).2 := by
  have hloads : ∀ p, (loadPosition p).run execTraced s = (s.index p, s) := by
    intro p
    cases p <;> rfl
  unfold tryWriteEvents
  dsimp only
  split
  · exact hs
  rw [run_bind, hloads, run_bind, hloads]
  dsimp only
  split
  · exact hs
  rw [run_bind]
  have hloop := run_writeLoop hcap _ 0 hs hslots
  split
  · exact hloop
  · exact hloop

/-- The write functions without interference: the events they count are
published, and the reader's side of the ring stays as it is. -/
theorem ProducerCall.run (hcap : cap < 2 ^ 31) (call : ProducerCall) {s : RingState}
    (hs : Settled ok cap s) (hslots : SlotsFind (Renews ok) cap call.offered s.mem) :
    let out := ((producer cap).program call).run execTraced s
    Settled ok cap out.2 ∧ out.2.mem.flushFlag = s.mem.flushFlag ∧
      out.2.removed = s.removed ∧ ∃ B, out.2.appended = s.appended ++ B ∧
        B.map Record.toMidiEvent =
          (call.offered.take out.1.eventsWritten).map MidiEventInner.toMidiEvent := by
  intro out
  have hsettled : Settled ok cap out.2 := by
    cases call with
    | tryWriteEvents args => exact run_tryWriteEvents (by omega) _ _ _ hs hslots
    | tryWriteEvent event notify => exact run_tryWriteEvents (by omega) _ _ _ hs hslots
  have hany : s.Inv (fun _ => True) cap := hs.inv.mono fun _ _ => trivial
  have hsat := ProducerCall.triple hcap (fun _ => trivial) call s hany.writing
  have hmoves : WriterMoves (fun _ => True) cap s out.2 := run_writerMoves hsat
  obtain ⟨_, B, w, d, hwriting, hB⟩ :
      Wrote (fun _ => True) cap s.appended call.offered out.1.eventsWritten out.2 := hsat.run
  exact ⟨hsettled, hmoves.flag, hmoves.removed, B, hwriting.appended, hB⟩

end Writes

section Sessions

/-- A ring with what the writer was told was accepted and what the reader was
given, the events lost to `Flush` left out. -/
structure Session where
  mem : RingMemory
  accepted : List MidiEvent
  delivered : List MidiEvent

/-- `PeekNext`, the copy of the payload, and `CommitRead` of the event. -/
def readNext (cap : Nat) : RingProgram (Option MidiEvent) := do
  let peeked ← peekNext cap
  if peeked.1 ≠ .ok then return none
  else
    let copied ← copyOut peeked.2
    let committed ← commitRead cap peeked.2
    return if committed then some copied else none

/-- The operations of a run; the last argument of a drain is the number of
rounds of its loop, that of a flush the number of tries after the first. -/
inductive SessionOp
  | write (call : ProducerCall)
  | peekNext
  | readNext
  | drainToBatch (maxEvents rounds : Nat)
  | flush (tries : Nat)

namespace Session

variable (cap : Nat) (σ : Session)

def afterWrite (call : ProducerCall) : Session :=
  let out := ((producer cap).program call).run exec σ.mem
  ⟨out.2, σ.accepted ++ (call.offered.take out.1.eventsWritten).map MidiEventInner.toMidiEvent,
    σ.delivered⟩

def afterDrain (maxEvents rounds : Nat) : Session :=
  let out := (SharedRing.drainToBatch cap maxEvents rounds).run exec σ.mem
  ⟨out.2, σ.accepted, σ.delivered ++ out.1.2⟩

def after : SessionOp → Session
  | .write call => σ.afterWrite cap call
  | .peekNext => { σ with mem := ((SharedRing.peekNext cap).run exec σ.mem).2 }
  | .readNext =>
      let out := (SharedRing.readNext cap).run exec σ.mem
      ⟨out.2, σ.accepted, σ.delivered ++ out.1.toList⟩
  | .drainToBatch maxEvents rounds => σ.afterDrain cap maxEvents rounds
  | .flush tries =>
      ⟨((SharedRing.flush cap (tries + 1)).run exec σ.mem).2, σ.accepted.take σ.delivered.length,
        σ.delivered⟩

/-- The loop of an unlimited or limited drain ends within the rounds. -/
def DrainEnds (maxEvents rounds : Nat) : Prop :=
  ((SharedRing.drainToBatch cap maxEvents rounds).run exec σ.mem).1.1 = true

def Ends : SessionOp → Prop
  | .drainToBatch maxEvents rounds => σ.DrainEnds cap maxEvents rounds
  | _ => True

/-- No header the writer fills has an exhausted sequence word in its place. -/
def SlotsUsable : SessionOp → Prop
  | .write call => SlotsFind (fun found => ¬ Exhausted found) cap call.offered σ.mem
  | _ => True

end Session

/-- A ring whose control header and data are zero. -/
def zeroRing : RingMemory := ⟨0, 0, 0, fun _ => 0⟩

/-- Runs of operations that do not overlap, on a zeroed ring. -/
def sessionMachine (cap : Nat) : Machine Session SessionOp where
  init σ := σ = ⟨zeroRing, [], []⟩
  step σ op σ' := σ.Ends cap op ∧ σ' = σ.after cap op

/-- The records of `s` are the events of the session. -/
structure Tracks (ok : UInt32 → Prop) (cap : Nat) (σ : Session) (s : RingState) : Prop where
  mem : s.mem = σ.mem
  settled : Settled ok cap s
  flag : s.mem.flushFlag = 0
  accepted : s.appended.map Record.toMidiEvent = σ.accepted
  delivered : (s.appended.take s.removed).map Record.toMidiEvent = σ.delivered

variable {ok : UInt32 → Prop} {cap : Nat} {σ : Session} {s : RingState}

theorem RingState.Inv.reading (h : s.Inv ok cap) :
    Reading ok cap s.readIndex (s.appended.take s.removed) s.appended s :=
  ⟨h, rfl, rfl, List.prefix_refl _⟩

theorem Tracks.delivered_le (h : Tracks ok cap σ s) : σ.delivered <+: σ.accepted := by
  have htake : s.appended.take s.removed <+: s.appended := List.take_prefix _ _
  rw [← h.delivered, ← h.accepted]
  exact htake.map _

theorem Tracks.delivered_length (h : Tracks ok cap σ s) : σ.delivered.length = s.removed := by
  rw [← h.delivered, List.length_map, List.length_take,
    Nat.min_eq_left h.settled.inv.removed_le]

/-- The reader has taken `xs`. -/
theorem Tracks.read {t : RingState} {r : Nat} {xs : List Record} (h : Tracks ok cap σ s)
    (hmoves : ReaderMoves ok cap s t)
    (hreading : Reading ok cap r (s.appended.take s.removed ++ xs) s.appended t) :
    Tracks ok cap ⟨t.mem, σ.accepted, σ.delivered ++ xs.map Record.toMidiEvent⟩ t := by
  refine ⟨rfl, ⟨hreading.inv, ?_⟩, hmoves.flag.trans h.flag, ?_, ?_⟩
  · rw [RingState.writeIndex, hmoves.write]
    exact h.settled.write
  · rw [hmoves.appended, h.accepted]
  · rw [hreading.taken, List.map_append, h.delivered]

/-- `readNext` takes the first unread record, if any is found. -/
theorem triple_readNext {r : Nat} {K A : List Record} (hcap : cap < 2 ^ 31) :
    (readerRole ok cap).Triple (Reading ok cap r K A) (readNext cap) fun v s =>
      ∃ r' xs, Reading ok cap r' (K ++ xs) A s ∧ v.toList = xs.map Record.toMidiEvent := by
  refine Triple.bind (triple_peekNext hcap) fun peeked => ?_
  intro s hs
  cases hs with
  | nothing r returned reading drained =>
      rw [if_pos returned]
      refine Triple.ret reading_stable (fun t ht => ⟨r, [], ?_, rfl⟩) s reading
      rwa [List.append_nil]
  | event r x q returned heading =>
      subst returned
      rw [if_neg (by simp)]
      refine heading.sat_take (by omega) fun r' u hu => ?_
      exact Triple.ret reading_stable (fun y hy => ⟨r', [x], hy, rfl⟩) u hu

theorem Tracks.write (hcap : cap < 2 ^ 31) (h : Tracks ok cap σ s) (call : ProducerCall)
    (hslots : SlotsFind (Renews ok) cap call.offered σ.mem) :
    ∃ t, Tracks ok cap (σ.afterWrite cap call) t := by
  rw [← h.mem] at hslots
  obtain ⟨hsettled, hflag, hremoved, B, happended, hB⟩ := call.run hcap h.settled hslots
  have hle := h.settled.inv.removed_le
  refine ⟨(((producer cap).program call).run execTraced s).2, ?_, hsettled, hflag.trans h.flag,
    ?_, ?_⟩
  · rw [Session.afterWrite, ← h.mem, run_exec]
  · rw [happended, List.map_append, hB, h.accepted, Session.afterWrite, ← h.mem, run_exec]
  · rw [happended, hremoved, List.take_append_of_le_length hle, h.delivered]
    rfl

theorem Tracks.peek (hcap : cap < 2 ^ 31) (h : Tracks ok cap σ s) :
    ∃ t, Tracks ok cap (σ.after cap .peekNext) t := by
  have hsat := triple_peekNext hcap s h.settled.inv.reading
  have hmoves := run_readerMoves hsat
  have hreading : ∃ r, Reading ok cap r (s.appended.take s.removed ++ []) s.appended
      ((peekNext cap).run execTraced s).2 := by
    rw [List.append_nil]
    cases hsat.run with
    | event r x q returned heading => exact ⟨r, heading.toReading⟩
    | nothing r returned reading drained => exact ⟨r, reading⟩
  obtain ⟨r, hr⟩ := hreading
  have htracks := h.read hmoves hr
  refine ⟨((peekNext cap).run execTraced s).2, ?_⟩
  rw [Session.after, ← h.mem, run_exec]
  rwa [List.map_nil, List.append_nil] at htracks

theorem Tracks.readNext (hcap : cap < 2 ^ 31) (h : Tracks ok cap σ s) :
    ∃ t, Tracks ok cap (σ.after cap .readNext) t := by
  have hsat := triple_readNext hcap s h.settled.inv.reading
  obtain ⟨r, xs, hr, hxs⟩ := hsat.run
  have htracks := h.read (run_readerMoves hsat) hr
  rw [← hxs] at htracks
  refine ⟨((SharedRing.readNext cap).run execTraced s).2, ?_⟩
  rw [Session.after, ← h.mem, run_exec]
  exact htracks

/-- A drain hands out the next records. If its loop ends and the writer's
sequence words are readable, an unlimited drain hands out all of them. -/
theorem Tracks.drain (hcap : cap < 2 ^ 31) (h : Tracks ok cap σ s) (maxEvents rounds : Nat) :
    (∃ t, Tracks ok cap (σ.afterDrain cap maxEvents rounds) t) ∧
    (σ.accepted.length < rounds + σ.delivered.length → σ.DrainEnds cap maxEvents rounds) ∧
    (Lively ok → maxEvents = 0 → σ.DrainEnds cap maxEvents rounds →
      (σ.afterDrain cap maxEvents rounds).delivered = σ.accepted) := by
  have hsat := triple_drainLoop hcap maxEvents rounds 0 s h.settled.inv.reading
  obtain ⟨r, xs, hr, hxs, hend⟩ := hsat.run
  change ((drainToBatch cap maxEvents rounds).run execTraced s).1.2 = _ at hxs
  change if ((drainToBatch cap maxEvents rounds).run execTraced s).1.1 then _ else _ at hend
  have hmoves : ReaderMoves ok cap s ((drainToBatch cap maxEvents rounds).run execTraced s).2 :=
    run_readerMoves hsat
  have htracks := h.read hmoves hr
  have hafter : σ.afterDrain cap maxEvents rounds =
      ⟨((drainToBatch cap maxEvents rounds).run execTraced s).2.mem, σ.accepted,
        σ.delivered ++ xs.map Record.toMidiEvent⟩ := by
    rw [Session.afterDrain, ← h.mem, run_exec, hxs]
  have hends : σ.DrainEnds cap maxEvents rounds ↔
      ((drainToBatch cap maxEvents rounds).run execTraced s).1.1 = true := by
    rw [Session.DrainEnds, ← h.mem, run_exec]
  rw [hafter, hends]
  have hbefore : σ.delivered ++ xs.map Record.toMidiEvent <+: σ.accepted := htracks.delivered_le
  refine ⟨⟨_, htracks⟩, fun hrounds => ?_, fun hlively hmax hdone => ?_⟩
  · have hle := hbefore.length_le
    rw [List.length_append, List.length_map] at hle
    by_contra hopen
    rw [if_neg hopen] at hend
    omega
  · rw [if_pos hdone] at hend
    have hall := (hend hlively (.inl hmax)).map Record.toMidiEvent
    rw [List.map_append, h.accepted, h.delivered] at hall
    exact hbefore.eq_of_length (Nat.le_antisymm hbefore.length_le hall.length_le)

theorem run_flush (cap tries : Nat) {s : RingState} (hflag : s.mem.flushFlag = 0) :
    (flush cap (tries + 1)).run execTraced s =
      ((), ⟨⟨0, 0, 0, s.mem.data.clear cap⟩, s.appended.take s.removed, s.removed⟩) := by
  have hrun : (flush cap (tries + 1)).run execTraced s = ((), ⟨⟨0, 0, 0, s.mem.data.clear cap⟩,
      (s.appended.take s.removed).take s.removed, s.removed⟩) := by
    obtain ⟨⟨r, w, f, d⟩, appended, removed⟩ := s
    obtain rfl : f = 0 := hflag
    rfl
  rw [hrun, List.take_take, Nat.min_self]

theorem Tracks.flush (hcap : 0 < cap) (h : Tracks ok cap σ s) (tries : Nat) :
    ∃ t, Tracks ok cap (σ.after cap (.flush tries)) t := by
  have hlen := h.delivered_length
  have hle := h.settled.inv.removed_le
  have hflush := run_flush cap tries h.flag
  refine ⟨((SharedRing.flush cap (tries + 1)).run execTraced s).2, ?_, ?_, ?_, ?_, ?_⟩
  · rw [Session.after, ← h.mem, run_exec]
  · rw [hflush]
    refine ⟨⟨?_, ?_⟩, .inl rfl⟩
    · change Layout ok cap _ 0 0 ((s.appended.take s.removed).drop s.removed)
      rw [List.drop_take_self]
      exact Layout.empty hcap (Nat.dvd_zero 8)
    · change s.removed ≤ (s.appended.take s.removed).length
      rw [List.length_take, Nat.min_eq_left hle]
  · rw [hflush]
  · rw [hflush]
    change (s.appended.take s.removed).map _ = σ.accepted.take σ.delivered.length
    rw [hlen, ← h.accepted, List.map_take]
  · rw [hflush]
    change ((s.appended.take s.removed).take s.removed).map _ = σ.delivered
    rw [List.take_take, Nat.min_self, h.delivered]

theorem Tracks.step (hcap : cap < 2 ^ 31) (hpos : 0 < cap) (h : Tracks ok cap σ s)
    (op : SessionOp)
    (hslots : ∀ call, op = .write call → SlotsFind (Renews ok) cap call.offered σ.mem) :
    ∃ t, Tracks ok cap (σ.after cap op) t := by
  cases op with
  | write call => exact h.write hcap call (hslots call rfl)
  | peekNext => exact h.peek hcap
  | readNext => exact h.readNext hcap
  | drainToBatch maxEvents rounds => exact (h.drain hcap maxEvents rounds).1
  | flush tries => exact h.flush hpos tries

theorem tracks_init (hpos : 0 < cap) :
    Tracks ok cap ⟨zeroRing, [], []⟩ ⟨zeroRing, [], 0⟩ :=
  ⟨rfl, ⟨⟨Layout.empty hpos (Nat.dvd_zero 8), Nat.le_refl 0⟩, .inl rfl⟩, rfl, rfl, rfl⟩

/-- In a ring without data area no operation moves an event. -/
theorem after_zero_capacity (op : SessionOp) (ha : σ.accepted = []) (hd : σ.delivered = []) :
    (σ.after 0 op).accepted = [] ∧ (σ.after 0 op).delivered = [] := by
  have hwritten : ∀ events eventCount notify m,
      ((tryWriteEvents 0 events eventCount notify).run exec m).1.eventsWritten = 0 := by
    intro events eventCount notify m
    unfold tryWriteEvents
    dsimp only
    split
    · rfl
    · have hloads : ∀ p, ∃ v, (loadPosition p).run exec m = (v, m) := by
        intro p
        cases p <;> exact ⟨_, rfl⟩
      obtain ⟨r, hr⟩ := hloads .readPosition
      obtain ⟨w, hw⟩ := hloads .writePosition
      rw [run_bind, hr, run_bind, hw]
      simp [isValidOffset]
  have hdrain : ∀ maxEvents rounds m, ((drainToBatch 0 maxEvents rounds).run exec m).1.2 = [] := by
    intro maxEvents rounds m
    cases rounds with
    | zero => rfl
    | succ rounds =>
        unfold drainToBatch drainLoop
        split <;> rfl
  cases op with
  | write call =>
      have hnone : (((producer 0).program call).run exec σ.mem).1.eventsWritten = 0 := by
        cases call with
        | tryWriteEvents args => exact hwritten _ _ _ _
        | tryWriteEvent event notify => exact hwritten (some [event]) 1 notify σ.mem
      refine ⟨?_, hd⟩
      change σ.accepted ++ List.map _ (call.offered.take _) = []
      rw [ha, hnone]
      rfl
  | peekNext => exact ⟨ha, hd⟩
  | readNext =>
      refine ⟨ha, ?_⟩
      change σ.delivered ++ [] = []
      rw [hd, List.append_nil]
  | drainToBatch maxEvents rounds =>
      refine ⟨ha, ?_⟩
      change σ.delivered ++ ((drainToBatch 0 maxEvents rounds).run exec σ.mem).1.2 = []
      rw [hd, hdrain, List.append_nil]
  | flush tries => exact ⟨by rw [Session.after, ha, List.take_nil], hd⟩

theorem zero_capacity_empty {cond : Session → SessionOp → Prop}
    (reach : (sessionMachine 0).ReachableWith cond σ) : σ.accepted = [] ∧ σ.delivered = [] := by
  refine reach.invariant (fun σ => σ.accepted = [] ∧ σ.delivered = []) ?_ ?_
  · rintro σ rfl
    exact ⟨rfl, rfl⟩
  · rintro σ op σ' _ ⟨ha, hd⟩ _ ⟨_, rfl⟩
    exact after_zero_capacity op ha hd

theorem session_tracks (ok : UInt32 → Prop) (hcap : cap < 2 ^ 31) (hpos : 0 < cap)
    {cond : Session → SessionOp → Prop}
    (hslots : ∀ σ call, cond σ (.write call) → SlotsFind (Renews ok) cap call.offered σ.mem)
    (reach : (sessionMachine cap).ReachableWith cond σ) : ∃ s, Tracks ok cap σ s := by
  refine reach.invariant (fun σ => ∃ s, Tracks ok cap σ s) ?_ ?_
  · rintro σ rfl
    exact ⟨_, tracks_init hpos⟩
  · rintro σ op σ' _ ⟨s, hs⟩ hmeets ⟨_, rfl⟩
    refine hs.step hcap hpos op ?_
    rintro call rfl
    exact hslots σ call hmeets

end Sessions

section Main

variable (capacity : Capacity) (σ : Session)

/-- Whatever words the writer finds, nothing is reordered, altered or handed out
twice. -/
theorem delivered_of_accepted (reach : (sessionMachine capacity.bytes).Reachable σ) :
    σ.delivered <+: σ.accepted := by
  have hlt := capacity.lt
  rcases Nat.eq_zero_or_pos capacity.bytes with hzero | hpos
  · rw [hzero] at reach
    have hdelivered : σ.delivered = [] := (zero_capacity_empty reach).2
    rw [hdelivered]
    exact List.nil_prefix
  · obtain ⟨s, hs⟩ := session_tracks (fun _ => True) (by omega) hpos
      (fun σ call _ => slotsFind_of_all (fun _ => trivial) _ _) reach
    exact hs.delivered_le

/-- The ring is a queue in a state: what was handed out is a first part of what
was accepted, and an unlimited drain ends and hands out the rest. -/
def QueueIntact (cap : Nat) (σ : Session) : Prop :=
  σ.delivered <+: σ.accepted ∧ (∃ rounds, σ.DrainEnds cap 0 rounds) ∧
    ∀ rounds, σ.DrainEnds cap 0 rounds → (σ.afterDrain cap 0 rounds).delivered = σ.accepted

/-- In a run whose writes find only usable sequence words, the ring is a
lossless queue in every state. -/
theorem queue_of_usable_slots
    (reach : (sessionMachine capacity.bytes).ReachableWith
      (fun σ op => σ.SlotsUsable capacity.bytes op) σ) :
    QueueIntact capacity.bytes σ := by
  have hlt := capacity.lt
  have hcap : capacity.bytes < 2 ^ 31 := by omega
  rcases Nat.eq_zero_or_pos capacity.bytes with hzero | hpos
  · rw [hzero] at reach ⊢
    obtain ⟨ha, hd⟩ := zero_capacity_empty reach
    have hnil : σ.delivered <+: σ.accepted := by
      rw [hd]
      exact List.nil_prefix
    refine ⟨hnil, ⟨1, rfl⟩, fun rounds _ => ?_⟩
    rw [ha]
    exact (after_zero_capacity (.drainToBatch 0 rounds) ha hd).2
  · have hpublished : ∀ σ call, Session.SlotsUsable capacity.bytes σ (.write call) →
        SlotsFind (Renews Published) capacity.bytes call.offered σ.mem :=
      fun σ call h => h.mono fun found => (published_writerSequence found).mpr
    obtain ⟨s, hs⟩ := session_tracks Published hcap hpos hpublished reach
    refine ⟨hs.delivered_le, ⟨σ.accepted.length + 1, ?_⟩, fun rounds hends => ?_⟩
    · exact (hs.drain hcap 0 _).2.1 (by omega)
    · exact (hs.drain hcap 0 rounds).2.2 (fun _ h => h) rfl hends

/-- One write into a zeroed ring finds a usable word. -/
theorem queue_of_usable_slots_once :
    QueueIntact 2048 (Session.after 2048 ⟨zeroRing, [], []⟩
      (.write (.tryWriteEvent (.ofWords 7 [0x20903C7F]) true))) := by
  have hslots : Session.SlotsUsable 2048 ⟨zeroRing, [], []⟩
      (.write (.tryWriteEvent (.ofWords 7 [0x20903C7F]) true)) :=
    fun _ => ⟨by decide, fun _ => trivial⟩
  refine queue_of_usable_slots ⟨2048, by decide⟩ _ (.step (.init rfl) hslots ?_)
  exact ⟨trivial, rfl⟩

/-- Operations without a loop of their own run to their end. -/
theorem reachable_foldl {cap : Nat} {σ : Session} {ops : List SessionOp}
    (hends : ∀ op ∈ ops, ∀ σ, Session.Ends cap σ op) (reach : (sessionMachine cap).Reachable σ) :
    (sessionMachine cap).Reachable (ops.foldl (fun σ op => σ.after cap op) σ) := by
  induction ops generalizing σ with
  | nil => exact reach
  | cons op ops ih =>
      refine ih (fun op hop => hends op (by simp [hop])) ?_
      exact .step reach trivial ⟨hends op (by simp) σ, rfl⟩

/-- The operations on a ring of 56 bytes after which a header lies on the payload
word `0xFFFFFFFE`. -/
def wrappedSequenceOps : List SessionOp :=
  [.write (.tryWriteEvent (.ofWords 1 [0, 0, 0, 0, 0xFFFFFFFE]) true), .readNext,
    .write (.tryWriteEvent (.ofWords 2 []) true), .readNext,
    .write (.tryWriteEvent (.ofWords 3 []) true)]

def wrappedSequence : Session :=
  wrappedSequenceOps.foldl (fun σ op => σ.after 56 op) ⟨zeroRing, [], []⟩

/-- The third event is accepted and published with the sequence word zero, so no
drain ever hands it out. -/
theorem queue_not_intact : ¬ ∀ (capacity : Capacity) (σ : Session),
    (sessionMachine capacity.bytes).Reachable σ → QueueIntact capacity.bytes σ := by
  intro h
  have hreach : (sessionMachine 56).Reachable wrappedSequence := by
    refine reachable_foldl ?_ (.init rfl)
    simp [wrappedSequenceOps, Session.Ends]
  have hends : wrappedSequence.DrainEnds 56 0 1 := by
    unfold Session.DrainEnds
    decide +kernel
  have hall := (h ⟨56, by decide⟩ wrappedSequence hreach).2.2 1 hends
  have hlost : (wrappedSequence.afterDrain 56 0 1).delivered ≠ wrappedSequence.accepted := by
    decide +kernel
  exact hlost hall

end Main

end MidiFramework.SharedRing
