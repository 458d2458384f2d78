import MidiFramework.SharedRing.Roles

/-!
# The reader takes the records in order

What the read functions do to the ring while the writer publishes records
between any two accesses. The reader knows its position, the records `K` it has
taken, and records `A` it knows to be published. A read that finds nothing has
taken all of `A`, provided the writer leaves sequence words the reader accepts.
-/

namespace MidiFramework.SharedRing

open Foundation Program Discipline

/-- A sequence word with which `ReadHeaderSafely` returns the header. -/
def Published (v : UInt32) : Prop := v ≠ 0 ∧ v &&& 1 = 0

instance (v : UInt32) : Decidable (Published v) := inferInstanceAs (Decidable (_ ∧ _))

/-- The fields of the header at `h` are those of `header`. -/
structure HeaderAt (d : ByteMemory) (h : Nat) (header : EventHeader) : Prop where
  timestamp : d.load64 (timestampField h) = header.timestamp
  length : d.load32 (lengthField h) = header.length
  flags : d.load32 (flagsField h) = header.flags
  sequence : d.load32 (sequenceField h) = header.sequence

theorem HeaderAt.congr {d d' : ByteMemory} {h : Nat} {header : EventHeader}
    (hh : HeaderAt d h header) (hd : d.Agree d' h 24) : HeaderAt d' h header := by
  constructor
  · rw [ByteMemory.load64_congr (hd.mono (by simp [timestampField]) (by simp [timestampField]))]
    exact hh.timestamp
  · rw [ByteMemory.load32_congr (hd.mono (by simp [lengthField]) (by simp [lengthField]))]
    exact hh.length
  · rw [ByteMemory.load32_congr (hd.mono (by simp [flagsField]) (by simp [flagsField]))]
    exact hh.flags
  · rw [sequenceField_congr hd (Nat.le_refl _)]
    exact hh.sequence

/-- The header of `x` as the reader copies it. -/
def headerOf (x : Record) (q : UInt32) : EventHeader :=
  ⟨x.timestamp, UInt32.ofNat x.words.length, flagNone, q⟩

theorem RecordAt.headerAt {ok : UInt32 → Prop} {d : ByteMemory} {x : Record}
    (h : RecordAt ok d x.offset x) :
    HeaderAt d x.offset (headerOf x (d.load32 (sequenceField x.offset))) := by
  refine ⟨h.stored.timestamp, ?_, h.stored.flags, rfl⟩
  rw [headerOf, ← h.stored.length, UInt32.ofNat_toNat]

section Assertions

variable (ok : UInt32 → Prop) (cap : Nat)

/-- The reader is at `r` and has taken `K`; `A` was published. -/
structure Reading (r : Nat) (K A : List Record) (s : RingState) : Prop where
  inv : s.Inv ok cap
  read : s.readIndex = r
  taken : s.appended.take s.removed = K
  known : A <+: s.appended

/-- The first unread record is `x`, at the place the reader looks at. -/
structure Heading (r : Nat) (K A : List Record) (x : Record) (q : UInt32) (s : RingState) : Prop
    extends Reading ok cap r K A s where
  first : ∃ rest, s.unread = x :: rest
  offset : x.offset = headIndex cap r
  sequence : s.mem.data.load32 (sequenceField x.offset) = q

/-- The reader is at a wrap marker. -/
structure Turning (r : Nat) (K A : List Record) (header : EventHeader) (s : RingState) : Prop
    extends Reading ok cap r K A s where
  room : 24 ≤ cap - r
  behind : s.writeIndex < r
  marker : Marker ok s.mem.data r
  header : HeaderAt s.mem.data r header

variable {ok cap} {r : Nat} {K A : List Record} {x : Record} {q : UInt32} {header : EventHeader}
  {s t : RingState}

theorem Reading.length_le (h : Reading ok cap r K A s) : K.length = s.removed := by
  rw [← h.taken, List.length_take, Nat.min_eq_left h.inv.removed_le]

theorem Reading.taken_le (h : Reading ok cap r K A s) : K <+: s.appended :=
  h.taken ▸ List.take_prefix _ _

theorem Reading.split (h : Reading ok cap r K A s) : s.appended = K ++ s.unread := by
  rw [← h.taken, RingState.unread, List.take_append_drop]

/-- With nothing unread, everything known was taken. -/
theorem Reading.drained (h : Reading ok cap r K A s) (hnil : s.unread = []) : A <+: K := by
  have hknown := h.known
  rwa [h.split, hnil, List.append_nil] at hknown

theorem WriterMoves.unread (h : WriterMoves ok cap s t) (hs : s.removed ≤ s.appended.length) :
    s.unread <+: t.unread := by
  obtain ⟨B, hB⟩ := h.appended
  rw [RingState.unread, RingState.unread, h.removed, ← hB, List.drop_append_of_le_length hs]
  exact List.prefix_append _ _

theorem reading_stable : (readerRole ok cap).Stable (Reading ok cap r K A) := by
  intro s t hr h
  refine ⟨hr.inv h.inv, ?_, ?_, h.known.trans hr.appended⟩
  · rw [← h.read, RingState.readIndex, hr.read, RingState.readIndex]
  · obtain ⟨B, hB⟩ := hr.appended
    rw [← h.taken, hr.removed, ← hB, List.take_append_of_le_length h.inv.removed_le]

/-- The bytes of the first record stay as they are. -/
theorem Heading.agree (h : Heading ok cap r K A x q s) (hr : WriterMoves ok cap s t) :
    s.mem.data.Agree t.mem.data x.offset x.size := by
  obtain ⟨rest, hrest⟩ := h.first
  intro i hlo hhi
  have hocc : s.Occupied i := h.inv.layout.occupied (by simp [hrest]) hlo hhi
  exact (hr.data i hocc).2

theorem heading_stable : (readerRole ok cap).Stable (Heading ok cap r K A x q) := by
  intro s t hr h
  have hagree := h.agree hr
  have hsize := x.payload_le_size
  refine ⟨reading_stable s t hr h.toReading, ?_, h.offset, ?_⟩
  · obtain ⟨rest, hrest⟩ := h.first
    obtain ⟨B, hB⟩ := hr.unread h.inv.removed_le
    exact ⟨rest ++ B, by rw [← hB, hrest, List.cons_append]⟩
  · rw [sequenceField_congr hagree (by omega)]
    exact h.sequence

theorem turning_stable : (readerRole ok cap).Stable (Turning ok cap r K A header) := by
  intro s t hr h
  have hocc : ∀ i, r ≤ i → s.Occupied i := by
    intro i hi
    have hbehind := h.behind
    rw [RingState.Occupied, h.read, SharedRing.Occupied, if_neg (by omega)]
    exact .inl hi
  have hagree : s.mem.data.Agree t.mem.data r 24 := fun i hi _ => (hr.data i (hocc i hi)).2
  have hreading := reading_stable s t hr h.toReading
  refine ⟨hreading, h.room, ?_, h.marker.congr hagree, h.header.congr hagree⟩
  · -- only a writer behind the reader makes the byte after the data area occupied
    have hcap := (hr.data cap (hocc cap (by have := h.room; omega))).1
    have hlt := hreading.inv.layout.write_lt
    rw [RingState.Occupied, hreading.read, SharedRing.Occupied] at hcap
    split at hcap <;> omega

theorem Heading.record (h : Heading ok cap r K A x q s) :
    ∃ rest, s.unread = x :: rest ∧
      HeadRecord ok cap s.mem.data r s.writeIndex x rest := by
  obtain ⟨rest, hrest⟩ := h.first
  have hlayout := h.inv.layout
  rw [hrest, h.read] at hlayout
  exact ⟨rest, hrest, hlayout.headRecord h.offset⟩

/-- The writer is not at the first record. -/
theorem Heading.write_ne (h : Heading ok cap r K A x q s) : x.offset ≠ s.writeIndex := by
  obtain ⟨rest, hrest⟩ := h.first
  have hsize := x.payload_le_size
  have hocc := h.inv.layout.occupied (x := x) (by simp [hrest]) (Nat.le_refl _) (by omega)
  unfold SharedRing.Occupied at hocc
  split at hocc <;> omega

end Assertions

section Looks

variable {ok : UInt32 → Prop} {cap r : Nat} {K A : List Record} {s : RingState}

/-- What the reader knows after loading the write position as `w`. -/
inductive Seen (ok : UInt32 → Prop) (cap r : Nat) (K A : List Record) (w : Nat) (s : RingState) :
    Prop
  | empty (here : r = w ∨ cap - r < 24 ∧ w = 0) (reading : Reading ok cap r K A s)
      (drained : A <+: K)
  | record (here : r ≠ w ∧ headIndex cap r ≠ w) (x : Record) (q : UInt32)
      (heading : Heading ok cap r K A x q s)
  | marker (here : r ≠ w) (header : EventHeader) (turning : Turning ok cap r K A header s)

theorem seen_stable {w : Nat} : (readerRole ok cap).Stable (Seen ok cap r K A w) := by
  intro s t hr h
  cases h with
  | empty here reading drained => exact .empty here (reading_stable s t hr reading) drained
  | record here x q heading => exact .record here x q (heading_stable s t hr heading)
  | marker here header turning => exact .marker here header (turning_stable s t hr turning)

/-- A load of the write position tells what is at the reader's place. -/
theorem Reading.seen (h : Reading ok cap r K A s) : Seen ok cap r K A s.writeIndex s := by
  have hlayout := h.inv.layout
  rw [h.read] at hlayout
  by_cases hne : r = s.writeIndex
  · refine .empty (.inl hne) h (h.drained ?_)
    rw [← hne] at hlayout
    exact hlayout.eq_nil
  cases hlayout.head hne with
  | record x rest hxs here room small next between =>
      have hsize := x.payload_le_size
      have hidx : headIndex cap r = r := if_neg (by omega)
      refine .record ⟨hne, by rwa [hidx]⟩ x _ ⟨h, ⟨rest, hxs⟩, ?_, rfl⟩
      rw [here.offset, hidx]
  | marker room here behind next =>
      exact .marker hne ⟨_, _, _, _⟩ ⟨h, room, behind, here, ⟨rfl, rfl, rfl, rfl⟩⟩
  | tail short behind next =>
      have hidx : headIndex cap r = 0 := if_pos short
      by_cases hzero : s.writeIndex = 0
      · refine .empty (.inr ⟨short, hzero⟩) h (h.drained ?_)
        rw [hzero] at next
        exact next.eq_nil
      · cases hunread : s.unread with
        | nil =>
            rw [hunread] at next
            have hchain := next.straight (Nat.zero_le _)
            exact absurd hchain (Ne.symm hzero)
        | cons x rest =>
            rw [hunread] at next
            refine .record ⟨hne, by omega⟩ x _ ⟨h, ⟨rest, hunread⟩, ?_, rfl⟩
            rw [next.headRecord_zero.1, hidx]

/-- What the reader knows after `UpdateReadIndexIfNeed` returned. -/
inductive Updated (ok : UInt32 → Prop) (cap r : Nat) (K A : List Record)
    (ret : MidiStatusCode × Nat) (s : RingState) : Prop
  | stop (returned : ret.1 = .wouldBlock) (reading : Reading ok cap r K A s) (drained : A <+: K)
  | record (x : Record) (q : UInt32) (returned : ret = (.ok, x.offset))
      (heading : Heading ok cap r K A x q s)
  | marker (header : EventHeader) (returned : ret = (.ok, r))
      (turning : Turning ok cap r K A header s)

theorem triple_updateReadIndexIfNeed {w : Nat} (hcap : cap < 2 ^ 32) (hr : r < cap)
    (hw : w < cap) :
    (readerRole ok cap).Triple (Seen ok cap r K A w) (updateReadIndexIfNeed cap r w)
      (Updated ok cap r K A) := by
  have hreads := readerRole_reads ok cap
  have hvalid : (!isValidOffset r cap || !isValidOffset w cap) = false := by
    simp [isValidOffset, hr, hw]
  unfold updateReadIndexIfNeed
  rw [hvalid]
  simp only [Bool.false_eq_true, if_false]
  intro s hs
  cases hs with
  | empty here reading drained =>
      have hstop : ∀ v, (readerRole ok cap).Triple (Reading ok cap r K A)
          (pure (.wouldBlock, v)) (Updated ok cap r K A) :=
        fun v => Triple.ret reading_stable fun t ht => .stop rfl ht drained
      by_cases hrw : r = w
      · rw [if_pos hrw]
        exact hstop _ s reading
      · obtain ⟨hshort, hzero⟩ := here.resolve_left hrw
        have htail : cap - r < sizeofEventHeader := hshort
        rw [if_neg hrw]
        refine Sat.bind (triple_sub32 hreads reading_stable (by omega) hcap s reading) ?_
        rintro tail t ⟨rfl, ht⟩
        rw [if_pos htail, if_pos hzero.symm]
        exact hstop _ t ht
  | record here x q heading =>
      rw [if_neg here.1]
      refine Sat.bind (triple_sub32 hreads heading_stable (by omega) hcap s heading) ?_
      rintro tail t ⟨rfl, ht⟩
      have hoffset := heading.offset
      have hne := here.2
      by_cases htail : cap - r < sizeofEventHeader
      · have hshort : cap - r < 24 := htail
        rw [headIndex, if_pos hshort] at hoffset hne
        rw [if_pos htail, if_neg hne]
        exact Triple.ret heading_stable (fun u hu => .record x q (by rw [hoffset]) hu) t ht
      · have hroom : ¬ cap - r < 24 := htail
        rw [headIndex, if_neg hroom] at hoffset
        rw [if_neg htail]
        exact Triple.ret heading_stable (fun u hu => .record x q (by rw [hoffset]) hu) t ht
  | marker here header turning =>
      rw [if_neg here]
      refine Sat.bind (triple_sub32 hreads turning_stable (by omega) hcap s turning) ?_
      rintro tail t ⟨rfl, ht⟩
      have htail : ¬ cap - r < sizeofEventHeader := Nat.not_lt.mpr turning.room
      rw [if_neg htail]
      exact Triple.ret turning_stable (fun u hu => .marker header rfl hu) t ht

/-- What `ReadHeaderSafely` makes of a header that does not change. -/
def checked (header : EventHeader) : Option (EventHeader × UInt32) :=
  if Published header.sequence then some (header, header.sequence) else none

/-- `ReadHeaderSafely` of a header whose fields keep their values. -/
theorem triple_readHeaderSafely {P : RingState → Prop} {h : Nat} {header : EventHeader}
    (hs : (readerRole ok cap).Stable P) (hheader : ∀ s, P s → HeaderAt s.mem.data h header) :
    (readerRole ok cap).Triple P (readHeaderSafely h)
      fun v s => v = checked header ∧ P s := by
  have hload32 : ∀ off (v : UInt32), (∀ s, P s → s.mem.data.load32 off = v) →
      (readerRole ok cap).Triple P (load32 off) fun r s => r = v ∧ P s :=
    fun off v hv => triple_access (readerRole_reads ok cap) (by trivial) hs
      (fun s hp => ⟨hv s hp, hp⟩) fun _ => hs.and
  have hload64 : (readerRole ok cap).Triple P (load64 (timestampField h))
      fun r s => r = header.timestamp ∧ P s :=
    triple_access (readerRole_reads ok cap) (by trivial) hs
      (fun s hp => ⟨(hheader s hp).timestamp, hp⟩) fun _ => hs.and
  have hnone : ¬ Published header.sequence →
      (readerRole ok cap).Triple P (pure none) fun v s => v = checked header ∧ P s :=
    fun hno => Triple.ret hs fun s hp => ⟨(if_neg hno).symm, hp⟩
  refine Triple.bind (hload32 _ _ fun s hp => (hheader s hp).sequence) fun seq1 => Triple.pure ?_
  rintro rfl
  split
  · rename_i hzero
    exact hnone fun h => h.1 hzero
  split
  · rename_i hodd
    exact hnone fun h => hodd h.2
  rename_i hzero heven
  have hpublished : Published header.sequence := ⟨hzero, not_not.mp heven⟩
  refine Triple.bind hload64 fun timestamp => Triple.pure ?_
  rintro rfl
  refine Triple.bind (hload32 _ _ fun s hp => (hheader s hp).length) fun length => Triple.pure ?_
  rintro rfl
  refine Triple.bind (hload32 _ _ fun s hp => (hheader s hp).flags) fun flags => Triple.pure ?_
  rintro rfl
  refine Triple.bind (hload32 _ _ fun s hp => (hheader s hp).sequence) fun seq2 => Triple.pure ?_
  rintro rfl
  rw [if_neg (by simp)]
  exact Triple.ret hs fun s hp => ⟨(if_pos hpublished).symm, hp⟩

end Looks

section Takes

variable {ok : UInt32 → Prop} {cap r : Nat} {K A : List Record} {x : Record} {q : UInt32}
  {s : RingState}

theorem Heading.header (h : Heading ok cap r K A x q s) :
    HeaderAt s.mem.data x.offset (headerOf x q) := by
  obtain ⟨rest, _, hrecord⟩ := h.record
  rw [← h.sequence]
  exact hrecord.here.headerAt

/-- A movement of the read position alone. -/
theorem triple_storeReadPosition {P : RingState → Prop} {Q : RingState → Prop} {v : Nat}
    {note : Note} (hsP : (readerRole ok cap).Stable P) (hsQ : (readerRole ok cap).Stable Q)
    (hmain : ∀ s, P s → Between s.readIndex v s.writeIndex ∧
      (execTraced (.storePosition .readPosition (UInt32.ofNat v) note) s).2.Inv ok cap ∧
      (RingCmd.storePosition .readPosition (UInt32.ofNat v) note).appendedAfter s = s.appended ∧
      ReaderEffect (.storePosition .readPosition (UInt32.ofNat v) note) s
        (execTraced (.storePosition .readPosition (UInt32.ofNat v) note) s).2 ∧
      Q (execTraced (.storePosition .readPosition (UInt32.ofNat v) note) s).2)
    (hv : v < 2 ^ 32) :
    (readerRole ok cap).Triple P (storePosition .readPosition v note) fun _ => Q := by
  refine Triple.perform hsP ?_ (fun s h => (hmain s h).2.2.2.2) fun _ => hsQ
  intro s h
  obtain ⟨hbetween, hinv, happended, heffect, _⟩ := hmain s h
  refine ⟨⟨rfl, rfl, rfl, happended, ?_, fun _ => hinv⟩, fun _ hi => hi.elim, heffect⟩
  change Between s.readIndex (UInt32.ofNat v).toNat s.writeIndex
  rwa [UInt32.toNat_ofNat', Nat.mod_eq_of_lt hv]

theorem triple_storeWrapRead {header : EventHeader} :
    (readerRole ok cap).Triple (Turning ok cap r K A header)
      (storePosition .readPosition 0 .wrap) fun _ => Reading ok cap 0 K A := by
  refine triple_storeReadPosition turning_stable reading_stable ?_ (by omega)
  intro s h
  have hlayout := h.inv.layout
  rw [h.read] at hlayout
  have hnext := hlayout.passMarker h.room h.behind h.marker
  have hinv : (execTraced (.storePosition .readPosition (UInt32.ofNat 0) .wrap) s).2.Inv ok cap :=
    ⟨hnext, h.inv.removed_le⟩
  refine ⟨?_, hinv, rfl, rfl, hinv, rfl, h.taken, h.known⟩
  have hbehind := h.behind
  rw [h.read, Between, if_neg (by omega)]
  exact .inr (Nat.zero_le _)

/-- Storing the end of the first record takes it. -/
theorem triple_storeCommit (hcap : cap < 2 ^ 32) :
    (readerRole ok cap).Triple (Heading ok cap r K A x q)
      (storePosition .readPosition (advance cap (x.offset + x.size)) .commit)
      fun _ => Reading ok cap (advance cap (x.offset + x.size)) (K ++ [x]) A := by
  refine Triple.given (a := advance cap (x.offset + x.size) < cap) ?_ fun hlt => ?_
  · intro s h
    obtain ⟨rest, _, hrecord⟩ := h.record
    exact hrecord.next.read_lt
  refine triple_storeReadPosition heading_stable reading_stable ?_ (by omega)
  intro s h
  obtain ⟨rest, hrest, hrecord⟩ := h.record
  have hlen := h.toReading.length_le
  have hsplit := h.toReading.split
  have hdrop : s.appended.drop (s.removed + 1) = rest := by
    rw [hsplit, hrest, ← hlen, ← List.drop_drop, List.drop_left, List.drop_one, List.tail_cons]
  have htake : s.appended.take (s.removed + 1) = K ++ [x] := by
    rw [hsplit, hrest, ← hlen, List.take_add, List.take_left, List.drop_left]
    rfl
  have htoNat : (UInt32.ofNat (advance cap (x.offset + x.size))).toNat =
      advance cap (x.offset + x.size) := by
    rw [UInt32.toNat_ofNat', Nat.mod_eq_of_lt (by omega)]
  have hinv : (execTraced (.storePosition .readPosition
      (UInt32.ofNat (advance cap (x.offset + x.size))) .commit) s).2.Inv ok cap := by
    constructor
    · change Layout ok cap s.mem.data
        (UInt32.ofNat (advance cap (x.offset + x.size))).toNat s.writeIndex
        (s.appended.drop (s.removed + 1))
      rw [htoNat, hdrop]
      exact hrecord.next
    · change s.removed + 1 ≤ s.appended.length
      rw [hsplit, hrest, ← hlen, List.length_append, List.length_cons]
      omega
  refine ⟨?_, hinv, rfl, ⟨x, ?_⟩, hinv, htoNat, htake, h.known⟩
  · rw [h.read]
    exact hrecord.between
  · change s.unread = x :: s.appended.drop (s.removed + 1)
    rw [hdrop, hrest]

/-- The event `PeekNext` returns for `x`. -/
def peekedOf (cap : Nat) (x : Record) (q : UInt32) : PeekedEvent where
  localHeader := headerOf x q
  payloadPtr := some (payloadField x.offset)
  beginOffset := x.offset
  endOffset := advance cap (x.offset + x.size)
  sequence := q

theorem Heading.length_toNat (h : Heading ok cap r K A x q s) (hcap : cap < 2 ^ 32) :
    (headerOf x q).length.toNat = x.words.length := by
  obtain ⟨rest, _, hrecord⟩ := h.record
  have hroom := hrecord.room
  have hsize := x.payload_le_size
  rw [headerOf, UInt32.toNat_ofNat', Nat.mod_eq_of_lt (by omega)]

theorem triple_buildPeekedEvent (hcap : cap < 2 ^ 31) (outEvent : PeekedEvent) :
    (readerRole ok cap).Triple (Heading ok cap r K A x q)
      (buildPeekedEvent cap (headerOf x q) x.offset
        { outEvent with localHeader := headerOf x q, sequence := q })
      fun ret s => ret = (.ok, peekedOf cap x q) ∧ Heading ok cap r K A x q s := by
  have hreads := readerRole_reads ok cap
  refine Triple.given (a := x.offset + x.size ≤ cap ∧ x.size < cap ∧
    (headerOf x q).length.toNat = x.words.length) ?_ ?_
  · intro s h
    obtain ⟨rest, _, hrecord⟩ := h.record
    exact ⟨hrecord.room, hrecord.small, h.length_toNat (by omega)⟩
  rintro ⟨hroom, hsmall, hlength⟩
  have hsize : getEventRecordSize (headerOf x q).length.toNat = some x.size := by
    rw [hlength]
    exact getEventRecordSize_eq_some.mpr ⟨rfl, show x.size < 2 ^ 32 by omega⟩
  unfold buildPeekedEvent
  rw [hsize]
  refine Triple.bind (triple_sub32 hreads heading_stable (by omega) (by omega)) fun limit => ?_
  refine Triple.pure ?_
  rintro rfl
  rw [if_neg (by omega)]
  refine Triple.bind (triple_add32 hreads heading_stable (by omega)) fun recordEnd => ?_
  refine Triple.pure ?_
  rintro rfl
  rw [if_neg (by omega)]
  exact Triple.ret heading_stable fun s h => ⟨rfl, h⟩

end Takes

section Peek

variable {ok : UInt32 → Prop} {cap r : Nat} {K A : List Record} {s : RingState}

/-- What a reader knows after `PeekNext`: it holds the first unread record, or,
if `live`, it has taken all that was known. -/
inductive Peeked (ok : UInt32 → Prop) (cap : Nat) (K A : List Record) (live : Prop)
    (ret : MidiStatusCode × PeekedEvent) (s : RingState) : Prop
  | event (r : Nat) (x : Record) (q : UInt32) (returned : ret = (.ok, peekedOf cap x q))
      (heading : Heading ok cap r K A x q s)
  | nothing (r : Nat) (returned : ret.1 ≠ .ok) (reading : Reading ok cap r K A s)
      (drained : live → A <+: K)

theorem Peeked.mono {live live' : Prop} {ret : MidiStatusCode × PeekedEvent}
    (h : Peeked ok cap K A live ret s) (hlive : live' → live) :
    Peeked ok cap K A live' ret s := by
  cases h with
  | event r x q returned heading => exact .event r x q returned heading
  | nothing r returned reading drained => exact .nothing r returned reading (drained ∘ hlive)

/-- The writer leaves only sequence words with which a header can be read. -/
def Lively (ok : UInt32 → Prop) : Prop := ∀ v, ok v → Published v

theorem triple_handleWrapIfNeeded {header : EventHeader} :
    (readerRole ok cap).Triple (Turning ok cap r K A header) (handleWrapIfNeeded header)
      fun ret s => ret = .ok ∧ Reading ok cap 0 K A s := by
  refine Triple.given (a := header.length = 0 ∧ header.flags = flagWrap) ?_ ?_
  · exact fun s h => ⟨h.header.length ▸ h.marker.length, h.header.flags ▸ h.marker.flags⟩
  rintro ⟨hlength, hflags⟩
  unfold handleWrapIfNeeded
  rw [hflags, if_neg (by decide), hlength, if_neg (by simp)]
  exact Triple.bind triple_storeWrapRead fun _ =>
    Triple.ret reading_stable fun s h => ⟨rfl, h⟩

/-- The first attempts of `PeekNext` at a record. -/
theorem triple_peekRecord {x : Record} {q : UInt32} (hcap : cap < 2 ^ 31) (k : Nat)
    (outEvent : PeekedEvent) (live : Prop) :
    (readerRole ok cap).Triple (Heading ok cap r K A x q)
      (do
        let ret ← handleWrapIfNeeded (headerOf x q)
        if ret = .ok then peekLoop cap k outEvent
        else if ret = .shmBroken then return (ret, outEvent)
        else
          let outEvent := { outEvent with localHeader := headerOf x q, sequence := q }
          let writeIndexNow ← loadPosition .writePosition
          if x.offset = writeIndexNow then peekLoop cap k outEvent
          else buildPeekedEvent cap (headerOf x q) x.offset outEvent)
      (Peeked ok cap K A live) := by
  have hflags : (headerOf x q).flags &&& flagWrap = 0 := by
    change flagNone &&& flagWrap = 0
    decide
  unfold handleWrapIfNeeded
  rw [if_pos hflags]
  change (readerRole ok cap).Triple _ (loadPosition .writePosition >>= _) _
  refine Triple.bind (Q := fun w s => x.offset ≠ w ∧ Heading ok cap r K A x q s) ?_ fun w => ?_
  · exact triple_loadPosition (readerRole_reads ok cap) heading_stable
      (fun s h => ⟨h.write_ne, h⟩) fun _ => heading_stable.and
  refine Triple.pure fun hne => ?_
  rw [if_neg hne]
  exact (triple_buildPeekedEvent hcap outEvent).conseq (fun _ h => h)
    fun ret s h => .event r x q h.1 h.2

theorem triple_peekLoop (hcap : cap < 2 ^ 31) (k : Nat) (outEvent : PeekedEvent) :
    (readerRole ok cap).Triple (Reading ok cap r K A) (peekLoop cap k outEvent)
      (Peeked ok cap K A (Lively ok ∧ 1 ≤ k ∧ (r = 0 ∨ 2 ≤ k))) := by
  have hreads := readerRole_reads ok cap
  induction k generalizing r outEvent with
  | zero =>
      refine Triple.ret reading_stable fun s h => .nothing r (by simp) h ?_
      rintro ⟨_, hk, _⟩
      omega
  | succ k ih =>
      unfold peekLoop
      refine Triple.bind (Q := fun v s => v = r ∧ Reading ok cap r K A s) ?_ fun v => ?_
      · exact triple_loadPosition hreads reading_stable (fun s h => ⟨h.read, h⟩)
          fun _ => reading_stable.and
      refine Triple.pure ?_
      rintro rfl
      refine Triple.bind (Q := fun w s => (v < cap ∧ w < cap) ∧ Seen ok cap v K A w s) ?_
        fun w => ?_
      · refine triple_loadPosition hreads reading_stable ?_ fun _ => seen_stable.and
        exact fun s h => ⟨⟨h.read ▸ h.inv.layout.read_lt, h.inv.layout.write_lt⟩, h.seen⟩
      refine Triple.pure ?_
      rintro ⟨hr, hw⟩
      refine Triple.bind (triple_updateReadIndexIfNeed (by omega) hr hw) fun updated => ?_
      intro s hs
      cases hs with
      | stop returned reading drained =>
          rw [if_pos (by simp [returned])]
          exact Triple.ret reading_stable
            (fun t ht => .nothing v (by simp [returned]) ht fun _ => drained) s reading
      | record x q returned heading =>
          subst returned
          simp only [ne_eq, not_true_eq_false, if_false]
          have hok : ok q := by
            obtain ⟨rest, _, hrecord⟩ := heading.record
            exact heading.sequence ▸ hrecord.here.sequence
          refine Sat.bind (triple_readHeaderSafely heading_stable
            (fun s h => h.header) s heading) ?_
          rintro read t ⟨rfl, ht⟩
          by_cases hpublished : Published q
          · have hchecked : checked (headerOf x q) = some (headerOf x q, q) :=
              if_pos hpublished
            rw [hchecked]
            exact triple_peekRecord hcap k outEvent _ t ht
          · have hchecked : checked (headerOf x q) = none := if_neg hpublished
            rw [hchecked]
            refine (ih outEvent t ht.toReading).mono fun ret u hu => hu.mono ?_
            exact fun hlive => absurd (hlive.1 q hok) hpublished
      | marker header returned turning =>
          subst returned
          simp only [ne_eq, not_true_eq_false, if_false]
          have hok : ok header.sequence := turning.header.sequence ▸ turning.marker.sequence
          have hpos : v ≠ 0 := fun hzero => by
            have hbehind := turning.behind
            omega
          refine Sat.bind (triple_readHeaderSafely turning_stable
            (fun s h => h.header) s turning) ?_
          rintro read t ⟨rfl, ht⟩
          by_cases hpublished : Published header.sequence
          · have hchecked : checked header = some (header, header.sequence) :=
              if_pos hpublished
            rw [hchecked]
            refine Sat.bind (triple_handleWrapIfNeeded t ht) ?_
            rintro ret u ⟨rfl, hu⟩
            rw [if_pos rfl]
            refine (ih outEvent u hu).mono fun ret y hy => hy.mono ?_
            rintro ⟨hlively, _, hk⟩
            exact ⟨hlively, by omega, .inl rfl⟩
          · have hchecked : checked header = none := if_neg hpublished
            rw [hchecked]
            refine (ih outEvent t ht.toReading).mono fun ret u hu => hu.mono ?_
            exact fun hlive => absurd (hlive.1 _ hok) hpublished

/-- `PeekNext` holds the first unread record, or has nothing left that was
published before it began. -/
theorem triple_peekNext (hcap : cap < 2 ^ 31) :
    (readerRole ok cap).Triple (Reading ok cap r K A) (peekNext cap)
      (Peeked ok cap K A (Lively ok)) := by
  unfold peekNext
  split
  · rename_i hsmall
    simp only [sizeofEventHeader] at hsmall
    refine Triple.ret reading_stable fun s h => .nothing r (by simp) h fun _ => h.drained ?_
    cases hunread : s.unread with
    | nil => rfl
    | cons x rest =>
        have hlt := (hunread ▸ h.inv.layout).size_lt
        have hsize := x.payload_le_size
        omega
  · exact (triple_peekLoop hcap 3 {}).conseq (fun _ h => h)
      fun ret s h => h.mono fun hlive => ⟨hlive, by omega, .inr (by omega)⟩

end Peek

section Drain

variable {ok : UInt32 → Prop} {cap r : Nat} {K A : List Record} {x : Record} {q : UInt32}

theorem triple_commitRead (hcap : cap < 2 ^ 32) :
    (readerRole ok cap).Triple (Heading ok cap r K A x q) (commitRead cap (peekedOf cap x q))
      fun committed s => committed = true ∧ ∃ r', Reading ok cap r' (K ++ [x]) A s := by
  refine Triple.given (a := advance cap (x.offset + x.size) < cap) ?_ fun hlt => ?_
  · intro s h
    obtain ⟨rest, _, hrecord⟩ := h.record
    exact hrecord.next.read_lt
  refine Triple.bind (Q := fun (v : UInt32) s => v = q ∧ Heading ok cap r K A x q s) ?_
    fun v => Triple.pure ?_
  · exact triple_access (readerRole_reads ok cap) (by trivial) heading_stable
      (fun s h => ⟨h.sequence, h⟩) fun _ => heading_stable.and
  rintro rfl
  have hend : (if (peekedOf cap x v).endOffset ≥ cap then 0 else (peekedOf cap x v).endOffset) =
      advance cap (x.offset + x.size) := if_neg (Nat.not_le.mpr hlt)
  rw [if_neg (by simp [peekedOf]), hend]
  refine Triple.bind (triple_storeCommit hcap) fun _ => ?_
  exact Triple.ret reading_stable fun s h => ⟨rfl, _, h⟩

theorem triple_readWords {off : Nat} {ws : List UInt32} {P : RingState → Prop}
    (hs : (readerRole ok cap).Stable P)
    (hwords : ∀ s, P s → s.mem.data.loadWords off ws.length = ws) :
    (readerRole ok cap).Triple P (readWords off ws.length) fun v s => v = ws ∧ P s := by
  induction ws generalizing off with
  | nil => exact Triple.ret hs fun s h => ⟨rfl, h⟩
  | cons w ws ih =>
      have hparts : ∀ s, P s → s.mem.data.load32 off = w ∧
          s.mem.data.loadWords (off + 4) ws.length = ws := by
        intro s h
        have hall := hwords s h
        simp only [List.length_cons, ByteMemory.loadWords, List.cons.injEq] at hall
        exact hall
      refine Triple.bind (Q := fun (v : UInt32) s => v = w ∧ P s) ?_ fun v => Triple.pure ?_
      · exact triple_access (readerRole_reads ok cap) (by trivial) hs
          (fun s h => ⟨(hparts s h).1, h⟩) fun _ => hs.and
      rintro rfl
      refine Triple.bind (ih fun s h => (hparts s h).2) fun vs => Triple.pure ?_
      rintro rfl
      exact Triple.ret hs fun s h => ⟨rfl, h⟩

theorem triple_copyOut (hcap : cap < 2 ^ 32) :
    (readerRole ok cap).Triple (Heading ok cap r K A x q) (copyOut (peekedOf cap x q))
      fun v s => v = x.toMidiEvent ∧ Heading ok cap r K A x q s := by
  refine Triple.given (a := (headerOf x q).length.toNat = x.words.length)
    (fun s h => h.length_toNat hcap) fun hlength => ?_
  change (readerRole ok cap).Triple _
    (readWords (payloadField x.offset) (headerOf x q).length.toNat >>= _) _
  rw [hlength]
  refine Triple.bind (triple_readWords heading_stable fun s h => ?_) fun ws => Triple.pure ?_
  · obtain ⟨rest, _, hrecord⟩ := h.record
    exact hrecord.here.stored.payload
  rintro rfl
  exact Triple.ret heading_stable fun s h => ⟨rfl, h⟩

/-- The record that was looked at is copied out and committed before the program goes on. -/
theorem Heading.sat_take {α : Type} {Q : α → RingState → Prop} {s : RingState}
    {f : MidiEvent → Bool → RingProgram α} (hcap : cap < 2 ^ 32) (h : Heading ok cap r K A x q s)
    (hf : ∀ r' t, Reading ok cap r' (K ++ [x]) A t →
      (readerRole ok cap).Sat Q (f x.toMidiEvent true) t) :
    (readerRole ok cap).Sat Q (do
      let copied ← copyOut (peekedOf cap x q)
      let committed ← commitRead cap (peekedOf cap x q)
      f copied committed) s := by
  refine Sat.bind (triple_copyOut hcap s h) ?_
  rintro copied t ⟨rfl, ht⟩
  refine Sat.bind (triple_commitRead hcap t ht) ?_
  rintro committed u ⟨rfl, r', hu⟩
  exact hf r' u hu

/-- What a reader knows after `DrainToBatch`: the batch are the next records,
and a drain that ended by itself below its limit has taken all that was known. -/
def Drained (ok : UInt32 → Prop) (cap maxEvents fuel count : Nat) (K A : List Record)
    (ret : Bool × List MidiEvent) (s : RingState) : Prop :=
  ∃ r xs, Reading ok cap r (K ++ xs) A s ∧ ret.2 = xs.map Record.toMidiEvent ∧
    if ret.1 then Lively ok → maxEvents = 0 ∨ count + xs.length < maxEvents → A <+: K ++ xs
    else fuel ≤ xs.length

theorem Reading.drained_nil {maxEvents fuel count : Nat} {s : RingState}
    (h : Reading ok cap r K A s)
    (hend : Lively ok → maxEvents = 0 ∨ count < maxEvents → A <+: K) :
    Drained ok cap maxEvents fuel count K A (true, []) s := by
  refine ⟨r, [], ?_, rfl, ?_⟩
  · rwa [List.append_nil]
  · rwa [if_pos rfl, List.append_nil, List.length_nil, Nat.add_zero]

theorem Drained.cons {maxEvents fuel count : Nat} {ret : Bool × List MidiEvent} {s : RingState}
    (h : Drained ok cap maxEvents fuel (count + 1) (K ++ [x]) A ret s) :
    Drained ok cap maxEvents (fuel + 1) count K A (ret.1, x.toMidiEvent :: ret.2) s := by
  obtain ⟨r, xs, hr, hret, hend⟩ := h
  rw [List.append_assoc, List.singleton_append] at hr hend
  refine ⟨r, x :: xs, hr, by rw [hret, List.map_cons], ?_⟩
  rw [List.length_cons]
  by_cases hdone : ret.1 = true
  · rw [if_pos hdone] at hend ⊢
    exact fun hlively hlimit => hend hlively (by omega)
  · rw [if_neg hdone] at hend ⊢
    omega

theorem drained_stable {maxEvents fuel count : Nat} {ret : Bool × List MidiEvent} :
    (readerRole ok cap).Stable (Drained ok cap maxEvents fuel count K A ret) := by
  rintro s t hr ⟨r, xs, h, hret, hend⟩
  exact ⟨r, xs, reading_stable s t hr h, hret, hend⟩

theorem triple_drainLoop (hcap : cap < 2 ^ 31) (maxEvents fuel count : Nat) :
    (readerRole ok cap).Triple (Reading ok cap r K A) (drainLoop cap maxEvents fuel count)
      (Drained ok cap maxEvents fuel count K A) := by
  induction fuel generalizing r K count with
  | zero =>
      refine Triple.ret reading_stable fun s h => ⟨r, [], ?_, rfl, ?_⟩
      · rwa [List.append_nil]
      · exact Nat.le_refl 0
  | succ fuel ih =>
      unfold drainLoop
      split
      · rename_i hlimit
        exact Triple.ret reading_stable fun s h => h.drained_nil fun _ hmore =>
          absurd hmore hlimit
      refine Triple.bind (triple_peekNext hcap) fun peeked => ?_
      intro s hs
      cases hs with
      | nothing r returned reading drained =>
          rw [if_pos returned]
          exact Triple.ret reading_stable
            (fun t ht => ht.drained_nil fun hlively _ => drained hlively) s reading
      | event r x q returned heading =>
          subst returned
          rw [if_neg (by simp)]
          refine heading.sat_take (by omega) fun r' u hu => ?_
          rw [if_pos rfl]
          refine Sat.bind (ih (count + 1) u hu) fun ret y hy => ?_
          exact fun z hz => (drained_stable y z hz hy).cons

end Drain

end MidiFramework.SharedRing
