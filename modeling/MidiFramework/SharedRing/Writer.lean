import MidiFramework.SharedRing.Roles

/-!
# The writer keeps the ring

What the write functions do to the ring while the reader takes records between
any two accesses. The writer knows the data area exactly, since only it stores
there, and its last load of the read position bounds where the reader is. From
this the outcome of `TryWriteOneEvent` is a function of that load, the write
position and the data.
-/

namespace MidiFramework.SharedRing

open Foundation Program Discipline

section Data

variable (d : ByteMemory)

/-- The word the writer leaves in the sequence field of the header at `h`. -/
def publishedWord (h : Nat) : UInt32 :=
  writerSequence (d.load32 (sequenceField h)) + seqWriteCompleteTotal

/-- The data area after `beginSequence`. -/
def begun (h : Nat) : ByteMemory :=
  d.store32 (sequenceField h)
    (writerSequence (d.load32 (sequenceField h)) + seqWriteStartIncrement)

/-- The data area after a wrap marker is written at `h`. -/
def markerWritten (h : Nat) : ByteMemory :=
  ((((begun d h).store64 (timestampField h) 0).store32 (lengthField h) 0).store32
    (flagsField h) flagWrap).store32 (sequenceField h) (publishedWord d h)

/-- The data area after `event` is written at `h`. -/
def recordWritten (h : Nat) (event : MidiEventInner) : ByteMemory :=
  (((((begun d h).store64 (timestampField h) event.timestamp).store32 (lengthField h)
    (UInt32.ofNat event.length)).store32 (flagsField h) flagNone).storeWords
    (payloadField h) event.words).store32 (sequenceField h) (publishedWord d h)

variable {d} {ok : UInt32 → Prop} {h : Nat}

theorem markerWritten_marker (hok : ok (publishedWord d h)) :
    Marker ok (markerWritten d h) h := by
  constructor
  · simp (disch := omega) [markerWritten, lengthField, flagsField, sequenceField]
  · simp (disch := omega) [markerWritten, flagsField, sequenceField]
  · simpa [markerWritten] using hok

theorem recordWritten_recordAt {event : MidiEventInner} (hok : ok (publishedWord d h))
    (hlen : event.words.length = event.length) (hlt : event.length < 2 ^ 32) :
    RecordAt ok (recordWritten d h event) h ⟨h, event.timestamp, event.words⟩ := by
  refine ⟨rfl, ?_, by simpa [recordWritten] using hok⟩
  constructor
  · simp (disch := omega) [recordWritten, timestampField, lengthField, flagsField,
      sequenceField, payloadField, sizeofEventHeader]
  · simpa (disch := omega) [recordWritten, lengthField, flagsField, sequenceField, payloadField,
      sizeofEventHeader, hlen] using hlt
  · simp (disch := omega) [recordWritten, flagsField, sequenceField, payloadField,
      sizeofEventHeader]
  · simp (disch := omega) [recordWritten, sequenceField, payloadField, sizeofEventHeader,
      ByteMemory.loadWords_storeWords]

end Data

section Assertions

variable (ok : UInt32 → Prop) (cap : Nat)

/-- The writer is at `w`, has published `A`, and knows the data area. -/
structure Writing (w : Nat) (A : List Record) (d : ByteMemory) (s : RingState) : Prop where
  inv : s.Inv ok cap
  write : s.writeIndex = w
  appended : s.appended = A
  data : s.mem.data = d

/-- The writer also knows that the reader has left `r₀` no further than `w`. -/
structure Owning (r₀ w : Nat) (A : List Record) (d : ByteMemory) (s : RingState) : Prop
    extends Writing ok cap w A d s where
  between : Between r₀ s.readIndex w

variable {ok cap} {r₀ w : Nat} {A : List Record} {d d' : ByteMemory} {s t : RingState}

theorem writing_stable : (writerRole ok cap).Stable (Writing ok cap w A d) := by
  intro s t hr h
  refine ⟨hr.inv h.inv, ?_, hr.appended.trans h.appended, hr.data.trans h.data⟩
  rw [← h.write, RingState.writeIndex, hr.write, RingState.writeIndex]

theorem owning_stable : (writerRole ok cap).Stable (Owning ok cap r₀ w A d) := by
  intro s t hr h
  refine ⟨writing_stable s t hr h.toWriting, h.between.trans ?_⟩
  have hstep := hr.between
  rwa [h.write] at hstep

theorem Writing.write_lt (h : Writing ok cap w A d s) : w < cap :=
  h.write ▸ h.inv.layout.write_lt

/-- Writing to bytes that are spare since the last load of the read position. -/
theorem Owning.setData (h : Owning ok cap r₀ w A d s) (hd : ∀ i, ¬ Spare r₀ w i → d' i = d i)
    (ht : t = { s with mem := { s.mem with data := d' } }) :
    WriterMoves ok cap s t ∧ Owning ok cap r₀ w A d' t := by
  subst ht
  have hocc : ∀ i, s.Occupied i → d' i = s.mem.data i := by
    intro i hi
    rw [h.data]
    apply hd i
    intro hspare
    apply hspare.not_occupied h.between
    rwa [RingState.Occupied, h.write] at hi
  have hinv : s.Inv ok cap → RingState.Inv ok cap { s with mem := { s.mem with data := d' } } :=
    fun hs => ⟨hs.layout.congr hocc, hs.removed_le⟩
  refine ⟨⟨rfl, rfl, rfl, List.prefix_refl _, fun i hi => ⟨hi, hocc i hi⟩, hinv⟩, ?_⟩
  exact ⟨⟨hinv h.inv, h.write, h.appended, rfl⟩, h.between⟩

end Assertions

section Stores

variable {ok : UInt32 → Prop} {cap r₀ w off : Nat} {A : List Record} {d : ByteMemory}

theorem triple_store {c : RingCmd} {n : Nat} {d' : ByteMemory} (hlo : w ≤ off)
    (hhi : w < r₀ → off + n ≤ r₀) (htouch : ∀ i, Touches c i → off ≤ i ∧ i < off + n)
    (hd : ∀ i, ¬ (off ≤ i ∧ i < off + n) → d' i = d i)
    (hexec : ∀ s, Owning ok cap r₀ w A d s →
      (execTraced c s).2 = { s with mem := { s.mem with data := d' } })
    (heffect : ∀ s t, t.unread = s.unread → WriterEffect c s t) :
    (writerRole ok cap).Triple (Owning ok cap r₀ w A d) (access c)
      fun _ => Owning ok cap r₀ w A d' := by
  have hspare : ∀ i, off ≤ i ∧ i < off + n → Spare r₀ w i := by
    unfold Spare
    omega
  have hkeep : ∀ i, ¬ Spare r₀ w i → d' i = d i := fun i hi => hd i fun hin => hi (hspare i hin)
  refine Triple.perform owning_stable ?_ ?_ fun _ => owning_stable
  · intro s h
    change WriterGuarantee ok cap c s (execTraced c s).2
    refine ⟨(h.setData hkeep (hexec s h)).1, fun i hi => ?_, ?_⟩
    · rw [RingState.Occupied, h.write]
      exact (hspare i (htouch i hi)).not_occupied h.between
    · rw [hexec s h]
      exact heffect _ _ rfl
  · intro s h
    exact (h.setData hkeep (hexec s h)).2

theorem triple_store32 {v : UInt32} (hlo : w ≤ off) (hhi : w < r₀ → off + 4 ≤ r₀) :
    (writerRole ok cap).Triple (Owning ok cap r₀ w A d) (store32 off v)
      fun _ => Owning ok cap r₀ w A (d.store32 off v) := by
  refine triple_store hlo hhi (fun i hi => hi) (fun i hi => if_neg hi) ?_ fun _ _ h => h
  intro s h
  rw [← h.data]
  rfl

theorem triple_store64 {v : UInt64} (hlo : w ≤ off) (hhi : w < r₀ → off + 8 ≤ r₀) :
    (writerRole ok cap).Triple (Owning ok cap r₀ w A d) (store64 off v)
      fun _ => Owning ok cap r₀ w A (d.store64 off v) := by
  refine triple_store hlo hhi (fun i hi => hi) (fun i hi => if_neg hi) ?_ fun _ _ h => h
  intro s h
  rw [← h.data]
  rfl

theorem triple_copyWords {ws : List UInt32} (hlo : w ≤ off)
    (hhi : w < r₀ → off + 4 * ws.length ≤ r₀) :
    (writerRole ok cap).Triple (Owning ok cap r₀ w A d) (copyWords off ws)
      fun _ => Owning ok cap r₀ w A (d.storeWords off ws) := by
  induction ws generalizing off d with
  | nil => exact Triple.ret owning_stable fun s h => h
  | cons x ws ih =>
      simp only [List.length_cons] at hhi
      refine Triple.bind (triple_store32 hlo (by omega)) fun _ => ?_
      exact ih (by omega) (by omega)

/-- `beginSequence` at the write position. -/
theorem triple_beginSequence (hhi : w < r₀ → w + 24 ≤ r₀) :
    (writerRole ok cap).Triple (Owning ok cap r₀ w A d) (beginSequence w)
      fun v s => v = writerSequence (d.load32 (sequenceField w)) ∧
        Owning ok cap r₀ w A (begun d w) s := by
  have hreads := writerRole_reads ok cap
  refine Triple.bind (Q := fun found s => found = d.load32 (sequenceField w) ∧
    Owning ok cap r₀ w A d s) ?_ fun found => ?_
  · refine triple_access hreads (by trivial) owning_stable ?_ fun _ => owning_stable.and
    intro s h
    exact ⟨by rw [← h.data]; rfl, h⟩
  · refine Triple.pure ?_
    rintro rfl
    refine Triple.bind (triple_store32 ?_ ?_) fun _ => ?_
    · simp [sequenceField]
    · simp only [sequenceField]
      omega
    · exact Triple.ret owning_stable fun s h => ⟨rfl, h⟩

end Stores

section Positions

variable {cap r₀ r w size i : Nat}

theorem Fits.between (h : Fits cap r₀ w size) (hr : r₀ < cap) (hb : Between r₀ r w) :
    Fits cap r w size := by
  unfold Fits Between at *
  split at h <;> split at hb <;> split <;> omega

theorem Occupied.advance (h : SharedRing.Occupied r w i) (hfit : Fits cap r w size)
    (hr : r < cap) : SharedRing.Occupied r (advance cap (w + size)) i := by
  unfold SharedRing.Occupied Fits SharedRing.advance at *
  split at h <;> split at hfit <;> split <;> split <;> omega

variable {ok : UInt32 → Prop} {A : List Record} {d : ByteMemory}

/-- Turning back to the start publishes nothing. -/
theorem triple_storeWrap (hrw : r₀ ≤ w) (hpos : 0 < r₀) (hturn : TurnsBack ok d cap w) :
    (writerRole ok cap).Triple (Owning ok cap r₀ w A d) (storePosition .writePosition 0 .wrap)
      fun _ => Owning ok cap r₀ 0 A d := by
  have hmain : ∀ s, Owning ok cap r₀ w A d s →
      WriterGuarantee ok cap (.storePosition .writePosition (UInt32.ofNat 0) .wrap) s
        (execTraced (.storePosition .writePosition (UInt32.ofNat 0) .wrap) s).2 ∧
      Owning ok cap r₀ 0 A d
        (execTraced (.storePosition .writePosition (UInt32.ofNat 0) .wrap) s).2 := by
    intro s h
    have hbetween := h.between
    rw [Between, if_pos hrw] at hbetween
    have hinv : RingState.Inv ok cap
        (execTraced (.storePosition .writePosition (UInt32.ofNat 0) .wrap) s).2 := by
      refine ⟨Layout.turnBack (w := s.writeIndex) h.inv.layout ?_ ?_ ?_, h.inv.removed_le⟩
      · rw [h.write]
        exact hbetween.2
      · change 0 < s.readIndex
        omega
      · rw [h.write]
        exact h.data ▸ hturn
    refine ⟨⟨⟨rfl, rfl, rfl, List.prefix_refl _, fun i hi => ⟨?_, rfl⟩, fun _ => hinv⟩,
      fun _ hi => hi.elim, rfl⟩, ⟨hinv, rfl, h.appended, h.data⟩, ?_⟩
    · change SharedRing.Occupied s.readIndex 0 i
      rw [RingState.Occupied, h.write, SharedRing.Occupied, if_pos hbetween.2] at hi
      rw [SharedRing.Occupied, if_neg (by omega)]
      exact .inl hi.1
    · change Between r₀ s.readIndex 0
      rw [Between, if_neg (by omega)]
      exact .inl hbetween.1
  exact Triple.perform owning_stable (fun s h => (hmain s h).1) (fun s h => (hmain s h).2)
    fun _ => owning_stable

/-- Storing the advanced position publishes the record just written. -/
theorem triple_storeAppend {x : Record} (hr : r₀ < cap) (hcap : cap < 2 ^ 32)
    (hx : RecordAt ok d w x) (hfit : Fits cap r₀ w x.size) :
    (writerRole ok cap).Triple (Owning ok cap r₀ w A d)
      (storePosition .writePosition (advance cap (w + x.size)) (.append x))
      fun _ => Writing ok cap (advance cap (w + x.size)) (A ++ [x]) d := by
  have hnext : advance cap (w + x.size) < cap → (UInt32.ofNat (advance cap (w + x.size))).toNat =
      advance cap (w + x.size) := by
    intro hlt
    rw [UInt32.toNat_ofNat', Nat.mod_eq_of_lt (by omega)]
  have hmain : ∀ s, Owning ok cap r₀ w A d s →
      WriterGuarantee ok cap
        (.storePosition .writePosition (UInt32.ofNat (advance cap (w + x.size))) (.append x)) s
        (execTraced (.storePosition .writePosition (UInt32.ofNat (advance cap (w + x.size)))
          (.append x)) s).2 ∧
      Writing ok cap (advance cap (w + x.size)) (A ++ [x]) d
        (execTraced (.storePosition .writePosition (UInt32.ofNat (advance cap (w + x.size)))
          (.append x)) s).2 := by
    intro s h
    have hlayout := h.inv.layout
    rw [h.write, h.data] at hlayout
    have hfit' : Fits cap s.readIndex w x.size := hfit.between hr h.between
    obtain ⟨hnew, hne⟩ := hlayout.append hx hfit'
    have hunread : (s.appended ++ [x]).drop s.removed = s.unread ++ [x] :=
      List.drop_append_of_le_length h.inv.removed_le
    have htoNat := hnext hnew.write_lt
    have hinv : RingState.Inv ok cap
        (execTraced (.storePosition .writePosition (UInt32.ofNat (advance cap (w + x.size)))
          (.append x)) s).2 := by
      constructor
      · change Layout ok cap s.mem.data s.readIndex
          (UInt32.ofNat (advance cap (w + x.size))).toNat ((s.appended ++ [x]).drop s.removed)
        rw [htoNat, hunread, h.data]
        exact hnew
      · change s.removed ≤ (s.appended ++ [x]).length
        have hle := h.inv.removed_le
        rw [List.length_append]
        omega
    refine ⟨⟨⟨rfl, rfl, rfl, List.prefix_append _ _, fun i hi => ⟨?_, rfl⟩, fun _ => hinv⟩,
      fun _ hi => hi.elim, hunread, ?_⟩, hinv, htoNat, ?_, h.data⟩
    · change SharedRing.Occupied s.readIndex (UInt32.ofNat (advance cap (w + x.size))).toNat i
      rw [htoNat]
      rw [RingState.Occupied, h.write] at hi
      exact hi.advance hfit' hlayout.read_lt
    · rw [htoNat]
      exact hne
    · change s.appended ++ [x] = A ++ [x]
      rw [h.appended]
  exact Triple.perform owning_stable (fun s h => (hmain s h).1) (fun s h => (hmain s h).2)
    fun _ => writing_stable

end Positions

section Attempts

variable (cap : Nat) (d : ByteMemory) (r₀ w total : Nat)

/-- Where a record of `total` bytes goes when the writer is at `w`. -/
def place : Nat := if total ≤ cap - w then w else 0

/-- The data area once the writer has decided where the record goes. -/
def placeData : ByteMemory :=
  if total ≤ cap - w then d else if 24 ≤ cap - w then markerWritten d w else d

/-- The record is accepted when the read position was last loaded as `r₀`. -/
def Accepts : Prop := total ≤ freeBytes r₀ w cap ∧ (total ≤ cap - w ∨ total < r₀)

instance : Decidable (Accepts cap r₀ w total) := inferInstanceAs (Decidable (_ ∧ _))

/-- The write position a refused attempt leaves. -/
def refusedAt : Nat := if total ≤ freeBytes r₀ w cap then place cap w total else w

/-- The sequence words the attempt publishes are acceptable. -/
structure SlotSound (ok : UInt32 → Prop) : Prop where
  marker : total ≤ freeBytes r₀ w cap → ¬ total ≤ cap - w → 24 ≤ cap - w →
    ok (publishedWord d w)
  record : Accepts cap r₀ w total →
    ok (publishedWord (placeData cap d w total) (place cap w total))

variable {cap d r₀ w total}

/-- A record that is not refused for space and turns back has room ahead of the
reader it turns back behind. -/
theorem free_turnBack (hr : r₀ < cap) (hw : w < cap) (hfree : total ≤ freeBytes r₀ w cap)
    (htail : ¬ total ≤ cap - w) : r₀ ≤ w ∧ 0 < r₀ := by
  unfold freeBytes usedBytes at hfree
  split at hfree <;> omega

theorem Accepts.fits (h : Accepts cap r₀ w total) (hr : r₀ < cap) (hw : w < cap)
    (htotal : 24 ≤ total) : Fits cap r₀ (place cap w total) total := by
  obtain ⟨hfree, hroom⟩ := h
  unfold place Fits
  unfold freeBytes usedBytes at hfree
  split at hfree <;> split <;> split <;> omega

variable {ok : UInt32 → Prop} {A : List Record}

theorem triple_updateWriteIndexIfNeed (hcap : cap < 2 ^ 32) (hr : r₀ < cap) (hw : w < cap)
    (hfree : total ≤ freeBytes r₀ w cap)
    (hok : ¬ total ≤ cap - w → 24 ≤ cap - w → ok (publishedWord d w)) :
    (writerRole ok cap).Triple (Owning ok cap r₀ w A d) (updateWriteIndexIfNeed cap w total)
      fun v s => v.2 = place cap w total ∧
        Owning ok cap r₀ (place cap w total) A (placeData cap d w total) s := by
  have hreads := writerRole_reads ok cap
  refine Triple.bind (triple_sub32 hreads owning_stable (by omega) hcap) fun tail => ?_
  refine Triple.pure ?_
  rintro rfl
  unfold place placeData
  by_cases htail : total ≤ cap - w
  · simp only [if_pos htail, ge_iff_le]
    exact Triple.ret owning_stable fun s h => ⟨rfl, h⟩
  · obtain ⟨hrw, hpos⟩ := free_turnBack hr hw hfree htail
    simp only [if_neg htail, ge_iff_le]
    by_cases hheader : sizeofEventHeader ≤ cap - w
    · have hroom : 24 ≤ cap - w := hheader
      simp only [if_pos hheader, if_pos hroom]
      have hmarker : (writerRole ok cap).Triple (Owning ok cap r₀ w A d) (do
          let seq ← beginSequence w
          let _ ← store64 (timestampField w) 0
          let _ ← store32 (lengthField w) 0
          let _ ← store32 (flagsField w) flagWrap
          store32 (sequenceField w) (seq + seqWriteCompleteTotal))
          fun _ => Owning ok cap r₀ w A (markerWritten d w) := by
        refine Triple.bind (triple_beginSequence (by omega)) fun seq => ?_
        refine Triple.pure ?_
        rintro rfl
        refine Triple.bind (triple_store64 (by simp [timestampField]) (by omega)) fun _ => ?_
        refine Triple.bind (triple_store32 (by simp [lengthField]) (by omega)) fun _ => ?_
        refine Triple.bind (triple_store32 (by simp [flagsField]) (by omega)) fun _ => ?_
        exact triple_store32 (by simp [sequenceField]) (by omega)
      refine Triple.bind hmarker fun _ => ?_
      have hturn := markerWritten_marker (d := d) (h := w) (hok htail hroom)
      refine Triple.bind (triple_storeWrap hrw hpos (.inr hturn)) fun _ => ?_
      exact Triple.ret owning_stable fun s h => ⟨rfl, h⟩
    · have hshort : ¬ 24 ≤ cap - w := hheader
      simp only [if_neg hheader, if_neg hshort]
      refine Triple.bind (Q := fun _ => Owning ok cap r₀ w A d)
        (Triple.ret owning_stable fun s h => h) fun _ => ?_
      refine Triple.bind (triple_storeWrap hrw hpos (.inl (by omega))) fun _ => ?_
      exact Triple.ret owning_stable fun s h => ⟨rfl, h⟩

theorem triple_writeEvent {event : MidiEventInner} (hw : w < cap)
    (hhi : w < r₀ → w + 24 + 4 * event.words.length ≤ r₀) :
    (writerRole ok cap).Triple (Owning ok cap r₀ w A d) (writeEvent cap w event)
      fun v s => v = true ∧ Owning ok cap r₀ w A (recordWritten d w event) s := by
  unfold writeEvent
  rw [if_neg (by omega)]
  refine Triple.bind (triple_beginSequence (by omega)) fun seq => ?_
  refine Triple.pure ?_
  rintro rfl
  refine Triple.bind (triple_store64 (by simp [timestampField]) ?_) fun _ => ?_
  · simp only [timestampField]
    omega
  refine Triple.bind (triple_store32 (by simp [lengthField]) ?_) fun _ => ?_
  · simp only [lengthField]
    omega
  refine Triple.bind (triple_store32 (by simp [flagsField]) ?_) fun _ => ?_
  · simp only [flagsField]
    omega
  refine Triple.bind (triple_copyWords (by simp [payloadField]) ?_) fun _ => ?_
  · simp only [payloadField, sizeofEventHeader]
    omega
  refine Triple.bind (triple_store32 (by simp [sequenceField]) ?_) fun _ => ?_
  · simp only [sequenceField]
    omega
  exact Triple.ret owning_stable fun s h => ⟨rfl, h⟩

/-- The contiguous space at the decided place. -/
def writeSize (cap r₀ idx : Nat) : Nat := if idx < r₀ then r₀ - idx - 1 else cap - idx

theorem triple_writeSize {idx : Nat} (hcap : cap < 2 ^ 32) (hr : r₀ < cap) (hidx : idx < cap) :
    (writerRole ok cap).Triple (Owning ok cap r₀ idx A d)
      (if idx < r₀ then do
          let gap ← sub32 r₀ idx
          sub32 gap 1
        else sub32 cap idx)
      fun v s => v = writeSize cap r₀ idx ∧ Owning ok cap r₀ idx A d s := by
  have hreads := writerRole_reads ok cap
  unfold writeSize
  split
  · refine Triple.bind (triple_sub32 hreads owning_stable (by omega) (by omega)) fun gap => ?_
    refine Triple.pure ?_
    rintro rfl
    exact triple_sub32 hreads owning_stable (by omega) (by omega)
  · exact triple_sub32 hreads owning_stable (by omega) (by omega)

theorem accepts_iff_writeSize (hr : r₀ < cap) (hw : w < cap)
    (hfree : total ≤ freeBytes r₀ w cap) :
    Accepts cap r₀ w total ↔ total ≤ writeSize cap r₀ (place cap w total) := by
  unfold Accepts writeSize place
  refine ⟨fun h => ?_, fun h => ⟨hfree, ?_⟩⟩
  all_goals
    unfold freeBytes usedBytes at hfree
    split at hfree <;> split at * <;> split at * <;> omega

/-- What an attempt to write `event` returns and leaves. -/
inductive Attempted (ok : UInt32 → Prop) (cap r₀ w : Nat) (A : List Record) (d : ByteMemory)
    (event : MidiEventInner) (total : Nat) (ret : MidiStatusCode × Nat) (s : RingState) : Prop
  | accepted (room : Accepts cap r₀ w total)
      (returned : ret = (.ok, advance cap (place cap w total + total)))
      (writing : Writing ok cap (advance cap (place cap w total + total))
        (A ++ [⟨place cap w total, event.timestamp, event.words⟩])
        (recordWritten (placeData cap d w total) (place cap w total) event) s)
  | refused (full : ¬ Accepts cap r₀ w total)
      (returned : ret = (.wouldBlock, refusedAt cap r₀ w total)) (d' : ByteMemory)
      (writing : Writing ok cap (refusedAt cap r₀ w total) A d' s)

/-- `TryWriteOneEvent` accepts exactly the records that find room before the
read position it was given. -/
theorem triple_tryWriteOneEvent {event : MidiEventInner} (hcap : cap < 2 ^ 32) (hr : r₀ < cap)
    (hw : w < cap) (hlen : event.words.length = event.length)
    (hok : SlotSound cap d r₀ w (recordSize event.words.length) ok) :
    (writerRole ok cap).Triple (Owning ok cap r₀ w A d)
      (tryWriteOneEvent cap event (recordSize event.words.length) r₀ w)
      (Attempted ok cap r₀ w A d event (recordSize event.words.length)) := by
  have hreads := writerRole_reads ok cap
  have htotal := payload_le_recordSize event.words.length
  generalize hsize : recordSize event.words.length = total at htotal hok ⊢
  have hrefused : ∀ w' d', ¬ Accepts cap r₀ w total → w' = refusedAt cap r₀ w total →
      (writerRole ok cap).Triple (Owning ok cap r₀ w' A d') (pure (.wouldBlock, w'))
        (Attempted ok cap r₀ w A d event total) := by
    rintro w' d' hno rfl
    exact Triple.ret owning_stable fun s h => .refused hno rfl d' h.toWriting
  unfold tryWriteOneEvent
  rw [if_neg (by omega)]
  refine Triple.bind (triple_ringFree hreads owning_stable hr hw hcap) fun freeSize => ?_
  refine Triple.pure ?_
  rintro rfl
  by_cases hfree : total ≤ freeBytes r₀ w cap
  swap
  · rw [if_pos hfree]
    refine hrefused w d (fun h => hfree h.1) ?_
    rw [refusedAt, if_neg hfree]
  rw [if_neg (by omega)]
  refine Triple.bind
    (triple_updateWriteIndexIfNeed hcap hr hw hfree (hok.marker hfree)) fun wrapped => ?_
  refine Triple.pure ?_
  intro hplace
  dsimp only
  rw [hplace]
  have hidx : place cap w total < cap := by
    unfold place
    split <;> omega
  have hiff := accepts_iff_writeSize hr hw hfree
  refine Triple.bind (triple_writeSize hcap hr hidx) fun space => ?_
  refine Triple.pure ?_
  rintro rfl
  by_cases hroom : total ≤ writeSize cap r₀ (place cap w total)
  swap
  · rw [if_pos hroom]
    refine hrefused _ _ (fun h => hroom (hiff.mp h)) ?_
    rw [refusedAt, if_pos hfree]
  rw [if_neg (by omega)]
  have haccepts := hiff.mpr hroom
  have hfits := haccepts.fits hr hw (by omega)
  have hrange : place cap w total < r₀ → place cap w total + total < r₀ := by
    intro hlt
    rwa [Fits, if_pos hlt] at hfits
  have hend : place cap w total + total ≤ cap := by
    unfold Fits at hfits
    split at hfits <;> omega
  refine Triple.bind (triple_writeEvent hidx (by omega)) fun written => ?_
  refine Triple.pure ?_
  rintro rfl
  simp only [Bool.not_true, Bool.false_eq_true, if_false]
  refine Triple.bind (triple_add32 hreads owning_stable (by omega)) fun next => ?_
  refine Triple.pure ?_
  rintro rfl
  have hx := recordWritten_recordAt (hok.record haccepts) hlen (by omega)
  have hxsize : Record.size ⟨place cap w total, event.timestamp, event.words⟩ = total := hsize
  have hstore := triple_storeAppend (A := A) hr hcap hx (hxsize ▸ hfits)
  rw [hxsize] at hstore
  refine Triple.bind hstore fun _ => ?_
  exact Triple.ret writing_stable fun s h => .accepted haccepts rfl h

end Attempts

section Batches

variable {ok : UInt32 → Prop} {cap r₀ w : Nat} {A : List Record} {d : ByteMemory}

theorem triple_loadReadPosition :
    (writerRole ok cap).Triple (Writing ok cap w A d) (loadPosition .readPosition)
      fun r s => r < cap ∧ Owning ok cap r w A d s :=
  triple_loadPosition (writerRole_reads ok cap) writing_stable
    (fun _ h => ⟨h.inv.layout.read_lt, h, Between.refl _ _⟩) fun _ => owning_stable.and

theorem triple_loadWritePosition :
    (writerRole ok cap).Triple (Owning ok cap r₀ w A d) (loadPosition .writePosition)
      fun v s => v = w ∧ Owning ok cap r₀ w A d s :=
  triple_loadPosition (writerRole_reads ok cap) owning_stable (fun _ h => ⟨h.write, h⟩)
    fun _ => owning_stable.and

/-- The first `n` of the events are published after `A`. -/
def Wrote (ok : UInt32 → Prop) (cap : Nat) (A : List Record) (events : List MidiEventInner)
    (n : Nat) (s : RingState) : Prop :=
  n ≤ events.length ∧ ∃ B w d, Writing ok cap w (A ++ B) d s ∧
    B.map Record.toMidiEvent = (events.take n).map MidiEventInner.toMidiEvent

theorem Writing.wrote {events : List MidiEventInner} {s : RingState}
    (h : Writing ok cap w A d s) : Wrote ok cap A events 0 s := by
  refine ⟨Nat.zero_le _, [], w, d, ?_, rfl⟩
  rwa [List.append_nil]

theorem Wrote.cons {event : MidiEventInner} {events : List MidiEventInner} {x : Record} {n : Nat}
    {s : RingState} (h : Wrote ok cap (A ++ [x]) events n s)
    (hx : x.toMidiEvent = event.toMidiEvent) : Wrote ok cap A (event :: events) (n + 1) s := by
  obtain ⟨hn, B, w, d, hw, hB⟩ := h
  refine ⟨Nat.succ_le_succ hn, x :: B, w, d, ?_, ?_⟩
  · rwa [List.append_assoc] at hw
  · rw [List.map_cons, List.take_succ_cons, List.map_cons, hx, hB]

/-- The loop publishes a prefix of the events, counted by its result. -/
theorem triple_writeLoop (hcap : cap < 2 ^ 32) (hok : ∀ v, ok v) (events : List MidiEventInner)
    (hr : r₀ < cap) (n : Nat) :
    (writerRole ok cap).Triple (Owning ok cap r₀ w A d) (writeLoop cap events r₀ w n)
      fun m s => ∃ k, m = n + k ∧ Wrote ok cap A events k s := by
  induction events generalizing r₀ w A d n with
  | nil => exact Triple.ret owning_stable fun s h => ⟨0, rfl, h.wrote⟩
  | cons event rest ih =>
      have hstop : (writerRole ok cap).Triple (Owning ok cap r₀ w A d) (pure n)
          fun m s => ∃ k, m = n + k ∧ Wrote ok cap A (event :: rest) k s :=
        Triple.ret owning_stable fun s h => ⟨0, rfl, h.wrote⟩
      refine Triple.given (fun s h => h.write_lt) fun hw => ?_
      unfold writeLoop
      split
      · exact hstop
      rename_i hvalid
      split
      · exact hstop
      rename_i needed hneeded
      obtain ⟨rfl, hlen⟩ := validateOneEvent_size (by simpa using hvalid) hneeded
      refine Triple.bind (triple_tryWriteOneEvent hcap hr hw hlen ⟨?_, ?_⟩) fun ret => ?_
      · exact fun _ _ _ => hok _
      · exact fun _ => hok _
      intro s hs
      cases hs with
      | accepted room returned writing =>
          subst returned
          rw [if_neg (by simp)]
          refine Sat.bind (triple_loadReadPosition s writing) ?_
          rintro r t ⟨hr', ht⟩
          rw [if_neg (by simp [isValidOffset, hr'])]
          refine (ih hr' (n + 1) t ht).mono ?_
          rintro m u ⟨k, rfl, hk⟩
          exact ⟨k + 1, by omega, hk.cons rfl⟩
      | refused full returned d' writing =>
          subst returned
          rw [if_pos (by simp)]
          exact Triple.ret writing_stable (fun s h => ⟨0, rfl, h.wrote⟩) s writing

/-- `TryWriteEvents` publishes exactly the events it counts in `eventsWritten`. -/
theorem triple_tryWriteEvents (hcap : cap < 2 ^ 32) (hok : ∀ v, ok v)
    (events : Option (List MidiEventInner)) (eventCount : Nat) (notify : Bool) :
    (writerRole ok cap).Triple (Writing ok cap w A d) (tryWriteEvents cap events eventCount notify)
      fun r s => Wrote ok cap A ((events.getD []).take eventCount) r.eventsWritten s := by
  unfold tryWriteEvents
  dsimp only
  split
  · exact Triple.ret writing_stable fun s h => h.wrote
  refine Triple.bind triple_loadReadPosition fun r => ?_
  refine Triple.pure fun hr => ?_
  refine Triple.bind triple_loadWritePosition fun v => ?_
  refine Triple.pure ?_
  rintro rfl
  refine Triple.given (fun s h => h.write_lt) fun hw => ?_
  rw [if_neg (by simp [isValidOffset, hr, hw])]
  refine Triple.bind (triple_writeLoop hcap hok _ hr 0) fun m => ?_
  rintro s ⟨k, rfl, hk⟩
  have hstable : (writerRole ok cap).Stable
      (Wrote ok cap A ((events.getD []).take eventCount) k) := by
    rintro s t hst ⟨hle, B, w, d, hs, hB⟩
    exact ⟨hle, B, w, d, writing_stable s t hst hs, hB⟩
  rw [Nat.zero_add]
  split
  · rename_i hzero
    exact Triple.ret hstable (fun t ht => hzero ▸ ht) s hk
  · exact Triple.ret hstable (fun t ht => ht) s hk

end Batches

end MidiFramework.SharedRing
