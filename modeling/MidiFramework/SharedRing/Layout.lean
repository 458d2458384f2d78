import MidiFramework.SharedRing.Code

/-!
# How unread records lie in the data area

Between the two positions the data area holds a chain of records. It is either
straight, or it runs from the read position to a place where the writer turned
back to the start (a wrap marker, a tail too short for a header, or the exact
end), and on from the start to the write position. The lemmas of this module
say what each movement of a position does to the chain.
-/

namespace MidiFramework.SharedRing

open Foundation

section Stored

/-- The header fields other than the sequence word, and the payload, of `x` are
in the memory at its offset. -/
structure Record.Stored (d : ByteMemory) (x : Record) : Prop where
  timestamp : d.load64 (timestampField x.offset) = x.timestamp
  length : (d.load32 (lengthField x.offset)).toNat = x.words.length
  flags : d.load32 (flagsField x.offset) = flagNone
  payload : d.loadWords (payloadField x.offset) x.words.length = x.words

theorem Record.payload_le_size (x : Record) : 24 + 4 * x.words.length ≤ x.size :=
  payload_le_recordSize _

theorem Record.size_dvd (x : Record) : 8 ∣ x.size := recordSize_dvd _

variable {d d' : ByteMemory}

theorem Record.Stored.congr {x : Record} (h : x.Stored d) (hd : d.Agree d' x.offset x.size) :
    x.Stored d' := by
  have hsize := x.payload_le_size
  constructor
  · rw [ByteMemory.load64_congr (hd.mono (by simp [timestampField]) ?_)]
    · exact h.timestamp
    · simp only [timestampField]
      omega
  · rw [ByteMemory.load32_congr (hd.mono (by simp [lengthField]) ?_)]
    · exact h.length
    · simp only [lengthField]
      omega
  · rw [ByteMemory.load32_congr (hd.mono (by simp [flagsField]) ?_)]
    · exact h.flags
    · simp only [flagsField]
      omega
  · rw [ByteMemory.loadWords_congr (hd.mono (by simp [payloadField]) ?_)]
    · exact h.payload
    · simp only [payloadField, sizeofEventHeader]
      omega

theorem sequenceField_congr {a n : Nat} (hd : d.Agree d' a n) (hn : 24 ≤ n) :
    d'.load32 (sequenceField a) = d.load32 (sequenceField a) := by
  apply ByteMemory.load32_congr
  apply hd.mono
  · simp [sequenceField]
  · simp only [sequenceField]
    omega

end Stored

section Chains

variable (ok : UInt32 → Prop) (d : ByteMemory)

/-- A record whose sequence word is acceptable to `ok`. -/
structure RecordAt (a : Nat) (x : Record) : Prop where
  offset : x.offset = a
  stored : x.Stored d
  sequence : ok (d.load32 (sequenceField a))

/-- The records lie one after the other from `a` to `b`. -/
def Chain (ok : UInt32 → Prop) (d : ByteMemory) : Nat → Nat → List Record → Prop
  | a, b, [] => a = b
  | a, b, x :: xs => RecordAt ok d a x ∧ Chain ok d (a + x.size) b xs

/-- A header that sends the reader back to the start. -/
structure Marker (a : Nat) : Prop where
  length : d.load32 (lengthField a) = 0
  flags : d.load32 (flagsField a) = flagWrap
  sequence : ok (d.load32 (sequenceField a))

/-- A reader at `a` goes on at the start. -/
def TurnsBack (cap a : Nat) : Prop := cap - a < 24 ∨ Marker ok d a

variable {ok d} {d' : ByteMemory} {a b : Nat} {x : Record} {xs : List Record}

theorem RecordAt.congr (h : RecordAt ok d a x) (hd : d.Agree d' a x.size) :
    RecordAt ok d' a x := by
  have hsize := x.payload_le_size
  refine ⟨h.offset, h.stored.congr (h.offset ▸ hd), ?_⟩
  rw [sequenceField_congr hd (by omega)]
  exact h.sequence

theorem Marker.congr (h : Marker ok d a) (hd : d.Agree d' a 24) : Marker ok d' a := by
  constructor
  · rw [ByteMemory.load32_congr (hd.mono (by simp [lengthField]) (by simp [lengthField]))]
    exact h.length
  · rw [ByteMemory.load32_congr (hd.mono (by simp [flagsField]) (by simp [flagsField]))]
    exact h.flags
  · rw [sequenceField_congr hd (by omega)]
    exact h.sequence

theorem Chain.le (h : Chain ok d a b xs) : a ≤ b := by
  induction xs generalizing a with
  | nil => exact Nat.le_of_eq h
  | cons x xs ih => exact Nat.le_trans (Nat.le_add_right _ _) (ih h.2)

theorem Chain.congr (h : Chain ok d a b xs) (hd : ∀ i, a ≤ i → i < b → d' i = d i) :
    Chain ok d' a b xs := by
  induction xs generalizing a with
  | nil => exact h
  | cons x xs ih =>
      have hle := h.2.le
      refine ⟨h.1.congr fun i h₁ h₂ => hd i h₁ (by omega), ?_⟩
      exact ih h.2 fun i h₁ h₂ => hd i (by omega) h₂

theorem Chain.mono {ok' : UInt32 → Prop} (h : Chain ok d a b xs) (hok : ∀ v, ok v → ok' v) :
    Chain ok' d a b xs := by
  induction xs generalizing a with
  | nil => exact h
  | cons x xs ih => exact ⟨⟨h.1.offset, h.1.stored, hok _ h.1.sequence⟩, ih h.2⟩

theorem Chain.snoc (h : Chain ok d a b xs) (hx : RecordAt ok d b x) :
    Chain ok d a (b + x.size) (xs ++ [x]) := by
  induction xs generalizing a with
  | nil =>
      cases h
      exact ⟨hx, rfl⟩
  | cons y ys ih => exact ⟨h.1, ih h.2⟩

theorem Chain.mem (h : Chain ok d a b xs) {y : Record} (hy : y ∈ xs) :
    a ≤ y.offset ∧ y.offset + y.size ≤ b := by
  induction xs generalizing a with
  | nil => simp at hy
  | cons x xs ih =>
      rcases List.mem_cons.mp hy with rfl | hy
      · have hle := h.2.le
        rw [h.1.offset]
        exact ⟨Nat.le_refl _, hle⟩
      · have hrest := ih h.2 hy
        omega

/-- A record takes at least the room of its header. -/
theorem Chain.length_le (h : Chain ok d a b xs) : a + 24 * xs.length ≤ b := by
  induction xs generalizing a with
  | nil => exact Nat.le_of_eq h
  | cons x xs ih =>
      have hrest := ih h.2
      have hsize := x.payload_le_size
      rw [List.length_cons]
      omega

/-- No record fits between a position and itself. -/
theorem Chain.eq_nil (h : Chain ok d a a xs) : xs = [] := by
  cases xs with
  | nil => rfl
  | cons x xs =>
      have hle := h.2.le
      have hsize := x.payload_le_size
      omega

end Chains

section Positions

/-- The position after a record that ends at `e`. -/
def advance (cap e : Nat) : Nat := if e = cap then 0 else e

/-- The byte `i` lies between the read and the write position. -/
def Occupied (r w i : Nat) : Prop := if r ≤ w then r ≤ i ∧ i < w else r ≤ i ∨ i < w

/-- Going forward from `r₀`, the position `r` comes no later than `w`. -/
def Between (r₀ r w : Nat) : Prop := if r₀ ≤ w then r₀ ≤ r ∧ r ≤ w else r₀ ≤ r ∨ r ≤ w

theorem Between.refl (r w : Nat) : Between r r w := by
  unfold Between
  split <;> omega

theorem Between.trans {r₀ r r' w : Nat} (h : Between r₀ r w) (h' : Between r r' w) :
    Between r₀ r' w := by
  unfold Between at h h' ⊢
  split <;> split at h <;> split at h' <;> omega

/-- A byte the writer may use when it last saw the read position at `r₀`. -/
def Spare (r₀ w i : Nat) : Prop := w ≤ i ∧ (w < r₀ → i < r₀)

/-- A spare byte is not occupied, wherever the reader has moved to. -/
theorem Spare.not_occupied {r₀ r w i : Nat} (h : Spare r₀ w i) (hr : Between r₀ r w) :
    ¬ Occupied r w i := by
  unfold Spare at h
  unfold Between at hr
  unfold Occupied
  split at hr <;> split <;> omega

end Positions

section Layouts

variable (ok : UInt32 → Prop) (cap : Nat) (d : ByteMemory)

/-- The chain of `xs` passes the end of the data area. -/
structure Wrapped (r w : Nat) (xs : List Record) : Prop where
  behind : w < r
  parts : ∃ e ys zs, xs = ys ++ zs ∧ Chain ok d r e ys ∧ e ≤ cap ∧ TurnsBack ok d cap e ∧
    Chain ok d 0 w zs

/-- The unread records `xs` lie between the read and the write position. -/
structure Layout (r w : Nat) (xs : List Record) : Prop where
  read_lt : r < cap
  write_lt : w < cap
  read_dvd : 8 ∣ r
  write_dvd : 8 ∣ w
  shape : Chain ok d r w xs ∨ Wrapped ok cap d r w xs

variable {ok cap d} {d' : ByteMemory} {r w : Nat} {xs : List Record}

theorem Layout.straight (h : Layout ok cap d r w xs) (hrw : r ≤ w) : Chain ok d r w xs := by
  rcases h.shape with hs | hw
  · exact hs
  · exact absurd hw.behind (by omega)

theorem Layout.wrapped (h : Layout ok cap d r w xs) (hwr : w < r) :
    ∃ e ys zs, xs = ys ++ zs ∧ Chain ok d r e ys ∧ e ≤ cap ∧ TurnsBack ok d cap e ∧
      Chain ok d 0 w zs := by
  rcases h.shape with hs | hw
  · exact absurd hs.le (by omega)
  · exact hw.parts

theorem Layout.congr (h : Layout ok cap d r w xs) (hd : ∀ i, Occupied r w i → d' i = d i) :
    Layout ok cap d' r w xs := by
  refine ⟨h.read_lt, h.write_lt, h.read_dvd, h.write_dvd, ?_⟩
  unfold Occupied at hd
  rcases Nat.lt_or_ge w r with hwr | hrw
  · simp only [if_neg (Nat.not_le.mpr hwr)] at hd
    obtain ⟨e, ys, zs, hxs, hfront, he, hturn, hback⟩ := h.wrapped hwr
    have hre := hfront.le
    refine .inr ⟨hwr, e, ys, zs, hxs, hfront.congr fun i h₁ h₂ => hd i (.inl h₁), he, ?_,
      hback.congr fun i h₁ h₂ => hd i (.inr h₂)⟩
    rcases hturn with hshort | hmarker
    · exact .inl hshort
    · exact .inr (hmarker.congr fun i h₁ h₂ => hd i (.inl (by omega)))
  · simp only [if_pos hrw] at hd
    exact .inl ((h.straight hrw).congr fun i h₁ h₂ => hd i ⟨h₁, h₂⟩)

/-- A weaker demand on the sequence words. -/
theorem Layout.mono {ok' : UInt32 → Prop} (h : Layout ok cap d r w xs) (hok : ∀ v, ok v → ok' v) :
    Layout ok' cap d r w xs := by
  refine ⟨h.read_lt, h.write_lt, h.read_dvd, h.write_dvd, ?_⟩
  rcases h.shape with hs | ⟨behind, e, ys, zs, hxs, hfront, he, hturn, hback⟩
  · exact .inl (hs.mono hok)
  · refine .inr ⟨behind, e, ys, zs, hxs, hfront.mono hok, he, ?_, hback.mono hok⟩
    rcases hturn with hshort | hmarker
    · exact .inl hshort
    · exact .inr ⟨hmarker.length, hmarker.flags, hok _ hmarker.sequence⟩

/-- Every byte of an unread record is occupied. -/
theorem Layout.occupied (h : Layout ok cap d r w xs) {x : Record} (hx : x ∈ xs) {i : Nat}
    (hlo : x.offset ≤ i) (hhi : i < x.offset + x.size) : Occupied r w i := by
  unfold Occupied
  rcases Nat.lt_or_ge w r with hwr | hrw
  · rw [if_neg (Nat.not_le.mpr hwr)]
    obtain ⟨e, ys, zs, rfl, hfront, _, _, hback⟩ := h.wrapped hwr
    rcases List.mem_append.mp hx with hx | hx
    · have := hfront.mem hx
      omega
    · have := hback.mem hx
      omega
  · rw [if_pos hrw]
    have := (h.straight hrw).mem hx
    omega

theorem Layout.empty {p : Nat} (hp : p < cap) (hdvd : 8 ∣ p) : Layout ok cap d p p [] :=
  ⟨hp, hp, hdvd, hdvd, .inl rfl⟩

/-- A reader that has caught up with the writer has no unread records. -/
theorem Layout.eq_nil (h : Layout ok cap d r r xs) : xs = [] :=
  (h.straight (Nat.le_refl r)).eq_nil

/-- Records that lie one after the other end after all their sizes. -/
theorem Chain.eq_add_sizes {a b : Nat} (h : Chain ok d a b xs) :
    b = a + (xs.map Record.size).sum := by
  induction xs generalizing a with
  | nil => exact h.symm
  | cons x xs ih =>
      rw [List.map_cons, List.sum_cons, ← Nat.add_assoc]
      exact ih h.2

section Computed

variable [DecidablePred ok]

instance (a : Nat) (x : Record) : Decidable (RecordAt ok d a x) :=
  decidable_of_iff (x.offset = a ∧
      (d.load64 (timestampField x.offset) = x.timestamp ∧
        (d.load32 (lengthField x.offset)).toNat = x.words.length ∧
        d.load32 (flagsField x.offset) = flagNone ∧
        d.loadWords (payloadField x.offset) x.words.length = x.words) ∧
      ok (d.load32 (sequenceField a)))
    ⟨fun ⟨hoffset, ⟨htimestamp, hlength, hflags, hpayload⟩, hok⟩ =>
      ⟨hoffset, ⟨htimestamp, hlength, hflags, hpayload⟩, hok⟩,
    fun h => ⟨h.offset, ⟨h.stored.timestamp, h.stored.length, h.stored.flags, h.stored.payload⟩,
      h.sequence⟩⟩

instance decidableChain : (a b : Nat) → (xs : List Record) → Decidable (Chain ok d a b xs)
  | a, b, [] => inferInstanceAs (Decidable (a = b))
  | a, b, x :: xs =>
      have := decidableChain (a + x.size) b xs
      inferInstanceAs (Decidable (RecordAt ok d a x ∧ Chain ok d (a + x.size) b xs))

instance (a : Nat) : Decidable (TurnsBack ok d cap a) :=
  decidable_of_iff (cap - a < 24 ∨ d.load32 (lengthField a) = 0 ∧
      d.load32 (flagsField a) = flagWrap ∧ ok (d.load32 (sequenceField a)))
    (or_congr_right ⟨fun ⟨hlength, hflags, hok⟩ => ⟨hlength, hflags, hok⟩,
      fun h => ⟨h.length, h.flags, h.sequence⟩⟩)

/-- The writer turned back behind the first `n` records. -/
def WrappedAfter (ok : UInt32 → Prop) (cap : Nat) (d : ByteMemory) (r w : Nat) (xs : List Record)
    (n : Nat) : Prop :=
  Chain ok d r (r + ((xs.take n).map Record.size).sum) (xs.take n) ∧
    r + ((xs.take n).map Record.size).sum ≤ cap ∧
    TurnsBack ok d cap (r + ((xs.take n).map Record.size).sum) ∧ Chain ok d 0 w (xs.drop n)

instance (n : Nat) : Decidable (WrappedAfter ok cap d r w xs n) :=
  inferInstanceAs (Decidable (_ ∧ _ ∧ _ ∧ _))

omit [DecidablePred ok] in
theorem wrapped_iff : Wrapped ok cap d r w xs ↔
    w < r ∧ ∃ n ∈ List.range (xs.length + 1), WrappedAfter ok cap d r w xs n := by
  constructor
  · rintro ⟨hbehind, e, ys, zs, rfl, hfront, he, hturn, hback⟩
    have hle : ys.length ≤ (ys ++ zs).length := (List.prefix_append ys zs).length_le
    refine ⟨hbehind, ys.length, List.mem_range.mpr (Nat.lt_succ_of_le hle), ?_⟩
    rw [WrappedAfter, List.take_left, List.drop_left, ← hfront.eq_add_sizes]
    exact ⟨hfront, he, hturn, hback⟩
  · rintro ⟨hbehind, n, _, hfront, he, hturn, hback⟩
    exact ⟨hbehind, _, xs.take n, xs.drop n, (List.take_append_drop n xs).symm, hfront, he, hturn,
      hback⟩

instance : Decidable (Layout ok cap d r w xs) :=
  decidable_of_iff ((r < cap ∧ w < cap ∧ 8 ∣ r ∧ 8 ∣ w) ∧
      (Chain ok d r w xs ∨
        w < r ∧ ∃ n ∈ List.range (xs.length + 1), WrappedAfter ok cap d r w xs n))
    ⟨fun ⟨⟨hr, hw, hreads, hwrites⟩, hshape⟩ =>
      ⟨hr, hw, hreads, hwrites, hshape.imp_right wrapped_iff.mpr⟩,
    fun h => ⟨⟨h.read_lt, h.write_lt, h.read_dvd, h.write_dvd⟩, h.shape.imp_right wrapped_iff.mp⟩⟩

end Computed

/-- Where the writer may put a record of `size` bytes at `w`. -/
def Fits (cap r w size : Nat) : Prop :=
  if w < r then w + size < r else w + size < cap ∨ w + size = cap ∧ 0 < r

/-- Publishing a record that fits adds it at the end, and the writer does not
catch up with the reader. -/
theorem Layout.append (h : Layout ok cap d r w xs) {x : Record} (hx : RecordAt ok d w x)
    (hfit : Fits cap r w x.size) :
    Layout ok cap d r (advance cap (w + x.size)) (xs ++ [x]) ∧
      advance cap (w + x.size) ≠ r := by
  have hsize := x.payload_le_size
  have hr := h.read_lt
  have hdvd : 8 ∣ w + x.size := Nat.dvd_add h.write_dvd x.size_dvd
  unfold Fits at hfit
  rcases Nat.lt_or_ge w r with hwr | hrw
  · rw [if_pos hwr] at hfit
    obtain ⟨e, ys, zs, rfl, hfront, he, hturn, hback⟩ := h.wrapped hwr
    rw [advance, if_neg (by omega)]
    refine ⟨⟨hr, by omega, h.read_dvd, hdvd, .inr ⟨hfit, e, ys, zs ++ [x], ?_, hfront, he, hturn,
      hback.snoc hx⟩⟩, by omega⟩
    rw [List.append_assoc]
  · rw [if_neg (by omega)] at hfit
    have hchain := (h.straight hrw).snoc hx
    rcases hfit with hlt | ⟨heq, hpos⟩
    · rw [advance, if_neg (by omega)]
      exact ⟨⟨hr, hlt, h.read_dvd, hdvd, .inl hchain⟩, by omega⟩
    · rw [advance, if_pos heq]
      refine ⟨⟨hr, by omega, h.read_dvd, Nat.dvd_zero 8, .inr ⟨hpos, cap, xs ++ [x], [], ?_, ?_⟩⟩,
        by omega⟩
      · rw [List.append_nil]
      · exact ⟨heq ▸ hchain, Nat.le_refl cap, .inl (by omega), rfl⟩

/-- The writer turns back to the start without publishing a record. -/
theorem Layout.turnBack (h : Layout ok cap d r w xs) (hrw : r ≤ w) (hpos : 0 < r)
    (hturn : TurnsBack ok d cap w) : Layout ok cap d r 0 xs := by
  have hr := h.read_lt
  refine ⟨hr, by omega, h.read_dvd, Nat.dvd_zero 8, .inr ⟨hpos, w, xs, [], ?_, ?_⟩⟩
  · rw [List.append_nil]
  · exact ⟨h.straight hrw, Nat.le_of_lt h.write_lt, hturn, rfl⟩

/-- What a reader finds at a position that is not the writer's. -/
inductive HeadCase (ok : UInt32 → Prop) (cap : Nat) (d : ByteMemory) (r w : Nat)
    (xs : List Record) : Prop
  | record (x : Record) (rest : List Record) (hxs : xs = x :: rest) (here : RecordAt ok d r x)
      (room : r + x.size ≤ cap) (small : x.size < cap)
      (next : Layout ok cap d (advance cap (r + x.size)) w rest)
      (between : Between r (advance cap (r + x.size)) w)
  | marker (room : 24 ≤ cap - r) (here : Marker ok d r) (behind : w < r)
      (next : Layout ok cap d 0 w xs)
  | tail (short : cap - r < 24) (behind : w < r) (next : Layout ok cap d 0 w xs)

theorem Layout.head (h : Layout ok cap d r w xs) (hne : r ≠ w) :
    HeadCase ok cap d r w xs := by
  have hr := h.read_lt
  rcases Nat.lt_or_ge w r with hwr | hrw
  · obtain ⟨e, ys, zs, rfl, hfront, he, hturn, hback⟩ := h.wrapped hwr
    have hstart : Layout ok cap d 0 w zs :=
      ⟨by omega, h.write_lt, Nat.dvd_zero 8, h.write_dvd, .inl hback⟩
    cases ys with
    | nil =>
        cases hfront
        rcases Nat.lt_or_ge (cap - r) 24 with hshort | hroom
        · exact .tail hshort hwr hstart
        · rcases hturn with hshort | hmarker
          · exact absurd hshort (by omega)
          · exact .marker hroom hmarker hwr hstart
    | cons y ys =>
        obtain ⟨hy, hrest⟩ := hfront
        have hsize := y.payload_le_size
        have hle := hrest.le
        have hdvd : 8 ∣ r + y.size := Nat.dvd_add h.read_dvd y.size_dvd
        refine .record y (ys ++ zs) rfl hy (by omega) (by omega) ?_ ?_
        · by_cases hend : r + y.size = cap
          · obtain rfl : e = cap := by omega
            rw [hend] at hrest
            rw [advance, if_pos hend, hrest.eq_nil]
            exact hstart
          · rw [advance, if_neg hend]
            exact ⟨by omega, h.write_lt, hdvd, h.write_dvd,
              .inr ⟨by omega, e, ys, zs, rfl, hrest, he, hturn, hback⟩⟩
        · unfold Between advance
          rw [if_neg (by omega)]
          split <;> omega
  · have hchain := h.straight hrw
    cases xs with
    | nil => exact absurd hchain hne
    | cons x xs =>
        obtain ⟨hx, hrest⟩ := hchain
        have hle := hrest.le
        have hw := h.write_lt
        have hdvd : 8 ∣ r + x.size := Nat.dvd_add h.read_dvd x.size_dvd
        have hadvance : advance cap (r + x.size) = r + x.size := if_neg (by omega)
        refine .record x xs rfl hx (by omega) (by omega) ?_ ?_
        · rw [hadvance]
          exact ⟨by omega, hw, hdvd, h.write_dvd, .inl hrest⟩
        · unfold Between
          rw [hadvance, if_pos hrw]
          omega

/-- A reader at a wrap marker goes on at the start. -/
theorem Layout.passMarker (h : Layout ok cap d r w xs) (room : 24 ≤ cap - r) (behind : w < r)
    (hmarker : Marker ok d r) : Layout ok cap d 0 w xs := by
  cases h.head (by omega) with
  | record x rest hxs here room small next between =>
      have hflags := here.stored.flags
      rw [here.offset, hmarker.flags] at hflags
      exact absurd hflags (by decide)
  | marker _ _ _ next => exact next
  | tail short _ _ => exact absurd room (by omega)

/-- Where a reader at `r` looks for the next header. -/
def headIndex (cap r : Nat) : Nat := if cap - r < 24 then 0 else r

/-- The first unread record, once the reader looks at it. -/
structure HeadRecord (ok : UInt32 → Prop) (cap : Nat) (d : ByteMemory) (r w : Nat) (x : Record)
    (rest : List Record) : Prop where
  here : RecordAt ok d x.offset x
  room : x.offset + x.size ≤ cap
  small : x.size < cap
  next : Layout ok cap d (advance cap (x.offset + x.size)) w rest
  between : Between r (advance cap (x.offset + x.size)) w

/-- A reader at the start is not behind the writer. -/
theorem Layout.headRecord_zero {x : Record} (h : Layout ok cap d 0 w (x :: xs)) :
    x.offset = 0 ∧ HeadRecord ok cap d 0 w x xs := by
  have hne : 0 ≠ w := by
    rintro rfl
    exact absurd h.eq_nil (by simp)
  cases h.head hne with
  | record y rest hxs here room small next between =>
      cases hxs
      have hoffset := here.offset
      rw [← hoffset] at here room next between
      exact ⟨hoffset, here, room, small, next, hoffset ▸ between⟩
  | marker room here behind next => exact absurd behind (Nat.not_lt_zero w)
  | tail short behind next => exact absurd behind (Nat.not_lt_zero w)

theorem Layout.headRecord {x : Record} (h : Layout ok cap d r w (x :: xs))
    (hpos : x.offset = headIndex cap r) : HeadRecord ok cap d r w x xs := by
  have hne : r ≠ w := by
    rintro rfl
    exact absurd h.eq_nil (by simp)
  have hback : w < r → Layout ok cap d 0 w (x :: xs) → x.offset = 0 ∧
      HeadRecord ok cap d r w x xs := by
    intro behind next
    obtain ⟨hoffset, here, room, small, hnext, between⟩ := next.headRecord_zero
    refine ⟨hoffset, here, room, small, hnext, ?_⟩
    rw [Between, if_pos (Nat.zero_le w)] at between
    rw [Between, if_neg (by omega)]
    exact .inr between.2
  cases h.head hne with
  | record y rest hxs here room small next between =>
      cases hxs
      have hoffset := here.offset
      rw [← hoffset] at here room next
      exact ⟨here, room, small, next, by rwa [hoffset]⟩
  | marker room here behind next =>
      have hzero := (hback behind next).1
      rw [headIndex, if_neg (by omega)] at hpos
      omega
  | tail short behind next => exact (hback behind next).2

/-- The unread records have room in the data area. -/
theorem Layout.length_lt (h : Layout ok cap d r w xs) : 24 * xs.length < cap := by
  have hr := h.read_lt
  have hw := h.write_lt
  cases h.shape with
  | inl straight =>
      have hlength := straight.length_le
      omega
  | inr wrapped =>
      have hbehind := wrapped.behind
      obtain ⟨e, ys, zs, rfl, hys, he, -, hzs⟩ := wrapped.parts
      have hfront := hys.length_le
      have hback := hzs.length_le
      rw [List.length_append]
      omega

/-- An unread record is smaller than the data area. -/
theorem Layout.size_lt {x : Record} (h : Layout ok cap d r w (x :: xs)) : x.size < cap := by
  have hne : r ≠ w := by
    rintro rfl
    exact absurd h.eq_nil (by simp)
  cases h.head hne with
  | record y rest hxs here room small next between =>
      cases hxs
      exact small
  | marker room here behind next => exact next.headRecord_zero.2.small
  | tail short behind next => exact next.headRecord_zero.2.small

end Layouts

section Walks

/-- Going from `r` to the write position by record lengths, wrap markers and the
skip of a tail shorter than a header, one passes these records: the offset and
the payload length of each. -/
inductive Walk (cap : Nat) (d : ByteMemory) (w : Nat) : Nat → List (Nat × Nat) → Prop
  | done : Walk cap d w w []
  | tail {r l} (hne : r ≠ w) (short : cap - r < sizeofEventHeader) (rest : Walk cap d w 0 l) :
      Walk cap d w r l
  | marker {r l} (hne : r ≠ w) (room : sizeofEventHeader ≤ cap - r)
      (flags : d.load32 (flagsField r) &&& flagWrap ≠ 0) (length : d.load32 (lengthField r) = 0)
      (rest : Walk cap d w 0 l) : Walk cap d w r l
  | record {r n l} (hne : r ≠ w) (room : sizeofEventHeader ≤ cap - r)
      (flags : d.load32 (flagsField r) &&& flagWrap = 0)
      (length : (d.load32 (lengthField r)).toNat = n) (fits : r + recordSize n ≤ cap)
      (rest : Walk cap d w (advance cap (r + recordSize n)) l) : Walk cap d w r ((r, n) :: l)

/-- The offset and the payload length of a record. -/
def Record.extent (x : Record) : Nat × Nat := (x.offset, x.words.length)

variable {ok : UInt32 → Prop} {cap : Nat} {d : ByteMemory}

/-- The walk passes exactly the unread records. -/
theorem Layout.walk {r w : Nat} {xs : List Record} (h : Layout ok cap d r w xs) :
    Walk cap d w r (xs.map Record.extent) := by
  -- a step over a record shortens `xs`, a turn back moves the reader behind the writer
  induction hn : 2 * xs.length + (if w < r then 1 else 0) using Nat.strong_induction_on
    generalizing r xs with
  | _ n ih =>
      by_cases hne : r = w
      · subst hne
        rw [h.eq_nil]
        exact .done
      · cases h.head hne with
        | record x rest hxs here room small next between =>
            subst hxs
            obtain ⟨hoffset, hstored, _⟩ := here
            subst hoffset
            have hsize := x.payload_le_size
            refine .record hne (by simp only [sizeofEventHeader]; omega) ?_ hstored.length room ?_
            · rw [hstored.flags]
              decide
            · refine ih _ ?_ next rfl
              simp only [List.length_cons] at hn
              split <;> omega
        | marker room here behind next =>
            refine .marker hne room ?_ here.length (ih _ ?_ next rfl)
            · rw [here.flags]
              decide
            · rw [if_neg (by omega)]
              rw [if_pos behind] at hn
              omega
        | tail short behind next =>
            refine .tail hne short (ih _ ?_ next rfl)
            rw [if_neg (by omega)]
            rw [if_pos behind] at hn
            omega

/-- A walk is determined by the memory and the positions. -/
theorem Walk.unique {w r : Nat} {l l' : List (Nat × Nat)} (h : Walk cap d w r l)
    (h' : Walk cap d w r l') : l = l' := by
  induction h generalizing l' with
  | done =>
      cases h' with
      | done => rfl
      | tail hne => exact absurd rfl hne
      | marker hne => exact absurd rfl hne
      | record hne => exact absurd rfl hne
  | tail hne short rest ih =>
      cases h' with
      | done => exact absurd rfl hne
      | tail _ _ rest' => exact ih rest'
      | marker _ room => omega
      | record _ room => omega
  | marker hne room flags length rest ih =>
      cases h' with
      | done => exact absurd rfl hne
      | tail _ short => omega
      | marker _ _ _ _ rest' => exact ih rest'
      | record _ _ flags' => exact absurd flags' flags
  | record hne room flags length fits rest ih =>
      cases h' with
      | done => exact absurd rfl hne
      | tail _ short => omega
      | marker _ _ flags' => exact absurd flags flags'
      | record _ _ _ length' _ rest' =>
          obtain rfl := length.symm.trans length'
          rw [ih rest']

end Walks

end MidiFramework.SharedRing
