import Mathlib.Data.List.AList
import Mathlib.Data.Set.Card
import Mathlib.Algebra.BigOperators.Group.List.Basic

/-!
# Unordered maps and sets

A finite map is a list of entries with distinct keys. The list order is the
order in which a loop over the map meets the entries; nothing but such a loop
depends on it. A rehash changes the order and keeps the entries.
-/

namespace Foundation

/-- A finite map with the order of a loop over it. -/
abbrev UnorderedMap (K V : Type) := AList fun _ : K => V

namespace UnorderedMap

variable {K V W : Type} [DecidableEq K]

theorem lookup_insert_eq (m : UnorderedMap K V) (k k' : K) (v : V) :
    (m.insert k v).lookup k' = if k' = k then some v else m.lookup k' := by
  split
  · next h => rw [h, AList.lookup_insert]
  · next h => rw [AList.lookup_insert_ne h]

theorem lookup_erase_eq (m : UnorderedMap K V) (k k' : K) :
    (m.erase k).lookup k' = if k' = k then none else m.lookup k' := by
  split
  · next h => rw [h, AList.lookup_erase]
  · next h => rw [AList.lookup_erase_ne h]

theorem mem_iff_lookup {m : UnorderedMap K V} {k : K} : k ∈ m ↔ ∃ v, m.lookup k = some v := by
  rw [← AList.lookup_isSome, Option.isSome_iff_exists]

theorem mem_of_lookup {m : UnorderedMap K V} {k : K} {v : V} (h : m.lookup k = some v) : k ∈ m :=
  mem_iff_lookup.mpr ⟨v, h⟩

theorem mem_entries {m : UnorderedMap K V} {e : (_ : K) × V} :
    e ∈ m.entries ↔ m.lookup e.1 = some e.2 :=
  AList.mem_lookup_iff.symm

/-- The value at a key, or `fallback` where there is none. -/
def getD (m : UnorderedMap K V) (k : K) (fallback : V) : V := (m.lookup k).getD fallback

theorem getD_insert (m : UnorderedMap K V) (k k' : K) (v fallback : V) :
    getD (m.insert k v) k' fallback = if k' = k then v else m.getD k' fallback := by
  unfold getD
  rw [lookup_insert_eq]
  split <;> rfl

theorem getD_erase (m : UnorderedMap K V) (k k' : K) (fallback : V) :
    getD (m.erase k) k' fallback =
      if k' = k then fallback else m.getD k' fallback := by
  unfold getD
  rw [lookup_erase_eq]
  split <;> rfl

/-- The map with an entry for a key that has none. -/
def emplace (m : UnorderedMap K V) (k : K) (v : V) : UnorderedMap K V :=
  if k ∈ m then m else m.insert k v

theorem emplace_of_notMem {m : UnorderedMap K V} {k : K} (h : k ∉ m) (v : V) :
    m.emplace k v = m.insert k v :=
  if_neg h

theorem lookup_emplace_of_ne {m : UnorderedMap K V} {k k' : K} (h : k' ≠ k) (v : V) :
    (m.emplace k v).lookup k' = m.lookup k' := by
  unfold emplace
  split
  · rfl
  · exact AList.lookup_insert_ne h

theorem erase_of_notMem {m : UnorderedMap K V} {k : K} (h : k ∉ m) : m.erase k = m :=
  AList.ext (List.kerase_of_notMem_keys h)

theorem mem_emplace {m : UnorderedMap K V} {k k' : K} {v : V} :
    k' ∈ m.emplace k v ↔ k' = k ∨ k' ∈ m := by
  unfold emplace
  split
  · next h =>
      constructor
      · exact Or.inr
      · rintro (rfl | hk)
        · exact h
        · exact hk
  · exact AList.mem_insert m

theorem length_keys_insert_le (m : UnorderedMap K V) (k : K) (v : V) :
    (m.insert k v).keys.length ≤ m.keys.length + 1 := by
  rw [AList.keys_insert, List.length_cons]
  exact Nat.succ_le_succ (List.length_erase_le)

theorem length_keys_erase_le (m : UnorderedMap K V) (k : K) :
    (m.erase k).keys.length ≤ m.keys.length := by
  rw [AList.keys_erase]
  exact List.length_erase_le

omit [DecidableEq K] in
theorem eq_empty_of_isEmpty_keys {m : UnorderedMap K V} (h : m.keys.isEmpty) : m = ∅ := by
  apply AList.ext
  exact List.map_eq_nil_iff.mp (List.isEmpty_iff.mp h)

/-! ### Loops over a map -/

/-- The loop that gives every entry a new value or drops it. -/
def filterMap (f : K → V → Option W) (m : UnorderedMap K V) : UnorderedMap K W where
  entries := m.entries.filterMap fun e => (f e.1 e.2).map fun w => ⟨e.1, w⟩
  nodupKeys := by
    have hkeys : (m.entries.filterMap fun e => (f e.1 e.2).map fun w =>
        (⟨e.1, w⟩ : (_ : K) × W)).keys.Sublist m.entries.keys := by
      induction m.entries with
      | nil => simp
      | cons e es ih =>
          rw [List.filterMap_cons, List.keys_cons]
          cases f e.1 e.2 with
          | none => exact ih.cons _
          | some w => exact ih.cons_cons _
    exact List.Nodup.sublist hkeys m.nodupKeys

theorem lookup_filterMap (f : K → V → Option W) (m : UnorderedMap K V) (k : K) :
    (m.filterMap f).lookup k = (m.lookup k).bind (f k) := by
  ext w
  rw [← Option.mem_def, AList.mem_lookup_iff]
  constructor
  · intro h
    obtain ⟨e, he, hw⟩ := List.mem_filterMap.mp h
    obtain ⟨w', hf, hw'⟩ := Option.map_eq_some_iff.mp hw
    obtain ⟨rfl, rfl⟩ := Sigma.mk.inj_iff.mp hw'
    rw [mem_entries.mp he]
    exact hf
  · intro h
    obtain ⟨v, hv, hf⟩ := Option.bind_eq_some_iff.mp h
    apply List.mem_filterMap.mpr
    exact ⟨⟨k, v⟩, mem_entries.mpr hv, by simp [hf]⟩

/-- The loop that erases the first entry it meets with the property. -/
def eraseFirst (p : K → V → Bool) (m : UnorderedMap K V) : UnorderedMap K V :=
  match m.entries.find? fun e => p e.1 e.2 with
  | some e => m.erase e.1
  | none => m

/-- Only entries with the property are erased. -/
theorem lookup_eraseFirst {p : K → V → Bool} {m : UnorderedMap K V} {k : K} {v : V}
    (h : (m.eraseFirst p).lookup k = some v) : m.lookup k = some v := by
  unfold eraseFirst at h
  split at h
  · rw [lookup_erase_eq] at h
    split at h
    · contradiction
    · exact h
  · exact h

/-- An entry without the property stays. -/
theorem lookup_eraseFirst_of_not {p : K → V → Bool} {m : UnorderedMap K V} {k : K} {v : V}
    (hp : p k v = false) : (m.eraseFirst p).lookup k = some v ↔ m.lookup k = some v := by
  refine ⟨lookup_eraseFirst, fun h => ?_⟩
  unfold eraseFirst
  split
  · next e he =>
      have hpe : p e.1 e.2 = true := by simpa using List.find?_some he
      have hlookup : m.lookup e.1 = some e.2 := mem_entries.mp (List.mem_of_find?_eq_some he)
      have hk : k ≠ e.1 := by
        rintro rfl
        obtain rfl := Option.some.inj (h.symm.trans hlookup)
        rw [hp] at hpe
        contradiction
      rw [lookup_erase_eq, if_neg hk]
      exact h
  · exact h

/-! ### Sums over a map -/

/-- The sum of the weights of all entries. -/
def total (w : K → V → Nat) (m : UnorderedMap K V) : Nat :=
  (m.entries.map fun e => w e.1 e.2).sum

omit [DecidableEq K] in
@[simp] theorem total_empty (w : K → V → Nat) : total w (∅ : UnorderedMap K V) = 0 := rfl

theorem total_congr {w w' : K → V → Nat} {m : UnorderedMap K V}
    (h : ∀ k v, m.lookup k = some v → w k v = w' k v) : total w m = total w' m := by
  apply congrArg List.sum
  apply List.map_congr_left
  intro e he
  exact h e.1 e.2 (mem_entries.mp he)

private theorem total_kerase (w : K → V → Nat) (k : K) :
    ∀ es : List ((_ : K) × V),
      ((es.kerase k).map fun e => w e.1 e.2).sum + ((es.dlookup k).elim 0 (w k)) =
        (es.map fun e => w e.1 e.2).sum
  | [] => by simp
  | ⟨a, v⟩ :: es => by
      by_cases h : k = a
      · subst h
        have hkerase : List.kerase k (⟨k, v⟩ :: es) = es := List.kerase_cons_eq rfl
        rw [List.dlookup_cons_eq, hkerase]
        simp [add_comm]
      · rw [List.kerase_cons_ne h, List.dlookup_cons_ne _ _ h]
        have ih := total_kerase w k es
        simp only [List.map_cons, List.sum_cons]
        omega

/-- Erasing a key takes its weight out of the sum. -/
theorem total_erase (w : K → V → Nat) (m : UnorderedMap K V) (k : K) :
    total w (m.erase k) + (m.lookup k).elim 0 (w k) = total w m :=
  total_kerase w k m.entries

/-- A new value at a key replaces the weight of the old one. -/
theorem total_insert (w : K → V → Nat) (m : UnorderedMap K V) (k : K) (v : V) :
    total w (m.insert k v) + (m.lookup k).elim 0 (w k) = total w m + w k v := by
  have herase := total_erase w m k
  have hinsert : total w (m.insert k v) = w k v + total w (m.erase k) := by
    rw [total, AList.entries_insert, List.map_cons, List.sum_cons]
    rfl
  omega

omit [DecidableEq K] in
/-- A loop that does not make the weight of any entry larger does not make the sum larger. -/
theorem total_filterMap_le {f : K → V → Option W} {w : K → V → Nat} {w' : K → W → Nat}
    (h : ∀ k v x, f k v = some x → w' k x ≤ w k v) (m : UnorderedMap K V) :
    total w' (m.filterMap f) ≤ total w m := by
  unfold total filterMap
  dsimp only
  induction m.entries with
  | nil => exact le_rfl
  | cons e es ih =>
      rw [List.filterMap_cons, List.map_cons, List.sum_cons]
      cases hf : f e.1 e.2 with
      | none => exact ih.trans (Nat.le_add_left _ _)
      | some x =>
          rw [Option.map_some, List.map_cons, List.sum_cons]
          exact Nat.add_le_add (h e.1 e.2 x hf) ih

/-! ### Rehashing -/

/-- The same entries in another order. -/
def Rehash (m m' : UnorderedMap K V) : Prop := m.entries.Perm m'.entries

theorem Rehash.lookup {m m' : UnorderedMap K V} (h : Rehash m m') (k : K) :
    m'.lookup k = m.lookup k :=
  (AList.perm_lookup h).symm

omit [DecidableEq K] in
theorem Rehash.total {m m' : UnorderedMap K V} (h : Rehash m m') (w : K → V → Nat) :
    m'.total w = m.total w :=
  ((List.Perm.map (fun e : (_ : K) × V => w e.1 e.2) h).sum_eq).symm

end UnorderedMap

/-- A finite set with the order of a loop over it. -/
abbrev UnorderedSet (K : Type) := UnorderedMap K Unit

namespace UnorderedSet

variable {K : Type} [DecidableEq K]

/-- The set with one more element. -/
def add (s : UnorderedSet K) (k : K) : UnorderedSet K := AList.insert k () s

@[simp] theorem mem_add {s : UnorderedSet K} {k k' : K} : k' ∈ s.add k ↔ k' = k ∨ k' ∈ s :=
  AList.mem_insert s

/-- The set with all elements of a list. -/
def addAll (s : UnorderedSet K) (ks : List K) : UnorderedSet K := ks.foldl add s

@[simp] theorem mem_addAll {s : UnorderedSet K} {ks : List K} {k : K} :
    k ∈ s.addAll ks ↔ k ∈ ks ∨ k ∈ s := by
  unfold addAll
  induction ks generalizing s with
  | nil => simp
  | cons a ks ih =>
      rw [List.foldl_cons, ih, mem_add, List.mem_cons]
      tauto

/-- The number of elements. -/
def size (s : UnorderedSet K) : Nat := s.keys.length

omit [DecidableEq K] in
theorem size_eq_one {s : UnorderedSet K} {k : K} (h : k ∈ s) : s.size = 1 ↔ ∀ x ∈ s, x = k := by
  have hk := AList.mem_keys.mp h
  constructor
  · intro hsize x hx
    obtain ⟨a, ha⟩ := List.length_eq_one_iff.mp hsize
    have hx' := AList.mem_keys.mp hx
    rw [ha] at hk hx'
    exact (List.mem_singleton.mp hx').trans (List.mem_singleton.mp hk).symm
  · intro hall
    have hreplicate : s.keys = List.replicate s.keys.length k :=
      List.eq_replicate_of_mem fun x hx => hall x (AList.mem_keys.mpr hx)
    have hnodup : s.keys.Nodup := s.nodupKeys
    rw [hreplicate] at hnodup
    have hle : s.keys.length ≤ 1 := List.nodup_replicate.mp hnodup
    exact Nat.le_antisymm hle (List.length_pos_of_mem hk)

theorem encard_mem (s : UnorderedSet K) : {k | k ∈ s}.encard = s.size := by
  have hset : {k | k ∈ s} = (s.keys.toFinset : Set K) := by
    ext k
    simp [AList.mem_keys]
  have hnodup : s.keys.Nodup := s.nodupKeys
  rw [hset, Set.encard_coe_eq_coe_finsetCard, List.toFinset_card_of_nodup hnodup]
  rfl

theorem isEmpty_erase (s : UnorderedSet K) (k : K) :
    (s.erase k).keys.isEmpty ↔ ∀ x ∈ s, x = k := by
  rw [List.isEmpty_iff, List.eq_nil_iff_forall_not_mem]
  constructor
  · intro hnone x hx
    by_contra hne
    exact hnone x (AList.mem_keys.mp (AList.mem_erase.mpr ⟨hne, hx⟩))
  · intro hall x hx
    obtain ⟨hne, hmem⟩ := AList.mem_erase.mp (AList.mem_keys.mpr hx)
    exact hne (hall x hmem)

end UnorderedSet

end Foundation
