import Mathlib.Data.Multiset.Range
import Mathlib.Logic.Equiv.Basic
import MidiFramework.Foundation.PriorityQueue

/-!
# The binary heap

The elements stand at the places of a complete binary tree, with the parent of
place `i` at `(i - 1) / 2`. A push appends an element and swaps it up while it is
before its parent. A pop puts the last element at the root, swaps it with the
lesser child down to a leaf, whatever its key is, and from there up again like a
pushed one; of two equal children the right one goes up. Every such heap is a
priority queue.
-/

namespace Foundation

namespace BinaryHeap

variable {α κ : Type} [LinearOrder κ]

def parent (i : Nat) : Nat := (i - 1) / 2

/-- Exchange the elements at two places. -/
def swap (f : Nat → α) (i j : Nat) : Nat → α := fun k =>
  if k = i then f j else if k = j then f i else f k

/-- Move the element at place `i` up; `fuel` is at least the depth of the place. -/
def siftUp (key : α → κ) : (fuel : Nat) → (Nat → α) → Nat → (Nat → α)
  | 0, f, _ => f
  | fuel + 1, f, i =>
      if i = 0 then f
      else if key (f i) < key (f (parent i)) then siftUp key fuel (swap f i (parent i)) (parent i)
      else f

/-- The child of place `i` that is not after the other one. -/
def leastChild (key : α → κ) (n : Nat) (f : Nat → α) (i : Nat) : Nat :=
  if 2 * i + 2 < n ∧ key (f (2 * i + 2)) ≤ key (f (2 * i + 1)) then 2 * i + 2 else 2 * i + 1

/-- Move the element at place `i` down to a leaf of a heap of `n` elements, and say which one. -/
def sink (key : α → κ) (n : Nat) : (fuel : Nat) → (Nat → α) → Nat → (Nat → α) × Nat
  | 0, f, i => (f, i)
  | fuel + 1, f, i =>
      if 2 * i + 1 < n then
        let child := leastChild key n f i
        sink key n fuel (swap f i child) child
      else (f, i)

/-- Put the element at the root where it belongs: down to a leaf, and up from there. -/
def settle (key : α → κ) (n : Nat) (f : Nat → α) : Nat → α :=
  let sunk := sink key n n f 0
  siftUp key n sunk.1 sunk.2

/-- No element is before its parent. -/
def Ordered (key : α → κ) (n : Nat) (f : Nat → α) : Prop :=
  ∀ i, 0 < i → i < n → key (f (parent i)) ≤ key (f i)

def elementsOf (n : Nat) (f : Nat → α) : Multiset α := (Multiset.range n).map f

section Swap

variable {key : α → κ} {n i j k : Nat} {f : Nat → α}

theorem swap_eq_comp (f : Nat → α) (i j : Nat) : swap f i j = f ∘ Equiv.swap i j := by
  funext k
  simp only [swap, Function.comp_apply, Equiv.swap_apply_def]
  split
  · rfl
  split <;> rfl

theorem swap_other (hi : k ≠ i) (hj : k ≠ j) : swap f i j k = f k := by
  rw [swap, if_neg hi, if_neg hj]

@[simp] theorem swap_left : swap f i j i = f j := if_pos rfl

@[simp] theorem swap_right : swap f i j j = f i := by
  unfold swap
  split
  · next h => rw [h]
  · exact if_pos rfl

theorem elementsOf_swap (hi : i < n) (hj : j < n) :
    elementsOf n (swap f i j) = elementsOf n f := by
  have hrange : (Multiset.range n).map (Equiv.swap i j) = Multiset.range n := by
    refine (Multiset.Nodup.ext ?_ (Multiset.nodup_range n)).mpr fun k => ?_
    · exact (Multiset.nodup_range n).map (Equiv.swap i j).injective
    · simp only [Multiset.mem_map, Multiset.mem_range]
      constructor
      · rintro ⟨m, hm, rfl⟩
        rw [Equiv.swap_apply_def]
        split
        · exact hj
        split
        · exact hi
        · exact hm
      · intro hk
        refine ⟨Equiv.swap i j k, ?_, Equiv.swap_apply_self i j k⟩
        rw [Equiv.swap_apply_def]
        split
        · exact hj
        split
        · exact hi
        · exact hk
  rw [elementsOf, elementsOf, swap_eq_comp, ← Multiset.map_map, hrange]

theorem elementsOf_succ (n : Nat) (f : Nat → α) :
    elementsOf (n + 1) f = f n ::ₘ elementsOf n f := by
  rw [elementsOf, Multiset.range_succ, Multiset.map_cons, elementsOf]

theorem parent_lt (hi : 0 < i) : parent i < i := by
  unfold parent
  omega

/-- The root is not after any other element. -/
theorem Ordered.root_le (h : Ordered key n f) (hi : i < n) : key (f 0) ≤ key (f i) := by
  induction i using Nat.strongRecOn with
  | ind i ih =>
      by_cases hzero : i = 0
      · rw [hzero]
      have hlt := parent_lt (Nat.pos_of_ne_zero hzero)
      exact (ih (parent i) hlt (by omega)).trans (h i (Nat.pos_of_ne_zero hzero) hi)

end Swap

section SiftUp

variable {key : α → κ} {n i : Nat} {f : Nat → α}

/-- Only the element at place `i` may be before its parent. -/
structure UpOrder (key : α → κ) (n : Nat) (f : Nat → α) (i : Nat) : Prop where
  other : ∀ j, 0 < j → j < n → j ≠ i → key (f (parent j)) ≤ key (f j)
  children : ∀ j, 0 < j → j < n → parent j = i → 0 < i → key (f (parent i)) ≤ key (f j)

theorem UpOrder.swap (h : UpOrder key n f i) (hpos : 0 < i)
    (hlt : key (f i) < key (f (parent i))) :
    UpOrder key n (swap f i (parent i)) (parent i) := by
  have hparent := parent_lt hpos
  constructor
  · intro j hj hjn hne
    by_cases hji : j = i
    · rw [hji, swap_left, swap_right]
      exact hlt.le
    rw [swap_other hji hne]
    by_cases hchild : parent j = i
    · rw [hchild, swap_left]
      exact h.children j hj hjn hchild hpos
    by_cases hsibling : parent j = parent i
    · rw [hsibling, swap_right]
      exact hlt.le.trans (hsibling ▸ h.other j hj hjn hji)
    · rw [swap_other hchild hsibling]
      exact h.other j hj hjn hji
  · intro j hj hjn hsibling hpos'
    have hgrand := parent_lt hpos'
    rw [swap_other (by omega) (by omega)]
    have habove : key (f (parent (parent i))) ≤ key (f (parent i)) := by
      by_cases hn : parent i < n
      · exact h.other (parent i) hpos' hn (by omega)
      · have := parent_lt hj
        omega
    by_cases hji : j = i
    · rw [hji, swap_left]
      exact habove
    · have hjp := parent_lt hj
      rw [swap_other hji (by omega)]
      exact habove.trans (hsibling ▸ h.other j hj hjn hji)

theorem siftUp_ordered (fuel : Nat) (hfuel : i ≤ fuel) (h : UpOrder key n f i) :
    Ordered key n (siftUp key fuel f i) := by
  induction fuel generalizing f i with
  | zero =>
      intro j hj hjn
      exact h.other j hj hjn (by omega)
  | succ fuel ih =>
      unfold siftUp
      split
      · next hzero => exact fun j hj hjn => h.other j hj hjn (by omega)
      next hpos =>
        have hparent := parent_lt (Nat.pos_of_ne_zero hpos)
        split
        · next hlt => exact ih (by omega) (h.swap (Nat.pos_of_ne_zero hpos) hlt)
        · next hle =>
            intro j hj hjn
            by_cases hji : j = i
            · exact hji ▸ not_lt.mp hle
            · exact h.other j hj hjn hji

theorem elementsOf_siftUp (fuel : Nat) (hi : i < n) :
    elementsOf n (siftUp key fuel f i) = elementsOf n f := by
  induction fuel generalizing f i with
  | zero => rfl
  | succ fuel ih =>
      unfold siftUp
      split
      · rfl
      next hpos =>
        have hparent := parent_lt (Nat.pos_of_ne_zero hpos)
        split
        · rw [ih (by omega), elementsOf_swap hi (by omega)]
        · rfl

end SiftUp

section Sink

variable {key : α → κ} {n i : Nat} {f : Nat → α}

/-- Only the element at place `i` may be out of order, and without it the others are in order. -/
structure HoleOrder (key : α → κ) (n : Nat) (f : Nat → α) (i : Nat) : Prop where
  other : ∀ j, 0 < j → j < n → j ≠ i → parent j ≠ i → key (f (parent j)) ≤ key (f j)
  children : ∀ j, 0 < j → j < n → parent j = i → 0 < i → key (f (parent i)) ≤ key (f j)

theorem leastChild_spec (key : α → κ) (f : Nat → α) (hleft : 2 * i + 1 < n) :
    leastChild key n f i < n ∧ 0 < leastChild key n f i ∧ parent (leastChild key n f i) = i ∧
      ∀ j, 0 < j → j < n → parent j = i → key (f (leastChild key n f i)) ≤ key (f j) := by
  have hchild : ∀ j, 0 < j → parent j = i → j = 2 * i + 1 ∨ j = 2 * i + 2 := by
    intro j hj hp
    unfold parent at hp
    omega
  unfold leastChild
  split
  · next h =>
      refine ⟨h.1, by omega, by unfold parent; omega, fun j hj hjn hp => ?_⟩
      cases hchild j hj hp with
      | inl heq => exact heq ▸ h.2
      | inr heq => rw [heq]
  · next h =>
      refine ⟨hleft, by omega, by unfold parent; omega, fun j hj hjn hp => ?_⟩
      cases hchild j hj hp with
      | inl heq => rw [heq]
      | inr heq =>
          subst heq
          exact le_of_not_ge fun hle => h ⟨hjn, hle⟩

theorem HoleOrder.swap {c : Nat} (h : HoleOrder key n f i) (hc : 0 < c) (hcn : c < n)
    (hparent : parent c = i)
    (hleast : ∀ j, 0 < j → j < n → parent j = i → key (f c) ≤ key (f j)) :
    HoleOrder key n (swap f i c) c := by
  have hic : i < c := hparent ▸ parent_lt hc
  constructor
  · intro j hj hjn hjc hne
    have hjp := parent_lt hj
    by_cases hji : j = i
    · -- the child that went up against the parent of its new place
      subst hji
      rw [swap_left, swap_other (by omega) (by omega)]
      exact h.children c hc hcn hparent hj
    by_cases hpi : parent j = i
    · rw [hpi, swap_left, swap_other hji hjc]
      exact hleast j hj hjn hpi
    · rw [swap_other hpi hne, swap_other hji hjc]
      exact h.other j hj hjn hji hpi
  · intro j hj hjn hpc _
    have hjp := parent_lt hj
    rw [hparent, swap_left, swap_other (by omega) (by omega)]
    exact hpc ▸ h.other j hj hjn (by omega) (by omega)

/-- At a leaf the element can only be before its parent. -/
theorem HoleOrder.leaf (h : HoleOrder key n f i) (hleaf : n ≤ 2 * i + 1) : UpOrder key n f i := by
  have hno : ∀ j, 0 < j → j < n → parent j ≠ i := by
    intro j hj hjn hp
    unfold parent at hp
    omega
  exact ⟨fun j hj hjn hne => h.other j hj hjn hne (hno j hj hjn),
    fun j hj hjn hp _ => absurd hp (hno j hj hjn)⟩

theorem sink_upOrder (fuel : Nat) (hfuel : n ≤ fuel + i) (h : HoleOrder key n f i) :
    UpOrder key n (sink key n fuel f i).1 (sink key n fuel f i).2 := by
  induction fuel generalizing f i with
  | zero => exact h.leaf (by omega)
  | succ fuel ih =>
      unfold sink
      split
      · next hleft =>
          obtain ⟨hcn, hc, hparent, hleast⟩ := leastChild_spec key f hleft
          have hlt := parent_lt hc
          exact ih (by omega) (h.swap hc hcn hparent hleast)
      · next hleaf => exact h.leaf (Nat.le_of_not_lt hleaf)

/-- The leaf is a place of the heap, and no element is lost on the way. -/
theorem sink_spec (fuel : Nat) (hi : i < n) :
    (sink key n fuel f i).2 < n ∧ elementsOf n (sink key n fuel f i).1 = elementsOf n f := by
  induction fuel generalizing f i with
  | zero => exact ⟨hi, rfl⟩
  | succ fuel ih =>
      unfold sink
      split
      · next hleft =>
          obtain ⟨hcn, _, _, _⟩ := leastChild_spec key f hleft
          obtain ⟨hlt, helements⟩ := ih (f := BinaryHeap.swap f i (leastChild key n f i)) hcn
          exact ⟨hlt, helements.trans (elementsOf_swap hi hcn)⟩
      · exact ⟨hi, rfl⟩

theorem settle_ordered (h : HoleOrder key n f 0) : Ordered key n (settle key n f) := by
  rcases Nat.eq_zero_or_pos n with rfl | hpos
  · exact fun j _ hj => absurd hj (Nat.not_lt_zero j)
  · exact siftUp_ordered n (sink_spec n hpos).1.le (sink_upOrder n le_rfl h)

theorem elementsOf_settle (n : Nat) (f : Nat → α) :
    elementsOf n (settle key n f) = elementsOf n f := by
  rcases Nat.eq_zero_or_pos n with rfl | hpos
  · rfl
  · obtain ⟨hlt, helements⟩ : (sink key n n f 0).2 < n ∧
        elementsOf n (sink key n n f 0).1 = elementsOf n f := sink_spec n hpos
    exact (elementsOf_siftUp n hlt).trans helements

end Sink

end BinaryHeap

open BinaryHeap in
/-- The elements of the heap are those at the places below `count`. -/
structure BinaryHeap (α : Type) {κ : Type} [LinearOrder κ] (key : α → κ) where
  count : Nat
  entries : Nat → α
  ordered : Ordered key count entries

namespace BinaryHeap

variable {α κ : Type} [LinearOrder κ] {key : α → κ}

def empty [Inhabited α] : BinaryHeap α key where
  count := 0
  entries _ := default
  ordered _ _ hi := absurd hi (Nat.not_lt_zero _)

def elements (q : BinaryHeap α key) : Multiset α := elementsOf q.count q.entries

def top (q : BinaryHeap α key) : Option α := if q.count = 0 then none else some (q.entries 0)

/-- The entries with one more behind the last. -/
def appended (q : BinaryHeap α key) (a : α) : Nat → α :=
  fun i => if i = q.count then a else q.entries i

theorem appended_other {q : BinaryHeap α key} {a : α} {i : Nat} (hi : i ≠ q.count) :
    q.appended a i = q.entries i := if_neg hi

theorem appended_order (q : BinaryHeap α key) (a : α) :
    UpOrder key (q.count + 1) (q.appended a) q.count where
  other j hj hjn hne := by
    have hp := parent_lt hj
    rw [appended_other hne, appended_other (by omega)]
    exact q.ordered j hj (by omega)
  children j hj hjn hp _ := by
    have hlt := parent_lt hj
    omega

def push (q : BinaryHeap α key) (a : α) : BinaryHeap α key where
  count := q.count + 1
  entries := siftUp key q.count (q.appended a) q.count
  ordered := siftUp_ordered q.count le_rfl (q.appended_order a)

theorem elements_push (q : BinaryHeap α key) (a : α) :
    (q.push a).elements = a ::ₘ q.elements := by
  have hlast : q.appended a q.count = a := if_pos rfl
  have hrest : elementsOf q.count (q.appended a) = q.elements :=
    Multiset.map_congr rfl fun i hi => appended_other (Multiset.mem_range.mp hi).ne
  calc (q.push a).elements
      = elementsOf (q.count + 1) (q.appended a) := elementsOf_siftUp q.count (Nat.lt_succ_self _)
    _ = q.appended a q.count ::ₘ elementsOf q.count (q.appended a) := elementsOf_succ _ _
    _ = a ::ₘ q.elements := by rw [hlast, hrest]

/-- The last element at the root, and the old root behind the others. -/
def lastFirst (q : BinaryHeap α key) : Nat → α := swap q.entries 0 (q.count - 1)

theorem lastFirst_order (q : BinaryHeap α key) :
    HoleOrder key (q.count - 1) q.lastFirst 0 where
  other j hj hjn _ hp := by
    have hlt := parent_lt hj
    have hchild : q.lastFirst j = q.entries j := swap_other (by omega) (by omega)
    have hparent : q.lastFirst (parent j) = q.entries (parent j) := swap_other hp (by omega)
    rw [hchild, hparent]
    exact q.ordered j hj (by omega)
  children _ _ _ _ h := absurd h (Nat.lt_irrefl 0)

def pop (q : BinaryHeap α key) : BinaryHeap α key where
  count := q.count - 1
  entries := settle key (q.count - 1) q.lastFirst
  ordered := settle_ordered q.lastFirst_order

theorem elements_of_top (q : BinaryHeap α key) (a : α) (h : q.top = some a) :
    q.elements = a ::ₘ q.pop.elements := by
  unfold top at h
  split at h
  · cases h
  next hcount =>
    obtain rfl : q.entries 0 = a := Option.some.inj h
    obtain ⟨n, hn⟩ := Nat.exists_eq_succ_of_ne_zero hcount
    have hlast : q.lastFirst n = q.entries 0 := by
      rw [lastFirst, hn, Nat.succ_sub_one, swap_right]
    have hpop : q.pop.elements = elementsOf (q.count - 1) q.lastFirst := elementsOf_settle _ _
    calc q.elements
        = elementsOf (n + 1) q.entries := by rw [elements, hn]
      _ = elementsOf (n + 1) q.lastFirst := by
          rw [lastFirst, hn, Nat.succ_sub_one, elementsOf_swap (by omega) (by omega)]
      _ = q.entries 0 ::ₘ elementsOf n q.lastFirst := by rw [elementsOf_succ, hlast]
      _ = q.entries 0 ::ₘ q.pop.elements := by rw [hpop, hn, Nat.succ_sub_one]

end BinaryHeap

/-- The binary heap as a priority queue. -/
def binaryHeap (α : Type) [Inhabited α] {κ : Type} [LinearOrder κ] (key : α → κ) :
    PriorityQueue α key where
  Queue := BinaryHeap α key
  empty := BinaryHeap.empty
  top := BinaryHeap.top
  push := BinaryHeap.push
  pop := BinaryHeap.pop
  elements := BinaryHeap.elements
  elements_empty := rfl
  elements_push := BinaryHeap.elements_push
  elements_of_top_none q h := by
    have hcount : q.count = 0 := by
      by_contra hne
      rw [BinaryHeap.top, if_neg hne] at h
      cases h
    rw [BinaryHeap.elements, hcount]
    rfl
  elements_of_top := BinaryHeap.elements_of_top
  key_top_le q a h b hb := by
    unfold BinaryHeap.top at h
    split at h
    · cases h
    obtain rfl : q.entries 0 = a := Option.some.inj h
    change b ∈ (Multiset.range q.count).map q.entries at hb
    obtain ⟨i, hi, rfl⟩ := Multiset.mem_map.mp hb
    exact q.ordered.root_le (Multiset.mem_range.mp hi)

end Foundation
