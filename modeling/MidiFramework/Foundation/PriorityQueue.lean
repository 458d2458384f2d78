import Mathlib.Algebra.GroupWithZero.Nat
import Mathlib.Data.Multiset.AddSub
import Mathlib.Data.Multiset.MapFold
import Mathlib.Order.Basic

/-!
# Priority queues and runs over several of them

A priority queue shows one of its elements with the least key and takes that
element out. Nothing is said about which of several elements with the least key
it is. A drain takes elements out of a list of queues, each time one that no
queue has an element before; its elements come in the order of their keys.
-/

namespace Foundation

/-- A priority queue with the least key first. -/
structure PriorityQueue (α : Type) {κ : Type} [LinearOrder κ] (key : α → κ) : Type 1 where
  Queue : Type
  empty : Queue
  top : Queue → Option α
  push : Queue → α → Queue
  pop : Queue → Queue
  elements : Queue → Multiset α
  elements_empty : elements empty = 0
  elements_push : ∀ q a, elements (push q a) = a ::ₘ elements q
  elements_of_top_none : ∀ q, top q = none → elements q = 0
  elements_of_top : ∀ q a, top q = some a → elements q = a ::ₘ elements (pop q)
  key_top_le : ∀ q a, top q = some a → ∀ b ∈ elements q, key a ≤ key b

namespace PriorityQueue

variable {α κ : Type} [LinearOrder κ] {key : α → κ} (Q : PriorityQueue α key)

/-- The elements of the queue at place `i`. -/
def held (qs : List Q.Queue) (i : Nat) : Multiset α := (qs[i]?.map Q.elements).getD 0

/-- The number of elements in all queues. -/
def total (qs : List Q.Queue) : Nat := (qs.map fun q => (Q.elements q).card).sum

/-- Each of the listed elements, with the place of its queue, was taken while no queue had an
element before it; `qs'` are the queues afterwards. -/
inductive Drains : List Q.Queue → List (Nat × α) → List Q.Queue → Prop
  | nil (qs) : Drains qs [] qs
  | cons {qs i q a taken qs'} (found : qs[i]? = some q) (top : Q.top q = some a)
      (least : ∀ p ∈ qs, ∀ b ∈ Q.elements p, key a ≤ key b)
      (rest : Drains (qs.set i (Q.pop q)) taken qs') : Drains qs ((i, a) :: taken) qs'

/-- What was taken from the queue at place `i`. -/
def takenFrom (taken : List (Nat × α)) (i : Nat) : Multiset α :=
  ((taken.filter fun x => x.1 = i).map Prod.snd : List α)

variable {Q} {qs qs' : List Q.Queue} {i : Nat} {q : Q.Queue} {a b : α} {taken : List (Nat × α)}

theorem mem_elements_of_top (htop : Q.top q = some a) : a ∈ Q.elements q := by
  rw [Q.elements_of_top q a htop]
  exact Multiset.mem_cons_self a _

theorem elements_pop_subset (htop : Q.top q = some a) (hb : b ∈ Q.elements (Q.pop q)) :
    b ∈ Q.elements q := by
  rw [Q.elements_of_top q a htop]
  exact Multiset.mem_cons_of_mem hb

theorem held_eq (hfound : qs[i]? = some q) : Q.held qs i = Q.elements q := by
  rw [held, hfound]
  rfl

/-- An element of the queues after a pop was in them before. -/
theorem mem_of_mem_set (hfound : qs[i]? = some q) (htop : Q.top q = some a) {p : Q.Queue}
    (hp : p ∈ qs.set i (Q.pop q)) (hb : b ∈ Q.elements p) : ∃ p ∈ qs, b ∈ Q.elements p := by
  cases List.mem_or_eq_of_mem_set hp with
  | inl hmem => exact ⟨p, hmem, hb⟩
  | inr heq =>
      subst heq
      exact ⟨q, List.mem_of_getElem? hfound, elements_pop_subset htop hb⟩

theorem held_set (hfound : qs[i]? = some q) (htop : Q.top q = some a) (j : Nat) :
    Q.held qs j = (if i = j then {a} else 0) + Q.held (qs.set i (Q.pop q)) j := by
  have hlt : i < qs.length := (List.getElem?_eq_some_iff.mp hfound).1
  by_cases hij : i = j
  · subst hij
    rw [if_pos rfl, held_eq hfound, held_eq (List.getElem?_set_self hlt),
      Q.elements_of_top q a htop, Multiset.singleton_add]
  · rw [if_neg hij, Multiset.zero_add, held, held, List.getElem?_set_ne hij]

theorem takenFrom_cons (i j : Nat) (a : α) (taken : List (Nat × α)) :
    takenFrom ((i, a) :: taken) j = (if i = j then {a} else 0) + takenFrom taken j := by
  by_cases hij : i = j
  · rw [if_pos hij, takenFrom, List.filter_cons_of_pos (by simpa using hij)]
    rfl
  · rw [if_neg hij, Multiset.zero_add, takenFrom, List.filter_cons_of_neg (by simpa using hij)]
    rfl

theorem total_set (hfound : qs[i]? = some q) (htop : Q.top q = some a) :
    Q.total qs = Q.total (qs.set i (Q.pop q)) + 1 := by
  induction qs generalizing i with
  | nil => cases hfound
  | cons p qs ih =>
      cases i with
      | zero =>
          obtain rfl : p = q := Option.some.inj hfound
          have hcard := congrArg Multiset.card (Q.elements_of_top p a htop)
          rw [Multiset.card_cons] at hcard
          simp only [total, List.set_cons_zero, List.map_cons, List.sum_cons, hcard]
          omega
      | succ i =>
          have hrest := ih hfound
          simp only [total, List.set_cons_succ, List.map_cons, List.sum_cons] at hrest ⊢
          omega

theorem elements_eq_zero_of_total (h : Q.total qs = 0) : ∀ p ∈ qs, Q.elements p = 0 := by
  intro p hp
  have hall := List.sum_eq_zero_iff_forall_eq_nat.mp h
  exact Multiset.card_eq_zero.mp (hall _ (List.mem_map.mpr ⟨p, hp, rfl⟩))

namespace Drains

/-- What a drain takes was in one of the queues. -/
theorem mem (h : Q.Drains qs taken qs') {x : Nat × α} (hx : x ∈ taken) :
    ∃ p ∈ qs, x.2 ∈ Q.elements p := by
  induction h with
  | nil => cases hx
  | cons found top least rest ih =>
      cases hx with
      | head => exact ⟨_, List.mem_of_getElem? found, mem_elements_of_top top⟩
      | tail _ hx =>
          obtain ⟨p, hp, hb⟩ := ih hx
          exact mem_of_mem_set found top hp hb

/-- A drain takes the elements in the order of their keys. -/
theorem sorted (h : Q.Drains qs taken qs') :
    taken.Pairwise fun x y => key x.2 ≤ key y.2 := by
  induction h with
  | nil => exact List.Pairwise.nil
  | cons found top least rest ih =>
      refine List.Pairwise.cons (fun y hy => ?_) ih
      obtain ⟨p, hp, hb⟩ := rest.mem hy
      obtain ⟨p', hp', hb'⟩ := mem_of_mem_set found top hp hb
      exact least p' hp' _ hb'

/-- What was in a queue was taken from it or is still there. -/
theorem held_eq (h : Q.Drains qs taken qs') (j : Nat) :
    Q.held qs j = takenFrom taken j + Q.held qs' j := by
  induction h with
  | nil => exact (Multiset.zero_add _).symm
  | cons found top least rest ih => rw [held_set found top, takenFrom_cons, ih,
      Multiset.add_assoc]

theorem length_eq (h : Q.Drains qs taken qs') : qs'.length = qs.length := by
  induction h with
  | nil => rfl
  | cons found top least rest ih => rw [ih, List.length_set]

end Drains

end PriorityQueue

end Foundation
