import MidiFramework.Foundation.Transition

/-!
# Steps that run out

Some steps of a machine belong to one party. In a region that no step leaves, what is
left to do goes down by one with each step of that party and goes up with no step of
anybody. Then the party takes no more steps there than it had left to do, whatever the
others do in between.
-/

namespace Foundation

namespace Machine

variable {S L : Type}

/-- A run from a state, with its labels in their order. -/
inductive Run (M : Machine S L) (s : S) : List L → S → Prop
  | nil : Run M s [] s
  | snoc {labels : List L} {t u : S} {l : L} (run : Run M s labels t) (move : M.step t l u) :
      Run M s (labels ++ [l]) u

/-- In the region the party with the steps `own` has only so much left to do, as long as all steps
are permitted ones. -/
structure Countdown (M : Machine S L) (permitted : L → Prop) (region : S → Prop) (own : L → Bool)
    (left : S → Nat) : Prop where
  stays : ∀ s l t, permitted l → region s → M.step s l t → region t
  lowers : ∀ s l t, permitted l → region s → M.step s l t → own l = true → left t < left s
  keeps : ∀ s l t, permitted l → region s → M.step s l t → own l = false → left t ≤ left s

variable {M : Machine S L} {permitted : L → Prop} {region : S → Prop} {own : L → Bool}
  {left : S → Nat}

theorem Countdown.run (h : Countdown M permitted region own left) {s t : S} {labels : List L}
    (hs : region s) (run : M.Run s labels t) (hall : ∀ l ∈ labels, permitted l) :
    region t ∧ left t + labels.countP own ≤ left s := by
  induction run with
  | nil => exact ⟨hs, by simp⟩
  | @snoc labels t u l run move ih =>
      have hl : permitted l := hall l (List.mem_append_right _ (List.mem_singleton_self l))
      obtain ⟨ht, hcount⟩ := ih fun l' hl' => hall l' (List.mem_append_left _ hl')
      refine ⟨h.stays t l u hl ht move, ?_⟩
      rw [List.countP_append, List.countP_singleton]
      cases hown : own l with
      | true =>
          have hlower := h.lowers t l u hl ht move hown
          simp only [if_true]
          omega
      | false =>
          have hkeep := h.keeps t l u hl ht move hown
          simp only [Bool.false_eq_true, if_false]
          omega

theorem Run.reachable {s t : S} {labels : List L} (hs : M.Reachable s) (run : M.Run s labels t) :
    M.Reachable t := by
  induction run with
  | nil => exact hs
  | snoc run move ih => exact ih.step trivial move

end Machine

end Foundation
