import Mathlib.Logic.Relation

/-!
# Labelled machines and their runs

A machine starts in one of its initial states and moves by labelled steps. A
condition on a state and a label restricts which steps a run may take; the
unrestricted runs are those of the condition that is always true. A run is
followed by one induction here, so an invariant of a machine is a pair of small
goals: it holds initially and every permitted step keeps it.
-/

namespace Foundation

/-- A machine with states `S` and step labels `L`. -/
structure Machine (S L : Type) where
  init : S → Prop
  step : S → L → S → Prop

namespace Machine

variable {S L : Type} (M : Machine S L)

/-- The states reached by runs whose every step meets `cond` on the state
before the step and the step's label. -/
inductive ReachableWith (cond : S → L → Prop) : S → Prop
  | init {s} (h : M.init s) : ReachableWith cond s
  | step {s l s'} (reach : ReachableWith cond s) (meets : cond s l)
      (move : M.step s l s') : ReachableWith cond s'

/-- The states of unrestricted runs. -/
abbrev Reachable : S → Prop := M.ReachableWith fun _ _ => True

variable {M}

/-- An inductive invariant of the permitted steps holds in every state of a
permitted run. The step goal may also use that its source is reached. -/
theorem ReachableWith.invariant {cond : S → L → Prop} (Inv : S → Prop)
    (hinit : ∀ s, M.init s → Inv s)
    (hstep : ∀ s l s', M.ReachableWith cond s → Inv s → cond s l → M.step s l s' → Inv s')
    {s : S} (reach : M.ReachableWith cond s) : Inv s := by
  induction reach with
  | init h => exact hinit _ h
  | step reach meets move ih => exact hstep _ _ _ reach ih meets move

/-- A stronger condition permits fewer runs. -/
theorem ReachableWith.mono {cond cond' : S → L → Prop}
    (himp : ∀ s l, cond s l → cond' s l) {s : S}
    (reach : M.ReachableWith cond s) : M.ReachableWith cond' s := by
  induction reach with
  | init h => exact .init h
  | step _ meets move ih => exact .step ih (himp _ _ meets) move

/-- Every restricted run is an unrestricted one. -/
theorem ReachableWith.reachable {cond : S → L → Prop} {s : S}
    (reach : M.ReachableWith cond s) : M.Reachable s :=
  reach.mono fun _ _ _ => trivial

/-- The machine that starts in a given state. -/
def startingAt (M : Machine S L) (s : S) : Machine S L where
  init := (· = s)
  step := M.step

/-- A permitted run from a state that a permitted run reaches. -/
theorem ReachableWith.append {cond : S → L → Prop} {s t : S} (reach : M.ReachableWith cond s)
    (rest : (M.startingAt s).ReachableWith cond t) : M.ReachableWith cond t := by
  induction rest with
  | init h => exact h.symm ▸ reach
  | step _ meets move ih => exact ih.step meets move

/-- The state after the moves, if each of them can be carried out and every state before it passes
the check. -/
def replay {K : Type} (perform : K → S → Option S) (check : S → Bool) : List K → S → Option S
  | [], s => some s
  | k :: moves, s => if check s then (perform k s).bind (replay perform check moves) else none

/-- A run that was replayed is a permitted one. -/
theorem ReachableWith.replay {K : Type} {perform : K → S → Option S} {check : S → Bool}
    {cond : S → L → Prop} (hperform : ∀ k s t, perform k s = some t → ∃ l, M.step s l t)
    (hcheck : ∀ s l, check s = true → cond s l) {moves : List K} {s t : S}
    (reach : M.ReachableWith cond s) (h : replay perform check moves s = some t) :
    M.ReachableWith cond t := by
  induction moves generalizing s with
  | nil => exact Option.some.inj h ▸ reach
  | cons k moves ih =>
      unfold Machine.replay at h
      split at h
      · next hpass =>
          obtain ⟨u, hu, hrest⟩ := Option.bind_eq_some_iff.mp h
          obtain ⟨l, hstep⟩ := hperform k s u hu
          exact ih (reach.step (hcheck s l hpass) hstep) hrest
      · contradiction

end Machine

end Foundation
