import Mathlib.Algebra.Order.Ring.Nat
import Mathlib.Tactic.Ring

/-!
# Rounding by an offset

A value is divided by a step after half a step was added to it, in a word that
holds `steps` steps. The quotient is a nearest multiple, except where the sum
leaves the word: there it is zero.
-/

namespace Foundation

variable {half steps v w n : Nat}

/-- `v` plus half a step, cut to the word, divided by the step of `2 * half`. -/
def roundedDown (half steps v : Nat) : Nat := (v + half) % (steps * (2 * half)) / (2 * half)

/-- `n` steps are within half a step of `v`. -/
structure Nearest (half v n : Nat) : Prop where
  below : v ≤ n * (2 * half) + half
  above : n * (2 * half) ≤ v + half

/-- `n` is nearest to `v` below the last step, and the last step from there on. -/
structure Saturating (half steps v n : Nat) : Prop where
  nearest : v < (steps - 1) * (2 * half) → Nearest half v n
  last : (steps - 1) * (2 * half) ≤ v → n = steps - 1

theorem roundedDown_of_lt (h : v + half < steps * (2 * half)) :
    roundedDown half steps v = (v + half) / (2 * half) := by
  rw [roundedDown, Nat.mod_eq_of_lt h]

/-- Past the end of the word nothing is left of the value. -/
theorem roundedDown_of_le (hv : v < steps * (2 * half)) (h : steps * (2 * half) ≤ v + half) :
    roundedDown half steps v = 0 := by
  have hpos : 0 < steps := by
    by_contra hzero
    rw [Nat.eq_zero_of_not_pos hzero, Nat.zero_mul] at hv
    exact Nat.not_lt_zero v hv
  have hword : 2 * half ≤ steps * (2 * half) := Nat.le_mul_of_pos_left _ hpos
  have hsum : (v + half) % (steps * (2 * half)) = v + half - steps * (2 * half) := by
    rw [Nat.mod_eq_sub_mod h, Nat.mod_eq_of_lt (by omega)]
  rw [roundedDown, hsum]
  exact Nat.div_eq_of_lt (by omega)

theorem nearest_div (hhalf : 0 < half) (v : Nat) : Nearest half v ((v + half) / (2 * half)) where
  below := by
    have hlt := Nat.lt_div_mul_add (a := v + half) (b := 2 * half) (by omega)
    omega
  above := Nat.div_mul_le_self _ _

/-- The rounded value saturates where the sum stays within the word, and only there. -/
theorem saturating_roundedDown (hhalf : 0 < half) (hsteps : 1 < steps)
    (hv : v < steps * (2 * half)) :
    Saturating half steps v (roundedDown half steps v) ↔ v + half < steps * (2 * half) := by
  have hlast : (steps - 1) * (2 * half) + 2 * half = steps * (2 * half) := by
    calc (steps - 1) * (2 * half) + 2 * half = (steps - 1 + 1) * (2 * half) := by ring
      _ = steps * (2 * half) := by rw [Nat.sub_add_cancel hsteps.le]
  constructor
  · intro h
    by_contra hout
    have hzero := roundedDown_of_le hv (Nat.le_of_not_lt hout)
    have htop := h.last (by omega)
    omega
  · intro hin
    rw [roundedDown_of_lt hin]
    refine ⟨fun _ => nearest_div hhalf v, fun htop => ?_⟩
    apply Nat.div_eq_of_lt_le
    · omega
    · rw [Nat.sub_add_cancel hsteps.le]
      exact hin

/-- Within the word a larger value is not rounded to a smaller one. -/
theorem roundedDown_mono (hvw : v ≤ w) (hw : w + half < steps * (2 * half)) :
    roundedDown half steps v ≤ roundedDown half steps w := by
  rw [roundedDown_of_lt hw, roundedDown_of_lt (by omega)]
  exact Nat.div_le_div_right (by omega)

end Foundation
