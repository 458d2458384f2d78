import Mathlib.Data.List.DropRight

/-!
# The second of two marked elements

A pass over a list that looks one element ahead and passes over the first of two
marked elements in a row. Where the list may be cut follows from the length of
the run of marked elements before the cut.
-/

namespace Foundation

section Seconds

variable {α : Type*} (mark : α → Prop) [DecidablePred mark]

/-- Of two marked elements in a row only the second one is kept. -/
def seconds : List α → List α
  | [] => []
  | [a] => [a]
  | a :: b :: rest =>
      if mark a ∧ mark b then b :: seconds rest else a :: seconds (b :: rest)

/-- Whether the last element is marked and no partner of an element before it. -/
def Unpaired : List α → Prop
  | [] => False
  | [a] => mark a
  | a :: b :: rest => if mark a ∧ mark b then Unpaired rest else Unpaired (b :: rest)

/-- How many marked elements stand at the end. -/
def trailing (xs : List α) : Nat := (xs.rtakeWhile fun a => mark a).length

/-- How many marked elements stand at the beginning. -/
def leading (xs : List α) : Nat := (xs.takeWhile fun a => mark a).length

variable {mark} {xs ys : List α} {a b : α}

theorem leading_eq_zero : leading mark ys = 0 ↔ ∀ y ∈ ys.head?, ¬mark y := by
  cases ys with
  | nil => simp [leading]
  | cons y ys => by_cases hy : mark y <;> simp [leading, hy]

theorem leading_cons_of_mark (h : mark a) : leading mark (a :: ys) = leading mark ys + 1 := by
  simp [leading, h]

theorem exists_cons_of_leading {n : Nat} (h : leading mark ys = n + 1) :
    ∃ y rest, ys = y :: rest ∧ mark y ∧ leading mark rest = n := by
  cases ys with
  | nil => simp [leading] at h
  | cons y rest =>
      by_cases hy : mark y
      · rw [leading_cons_of_mark hy] at h
        exact ⟨y, rest, rfl, hy, Nat.succ.inj h⟩
      · rw [leading_eq_zero.mpr (by simpa using hy)] at h
        omega

theorem trailing_of_forall (h : ∀ x ∈ xs, mark x) : trailing mark xs = xs.length := by
  have hself : xs.rtakeWhile (fun a => mark a) = xs :=
    List.rtakeWhile_eq_self_iff.mpr fun x hx => decide_eq_true (h x hx)
  exact congrArg List.length hself

theorem leading_of_forall (h : ∀ x ∈ xs, mark x) : leading mark xs = xs.length := by
  have hself : xs.takeWhile (fun a => mark a) = xs :=
    List.takeWhile_eq_self_iff.mpr fun x hx => decide_eq_true (h x hx)
  exact congrArg List.length hself

/-- An element before others is counted only if they are all marked. -/
theorem trailing_cons_of_exists (h : ∃ x ∈ xs, ¬mark x) :
    trailing mark (a :: xs) = trailing mark xs := by
  obtain ⟨x, hx, hmark⟩ := h
  have hshort : (xs.reverse.takeWhile fun a => mark a).length ≠ xs.reverse.length := by
    intro hlen
    have hself := (List.takeWhile_prefix _).eq_of_length hlen
    have hall := List.takeWhile_eq_self_iff.mp hself x (List.mem_reverse.mpr hx)
    exact hmark (of_decide_eq_true hall)
  rw [trailing, trailing, List.rtakeWhile, List.rtakeWhile, List.reverse_cons,
    List.takeWhile_append, if_neg hshort]

theorem trailing_cons_of_not_mark (h : ¬mark a) : trailing mark (a :: xs) = trailing mark xs := by
  by_cases hall : ∀ x ∈ xs, mark x
  · have hself : xs.reverse.takeWhile (fun a => mark a) = xs.reverse :=
      List.takeWhile_eq_self_iff.mpr fun x hx => decide_eq_true (hall x (List.mem_reverse.mp hx))
    rw [trailing, trailing, List.rtakeWhile, List.rtakeWhile, List.reverse_cons,
      List.takeWhile_append, hself, if_pos rfl, List.takeWhile_cons_of_neg (by simpa using h),
      List.append_nil]
  · exact trailing_cons_of_exists (by simpa using hall)

/-- The last element has no partner if the run that it ends has odd length. -/
theorem unpaired_iff : Unpaired mark xs ↔ trailing mark xs % 2 = 1 := by
  induction xs using Unpaired.induct mark with
  | case1 => simp [Unpaired, trailing]
  | case2 a =>
      by_cases ha : mark a
      · exact iff_of_true ha (congrArg (· % 2) (trailing_of_forall (by simpa using ha)))
      · refine iff_of_false ha ?_
        rw [trailing_cons_of_not_mark ha]
        exact Nat.zero_ne_one
  | case3 a b rest hab ih =>
      rw [Unpaired, if_pos hab, ih]
      by_cases hall : ∀ x ∈ rest, mark x
      · have hrun : ∀ x ∈ a :: b :: rest, mark x := by
          simp only [List.forall_mem_cons]
          exact ⟨hab.1, hab.2, hall⟩
        rw [trailing_of_forall hall, trailing_of_forall hrun, List.length_cons, List.length_cons]
        omega
      · have hex : ∃ x ∈ rest, ¬mark x := by simpa using hall
        have hex' : ∃ x ∈ b :: rest, ¬mark x := by
          obtain ⟨x, hx, hmark⟩ := hex
          exact ⟨x, List.mem_cons_of_mem b hx, hmark⟩
        rw [trailing_cons_of_exists hex', trailing_cons_of_exists hex]
  | case4 a b rest hab ih =>
      rw [Unpaired, if_neg hab, ih]
      by_cases ha : mark a
      · have hex : ∃ x ∈ b :: rest, ¬mark x := ⟨b, List.mem_cons_self, fun hb => hab ⟨ha, hb⟩⟩
        rw [trailing_cons_of_exists hex]
      · rw [trailing_cons_of_not_mark ha]

theorem seconds_cons_of_not_mark (h : ¬mark a) : seconds mark (a :: ys) = a :: seconds mark ys := by
  cases ys with
  | nil => rfl
  | cons b rest => rw [seconds, if_neg fun hab => h hab.1]

theorem seconds_cons_of_leading (h : leading mark ys = 0) :
    seconds mark (a :: ys) = a :: seconds mark ys := by
  cases ys with
  | nil => rfl
  | cons b rest => rw [seconds, if_neg fun hab => leading_eq_zero.mp h b rfl hab.2]

theorem seconds_pair (ha : mark a) (hb : mark b) :
    seconds mark (a :: b :: ys) = b :: seconds mark ys := by
  rw [seconds, if_pos ⟨ha, hb⟩]

/-- A list may be cut where no pair is. -/
theorem seconds_append (h : Unpaired mark xs → leading mark ys = 0) :
    seconds mark (xs ++ ys) = seconds mark xs ++ seconds mark ys := by
  induction xs using seconds.induct mark with
  | case1 => rfl
  | case2 a =>
      by_cases ha : mark a
      · exact seconds_cons_of_leading (h ha)
      · exact seconds_cons_of_not_mark ha
  | case3 a b rest hab ih =>
      rw [Unpaired, if_pos hab] at h
      rw [List.cons_append, List.cons_append, seconds_pair hab.1 hab.2, seconds_pair hab.1 hab.2,
        ih h, List.cons_append]
  | case4 a b rest hab ih =>
      rw [Unpaired, if_neg hab] at h
      rw [List.cons_append, List.cons_append, seconds, if_neg hab, seconds, if_neg hab,
        ← List.cons_append, ih h, List.cons_append]

/-- Where a pair is cut, its first element is kept before the cut, and not kept without it. -/
theorem seconds_append_pair (h : Unpaired mark xs) :
    ∃ kept b, seconds mark xs = kept ++ [b] ∧ mark b ∧ ∀ y rest, mark y →
      seconds mark (xs ++ y :: rest) = kept ++ y :: seconds mark rest := by
  induction xs using seconds.induct mark with
  | case1 => exact h.elim
  | case2 a => exact ⟨[], a, rfl, h, fun y rest hy => seconds_pair h hy⟩
  | case3 a b rest hab ih =>
      rw [Unpaired, if_pos hab] at h
      obtain ⟨kept, c, hkept, hc, hcut⟩ := ih h
      refine ⟨b :: kept, c, ?_, hc, ?_⟩
      · rw [seconds_pair hab.1 hab.2, hkept, List.cons_append]
      · intro y later hy
        rw [List.cons_append, List.cons_append, seconds_pair hab.1 hab.2, hcut y later hy,
          List.cons_append]
  | case4 a b rest hab ih =>
      rw [Unpaired, if_neg hab] at h
      obtain ⟨kept, c, hkept, hc, hcut⟩ := ih h
      refine ⟨a :: kept, c, ?_, hc, ?_⟩
      · rw [seconds, if_neg hab, hkept, List.cons_append]
      · intro y later hy
        rw [List.cons_append, List.cons_append, seconds, if_neg hab, ← List.cons_append,
          hcut y later hy, List.cons_append]

theorem seconds_subset : seconds mark xs ⊆ xs := by
  induction xs using seconds.induct mark with
  | case1 => exact List.Subset.refl []
  | case2 a => exact List.Subset.refl [a]
  | case3 a b rest hab ih =>
      rw [seconds_pair hab.1 hab.2]
      exact List.subset_cons_of_subset a (List.cons_subset_cons b ih)
  | case4 a b rest hab ih =>
      rw [seconds, if_neg hab]
      exact List.cons_subset_cons a ih

end Seconds

end Foundation
