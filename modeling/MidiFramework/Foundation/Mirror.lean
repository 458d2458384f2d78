import Mathlib.Data.Set.Card
import Mathlib.Data.Set.Insert

/-!
# A relation kept from both ends

Two tables hold one relation between members and resources: each member has
the set of resources it opened, and each kept resource the set of its users.
The tables are consistent when both tell the same, no kept resource is
without users, and only registered members appear.
-/

namespace Foundation

/-- The two tables, with the registered members and those that have a record. -/
@[ext] structure Mirror (A B : Type) where
  live : Set A
  recorded : Set A
  opens : A → Set B
  kept : Set B
  users : B → Set A

namespace Mirror

variable {A B : Type} {m : Mirror A B}

structure Consistent (m : Mirror A B) : Prop where
  mirrored : ∀ a b, b ∈ m.opens a ↔ b ∈ m.kept ∧ a ∈ m.users b
  inhabited : ∀ b ∈ m.kept, ∃ a, a ∈ m.users b
  registered : ∀ b ∈ m.kept, ∀ a ∈ m.users b, a ∈ m.live
  recorded : ∀ a, a ∈ m.recorded ↔ a ∈ m.live

/-- A member registers. -/
def enrol (a : A) (m : Mirror A B) : Mirror A B :=
  { m with
    live := {x | x = a ∨ x ∈ m.live}
    recorded := {x | x = a ∨ x ∈ m.recorded} }

/-- Members open a resource. -/
def attach (as : Set A) (b : B) (m : Mirror A B) : Mirror A B where
  live := m.live
  recorded := {x | x ∈ as ∨ x ∈ m.recorded}
  opens := fun x => {y | x ∈ as ∧ y = b ∨ y ∈ m.opens x}
  kept := {y | y = b ∨ y ∈ m.kept}
  users := fun y => {x | x ∈ as ∧ y = b ∨ y ∈ m.kept ∧ x ∈ m.users y}

/-- A member is taken out of the users of some resources, and a resource that loses its last
user is no longer kept. -/
def leave (a : A) (bs : Set B) (m : Mirror A B) : Mirror A B :=
  { m with
    kept := {y | y ∈ m.kept ∧ (y ∈ bs → ∃ x ∈ m.users y, x ≠ a)}
    users := fun y => {x | x ∈ m.users y ∧ ¬(x = a ∧ y ∈ bs)} }

/-- A resource is taken out of what a member opened. -/
def forget (a : A) (b : B) (m : Mirror A B) : Mirror A B :=
  { m with
    recorded := {x | x = a ∨ x ∈ m.recorded}
    opens := fun x => {y | y ∈ m.opens x ∧ ¬(x = a ∧ y = b)} }

/-- A resource goes away for all its users. -/
def drop (b : B) (m : Mirror A B) : Mirror A B :=
  { m with
    opens := fun x => {y | y ∈ m.opens x ∧ ¬(y = b ∧ b ∈ m.kept ∧ x ∈ m.users b)}
    kept := {y | y ∈ m.kept ∧ y ≠ b}
    users := fun y => {x | x ∈ m.users y ∧ y ≠ b} }

/-- A member and its record go away. -/
def dismiss (a : A) (m : Mirror A B) : Mirror A B :=
  { m with
    live := {x | x ∈ m.live ∧ x ≠ a}
    recorded := {x | x ∈ m.recorded ∧ x ≠ a}
    opens := fun x => {y | y ∈ m.opens x ∧ x ≠ a} }

theorem leave_leave (a : A) (bs cs : Set B) :
    (m.leave a bs).leave a cs = m.leave a {b | b ∈ bs ∨ b ∈ cs} := by
  ext x y
  · rfl
  · rfl
  · rfl
  · simp only [leave, Set.mem_ofPred_eq]
    constructor
    · rintro ⟨⟨hx, hbs⟩, hcs⟩
      refine ⟨hx, ?_⟩
      rintro (hb | hc)
      · exact hbs hb
      · obtain ⟨z, hz, hza⟩ := hcs hc
        exact ⟨z, hz.1, hza⟩
    · rintro ⟨hx, hboth⟩
      refine ⟨⟨hx, fun hb => hboth (Or.inl hb)⟩, fun hc => ?_⟩
      obtain ⟨z, hz, hza⟩ := hboth (Or.inr hc)
      exact ⟨z, ⟨hz, fun hc => hza hc.1⟩, hza⟩
  · simp only [leave, Set.mem_ofPred_eq]
    grind

theorem Consistent.enrol (h : Consistent m) (a : A) : Consistent (m.enrol a) where
  mirrored := h.mirrored
  inhabited := h.inhabited
  registered := fun b hb x hx => Or.inr (h.registered b hb x hx)
  recorded := fun x => or_congr_right (h.recorded x)

theorem Consistent.attach (h : Consistent m) {as : Set A} (b : B) (hne : as.Nonempty)
    (hlive : ∀ a ∈ as, a ∈ m.live) : Consistent (m.attach as b) := by
  constructor
  · intro x y
    have hmirrored := h.mirrored x y
    simp only [Mirror.attach, Set.mem_ofPred_eq]
    grind
  · intro y hy
    rcases hy with rfl | hy
    · obtain ⟨a, ha⟩ := hne
      exact ⟨a, Or.inl ⟨ha, rfl⟩⟩
    · obtain ⟨a, ha⟩ := h.inhabited y hy
      exact ⟨a, Or.inr ⟨hy, ha⟩⟩
  · intro y _ x hx
    rcases hx with ⟨hx, _⟩ | ⟨hy, hx⟩
    · exact hlive x hx
    · exact h.registered y hy x hx
  · intro x
    have hrecorded := h.recorded x
    have hlive := hlive x
    simp only [Mirror.attach, Set.mem_ofPred_eq]
    grind

theorem Consistent.drop (h : Consistent m) (b : B) : Consistent (m.drop b) := by
  constructor
  · intro x y
    have hmirrored := h.mirrored x y
    simp only [Mirror.drop, Set.mem_ofPred_eq]
    constructor
    · intro hy
      have hkept := hmirrored.mp hy.1
      have hne : y ≠ b := by
        rintro rfl
        exact hy.2 ⟨rfl, hkept⟩
      exact ⟨⟨hkept.1, hne⟩, hkept.2, hne⟩
    · intro hy
      exact ⟨hmirrored.mpr ⟨hy.1.1, hy.2.1⟩, fun hb => hy.1.2 hb.1⟩
  · intro y hy
    obtain ⟨x, hx⟩ := h.inhabited y hy.1
    exact ⟨x, hx, hy.2⟩
  · intro y hy x hx
    exact h.registered y hy.1 x hx.1
  · exact h.recorded

/-- A member closes a resource: it leaves the users and forgets the resource. -/
theorem Consistent.detach (h : Consistent m) {a : A} (b : B) (ha : a ∈ m.live) :
    Consistent ((m.forget a b).leave a {b}) := by
  constructor
  · intro x y
    have hmirrored := h.mirrored x y
    simp only [forget, leave, Set.mem_ofPred_eq, Set.mem_singleton_iff]
    constructor
    · intro hy
      have hkept := hmirrored.mp hy.1
      refine ⟨⟨hkept.1, ?_⟩, hkept.2, hy.2⟩
      rintro rfl
      exact ⟨x, hkept.2, fun hx => hy.2 ⟨hx, rfl⟩⟩
    · intro hy
      exact ⟨hmirrored.mpr ⟨hy.1.1, hy.2.1⟩, hy.2.2⟩
  · intro y hy
    obtain ⟨x, hx⟩ := h.inhabited y hy.1
    by_cases hyb : y ∈ ({b} : Set B)
    · obtain ⟨z, hz, hza⟩ := hy.2 hyb
      exact ⟨z, hz, fun hc => hza hc.1⟩
    · exact ⟨x, hx, fun hc => hyb hc.2⟩
  · intro y hy x hx
    exact h.registered y hy.1 x hx.1
  · intro x
    have hrecorded := h.recorded x
    simp only [forget, leave, Set.mem_ofPred_eq]
    constructor
    · rintro (rfl | hx)
      · exact ha
      · exact hrecorded.mp hx
    · exact fun hx => Or.inr (hrecorded.mpr hx)

/-- A member that leaves every resource it uses can be dismissed. -/
theorem Consistent.dismiss (h : Consistent m) {a : A} {bs : Set B}
    (hbs : ∀ b, b ∈ m.kept → a ∈ m.users b → b ∈ bs) :
    Consistent ((m.leave a bs).dismiss a) := by
  constructor
  · intro x y
    have hmirrored := h.mirrored x y
    simp only [leave, Mirror.dismiss, Set.mem_ofPred_eq]
    constructor
    · intro hy
      have hkept := hmirrored.mp hy.1
      exact ⟨⟨hkept.1, fun _ => ⟨x, hkept.2, hy.2⟩⟩, hkept.2, fun hc => hy.2 hc.1⟩
    · intro hy
      refine ⟨hmirrored.mpr ⟨hy.1.1, hy.2.1⟩, ?_⟩
      rintro rfl
      exact hy.2.2 ⟨rfl, hbs y hy.1.1 hy.2.1⟩
  · intro y hy
    obtain ⟨x, hx⟩ := h.inhabited y hy.1
    by_cases hyb : y ∈ bs
    · obtain ⟨z, hz, hza⟩ := hy.2 hyb
      exact ⟨z, hz, fun hc => hza hc.1⟩
    · exact ⟨x, hx, fun hc => hyb hc.2⟩
  · intro y hy x hx
    refine ⟨h.registered y hy.1 x hx.1, ?_⟩
    rintro rfl
    exact hx.2 ⟨rfl, hbs y hy.1 hx.1⟩
  · intro x
    exact and_congr_left fun _ => h.recorded x

/-! ### Moves -/

/-- The moves of a relation whose members are dismissed only after they have left everything.
`opened` says which members may open which resource together. -/
inductive Move (opened : Set A → B → Prop) (m : Mirror A B) : Mirror A B → Prop
  | keep : Move opened m m
  | enrol (a : A) : Move opened m (m.enrol a)
  | attach {as : Set A} {b : B} (h : opened as b) : Move opened m (m.attach as b)
  | detach {a : A} (b : B) (h : a ∈ m.live) : Move opened m ((m.forget a b).leave a {b})
  | drop (b : B) : Move opened m (m.drop b)
  | dismiss (a : A) : Move opened m ((m.leave a {b | a ∈ m.users b}).dismiss a)

theorem Consistent.move {opened : Set A → B → Prop} {m' : Mirror A B} (h : Consistent m)
    (hopened : ∀ as b, opened as b → as.Nonempty ∧ ∀ a ∈ as, a ∈ m.live)
    (move : Move opened m m') : Consistent m' := by
  cases move with
  | keep => exact h
  | enrol a => exact h.enrol a
  | @attach as b hattach =>
      obtain ⟨hne, hlive⟩ := hopened as b hattach
      exact h.attach b hne hlive
  | detach b hlive => exact h.detach b hlive
  | drop b => exact h.drop b
  | dismiss a => exact h.dismiss fun _ _ hb => hb

/-! ### Bounds on what a member opens -/

/-- No member has more than `n` resources open. -/
def Within (n : ℕ∞) (m : Mirror A B) : Prop := ∀ a, (m.opens a).encard ≤ n

theorem Within.mono {m' : Mirror A B} {n : ℕ∞} (h : Within n m)
    (hsub : ∀ a, m'.opens a ⊆ m.opens a) : Within n m' :=
  fun a => (Set.encard_le_encard (hsub a)).trans (h a)

theorem opens_attach (as : Set A) (b : B) {a : A} (ha : a ∈ as) :
    (m.attach as b).opens a = insert b (m.opens a) := by
  ext y
  simp [Mirror.attach, ha]

/-- Opening a resource keeps the bound exactly when those that do not have it yet are below the
bound. -/
theorem within_attach (as : Set A) (b : B) {n : ℕ} (h : Within n m) :
    Within n (m.attach as b) ↔ ∀ a ∈ as, b ∈ m.opens a ∨ (m.opens a).encard < n := by
  constructor
  · intro hattach a ha
    by_cases hb : b ∈ m.opens a
    · exact Or.inl hb
    · right
      have hbound := hattach a
      rw [opens_attach as b ha, Set.encard_insert_of_notMem hb] at hbound
      have hfinite := ne_top_of_le_ne_top (ENat.natCast_ne_top n) (le_self_add.trans hbound)
      exact (ENat.add_one_le_iff hfinite).mp hbound
  · intro hroom a
    by_cases ha : a ∈ as
    · rw [opens_attach as b ha]
      rcases hroom a ha with hb | hlt
      · rw [Set.insert_eq_of_mem hb]
        exact h a
      · exact (Set.encard_insert_le _ _).trans (Order.add_one_le_of_lt hlt)
    · have hopens : (m.attach as b).opens a = m.opens a := by
        ext y
        simp [Mirror.attach, ha]
      rw [hopens]
      exact h a

/-- Only opening a resource can break the bound. -/
theorem Within.move {opened : Set A → B → Prop} {m' : Mirror A B} {n : ℕ} (h : Within n m)
    (hopened : ∀ as b, opened as b → ∀ a ∈ as, b ∈ m.opens a ∨ (m.opens a).encard < n)
    (move : Move opened m m') : Within n m' := by
  cases move with
  | keep => exact h
  | enrol a => exact h
  | @attach as b hattach => exact (within_attach as b h).mpr (hopened as b hattach)
  | detach b _ =>
      apply h.mono
      exact fun _ _ hy => hy.1
  | drop b =>
      apply h.mono
      exact fun _ _ hy => hy.1
  | dismiss a =>
      apply h.mono
      exact fun _ _ hy => hy.1

end Mirror

end Foundation
