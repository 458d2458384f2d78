import Mathlib.Logic.Function.Basic

/-!
# Resources with declared owners

A table says of every resource whether it is open and which owner it is declared to
have. A call that touches a resource names the owner it expects, and the table counts
the calls that name another one than the declared one, or a resource that is closed.
-/

namespace Foundation

/-- The declared owners of the open resources, and the calls that got one wrong. -/
structure OwnerTable (R O : Type) where
  tag : R → Option (Option O)
  faults : Nat := 0

namespace OwnerTable

variable {R O : Type} [DecidableEq R]

/-- The resource is open and nobody is declared to own it. -/
def Loose (t : OwnerTable R O) (r : R) : Prop := t.tag r = some none

/-- A closed resource is opened, without an owner. -/
def openLoose (t : OwnerTable R O) (r : R) : OwnerTable R O :=
  { t with tag := Function.update t.tag r (some none) }

/-- The owner changes, if it is the expected one. -/
def exchange [DecidableEq O] (t : OwnerTable R O) (r : R) (expected new : Option O) : OwnerTable R O :=
  if t.tag r = some expected then { t with tag := Function.update t.tag r (some new) }
  else { t with faults := t.faults + 1 }

/-- The resource is closed, whoever the owner is. -/
def closeWith [DecidableEq O] (t : OwnerTable R O) (r : R) (expected : Option O) : OwnerTable R O where
  tag := Function.update t.tag r none
  faults := if t.tag r = some expected then t.faults else t.faults + 1

variable {t : OwnerTable R O} {r : R} {expected new : Option O}

theorem tag_openLoose (t : OwnerTable R O) (r x : R) :
    (t.openLoose r).tag x = if x = r then some none else t.tag x := by
  simp only [openLoose, Function.update_apply]

section Calls

variable [DecidableEq O]

theorem tag_exchange (h : t.tag r = some expected) (x : R) :
    (t.exchange r expected new).tag x = if x = r then some new else t.tag x := by
  simp only [exchange, if_pos h, Function.update_apply]

theorem tag_closeWith (t : OwnerTable R O) (r x : R) (expected : Option O) :
    (t.closeWith r expected).tag x = if x = r then none else t.tag x := by
  simp only [closeWith, Function.update_apply]

theorem faults_exchange (h : t.tag r = some expected) :
    (t.exchange r expected new).faults = t.faults := by
  simp only [exchange, if_pos h]

theorem faults_closeWith (h : t.tag r = some expected) :
    (t.closeWith r expected).faults = t.faults := by
  simp only [closeWith, if_pos h]

end Calls

end OwnerTable

end Foundation
