import MidiFramework.Foundation.Transition
import Mathlib.Logic.Function.Basic
import Mathlib.Logic.Relation

/-!
# Mutexes taken in an order

What threads do is reduced here to the mutexes they take, each for a scope. Where the
mutexes have ranks and every scope stands only inside scopes of lower rank, a thread that
is waited for waits, if at all, for a mutex of a higher rank than the one it is waited for.
So no thread waits for itself, not even through others, and some thread can always go on.

## Implementation notes

Which branch is taken, how often a loop runs and which of several objects is meant is left
open, so the code has all runs of the program and more.
-/

namespace Foundation

/-- What code does with mutexes. -/
inductive LockCode (M : Type)
  | skip
  | seq (a b : LockCode M)
  | either (a b : LockCode M)
  /-- Something with one of many objects. -/
  | oneOf (a : Nat → LockCode M)
  | loop (a : LockCode M)
  /-- A call of code that is not known, which may call back until it returns. -/
  | outside
  | within (m : M) (a : LockCode M)

namespace LockCode

variable {M : Type}

/-- Code that is reached on some paths only. -/
def maybe (a : LockCode M) : LockCode M := either skip a

/-- A mutex that is taken and released. -/
def touch (m : M) : LockCode M := within m skip

def block (l : List (LockCode M)) : LockCode M := l.foldr seq skip

/-- The mutexes of the code have ranks from `floor` on and, one inside the other, greater and
greater ones. Code outside is called where it may call back what needs the ranks from `entry` on. -/
def Ascends (rank : M → Nat) (entry : Nat) : LockCode M → Nat → Prop
  | skip, _ => True
  | seq a b, floor => a.Ascends rank entry floor ∧ b.Ascends rank entry floor
  | either a b, floor => a.Ascends rank entry floor ∧ b.Ascends rank entry floor
  | oneOf a, floor => ∀ n, (a n).Ascends rank entry floor
  | loop a, floor => a.Ascends rank entry floor
  | outside, floor => floor ≤ entry
  | within m a, floor => floor ≤ rank m ∧ a.Ascends rank entry (rank m + 1)

variable {rank : M → Nat} {entry : Nat}

theorem Ascends.mono {a : LockCode M} {low high : Nat} (h : a.Ascends rank entry high)
    (hle : low ≤ high) : a.Ascends rank entry low := by
  induction a with
  | skip => trivial
  | seq a b iha ihb => exact ⟨iha h.1, ihb h.2⟩
  | either a b iha ihb => exact ⟨iha h.1, ihb h.2⟩
  | oneOf a ih => exact fun n => ih n (h n)
  | loop a ih => exact ih h
  | outside => exact Nat.le_trans hle h
  | within m a ih => exact ⟨Nat.le_trans hle h.1, h.2⟩

@[simp] theorem ascends_maybe {a : LockCode M} {floor : Nat} :
    a.maybe.Ascends rank entry floor ↔ a.Ascends rank entry floor := by
  simp [maybe, Ascends]

@[simp] theorem ascends_touch {m : M} {floor : Nat} :
    (touch m).Ascends rank entry floor ↔ floor ≤ rank m := by
  simp [touch, Ascends]

@[simp] theorem ascends_block_nil {floor : Nat} :
    (block ([] : List (LockCode M))).Ascends rank entry floor ↔ True := Iff.rfl

@[simp] theorem ascends_block_cons {a : LockCode M} {l : List (LockCode M)} {floor : Nat} :
    (block (a :: l)).Ascends rank entry floor ↔
      a.Ascends rank entry floor ∧ (block l).Ascends rank entry floor := Iff.rfl

end LockCode

/-- What a thread has still to do: run code, or leave a scope. -/
inductive Frame (M : Type)
  | run (a : LockCode M)
  | unlock (m : M)

namespace Frame

variable {M : Type}

/-- The thread is in a scope of the mutex. -/
def Holds (k : List (Frame M)) (m : M) : Prop := .unlock m ∈ k

/-- The thread is about to take the mutex. -/
def Wants (k : List (Frame M)) (m : M) : Prop := ∃ a rest, k = .run (.within m a) :: rest

/-- A step of a thread, when `free` are the mutexes that nobody holds and `called` is what code
outside calls. -/
inductive Turns (free : M → Prop) (called : LockCode M → Prop) :
    List (Frame M) → List (Frame M) → Prop
  | skip {k} : Turns free called (.run .skip :: k) k
  | seq {a b k} : Turns free called (.run (.seq a b) :: k) (.run a :: .run b :: k)
  | left {a b k} : Turns free called (.run (.either a b) :: k) (.run a :: k)
  | right {a b k} : Turns free called (.run (.either a b) :: k) (.run b :: k)
  | oneOf {a k} (n : Nat) : Turns free called (.run (.oneOf a) :: k) (.run (a n) :: k)
  | again {a k} : Turns free called (.run (.loop a) :: k) (.run a :: .run (.loop a) :: k)
  | leave {a k} : Turns free called (.run (.loop a) :: k) k
  | called {a k} (h : called a) :
      Turns free called (.run .outside :: k) (.run a :: .run .outside :: k)
  | returned {k} : Turns free called (.run .outside :: k) k
  | lock {m a k} (h : free m) :
      Turns free called (.run (.within m a) :: k) (.run a :: .unlock m :: k)
  | unlock {m k} : Turns free called (.unlock m :: k) k

/-- The lowest rank that may be taken next. -/
def floor (rank : M → Nat) : List (Frame M) → Nat
  | [] => 0
  | .run _ :: k => floor rank k
  | .unlock m :: _ => rank m + 1

def Ordered (rank : M → Nat) (entry : Nat) : List (Frame M) → Prop
  | [] => True
  | .run a :: k => a.Ascends rank entry (floor rank k) ∧ Ordered rank entry k
  | .unlock m :: k => floor rank k ≤ rank m ∧ Ordered rank entry k

variable {rank : M → Nat} {entry : Nat} {k l : List (Frame M)} {m n : M} {free : M → Prop}
  {called : LockCode M → Prop}

theorem Ordered.turns (h : Ordered rank entry k)
    (hcalled : ∀ a, called a → a.Ascends rank entry entry) (hturn : Turns free called k l) :
    Ordered rank entry l := by
  cases hturn with
  | skip => exact h.2
  | seq => exact ⟨h.1.1, h.1.2, h.2⟩
  | left => exact ⟨h.1.1, h.2⟩
  | right => exact ⟨h.1.2, h.2⟩
  | oneOf n => exact ⟨h.1 n, h.2⟩
  | again => exact ⟨h.1, h⟩
  | leave => exact h.2
  | called ha => exact ⟨(hcalled _ ha).mono h.1, h⟩
  | returned => exact h.2
  | lock => exact ⟨h.1.2, h.1.1, h.2⟩
  | unlock => exact h.2

theorem Ordered.rank_lt_floor (h : Ordered rank entry k) (hholds : Holds k m) :
    rank m < floor rank k := by
  induction k with
  | nil => cases hholds
  | cons frame k ih =>
      cases frame with
      | run a =>
          rcases List.mem_cons.mp hholds with heq | hmem
          · cases heq
          · exact ih h.2 hmem
      | unlock n =>
          rcases List.mem_cons.mp hholds with heq | hmem
          · cases heq
            exact Nat.lt_succ_self _
          · calc
              rank m < floor rank k := ih h.2 hmem
              _ ≤ rank n := h.1
              _ < rank n + 1 := Nat.lt_succ_self _

/-- A thread wants only what ranks above all it holds. -/
theorem Ordered.rank_lt (h : Ordered rank entry k) (hholds : Holds k m) (hwants : Wants k n) :
    rank m < rank n := by
  obtain ⟨a, rest, rfl⟩ := hwants
  calc
    rank m < floor rank (.run (.within n a) :: rest) := h.rank_lt_floor hholds
    _ ≤ rank n := h.1.1

/-- A thread in a call is held up only by a mutex that it wants. -/
theorem exists_turns (called : LockCode M → Prop) (hbusy : k ≠ [])
    (hfree : ∀ m, Wants k m → free m) : ∃ l, Turns free called k l := by
  cases k with
  | nil => contradiction
  | cons frame k =>
      cases frame with
      | unlock m => exact ⟨k, .unlock⟩
      | run a =>
          cases a with
          | skip => exact ⟨k, .skip⟩
          | seq a b => exact ⟨_, .seq⟩
          | either a b => exact ⟨_, .left⟩
          | oneOf a => exact ⟨_, .oneOf 0⟩
          | loop a => exact ⟨k, .leave⟩
          | outside => exact ⟨k, .returned⟩
          | within m a => exact ⟨_, .lock (hfree m ⟨a, k, rfl⟩)⟩

end Frame

/-- Code that takes its mutexes in the order of their ranks. -/
structure LockDiscipline (M : Type) where
  rank : M → Nat
  bound : Nat
  entry : Nat
  /-- What a thread may be started with. -/
  started : LockCode M → Prop
  /-- What code outside may call back. -/
  called : LockCode M → Prop
  rank_lt : ∀ m, rank m < bound
  started_ascends : ∀ a, started a → a.Ascends rank entry 0
  called_ascends : ∀ a, called a → a.Ascends rank entry entry

namespace LockDiscipline

open Foundation.Frame Relation

variable {M ι : Type}

def Free (s : ι → List (Frame M)) (m : M) : Prop := ∀ i, ¬Holds (s i) m

/-- A thread wants what another one holds. -/
def WaitsFor (s : ι → List (Frame M)) (i j : ι) : Prop := ∃ m, Wants (s i) m ∧ Holds (s j) m

variable {D : LockDiscipline M} {s t : ι → List (Frame M)} {i j : ι}

/-- Along a chain of threads that wait the ranks go up. -/
theorem rank_le_of_waits (h : ∀ i, Ordered D.rank D.entry (s i))
    (hwaits : TransGen (WaitsFor s) i j) :
    ∃ m n, Wants (s i) m ∧ Holds (s j) n ∧ D.rank m ≤ D.rank n := by
  induction hwaits with
  | single hwait =>
      obtain ⟨m, hwants, hholds⟩ := hwait
      exact ⟨m, m, hwants, hholds, Nat.le_refl _⟩
  | tail _ hwait ih =>
      obtain ⟨m, n, hwants, hheld, hle⟩ := ih
      obtain ⟨p, hnext, hholds⟩ := hwait
      exact ⟨m, p, hwants, hholds, Nat.le_trans hle (Nat.le_of_lt ((h _).rank_lt hheld hnext))⟩

/-- One of the threads that a thread waits for, or itself, is not held up. -/
theorem exists_not_held_up (h : ∀ i, Ordered D.rank D.entry (s i)) (hbusy : s i ≠ []) :
    ∃ j, ReflTransGen (WaitsFor s) i j ∧ s j ≠ [] ∧ ∀ m, Wants (s j) m → Free s m := by
  suffices hsteps : ∀ d i, s i ≠ [] → (∀ m, Wants (s i) m → D.bound ≤ D.rank m + d) →
      ∃ j, ReflTransGen (WaitsFor s) i j ∧ s j ≠ [] ∧ ∀ m, Wants (s j) m → Free s m from
    hsteps D.bound i hbusy fun m _ => Nat.le_add_left _ _
  intro d
  induction d with
  | zero =>
      intro i hbusy hhigh
      refine ⟨i, .refl, hbusy, fun m hwants => ?_⟩
      have hrank := D.rank_lt m
      have hbound := hhigh m hwants
      omega
  | succ d ih =>
      intro i hbusy hhigh
      by_cases hfree : ∀ m, Wants (s i) m → Free s m
      · exact ⟨i, .refl, hbusy, hfree⟩
      · simp only [Free, not_forall, not_not] at hfree
        obtain ⟨m, hwants, j, hholds⟩ := hfree
        have hj : s j ≠ [] := List.ne_nil_of_mem hholds
        obtain ⟨l, hchain, hl⟩ := ih j hj fun n hnext => by
          have hlt : D.rank m < D.rank n := (h j).rank_lt hholds hnext
          have hbound := hhigh m hwants
          omega
        exact ⟨l, .head ⟨m, hwants, hholds⟩ hchain, hl⟩

variable [DecidableEq ι]

/-- The threads, each of which begins a call when it has none left and goes on with it. -/
def machine (D : LockDiscipline M) (ι : Type) [DecidableEq ι] :
    Machine (ι → List (Frame M)) ι where
  init := fun s => ∀ i, s i = []
  step := fun s i t => ∃ k, t = Function.update s i k ∧
    (s i = [] ∧ (∃ a, D.started a ∧ k = [.run a]) ∨ Turns (Free s) D.called (s i) k)

theorem ordered_reachable (reach : (D.machine ι).Reachable s) (i : ι) :
    Ordered D.rank D.entry (s i) := by
  revert i
  apply reach.invariant fun s => ∀ i, Ordered D.rank D.entry (s i)
  · intro s hempty i
    rw [hempty i]
    trivial
  · rintro s i _ - h - ⟨k, rfl, hmove⟩ j
    by_cases hj : j = i
    · subst hj
      rw [Function.update_self]
      rcases hmove with ⟨-, a, ha, rfl⟩ | hturn
      · exact ⟨D.started_ascends a ha, trivial⟩
      · exact (h j).turns D.called_ascends hturn
    · rw [Function.update_of_ne hj]
      exact h j

/-- No thread waits for itself. -/
theorem not_waits_self (reach : (D.machine ι).Reachable s) : ¬TransGen (WaitsFor s) i i := by
  intro hwaits
  have hordered := ordered_reachable reach
  obtain ⟨m, n, hwants, hholds, hle⟩ := rank_le_of_waits hordered hwaits
  have hlt : D.rank n < D.rank m := (hordered i).rank_lt hholds hwants
  omega

/-- A thread that is in a call can go on, or one of those it waits for can. -/
theorem exists_step (reach : (D.machine ι).Reachable s) (hbusy : s i ≠ []) :
    ∃ j t, ReflTransGen (WaitsFor s) i j ∧ (D.machine ι).step s j t := by
  obtain ⟨j, hchain, hj, hfree⟩ := exists_not_held_up (ordered_reachable reach) hbusy
  obtain ⟨k, hturn⟩ := exists_turns D.called hj hfree
  exact ⟨j, _, hchain, k, rfl, Or.inr hturn⟩

/-- Code outside is called only in scopes that rank below all it calls back. -/
theorem rank_lt_entry (reach : (D.machine ι).Reachable s) {k : List (Frame M)}
    (hcalls : s i = .run .outside :: k) {m : M} (hholds : Holds (s i) m) : D.rank m < D.entry := by
  have hordered := ordered_reachable reach i
  have hfloor := hordered.rank_lt_floor hholds
  rw [hcalls] at hordered hfloor
  exact Nat.lt_of_lt_of_le hfloor hordered.1

end LockDiscipline

end Foundation
