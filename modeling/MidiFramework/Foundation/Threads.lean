import Mathlib.Data.Multiset.AddSub
import MidiFramework.Foundation.Transition

/-!
# Threads of locked sections

A thread is a list of tasks. A task is one section that runs without
interruption on the shared state, and what it leaves to do comes before the
rest of its thread, as the calls nested in it do. Threads interleave between
tasks. An invariant speaks of the shared state and of the tasks that are still
outstanding in any thread; the place of a task in its thread does not matter
to it.
-/

namespace Foundation

/-- A system of threads: its initial states, the tasks a new thread may start with, what the
environment does between tasks, and the section a task runs. -/
structure Sections (S T : Type) where
  init : S → Prop
  starts : T → Prop
  environment : S → S → Prop
  run : T → S → S × List T

/-- The shared state and what every thread has left to do. -/
structure Config (S T : Type) where
  shared : S
  threads : List (List T) := []

/-- What happens next. -/
inductive Turn (S T : Type)
  | start (t : T)
  | run (i : Nat)
  | environment (s : S)

namespace Config

variable {S T : Type}

/-- The task that thread `i` runs next. -/
def next (c : Config S T) (i : Nat) : Option T := c.threads[i]?.bind List.head?

/-- The tasks of all threads. -/
def outstanding (c : Config S T) : Multiset T := (c.threads.flatten : Multiset T)

/-- The tasks of all threads without the next one of thread `i`. -/
def others (c : Config S T) (i : Nat) : Multiset T :=
  ((c.threads.modify i List.tail).flatten : Multiset T)

/-- The thread replaces its next task by what that task leaves to do. -/
def advance (c : Config S T) (i : Nat) (result : S × List T) : Config S T where
  shared := result.1
  threads := c.threads.modify i fun tasks => result.2 ++ tasks.tail

/-- No task is in progress. -/
def Quiet (c : Config S T) : Prop := c.outstanding = 0

theorem quiet_of_isEmpty {c : Config S T} (h : c.threads.flatten.isEmpty) : c.Quiet :=
  congrArg _ (List.isEmpty_iff.mp h)

theorem perm_modify (before : List T) {threads : List (List T)} {i : Nat}
    (h : i < threads.length) :
    (threads.modify i fun tasks => before ++ tasks.tail).flatten.Perm
      (before ++ (threads.modify i List.tail).flatten) := by
  induction threads generalizing i with
  | nil => exact absurd h (Nat.not_lt_zero i)
  | cons tasks threads ih =>
      cases i with
      | zero => simp
      | succ i =>
          rw [List.modify_succ_cons, List.modify_succ_cons, List.flatten_cons, List.flatten_cons]
          have hrest := ih (Nat.lt_of_succ_lt_succ h)
          apply (hrest.append_left tasks).trans
          rw [← List.append_assoc, ← List.append_assoc]
          exact List.perm_append_comm.append_right _

theorem outstanding_of_next {c : Config S T} {i : Nat} {t : T} (h : c.next i = some t) :
    c.outstanding = t ::ₘ c.others i := by
  obtain ⟨tasks, htasks, hhead⟩ := Option.bind_eq_some_iff.mp h
  obtain ⟨hi, rfl⟩ := List.getElem?_eq_some_iff.mp htasks
  have hmodify : (c.threads.modify i fun tasks => [t] ++ tasks.tail) = c.threads := by
    apply List.ext_getElem?
    intro j
    rw [List.getElem?_modify]
    split
    · next hj =>
        subst hj
        rw [htasks]
        exact congrArg some (List.cons_head?_tail hhead)
    · exact id_map _
  have hperm := perm_modify [t] hi
  rw [hmodify] at hperm
  exact Multiset.coe_eq_coe.mpr hperm

theorem outstanding_advance {c : Config S T} {i : Nat} {t : T} (h : c.next i = some t)
    (result : S × List T) :
    (c.advance i result).outstanding = (result.2 : Multiset T) + c.others i := by
  obtain ⟨tasks, htasks, _⟩ := Option.bind_eq_some_iff.mp h
  obtain ⟨hi, _⟩ := List.getElem?_eq_some_iff.mp htasks
  exact Multiset.coe_eq_coe.mpr (perm_modify result.2 hi)

end Config

namespace Sections

variable {S T : Type} (P : Sections S T)

/-- Whether the turn is possible. -/
def Enabled (c : Config S T) : Turn S T → Prop
  | .start t => P.starts t
  | .run i => (c.next i).isSome
  | .environment s => P.environment c.shared s

/-- The configuration after a turn. -/
def turn (c : Config S T) : Turn S T → Config S T
  | .start t => { c with threads := c.threads ++ [[t]] }
  | .run i => (c.next i).elim c fun t => c.advance i (P.run t c.shared)
  | .environment s => { c with shared := s }

def machine : Machine (Config S T) (Turn S T) where
  init := fun c => P.init c.shared ∧ c.threads = []
  step := fun c l c' => P.Enabled c l ∧ c' = P.turn c l

/-- A condition on the shared state, the other outstanding tasks and the task that runs. -/
def Guarded (ok : S → Multiset T → T → Prop) (c : Config S T) : Turn S T → Prop
  | .run i => ∀ t, c.next i = some t → ok c.shared (c.others i) t
  | _ => True

/-- The configurations of runs whose tasks all meet the condition when they run. -/
abbrev ReachedWith (ok : S → Multiset T → T → Prop) : Config S T → Prop :=
  P.machine.ReachableWith (Guarded ok)

/-- The configurations of unrestricted runs. -/
abbrev Reached : Config S T → Prop := P.ReachedWith fun _ _ _ => True

variable {P} {ok : S → Multiset T → T → Prop} {c : Config S T}

/-- An invariant of the shared state and the outstanding tasks: it holds before any thread
starts, and a new thread, the section of a task and the environment keep it. The goals may use
what is known of every configuration of the run. -/
theorem ReachedWith.invariant_using (J I : S → Multiset T → Prop)
    (known : ∀ c, P.ReachedWith ok c → J c.shared c.outstanding)
    (hinit : ∀ s, P.init s → I s 0)
    (hstart : ∀ s ts t, P.starts t → I s ts → I s (t ::ₘ ts))
    (hrun : ∀ s ts t, J s (t ::ₘ ts) → ok s ts t → I s (t ::ₘ ts) →
      I (P.run t s).1 (((P.run t s).2 : Multiset T) + ts))
    (henvironment : ∀ s ts s', P.environment s s' → I s ts → I s' ts)
    (reach : P.ReachedWith ok c) : I c.shared c.outstanding := by
  apply Machine.ReachableWith.invariant (fun c => I c.shared c.outstanding) _ _ reach
  · rintro c ⟨hc, hthreads⟩
    have hnone : c.outstanding = 0 := by simp [Config.outstanding, hthreads]
    rw [hnone]
    exact hinit c.shared hc
  · rintro c l c' hreached hc hok ⟨henabled, rfl⟩
    cases l with
    | start t =>
        have hcons : (P.turn c (.start t)).outstanding = t ::ₘ c.outstanding := by
          apply Multiset.coe_eq_coe.mpr
          simp [turn]
        rw [hcons]
        exact hstart c.shared c.outstanding t henabled hc
    | run i =>
        obtain ⟨t, ht⟩ := Option.isSome_iff_exists.mp henabled
        have hturn : P.turn c (.run i) = c.advance i (P.run t c.shared) := by
          simp [turn, ht]
        rw [hturn, Config.outstanding_advance ht]
        apply hrun c.shared (c.others i) t _ (hok t ht)
        · rw [← Config.outstanding_of_next ht]
          exact hc
        · rw [← Config.outstanding_of_next ht]
          exact known c hreached
    | environment s => exact henvironment c.shared c.outstanding s henabled hc

theorem ReachedWith.invariant (I : S → Multiset T → Prop)
    (hinit : ∀ s, P.init s → I s 0)
    (hstart : ∀ s ts t, P.starts t → I s ts → I s (t ::ₘ ts))
    (hrun : ∀ s ts t, ok s ts t → I s (t ::ₘ ts) →
      I (P.run t s).1 (((P.run t s).2 : Multiset T) + ts))
    (henvironment : ∀ s ts s', P.environment s s' → I s ts → I s' ts)
    (reach : P.ReachedWith ok c) : I c.shared c.outstanding :=
  reach.invariant_using (fun _ _ => True) I (fun _ _ => trivial) hinit hstart
    (fun s ts t _ => hrun s ts t) henvironment

/-! ### Runs that are written out -/

variable (P ok)

def after (c : Config S T) (turns : List (Turn S T)) : Config S T := turns.foldl P.turn c

/-- Every turn of the list is possible and meets the condition. -/
def Permits (c : Config S T) : List (Turn S T) → Prop
  | [] => True
  | l :: turns => (P.Enabled c l ∧ Guarded ok c l) ∧ Permits (P.turn c l) turns

/-- Every turn of the list is possible, none is the environment's, and the tasks that run pass the
check. -/
def Schedules [DecidablePred P.starts] (check : S → T → Bool) (c : Config S T) :
    List (Turn S T) → Bool
  | [] => true
  | .start t :: turns => decide (P.starts t) && Schedules check (P.turn c (.start t)) turns
  | .run i :: turns =>
      (c.next i).elim false (check c.shared) && Schedules check (P.turn c (.run i)) turns
  | .environment _ :: _ => false

/-- Like `Schedules`, with a check that sees the other outstanding tasks. -/
def Follows [DecidablePred P.starts] (check : S → Multiset T → T → Bool) (c : Config S T) :
    List (Turn S T) → Bool
  | [] => true
  | .start t :: turns => decide (P.starts t) && Follows check (P.turn c (.start t)) turns
  | .run i :: turns =>
      (c.next i).elim false (check c.shared (c.others i)) && Follows check (P.turn c (.run i)) turns
  | .environment _ :: _ => false

variable {P ok}

theorem ReachedWith.after {turns : List (Turn S T)} (reach : P.ReachedWith ok c)
    (h : P.Permits ok c turns) : P.ReachedWith ok (P.after c turns) := by
  induction turns generalizing c with
  | nil => exact reach
  | cons l turns ih => exact ih (.step reach h.1.2 ⟨h.1.1, rfl⟩) h.2

theorem permits_of_follows [DecidablePred P.starts] {check : S → Multiset T → T → Bool}
    (hcheck : ∀ s ts t, check s ts t → ok s ts t) {turns : List (Turn S T)}
    (h : P.Follows check c turns) : P.Permits ok c turns := by
  induction turns generalizing c with
  | nil => trivial
  | cons l turns ih =>
      cases l with
      | start t =>
          obtain ⟨hstarts, hrest⟩ := Bool.and_eq_true_iff.mp h
          have hstart : P.starts t := of_decide_eq_true hstarts
          exact ⟨⟨hstart, trivial⟩, ih hrest⟩
      | run i =>
          obtain ⟨hnext, hrest⟩ := Bool.and_eq_true_iff.mp h
          cases ht : c.next i with
          | none =>
              rw [ht] at hnext
              contradiction
          | some t =>
              rw [ht] at hnext
              refine ⟨⟨by simp [Enabled, ht], ?_⟩, ih hrest⟩
              intro t' ht'
              obtain rfl := Option.some.inj (ht.symm.trans ht')
              exact hcheck _ _ t hnext
      | environment s => contradiction

theorem follows_of_schedules [DecidablePred P.starts] {check : S → T → Bool}
    (turns : List (Turn S T)) :
    P.Follows (fun s _ t => check s t) c turns = P.Schedules check c turns := by
  induction turns generalizing c with
  | nil => rfl
  | cons l turns ih =>
      cases l with
      | start t => exact congrArg _ ih
      | run i => exact congrArg _ ih
      | environment s => rfl

theorem permits_of_schedules [DecidablePred P.starts] {check : S → T → Bool}
    (hcheck : ∀ s ts t, check s t → ok s ts t) {turns : List (Turn S T)}
    (h : P.Schedules check c turns) : P.Permits ok c turns := by
  apply permits_of_follows hcheck
  rw [follows_of_schedules turns]
  exact h

end Sections

end Foundation
