import Mathlib.Logic.Function.Basic
import MidiFramework.Foundation.Transition

/-!
# Waiting on a futex word

One thread is in `FutexWait` without a timeout, and any number of threads each
make the predicate true and then call `FutexWake`. A step is one access to the
word, one look at the predicate or one system call. The kernel compares the
word and blocks in one step, wakes every blocked thread, and may let a thread
return from the wait for no reason.
-/

namespace MidiFramework.Common

open Foundation

def isReady : UInt32 := 0

def isNotReady : UInt32 := 1

def isPreExit : UInt32 := 2

/-- The words that `CheckWaitParams` and `FutexWake` take. -/
def validWord (word : UInt32) : Bool :=
  word == isReady || word == isNotReady || word == isPreExit

inductive FutexCode
  | success
  | invalidParams
  | operationFailed
  deriving DecidableEq

def waitTryCount : Nat := 50

/-- Where the thread is in `FutexWait`, with its `tryCount`. -/
inductive Waiting
  | checkParams
  | exchange (tryCount : Nat)
  | checkPred (tryCount : Nat)
  | wait (tryCount : Nat)
  | blocked (tryCount : Nat)
  | recheckPred (tryCount : Nat)
  | returned (code : FutexCode)

/-- Where a thread is in `FutexWake`. -/
inductive Waking
  | idle
  | load (wakeVal : UInt32)
  | exchange (wakeVal : UInt32)
  | wake (wakeVal : UInt32)
  | returned (wakeVal : UInt32) (code : FutexCode)

namespace Waking

/-- The thread has still to look at the word. -/
def approaches : Waking → Bool
  | .load _ | .exchange _ => true
  | _ => false

/-- The thread is about to call `FUTEX_WAKE`. -/
def wakesNext : Waking → Bool
  | .wake _ => true
  | _ => false

/-- The thread has stored `IS_PRE_EXIT`. -/
def stored : Waking → Bool
  | .wake wakeVal | .returned wakeVal .success => wakeVal == isPreExit
  | _ => false

/-- The thread has not come, or its `FutexWake` has returned. -/
def away : Waking → Bool
  | .idle | .returned .. => true
  | _ => false

end Waking

/-- The word, the predicate, the thread that waits and those that wake it. -/
structure Futex (I : Type) where
  word : UInt32
  pred : Bool
  waiter : Waiting := .checkParams
  wakers : I → Waking := fun _ => .idle

/-- What happens next: a step of the waiting thread, its return from the wait for no reason, a
thread that makes the predicate true and goes on to `FutexWake`, a step of it there, and a change
of the predicate after the wait. -/
inductive FutexStep (I : Type)
  | futexWait
  | spurious
  | makeTrue (i : I) (wakeVal : UInt32)
  | futexWake (i : I)
  | forget

namespace Futex

variable {I : Type} [DecidableEq I]

/-- `FUTEX_WAKE`. -/
def wakeAll (s : Futex I) : Futex I :=
  match s.waiter with
  | .blocked n => { s with waiter := .recheckPred n }
  | _ => s

/-- The next step of `FutexWait`. -/
def futexWait (s : Futex I) : Futex I :=
  match s.waiter with
  | .checkParams =>
      if validWord s.word then { s with waiter := .exchange 0 }
      else { s with waiter := .returned .invalidParams }
  | .exchange n =>
      if n < waitTryCount then
        if s.word = isReady then { s with word := isNotReady, waiter := .checkPred n }
        else if s.word = isPreExit then { s with waiter := .returned .operationFailed }
        else { s with waiter := .checkPred n }
      else { s with waiter := .returned .operationFailed }
  | .checkPred n =>
      if s.pred then { s with waiter := .returned .success } else { s with waiter := .wait n }
  | .wait n =>
      if s.word = isNotReady then { s with waiter := .blocked n }
      else { s with waiter := .recheckPred n }
  | .recheckPred n =>
      if s.pred then { s with waiter := .returned .success }
      else { s with waiter := .exchange (n + 1) }
  | .blocked _ | .returned _ => s

/-- The thread goes on to another place of `FutexWake`. -/
def goTo (i : I) (place : Waking) (s : Futex I) : Futex I :=
  { s with wakers := Function.update s.wakers i place }

/-- The next step of `FutexWake`. -/
def futexWake (i : I) (s : Futex I) : Futex I :=
  match s.wakers i with
  | .idle => s
  | .load wakeVal =>
      s.goTo i (if validWord s.word then .exchange wakeVal else .returned wakeVal .invalidParams)
  | .exchange wakeVal =>
      if wakeVal = isPreExit then { s.goTo i (.wake wakeVal) with word := isPreExit }
      else if s.word = isNotReady then { s.goTo i (.wake wakeVal) with word := isReady }
      else s.goTo i (.returned wakeVal .success)
  | .wake wakeVal => (s.goTo i (.returned wakeVal .success)).wakeAll
  | .returned _ _ => s

def run : FutexStep I → Futex I → Futex I
  | .futexWait, s => s.futexWait
  | .spurious, s => s.wakeAll
  | .makeTrue i wakeVal, s => { s.goTo i (.load wakeVal) with pred := true }
  | .futexWake i, s => s.futexWake i
  | .forget, s => { s with pred := false }

/-- A thread calls `FutexWake` once, and the predicate stays true until the wait returns. -/
def Enabled (s : Futex I) : FutexStep I → Prop
  | .makeTrue i _ => s.wakers i = .idle
  | .forget => ∃ code, s.waiter = .returned code
  | _ => True

/-- Any word and predicate to start with. -/
def machine : Machine (Futex I) (FutexStep I) where
  init := fun s => ∃ word pred, s = { word := word, pred := pred }
  step := fun s l s' => s.Enabled l ∧ s' = run l s

variable {s : Futex I} {i : I}

/-! ### A blocked thread is woken -/

/-- The thread is blocked in the kernel. -/
def Blocked (s : Futex I) : Prop := ∃ n, s.waiter = .blocked n

/-- The thread has found the predicate false and not looked since. -/
def Unaware (s : Futex I) : Prop := (∃ n, s.waiter = .wait n) ∨ s.Blocked

/-- A thread has stored `IS_PRE_EXIT`. -/
def PreExitStored (s : Futex I) : Prop := ∃ i, (s.wakers i).stored = true

/-- A blocked thread found the word not ready, and whoever changed it since is about to wake it;
and where the thread has not seen that the predicate is true, the word shows it or will show it. -/
structure Attended (s : Futex I) : Prop where
  blocked : s.Blocked → s.word = isNotReady ∨ ∃ i, (s.wakers i).wakesNext = true
  unaware : s.Unaware → s.pred = true →
    s.word ≠ isNotReady ∨ ∃ i, (s.wakers i).approaches = true
  preExit : s.PreExitStored → s.word = isPreExit

variable {place : Waking} {p : Waking → Bool}

@[simp] theorem wakers_goTo_self : (s.goTo i place).wakers i = place :=
  Function.update_self ..

theorem wakers_goTo_of_ne {j : I} (h : j ≠ i) : (s.goTo i place).wakers j = s.wakers j :=
  Function.update_of_ne h ..

theorem exists_goTo (h : ∃ j, p (s.wakers j) = true)
    (hplace : p (s.wakers i) = true → p place = true) :
    ∃ j, p ((s.goTo i place).wakers j) = true := by
  obtain ⟨j, hj⟩ := h
  refine ⟨j, ?_⟩
  by_cases hji : j = i
  · subst hji
    rw [wakers_goTo_self]
    exact hplace hj
  · rw [wakers_goTo_of_ne hji]
    exact hj

theorem exists_of_exists_goTo (h : ∃ j, p ((s.goTo i place).wakers j) = true)
    (hplace : p place = true → p (s.wakers i) = true) : ∃ j, p (s.wakers j) = true := by
  obtain ⟨j, hj⟩ := h
  by_cases hji : j = i
  · subst hji
    rw [wakers_goTo_self] at hj
    exact ⟨j, hplace hj⟩
  · rw [wakers_goTo_of_ne hji] at hj
    exact ⟨j, hj⟩

omit [DecidableEq I] in
/-- The waiting thread goes on and leaves the word alone. -/
theorem Attended.waits (h : s.Attended) {waiter : Waiting}
    (hblocked : ∀ n, waiter = .blocked n → s.word = isNotReady)
    (hunaware : ∀ n, waiter = .wait n ∨ waiter = .blocked n →
      s.pred = false ∨ s.Unaware) : Attended { s with waiter := waiter } where
  blocked := by
    rintro ⟨n, hn⟩
    exact Or.inl (hblocked n hn)
  unaware := by
    intro hwaits hpred
    have hold : s.pred = false ∨ s.Unaware := by
      rcases hwaits with ⟨n, hn⟩ | ⟨n, hn⟩
      · exact hunaware n (Or.inl hn)
      · exact hunaware n (Or.inr hn)
    exact h.unaware (hold.resolve_left (ne_of_eq_of_ne hpred (by decide))) hpred
  preExit := h.preExit

omit [DecidableEq I] in
theorem Attended.futexWait (h : s.Attended) : s.futexWait.Attended := by
  unfold Futex.futexWait
  cases hwaiter : s.waiter with
  | checkParams =>
      dsimp only
      split <;> exact h.waits (by simp) (by simp)
  | exchange n =>
      dsimp only
      split
      · split
        · next hready =>
            constructor
            · rintro ⟨m, hm⟩
              contradiction
            · rintro (⟨m, hm⟩ | ⟨m, hm⟩) <;> contradiction
            · intro hstored
              have hword := h.preExit hstored
              rw [hready] at hword
              contradiction
        · split <;> exact h.waits (by simp) (by simp)
      · exact h.waits (by simp) (by simp)
  | checkPred n =>
      dsimp only
      split
      · exact h.waits (by simp) (by simp)
      · next hpred => exact h.waits (by simp) fun m _ => Or.inl (Bool.eq_false_iff.mpr hpred)
  | wait n =>
      have hunaware : s.Unaware := Or.inl ⟨n, hwaiter⟩
      dsimp only
      split
      · next hword => exact h.waits (fun m _ => hword) fun m _ => Or.inr hunaware
      · exact h.waits (by simp) (by simp)
  | recheckPred n =>
      dsimp only
      split <;> exact h.waits (by simp) (by simp)
  | blocked n => exact h
  | returned code => exact h

omit [DecidableEq I] in
theorem Attended.wakeAll (h : s.Attended) : s.wakeAll.Attended := by
  unfold Futex.wakeAll
  split
  · exact h.waits (by simp) (by simp)
  · exact h

omit [DecidableEq I] in
theorem not_blocked_wakeAll : ¬s.wakeAll.Blocked := by
  rintro ⟨n, hn⟩
  unfold Futex.wakeAll at hn
  split at hn
  · contradiction
  · next hwaiter => exact hwaiter n hn

omit [DecidableEq I] in
theorem unaware_of_wakeAll (h : s.wakeAll.Unaware) : s.Unaware := by
  rcases h with ⟨n, hn⟩ | hblocked
  · unfold Futex.wakeAll at hn
    split at hn
    · contradiction
    · exact Or.inl ⟨n, hn⟩
  · exact absurd hblocked not_blocked_wakeAll

omit [DecidableEq I] in
/-- `FUTEX_WAKE` changes nothing but the waiting thread. -/
theorem wakeAll_same :
    s.wakeAll.word = s.word ∧ s.wakeAll.pred = s.pred ∧ s.wakeAll.wakers = s.wakers := by
  unfold Futex.wakeAll
  split <;> exact ⟨rfl, rfl, rfl⟩

/-- A thread goes on and leaves the word alone, which is not the one it waited for. -/
theorem Attended.goTo (h : s.Attended)
    (hwakes : (s.wakers i).wakesNext = true → place.wakesNext = true)
    (hlooks : s.word ≠ isNotReady ∨ place.approaches = true)
    (hstored : place.stored = true → (s.wakers i).stored = true) : (s.goTo i place).Attended where
  blocked := by
    intro hblocked
    rcases h.blocked hblocked with hword | hwoken
    · exact Or.inl hword
    · exact Or.inr (exists_goTo hwoken hwakes)
  unaware := by
    intro _ _
    rcases hlooks with hword | happroaches
    · exact Or.inl hword
    · exact Or.inr ⟨i, by simp [happroaches]⟩
  preExit := fun hexit => h.preExit (exists_of_exists_goTo hexit hstored)

/-- A thread changes the word and will wake the others. -/
theorem Attended.store {word wakeVal : UInt32} (hword : word ≠ isNotReady)
    (hexit : (s.goTo i (.wake wakeVal)).PreExitStored → word = isPreExit) :
    Attended { s.goTo i (.wake wakeVal) with word := word } where
  blocked := fun _ => Or.inr ⟨i, by simp [Waking.wakesNext]⟩
  unaware := fun _ _ => Or.inl hword
  preExit := hexit

theorem Attended.wake {wakeVal : UInt32} (h : s.Attended) (hi : s.wakers i = .wake wakeVal) :
    ((s.goTo i (.returned wakeVal .success)).wakeAll).Attended := by
  obtain ⟨hword, hpred, hwakers⟩ := wakeAll_same (s := s.goTo i (.returned wakeVal .success))
  constructor
  · exact fun hblocked => absurd hblocked not_blocked_wakeAll
  · rw [hword, hpred, hwakers]
    intro hunaware htrue
    have hold : (s.goTo i (.returned wakeVal .success)).Unaware := unaware_of_wakeAll hunaware
    rcases h.unaware hold htrue with hchanged | happroaching
    · exact Or.inl hchanged
    · exact Or.inr (exists_goTo happroaching (by simp [hi, Waking.approaches]))
  · unfold PreExitStored
    rw [hword, hwakers]
    intro hexit
    apply h.preExit
    apply exists_of_exists_goTo hexit
    simp [hi, Waking.stored]

theorem Attended.futexWake (h : s.Attended) (i : I) : (s.futexWake i).Attended := by
  unfold Futex.futexWake
  cases hi : s.wakers i with
  | idle => exact h
  | load wakeVal =>
      apply h.goTo
      · simp [hi, Waking.wakesNext]
      · split
        · exact Or.inr rfl
        · next hinvalid =>
            refine Or.inl fun hword => hinvalid ?_
            simp [hword, validWord]
      · split <;> simp [Waking.stored]
  | exchange wakeVal =>
      dsimp only
      split
      · exact Attended.store (by decide) fun _ => rfl
      · next hval =>
          split
          · next hword =>
              apply Attended.store (by decide)
              intro hexit
              have hold : s.PreExitStored := exists_of_exists_goTo hexit fun hstored =>
                absurd (eq_of_beq hstored) hval
              have hpre := h.preExit hold
              rw [hword] at hpre
              contradiction
          · next hword =>
              apply h.goTo
              · simp [hi, Waking.wakesNext]
              · exact Or.inl hword
              · exact fun hstored => absurd (eq_of_beq hstored) hval
  | wake wakeVal => exact h.wake hi
  | returned wakeVal code => exact h

theorem Attended.makeTrue {wakeVal : UInt32} (h : s.Attended) (hi : s.wakers i = .idle) :
    Attended { s.goTo i (.load wakeVal) with pred := true } where
  blocked := by
    intro hblocked
    rcases h.blocked hblocked with hword | hwoken
    · exact Or.inl hword
    · exact Or.inr (exists_goTo hwoken (by simp [hi, Waking.wakesNext]))
  unaware := fun _ _ => Or.inr ⟨i, by simp [Waking.approaches]⟩
  preExit := fun hexit => h.preExit (exists_of_exists_goTo hexit fun hstored => by contradiction)

theorem Attended.run {l : FutexStep I} (h : s.Attended) (henabled : s.Enabled l) :
    (run l s).Attended := by
  cases l with
  | futexWait => exact h.futexWait
  | spurious => exact h.wakeAll
  | makeTrue i wakeVal => exact h.makeTrue henabled
  | futexWake i => exact h.futexWake i
  | forget =>
      obtain ⟨code, hcode⟩ := henabled
      exact ⟨h.blocked, fun _ hpred => absurd hpred Bool.false_ne_true, h.preExit⟩

omit [DecidableEq I] in
theorem wakers_futexWait : s.futexWait.wakers = s.wakers := by
  unfold Futex.futexWait
  split
  · split <;> rfl
  · split
    · split
      · rfl
      · split <;> rfl
    · rfl
  · split <;> rfl
  · split <;> rfl
  · split <;> rfl
  · rfl
  · rfl

/-- A thread that has stored `IS_PRE_EXIT` has done so for good. -/
theorem PreExitStored.run {l : FutexStep I} (h : s.PreExitStored) (henabled : s.Enabled l) :
    (run l s).PreExitStored := by
  cases l with
  | futexWait =>
      change ∃ i, (s.futexWait.wakers i).stored = true
      rw [wakers_futexWait]
      exact h
  | spurious =>
      change ∃ i, (s.wakeAll.wakers i).stored = true
      rw [wakeAll_same.2.2]
      exact h
  | makeTrue i wakeVal =>
      have hidle : s.wakers i = .idle := henabled
      exact exists_goTo h (by simp [hidle, Waking.stored])
  | futexWake i =>
      change (s.futexWake i).PreExitStored
      unfold Futex.futexWake
      cases hi : s.wakers i with
      | idle => exact h
      | load wakeVal => exact exists_goTo h (by simp [hi, Waking.stored])
      | exchange wakeVal =>
          have hkeep : ∀ place, (s.goTo i place).PreExitStored :=
            fun place => exists_goTo h (by simp [hi, Waking.stored])
          dsimp only
          split
          · exact hkeep _
          · split
            · exact hkeep _
            · exact hkeep _
      | wake wakeVal =>
          unfold PreExitStored
          dsimp only
          rw [wakeAll_same.2.2]
          exact exists_goTo h (by simp [hi, Waking.stored])
      | returned wakeVal code => exact h
  | forget => exact h

theorem attended_reachable (reach : machine.Reachable s) : s.Attended := by
  apply reach.invariant Attended
  · rintro s ⟨word, pred, rfl⟩
    constructor
    · rintro ⟨n, hn⟩
      contradiction
    · rintro (⟨n, hn⟩ | ⟨n, hn⟩) <;> contradiction
    · rintro ⟨i, hi⟩
      contradiction
  · rintro s l s' _ h _ ⟨henabled, rfl⟩
    exact h.run henabled

/-- The thread is not blocked with the predicate true once every `FutexWake` has returned, and
after `IS_PRE_EXIT` has been stored the word is that for good. -/
theorem no_lost_wakeup (reach : machine.Reachable s) :
    ¬(s.Blocked ∧ s.pred = true ∧ ∀ i, (s.wakers i).away = true) ∧
      (s.PreExitStored →
        ∀ t, (machine.startingAt s).Reachable t → t.word = isPreExit) := by
  constructor
  · rintro ⟨hblocked, hpred, haway⟩
    have h := attended_reachable reach
    rcases h.unaware (Or.inr hblocked) hpred with hword | ⟨i, hi⟩
    · rcases h.blocked hblocked with hsame | ⟨i, hi⟩
      · exact hword hsame
      · have hgone := haway i
        cases hplace : s.wakers i <;> simp [hplace, Waking.away, Waking.wakesNext] at hi hgone
    · have hgone := haway i
      cases hplace : s.wakers i <;> simp [hplace, Waking.away, Waking.approaches] at hi hgone
  · intro hstored t hlater
    have hkept : t.PreExitStored := by
      apply hlater.invariant PreExitStored
      · rintro _ rfl
        exact hstored
      · rintro u l _ _ hu _ ⟨henabled, rfl⟩
        exact hu.run henabled
    exact (attended_reachable (reach.append hlater)).preExit hkept

/-! ### A thread that is told to exit -/

theorem reachable_run (reach : machine.Reachable s) (l : FutexStep I) (henabled : s.Enabled l) :
    machine.Reachable (run l s) :=
  reach.step trivial ⟨henabled, rfl⟩

/-- The thread is blocked. -/
def blockedFutex : Futex Unit :=
  futexWait (futexWait (futexWait (futexWait { word := isReady, pred := false })))

/-- Another has stored `IS_PRE_EXIT` and not called `FUTEX_WAKE` yet. -/
def exitingFutex : Futex Unit :=
  futexWake () (futexWake () (run (.makeTrue () isPreExit) blockedFutex))

theorem no_lost_wakeup_exiting :
    ¬(exitingFutex.Blocked ∧ exitingFutex.pred = true ∧
        ∀ i, (exitingFutex.wakers i).away = true) ∧
      (exitingFutex.PreExitStored →
        ∀ t, (machine.startingAt exitingFutex).Reachable t → t.word = isPreExit) := by
  have hinit : machine.Reachable ({ word := isReady, pred := false } : Futex Unit) :=
    .init ⟨isReady, false, rfl⟩
  have hwait : ∀ {s : Futex Unit}, machine.Reachable s → machine.Reachable s.futexWait :=
    fun reach => reachable_run reach .futexWait trivial
  have hwake : ∀ {s : Futex Unit}, machine.Reachable s → machine.Reachable (s.futexWake ()) :=
    fun reach => reachable_run reach (.futexWake ()) trivial
  have hblocked : machine.Reachable blockedFutex := hwait (hwait (hwait (hwait hinit)))
  have hcalled : machine.Reachable (run (.makeTrue () isPreExit) blockedFutex) :=
    reachable_run hblocked (.makeTrue () isPreExit) rfl
  exact no_lost_wakeup (hwake (hwake hcalled))

end Futex

namespace Waking

/-- Where a thread is after its next step of `FutexWake`, and the word then. -/
def next (word : UInt32) : Waking → Waking × UInt32
  | .idle => (.idle, word)
  | .load wakeVal =>
      (if validWord word then .exchange wakeVal else .returned wakeVal .invalidParams, word)
  | .exchange wakeVal =>
      if wakeVal = isPreExit then (.wake wakeVal, isPreExit)
      else if word = isNotReady then (.wake wakeVal, isReady)
      else (.returned wakeVal .success, word)
  | .wake wakeVal => (.returned wakeVal .success, word)
  | .returned wakeVal code => (.returned wakeVal code, word)

end Waking

/-- `FutexWake` is this step, and `FUTEX_WAKE` where it is called. -/
theorem Futex.futexWake_eq {I : Type} [DecidableEq I] (i : I) (s : Futex I) :
    s.futexWake i =
      let next := (s.wakers i).next s.word
      let t := { s.goTo i next.1 with word := next.2 }
      if (s.wakers i).wakesNext then t.wakeAll else t := by
  unfold Futex.futexWake
  cases hi : s.wakers i with
  | idle =>
      change s = { s.goTo i .idle with word := s.word }
      rw [Futex.goTo, ← hi, Function.update_eq_self]
  | load wakeVal => rfl
  | exchange wakeVal =>
      simp only [Waking.next, Waking.wakesNext]
      split
      · rfl
      · split
        · rfl
        · rfl
  | wake wakeVal => rfl
  | returned wakeVal code =>
      change s = { s.goTo i (.returned wakeVal code) with word := s.word }
      rw [Futex.goTo, ← hi, Function.update_eq_self]

namespace Waiting

/-- Where a thread is after its next step of `FutexWait` outside the kernel, and the word then. -/
def next (word : UInt32) (pred : Bool) : Waiting → Waiting × UInt32
  | .checkParams => (if validWord word then .exchange 0 else .returned .invalidParams, word)
  | .exchange n =>
      if n < waitTryCount then
        if word = isReady then (.checkPred n, isNotReady)
        else if word = isPreExit then (.returned .operationFailed, word)
        else (.checkPred n, word)
      else (.returned .operationFailed, word)
  | .checkPred n => (if pred then .returned .success else .wait n, word)
  | .wait n => (if word = isNotReady then .blocked n else .recheckPred n, word)
  | .recheckPred n => (if pred then .returned .success else .exchange (n + 1), word)
  | .blocked n => (.blocked n, word)
  | .returned code => (.returned code, word)

end Waiting

/-- `FutexWait` is this step. -/
theorem Futex.futexWait_eq {I : Type} (s : Futex I) :
    s.futexWait =
      { s with
        waiter := (s.waiter.next s.word s.pred).1
        word := (s.waiter.next s.word s.pred).2 } := by
  obtain ⟨word, pred, waiter, wakers⟩ := s
  unfold Futex.futexWait Waiting.next
  cases waiter with
  | exchange n =>
      dsimp only
      split
      · split
        · rfl
        · split <;> rfl
      · rfl
  | blocked n => rfl
  | returned code => rfl
  | _ =>
      dsimp only
      split <;> rfl

namespace Waking

/-- `FutexWake` was called with the value. -/
def WakesWith (wakeVal : UInt32) : Waking → Prop
  | .idle => True
  | .load v | .exchange v | .wake v | .returned v _ => v = wakeVal

end Waking

theorem not_wakesNext_of_away {place : Waking} (h : place.away = true) :
    ¬place.wakesNext = true := by
  cases place <;> simp [Waking.away, Waking.wakesNext] at h ⊢

/-- How many steps of `FutexWake` are left at most. -/
def Waking.steps : Waking → Nat
  | .load _ => 3
  | .exchange _ => 2
  | .wake _ => 1
  | .idle | .returned .. => 0

theorem steps_next (place : Waking) (word : UInt32) :
    (place.next word).1.away = true ∨ (place.next word).1.steps < place.steps := by
  cases place with
  | idle => exact .inl rfl
  | returned v code => exact .inl rfl
  | wake v => exact .inl rfl
  | load v =>
      rw [Waking.next]
      split
      · exact .inr (by decide : 2 < 3)
      · exact .inl rfl
  | exchange v =>
      rw [Waking.next]
      split
      · exact .inr (by decide : 1 < 2)
      · split
        · exact .inr (by decide : 1 < 2)
        · exact .inl rfl

theorem not_approaches_of_away {place : Waking} (h : place.away = true) :
    ¬place.approaches = true := by
  cases place <;> simp [Waking.away, Waking.approaches] at h ⊢

/-- What a step of `FutexWake` does: it never makes the word one that a thread waits for, it is about
to wake whoever waited for the old one, and once it has looked the word shows it. -/
structure WakeStep (wakeVal : UInt32) (place : Waking) (word : UInt32) (place' : Waking)
    (word' : UInt32) : Prop where
  valid : validWord word' = true
  wakesWith : Waking.WakesWith wakeVal place'
  keeps : word ≠ isNotReady → word' ≠ isNotReady
  exit : word = isPreExit → word' = isPreExit
  wakes : word = isNotReady → word' = isNotReady ∨ place'.wakesNext = true
  looked : place.approaches = true → place'.approaches = true ∨ word' ≠ isNotReady
  exits : wakeVal = isPreExit → place.approaches = true →
    place'.approaches = true ∨ word' = isPreExit

theorem wakeStep_next {wakeVal word : UInt32} {place : Waking} (hvalid : validWord word = true)
    (hwith : Waking.WakesWith wakeVal place) :
    WakeStep wakeVal place word (place.next word).1 (place.next word).2 := by
  have hready : isReady ≠ isNotReady := by decide
  have hpre : isPreExit ≠ isNotReady := by decide
  cases place with
  | idle => exact ⟨hvalid, trivial, id, id, .inl, nofun, nofun⟩
  | returned v code => exact ⟨hvalid, hwith, id, id, .inl, nofun, nofun⟩
  | wake v => exact ⟨hvalid, hwith, id, id, .inl, nofun, nofun⟩
  | load v =>
      rw [Waking.next, if_pos hvalid]
      exact ⟨hvalid, hwith, id, id, .inl, fun _ => .inl rfl, fun _ _ => .inl rfl⟩
  | exchange v =>
      obtain rfl : v = wakeVal := hwith
      rw [Waking.next]
      split
      · exact ⟨rfl, rfl, fun _ => hpre, fun _ => rfl, fun _ => .inr rfl, fun _ => .inr hpre,
          fun _ _ => .inr rfl⟩
      · next hval =>
          split
          · next hword =>
              refine ⟨rfl, rfl, fun _ => hready, fun hexit => ?_, fun _ => .inr rfl,
                fun _ => .inr hready, fun hexit => absurd hexit hval⟩
              rw [hword] at hexit
              contradiction
          · next hword =>
              exact ⟨hvalid, rfl, id, id, fun hsame => absurd hsame hword, fun _ => .inr hword,
                fun hpre => absurd hpre hval⟩

end MidiFramework.Common
