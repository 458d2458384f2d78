import MidiFramework.Client.SysExSending
import MidiFramework.Foundation.Countdown

/-!
# Waiting on a futex word until a time

A thread is in `FutexWait` with a timeout, while others change the word and the
predicate as they like and time passes. Whenever the kernel is asked to block the
thread, it is given what remains of the timeout. So a wait neither gives up early nor
gets longer by being woken for nothing, and it ends although nobody wakes the thread.
But for the clock it is the wait without a timeout, and what it answers is settled by
what it saw of the word and the predicate.

## Implementation notes

The clock does not go back and both of its values are 64-bit numbers that are not
negative, so the differences are those of the integers. The kernel adds the time it is
given to its own clock when it blocks the thread, which may be later than the thread's
last look at the clock.
-/

namespace MidiFramework.Client

open Foundation Common

/-- `SEC_TO_NANOSEC`. -/
def secToNanosec : Int := 1000000000

/-- `struct timespec`. -/
structure Timespec where
  tvSec : Int
  tvNsec : Int
  deriving DecidableEq

namespace Timespec

def toNanosec (t : Timespec) : Int := t.tvSec * secToNanosec + t.tvNsec

/-- A time that the kernel accepts. -/
structure Valid (t : Timespec) : Prop where
  sec : 0 ≤ t.tvSec
  nsec : 0 ≤ t.tvNsec
  below : t.tvNsec < secToNanosec

end Timespec

def timeoutToRelativeTime (timeout : Int) : Timespec where
  tvSec := timeout.tdiv secToNanosec
  tvNsec := timeout.tmod secToNanosec

theorem toNanosec_timeoutToRelativeTime (timeout : Int) :
    (timeoutToRelativeTime timeout).toNanosec = timeout := by
  rw [timeoutToRelativeTime, Timespec.toNanosec, mul_comm]
  exact Int.mul_tdiv_add_tmod timeout secToNanosec

theorem valid_timeoutToRelativeTime {timeout : Int} (h : 0 ≤ timeout) :
    (timeoutToRelativeTime timeout).Valid where
  sec := Int.tdiv_nonneg h (by decide)
  nsec := Int.tmod_nonneg secToNanosec h
  below := Int.tmod_lt_of_pos timeout (by decide)

/-- Where the thread is in `FutexWait`. In the kernel it has a time at which it is let go. -/
inductive WaitPlace
  | checkParams
  | readClock
  | exchange
  | checkPred
  | recalculate
  | wait
  | blocked (until? : Option Int)
  | recheckPred
  | returned (code : TimedFutexCode)

/-- The word, the predicate and the clock, and the thread with its local variables. `lookedAt` is
what the clock said when `waitTime` was computed. -/
structure TimedWait where
  word : UInt32
  pred : Bool
  clock : Int
  place : WaitPlace := .checkParams
  timeIn : Int := 0
  waitTime : Option Timespec := none
  lookedAt : Int := 0
  tryCount : Nat := 0

/-- What happens next: a step of the thread, its return from the kernel because it was woken or for
no reason or because its time is over, a change by the others, and time. -/
inductive TimedStep
  | futexWait
  | wake
  | expire
  | store (word : UInt32) (pred : Bool)
  | tick (nanosec : Nat)

namespace TimedWait

/-- `RecalculateWaitTime`, and the return if it fails. -/
def recalculateWaitTime (timeout : Int) (s : TimedWait) : TimedWait :=
  if timeout ≤ 0 then { s with place := .wait }
  else
    let cost := s.clock - s.timeIn
    if cost ≥ timeout then { s with place := .returned .timeout }
    else
      { s with
        place := .wait
        waitTime := some (timeoutToRelativeTime (timeout - cost))
        lookedAt := s.clock }

/-- The next step of `FutexWait` outside the kernel. -/
def futexWait (timeout : Int) (s : TimedWait) : TimedWait :=
  match s.place with
  | .checkParams =>
      if validWord s.word then { s with place := .readClock }
      else { s with place := .returned (.code .invalidParams) }
  | .readClock =>
      { s with
        place := .exchange
        timeIn := s.clock
        waitTime := if timeout > 0 then some (timeoutToRelativeTime timeout) else none
        lookedAt := s.clock }
  | .exchange =>
      if s.tryCount < waitTryCount then
        if s.word = isReady then { s with word := isNotReady, place := .checkPred }
        else if s.word = isPreExit then { s with place := .returned (.code .operationFailed) }
        else { s with place := .checkPred }
      else { s with place := .returned (.code .operationFailed) }
  | .checkPred =>
      if s.pred then { s with place := .returned (.code .success) }
      else { s with place := .recalculate }
  | .recalculate => s.recalculateWaitTime timeout
  | .wait =>
      if s.word = isNotReady then
        { s with place := .blocked (s.waitTime.map fun t => s.clock + t.toNanosec) }
      else { s with place := .recheckPred }
  | .recheckPred =>
      if s.pred then { s with place := .returned (.code .success) }
      else { s with place := .exchange, tryCount := s.tryCount + 1 }
  | .blocked _ | .returned _ => s

def run (timeout : Int) : TimedStep → TimedWait → TimedWait
  | .futexWait, s => s.futexWait timeout
  | .wake, s => { s with place := .recheckPred }
  | .expire, s => { s with place := .returned .timeout }
  | .store word pred, s => { s with word := word, pred := pred }
  | .tick nanosec, s => { s with clock := s.clock + nanosec }

/-- The thread is in the kernel until a time, or until it is woken. -/
def BlockedUntil (s : TimedWait) (until? : Option Int) : Prop := s.place = .blocked until?

def Blocked (s : TimedWait) : Prop := ∃ until?, s.BlockedUntil until?

def Returned (s : TimedWait) : Prop := ∃ code, s.place = .returned code

/-- The thread moves when it is neither in the kernel nor through, and the kernel lets it go for
its time when that is over. -/
def Enabled (s : TimedWait) : TimedStep → Prop
  | .futexWait => ¬s.Blocked ∧ ¬s.Returned
  | .wake => s.Blocked
  | .expire => ∃ u, s.BlockedUntil (some u) ∧ u ≤ s.clock
  | _ => True

/-- A call with this timeout, at any time and with any word. -/
def machine (timeout : Int) : Machine TimedWait TimedStep where
  init := fun s => ∃ word pred clock, s = { word := word, pred := pred, clock := clock }
  step := fun s l t => s.Enabled l ∧ t = run timeout l s

variable {timeout : Int} {s t : TimedWait} {l : TimedStep}

/-! ### What the kernel is asked for -/

/-- The time until the call has lasted as long as it may, seen from the last look at the clock. -/
def remaining (timeout : Int) (s : TimedWait) : Int := timeout - (s.lookedAt - s.timeIn)

/-- The thread has looked at the clock when there was time left, and asks for that time. -/
structure Asks (timeout : Int) (s : TimedWait) : Prop where
  since : s.timeIn ≤ s.lookedAt
  looked : s.lookedAt ≤ s.clock
  left : 0 < s.remaining timeout
  asks : s.waitTime = some (timeoutToRelativeTime (s.remaining timeout))

/-- What is known of the times at a place of `FutexWait`. -/
def Timely (timeout : Int) (s : TimedWait) : Prop :=
  match s.place with
  | .checkParams | .readClock | .returned (.code _) => True
  | .exchange | .checkPred | .recalculate | .wait | .recheckPred => s.Asks timeout
  | .blocked until? => s.Asks timeout ∧ ∃ entered, s.lookedAt ≤ entered ∧ entered ≤ s.clock ∧
      until? = some (entered + s.remaining timeout)
  | .returned .timeout => s.timeIn + timeout ≤ s.clock

/-- The thread goes on with the times it has, and the clock may have gone on too. -/
theorem Asks.later (h : s.Asks timeout) (hclock : s.clock ≤ t.clock) (htimeIn : t.timeIn = s.timeIn)
    (hlookedAt : t.lookedAt = s.lookedAt) (hwaitTime : t.waitTime = s.waitTime) :
    t.Asks timeout where
  since := by rw [htimeIn, hlookedAt]; exact h.since
  looked := by rw [hlookedAt]; exact h.looked.trans hclock
  left := by rw [remaining, htimeIn, hlookedAt]; exact h.left
  asks := by rw [remaining, htimeIn, hlookedAt, hwaitTime]; exact h.asks

/-- Time passes and the others do something, and the thread does nothing. -/
theorem Timely.later (h : s.Timely timeout) (hclock : s.clock ≤ t.clock)
    (hplace : t.place = s.place) (htimeIn : t.timeIn = s.timeIn)
    (hlookedAt : t.lookedAt = s.lookedAt) (hwaitTime : t.waitTime = s.waitTime) :
    t.Timely timeout := by
  have hasks : s.Asks timeout → t.Asks timeout := fun h =>
    h.later hclock htimeIn hlookedAt hwaitTime
  unfold Timely at h ⊢
  rw [hplace]
  cases hp : s.place with
  | checkParams => exact trivial
  | readClock => exact trivial
  | blocked until? =>
      rw [hp] at h
      obtain ⟨hold, entered, hlooked, hentered, heq⟩ := h
      refine ⟨hasks hold, entered, hlookedAt ▸ hlooked, hentered.trans hclock, ?_⟩
      rw [heq, remaining, remaining, htimeIn, hlookedAt]
  | returned code =>
      rw [hp] at h
      cases code with
      | timeout => exact (htimeIn ▸ h : t.timeIn + timeout ≤ s.clock).trans hclock
      | code c => exact trivial
  | _ =>
      rw [hp] at h
      exact hasks h

theorem timely_recalculateWaitTime (hpos : 0 < timeout) (h : s.Asks timeout) :
    (s.recalculateWaitTime timeout).Timely timeout := by
  have hsince := h.since
  have hlooked := h.looked
  unfold recalculateWaitTime
  rw [if_neg (not_le.mpr hpos)]
  dsimp only
  split
  · next hover =>
      have hup : s.timeIn + timeout ≤ s.clock := by omega
      exact hup
  · next hleft =>
      have hagain : Asks timeout
          { s with
            place := .wait
            waitTime := some (timeoutToRelativeTime (timeout - (s.clock - s.timeIn)))
            lookedAt := s.clock } := by
        refine ⟨?_, le_refl s.clock, ?_, rfl⟩
        · exact hsince.trans hlooked
        · simp only [remaining]
          omega
      exact hagain

theorem timely_futexWait (hpos : 0 < timeout) (h : s.Timely timeout) :
    (s.futexWait timeout).Timely timeout := by
  unfold futexWait
  cases hplace : s.place with
  | checkParams =>
      dsimp only
      split <;> exact trivial
  | readClock =>
      have hfirst : Asks timeout
          { s with
            place := .exchange
            timeIn := s.clock
            waitTime := if timeout > 0 then some (timeoutToRelativeTime timeout) else none
            lookedAt := s.clock } := by
        refine ⟨le_refl s.clock, le_refl s.clock, ?_, ?_⟩
        · simpa [remaining] using hpos
        · simp [remaining, hpos]
      exact hfirst
  | exchange =>
      have hasks : s.Asks timeout := by simpa only [Timely, hplace] using h
      dsimp only
      split
      · split
        · exact hasks.later (le_refl _) rfl rfl rfl
        · split
          · exact trivial
          · exact hasks.later (le_refl _) rfl rfl rfl
      · exact trivial
  | checkPred =>
      have hasks : s.Asks timeout := by simpa only [Timely, hplace] using h
      dsimp only
      split
      · exact trivial
      · exact hasks.later (le_refl _) rfl rfl rfl
  | recalculate =>
      have hasks : s.Asks timeout := by simpa only [Timely, hplace] using h
      exact timely_recalculateWaitTime hpos hasks
  | wait =>
      have hasks : s.Asks timeout := by simpa only [Timely, hplace] using h
      dsimp only
      split
      · refine ⟨hasks.later (le_refl _) rfl rfl rfl, s.clock, hasks.looked,
          le_refl s.clock, ?_⟩
        rw [hasks.asks, Option.map_some, toNanosec_timeoutToRelativeTime]
        rfl
      · exact hasks.later (le_refl _) rfl rfl rfl
  | recheckPred =>
      have hasks : s.Asks timeout := by simpa only [Timely, hplace] using h
      dsimp only
      split
      · exact trivial
      · exact hasks.later (le_refl _) rfl rfl rfl
  | blocked until? =>
      change s.Timely timeout
      exact h
  | returned code =>
      change s.Timely timeout
      exact h

theorem timely_step (hpos : 0 < timeout) (h : s.Timely timeout)
    (hstep : (machine timeout).step s l t) : t.Timely timeout := by
  obtain ⟨henabled, rfl⟩ := hstep
  cases l with
  | futexWait => exact timely_futexWait hpos h
  | wake =>
      obtain ⟨until?, hblocked⟩ := henabled
      rw [Timely, hblocked] at h
      have hasks : Asks timeout { s with place := .recheckPred } := h.1.later (le_refl _) rfl rfl rfl
      exact hasks
  | expire =>
      obtain ⟨u, hblocked, hover⟩ := henabled
      rw [Timely, hblocked] at h
      obtain ⟨hasks, entered, hlooked, _, heq⟩ := h
      have hu := Option.some.inj heq
      have hup : s.timeIn + timeout ≤ s.clock := by
        unfold remaining at hu
        omega
      exact hup
  | store word pred => exact h.later (le_refl _) rfl rfl rfl rfl
  | tick nanosec =>
      exact h.later (Int.le_add_of_nonneg_right (Int.natCast_nonneg _)) rfl rfl rfl rfl

theorem clock_recalculateWaitTime (timeout : Int) (s : TimedWait) :
    (s.recalculateWaitTime timeout).clock = s.clock := by
  unfold recalculateWaitTime
  dsimp only
  split
  · rfl
  · split <;> rfl

theorem clock_futexWait (timeout : Int) (s : TimedWait) :
    (s.futexWait timeout).clock = s.clock := by
  unfold futexWait
  cases s.place with
  | exchange =>
      dsimp only
      split
      · split
        · rfl
        · split <;> rfl
      · rfl
  | recalculate => exact clock_recalculateWaitTime timeout s
  | readClock => rfl
  | blocked until? => rfl
  | returned code => rfl
  | _ => dsimp only; split <;> rfl

/-- Nothing turns the clock back. -/
theorem clock_le_run (l : TimedStep) (s : TimedWait) : s.clock ≤ (run timeout l s).clock := by
  cases l with
  | futexWait => exact (clock_futexWait timeout s).ge
  | tick nanosec => exact Int.le_add_of_nonneg_right (Int.natCast_nonneg _)
  | _ => exact le_refl _

theorem timely_reachable (hpos : 0 < timeout) (reach : (machine timeout).Reachable s) :
    s.Timely timeout := by
  apply reach.invariant fun s => s.Timely timeout
  · rintro _ ⟨word, pred, clock, rfl⟩
    exact trivial
  · exact fun s l t _ h _ hstep => timely_step hpos h hstep

/-- The kernel lets the thread go when the call has lasted as long as it may, but for what passed
between the look at the clock and the wait. -/
theorem Timely.blockedUntil (h : s.Timely timeout) {until? : Option Int}
    (hblocked : s.BlockedUntil until?) : ∃ entered, s.lookedAt ≤ entered ∧ entered ≤ s.clock ∧
      until? = some (s.timeIn + timeout + (entered - s.lookedAt)) := by
  rw [Timely, hblocked] at h
  obtain ⟨_, entered, hlooked, hentered, heq⟩ := h
  refine ⟨entered, hlooked, hentered, heq.trans (congrArg some ?_)⟩
  rw [remaining]
  omega

/-- The times of a wait. What the kernel is given is a valid time that is over when the call has
lasted as long as it may, but for what passes between the look at the clock and the wait, and the
call does not report a timeout before. -/
structure Punctual (timeout : Int) (s : TimedWait) : Prop where
  asked : s.place = .wait → ∃ waitTime, s.waitTime = some waitTime ∧ waitTime.Valid ∧
    0 < waitTime.toNanosec ∧ s.lookedAt + waitTime.toNanosec = s.timeIn + timeout
  blocked : ∀ until?, s.BlockedUntil until? → ∃ entered, s.lookedAt ≤ entered ∧
    entered ≤ s.clock ∧ until? = some (s.timeIn + timeout + (entered - s.lookedAt))
  timedOut : s.place = .returned .timeout → s.timeIn + timeout ≤ s.clock

theorem timed_wait_punctual (hpos : 0 < timeout) (reach : (machine timeout).Reachable s) :
    s.Punctual timeout := by
  have htimely := timely_reachable hpos reach
  constructor
  · intro hplace
    rw [Timely, hplace] at htimely
    have hleft := htimely.left
    refine ⟨_, htimely.asks, valid_timeoutToRelativeTime hleft.le, ?_, ?_⟩
    · rwa [toNanosec_timeoutToRelativeTime]
    · rw [toNanosec_timeoutToRelativeTime, remaining]
      omega
  · exact fun until? => htimely.blockedUntil
  · intro hreturned
    rwa [Timely, hreturned] at htimely

/-- The thread is in `FutexWait` and not in the kernel. -/
def outside (s : TimedWait) : Bool :=
  match s.place with
  | .blocked _ | .returned _ => false
  | _ => true

theorem enabled_of_outside (h : s.outside = true) : s.Enabled .futexWait := by
  constructor
  · rintro ⟨until?, hblocked⟩
    rw [outside, hblocked] at h
    contradiction
  · rintro ⟨code, hreturned⟩
    rw [outside, hreturned] at h
    contradiction

/-- Some steps of the thread alone. -/
def alone (timeout : Int) : Nat → TimedWait → TimedWait
  | 0, s => s
  | n + 1, s => alone timeout n (s.futexWait timeout)

theorem reachable_alone (n : Nat) (reach : (machine timeout).Reachable s)
    (h : ∀ k < n, (alone timeout k s).outside = true) :
    (machine timeout).Reachable (alone timeout n s) := by
  induction n generalizing s with
  | zero => exact reach
  | succ n ih =>
      have hfirst : s.outside = true := h 0 (Nat.succ_pos n)
      have hnext := reach.step (l := .futexWait) trivial ⟨enabled_of_outside hfirst, rfl⟩
      exact ih hnext fun k hk => h (k + 1) (Nat.succ_lt_succ hk)

/-- A wait for two milliseconds by a thread that is held up before it enters the kernel. -/
def asleep : TimedWait :=
  let asking := alone 2000000 5 { word := isReady, pred := false, clock := 100 }
  { asking with clock := 110 }.futexWait 2000000

theorem asleep_reachable : (machine 2000000).Reachable asleep := by
  have hasking := reachable_alone 5 (.init ⟨isReady, false, 100, rfl⟩)
    (by decide : ∀ k < 5, (alone 2000000 k ⟨isReady, false, 100, .checkParams, 0, none, 0,
      0⟩).outside = true)
  have hlate := hasking.step (l := TimedStep.tick 10) trivial ⟨trivial, rfl⟩
  exact hlate.step (l := .futexWait) trivial ⟨enabled_of_outside rfl, rfl⟩

theorem timed_wait_punctual_asleep : asleep.Punctual 2000000 :=
  timed_wait_punctual (by decide) asleep_reachable

/-! ### The end of a wait -/

/-- The steps of the thread, and those by which the kernel lets it go. -/
def ofThread : TimedStep → Bool
  | .futexWait | .wake | .expire => true
  | _ => false

/-- The call has lasted as long as it may. -/
structure Over (timeout : Int) (s : TimedWait) : Prop where
  entered : s.place ≠ .checkParams ∧ s.place ≠ .readClock
  up : s.timeIn + timeout ≤ s.clock

/-- The steps to the next look at the clock, or out of the call. -/
def stepsLeft (s : TimedWait) : Nat :=
  match s.place with
  | .wait => 6
  | .blocked _ => 5
  | .recheckPred => 4
  | .exchange => 3
  | .checkPred => 2
  | .recalculate => 1
  | .checkParams | .readClock | .returned _ => 0

theorem over_futexWait (hpos : 0 < timeout) (h : s.Over timeout) (hblocked : ¬s.Blocked)
    (hreturned : ¬s.Returned) :
    (s.futexWait timeout).Over timeout ∧ (s.futexWait timeout).stepsLeft < s.stepsLeft := by
  obtain ⟨⟨hparams, hread⟩, hup⟩ := h
  unfold futexWait
  cases hplace : s.place with
  | checkParams => contradiction
  | readClock => contradiction
  | blocked until? => exact absurd ⟨until?, hplace⟩ hblocked
  | returned code => exact absurd ⟨code, hplace⟩ hreturned
  | recalculate =>
      dsimp only
      unfold recalculateWaitTime
      have hover : s.clock - s.timeIn ≥ timeout := by omega
      rw [if_neg (not_le.mpr hpos)]
      dsimp only
      rw [if_pos hover]
      exact ⟨⟨by simp, hup⟩, by simp [stepsLeft, hplace]⟩
  | exchange =>
      dsimp only
      split
      · split
        · exact ⟨⟨by simp, hup⟩, by simp [stepsLeft, hplace]⟩
        · split <;> exact ⟨⟨by simp, hup⟩, by simp [stepsLeft, hplace]⟩
      · exact ⟨⟨by simp, hup⟩, by simp [stepsLeft, hplace]⟩
  | checkPred => dsimp only; split <;> exact ⟨⟨by simp, hup⟩, by simp [stepsLeft, hplace]⟩
  | wait => dsimp only; split <;> exact ⟨⟨by simp, hup⟩, by simp [stepsLeft, hplace]⟩
  | recheckPred => dsimp only; split <;> exact ⟨⟨by simp, hup⟩, by simp [stepsLeft, hplace]⟩

theorem countdown_over (hpos : 0 < timeout) :
    (machine timeout).Countdown (fun _ => True) (Over timeout) ofThread stepsLeft := by
  have hstep : ∀ s l t, s.Over timeout → (machine timeout).step s l t →
      t.Over timeout ∧ (ofThread l = true → t.stepsLeft < s.stepsLeft) ∧
        (ofThread l = false → t.stepsLeft ≤ s.stepsLeft) := by
    rintro s l _ hover ⟨henabled, rfl⟩
    cases l with
    | futexWait =>
        obtain ⟨hnext, hlower⟩ := over_futexWait hpos hover henabled.1 henabled.2
        exact ⟨hnext, fun _ => hlower, fun h => by contradiction⟩
    | wake =>
        obtain ⟨until?, hblocked⟩ := henabled
        refine ⟨⟨by simp [run], hover.up⟩, fun _ => ?_, fun h => by contradiction⟩
        rw [stepsLeft, stepsLeft, hblocked]
        simp [run]
    | expire =>
        obtain ⟨u, hblocked, _⟩ := henabled
        refine ⟨⟨by simp [run], hover.up⟩, fun _ => ?_, fun h => by contradiction⟩
        rw [stepsLeft, stepsLeft, hblocked]
        simp [run]
    | store word pred =>
        exact ⟨⟨hover.entered, hover.up⟩, fun h => by contradiction, fun _ => le_refl _⟩
    | tick nanosec =>
        refine ⟨⟨hover.entered, ?_⟩, fun h => by contradiction, fun _ => le_refl _⟩
        exact hover.up.trans (Int.le_add_of_nonneg_right (Int.natCast_nonneg _))
  constructor
  · exact fun s l t _ hover hmove => (hstep s l t hover hmove).1
  · exact fun s l t _ hover hmove => (hstep s l t hover hmove).2.1
  · exact fun s l t _ hover hmove => (hstep s l t hover hmove).2.2

/-- The thread has returned, it is not in the kernel, or the kernel lets it go at a time that is
later than the call may last only by what passed between the last look at the clock and the wait. -/
def GoesOn (timeout : Int) (s : TimedWait) : Prop :=
  s.Returned ∨ s.Enabled .futexWait ∨ ∃ entered, s.lookedAt ≤ entered ∧ entered ≤ s.clock ∧
    s.BlockedUntil (some (s.timeIn + timeout + (entered - s.lookedAt)))

theorem goesOn_reachable (hpos : 0 < timeout) (reach : (machine timeout).Reachable s) :
    s.GoesOn timeout := by
  by_cases hreturned : s.Returned
  · exact Or.inl hreturned
  right
  by_cases hblocked : s.Blocked
  · obtain ⟨until?, hplace⟩ := hblocked
    obtain ⟨entered, hlooked, hentered, rfl⟩ := (timely_reachable hpos reach).blockedUntil hplace
    exact Or.inr ⟨entered, hlooked, hentered, hplace⟩
  · exact Or.inl ⟨hblocked, hreturned⟩

theorem stepsLeft_le (s : TimedWait) : s.stepsLeft ≤ 6 := by
  unfold stepsLeft
  split <;> decide

/-- A call that has lasted as long as it may takes at most six more steps, and until it has returned
it is never held up. This is so whatever the others do with the word and the predicate, and even if
nobody wakes the thread. -/
theorem timed_wait_ends (hpos : 0 < timeout) (reach : (machine timeout).Reachable s)
    (hover : s.Over timeout) {labels : List TimedStep} (run : (machine timeout).Run s labels t) :
    labels.countP ofThread ≤ 6 ∧ t.GoesOn timeout := by
  constructor
  · have hcount := ((countdown_over hpos).run hover run fun _ _ => trivial).2
    have hsix := s.stepsLeft_le
    omega
  · exact goesOn_reachable hpos (run.reachable reach)

/-- Two milliseconds later nobody has woken the thread. -/
def overslept : TimedWait := { asleep with clock := 2000110 }

theorem timed_wait_ends_overslept :
    [TimedStep.expire].countP ofThread ≤ 6 ∧ (run 2000000 .expire overslept).GoesOn 2000000 := by
  have hlate : (machine 2000000).Reachable overslept :=
    asleep_reachable.step (l := TimedStep.tick 2000000) trivial ⟨trivial, rfl⟩
  have hplace : overslept.place = .blocked (some 2000110) := rfl
  have hover : overslept.Over 2000000 := ⟨by simp [hplace], by decide⟩
  have hexpire : overslept.Enabled .expire := ⟨2000110, rfl, le_refl _⟩
  exact timed_wait_ends (by decide) hlate hover (.snoc .nil ⟨hexpire, rfl⟩)

/-! ### The wait without its times -/

/-- Where the thread would be in a wait without a timeout. -/
def untimed (s : TimedWait) : Option Waiting :=
  match s.place with
  | .checkParams => some .checkParams
  | .readClock | .exchange => some (.exchange s.tryCount)
  | .checkPred => some (.checkPred s.tryCount)
  | .recalculate | .wait => some (.wait s.tryCount)
  | .blocked _ => some (.blocked s.tryCount)
  | .recheckPred => some (.recheckPred s.tryCount)
  | .returned (.code code) => some (.returned code)
  | .returned .timeout => none

theorem tryCount_of_checkParams (reach : (machine timeout).Reachable s)
    (hplace : s.place = .checkParams) : s.tryCount = 0 := by
  have hstart : s.place = .checkParams → s.tryCount = 0 := by
    apply reach.invariant fun s => s.place = .checkParams → s.tryCount = 0
    · rintro _ ⟨word, pred, clock, rfl⟩ _
      rfl
    · rintro s l _ _ h _ ⟨henabled, rfl⟩ hnext
      cases l with
      | wake => contradiction
      | expire => contradiction
      | store word pred => exact h hnext
      | tick nanosec => exact h hnext
      | futexWait =>
          change (s.futexWait timeout).place = .checkParams at hnext
          unfold futexWait recalculateWaitTime at hnext
          grind
  exact hstart hplace

/-- A step of the thread is the one of a wait without a timeout, or a look at the clock, or the
timeout. -/
theorem futexWait_untimed (reach : (machine timeout).Reachable s) {waiting : Waiting}
    (hwaiting : s.untimed = some waiting) :
    (s.futexWait timeout).place = .returned .timeout ∨
      (s.futexWait timeout).untimed = some waiting ∧ (s.futexWait timeout).word = s.word ∨
      (s.futexWait timeout).untimed = some (waiting.next s.word s.pred).1 ∧
        (s.futexWait timeout).word = (waiting.next s.word s.pred).2 := by
  have hfirst := tryCount_of_checkParams reach
  unfold untimed at hwaiting
  unfold futexWait
  cases hplace : s.place with
  | checkParams =>
      rw [hplace] at hwaiting
      obtain rfl := Option.some.inj hwaiting
      right; right
      dsimp only [Waiting.next]
      split
      · exact ⟨congrArg (fun n => some (Waiting.exchange n)) (hfirst hplace), rfl⟩
      · exact ⟨rfl, rfl⟩
  | readClock =>
      rw [hplace] at hwaiting
      exact Or.inr (Or.inl ⟨hwaiting, rfl⟩)
  | exchange =>
      rw [hplace] at hwaiting
      obtain rfl := Option.some.inj hwaiting
      right; right
      dsimp only [Waiting.next]
      split
      · split
        · exact ⟨rfl, rfl⟩
        · split <;> exact ⟨rfl, rfl⟩
      · exact ⟨rfl, rfl⟩
  | recalculate =>
      rw [hplace] at hwaiting
      dsimp only [recalculateWaitTime]
      split
      · exact Or.inr (Or.inl ⟨hwaiting, rfl⟩)
      · split
        · exact Or.inl rfl
        · exact Or.inr (Or.inl ⟨hwaiting, rfl⟩)
  | blocked until? =>
      rw [hplace] at hwaiting
      exact Or.inr (Or.inl ⟨by rw [untimed, hplace, hwaiting], rfl⟩)
  | returned code =>
      rw [hplace] at hwaiting
      exact Or.inr (Or.inl ⟨by rw [untimed, hplace, hwaiting], rfl⟩)
  | _ =>
      rw [hplace] at hwaiting
      obtain rfl := Option.some.inj hwaiting
      right; right
      dsimp only [Waiting.next]
      split <;> exact ⟨rfl, rfl⟩

/-- The thread is about to look at the predicate. -/
def Looks (s : TimedWait) : Prop := s.place = .checkPred ∨ s.place = .recheckPred

/-- The runs of a wait, with what the looks at the predicate have found. -/
inductive Looked (timeout : Int) : TimedWait → List Bool → Prop
  | begun {s : TimedWait} (h : (machine timeout).init s) : Looked timeout s []
  | look {s : TimedWait} {found : List Bool} (before : Looked timeout s found) (looks : s.Looks) :
      Looked timeout (s.futexWait timeout) (found ++ [s.pred])
  | other {s : TimedWait} {found : List Bool} {l : TimedStep} (before : Looked timeout s found)
      (enabled : s.Enabled l) (away : l = .futexWait → ¬s.Looks) :
      Looked timeout (run timeout l s) found

theorem looked_of_reachable (reach : (machine timeout).Reachable s) :
    ∃ found, Looked timeout s found := by
  apply reach.invariant fun s => ∃ found, Looked timeout s found
  · exact fun s h => ⟨[], .begun h⟩
  · rintro s l _ _ ⟨found, hbefore⟩ _ ⟨henabled, rfl⟩
    by_cases hlooks : l = .futexWait ∧ s.Looks
    · obtain ⟨rfl, hlooks⟩ := hlooks
      exact ⟨_, .look hbefore hlooks⟩
    · exact ⟨found, .other hbefore henabled fun hl hs => hlooks ⟨hl, hs⟩⟩

/-- A wait goes on until a look finds something, and then it has succeeded. -/
theorem Looked.found {found : List Bool} (h : Looked timeout s found) :
    true ∈ found ↔ s.place = .returned (.code .success) := by
  induction h with
  | begun h =>
      obtain ⟨word, pred, clock, rfl⟩ := h
      simp
  | @look s found before looks ih =>
      have hnone : true ∉ found := by
        rw [ih]
        rcases looks with hplace | hplace <;> simp [hplace]
      rw [List.mem_append, or_iff_right hnone, List.mem_singleton]
      unfold futexWait
      rcases looks with hplace | hplace <;> rw [hplace] <;> cases s.pred <;> simp
  | @other s found l before enabled away ih =>
      rw [ih]
      cases l with
      | store word pred => exact Iff.rfl
      | tick nanosec => exact Iff.rfl
      | wake =>
          obtain ⟨until?, hblocked⟩ := enabled
          simp [run, show s.place = .blocked until? from hblocked]
      | expire =>
          obtain ⟨u, hblocked, _⟩ := enabled
          simp [run, show s.place = .blocked (some u) from hblocked]
      | futexWait =>
          have haway := away rfl
          have hnot := enabled.2
          unfold Looks at haway
          unfold Returned at hnot
          unfold run futexWait recalculateWaitTime
          grind

/-- The code that a wait ends with is the one of its looks. -/
theorem Looked.code {found : List Bool} (h : Looked timeout s found) {code : TimedFutexCode}
    (hreturned : s.place = .returned code) :
    ∃ unavailing ≠ TimedFutexCode.code .success, code = lookedCode unavailing found := by
  have hfound := h.found
  rw [hreturned] at hfound
  by_cases hsuccess : code = .code .success
  · refine ⟨.timeout, nofun, ?_⟩
    rw [lookedCode, if_pos (hfound.mpr (congrArg _ hsuccess)), hsuccess]
  · refine ⟨code, hsuccess, (if_neg fun hmem => hsuccess ?_).symm⟩
    exact WaitPlace.returned.inj (hfound.mp hmem)

end TimedWait

end MidiFramework.Client
