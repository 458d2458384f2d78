import MidiFramework.Client.TimedWait

/-!
# The time a SysEx message may take

`SendSysExPackets` offers packets to the ring and waits for space in slices of two
milliseconds, for two seconds at most. What the ring takes and what the futex says is up
to others, and so is how long the thread is held up between two steps. The call does not
give up before the two seconds are over, and it comes back soon after, even if the ring
stays full and nobody wakes the thread.
-/

namespace MidiFramework.Client

open Foundation SharedRing Common

/-- `WAIT_SLICE_NS`. -/
def waitSliceNs : Int := 2 * 1000 * 1000

/-- `MAX_TIMEOUT_MS` in nanoseconds. -/
def maxTimeoutNs : Int := 2000 * 1000 * 1000

/-- Where the thread is in `SendSysExPackets`. -/
inductive SendPlace
  | round
  | offer
  | waiting
  | returned (status : OHMIDIStatusCode)
  deriving DecidableEq

/-- The call with the wait it is in, which has the clock. -/
structure TimedSend where
  wait : TimedWait
  place : SendPlace := .round
  writtenInBatch : Nat := 0
  start : Int

/-- What happens next: the top of the loop, a call of `TryWriteEvents` with its answer, the return of
`WaitForSpace`, and what happens within the wait or apart from the thread. -/
inductive SendStep
  | round
  | offer (writtenThis : Nat) (ret : MidiStatusCode)
  | waited
  | during (l : TimedStep)

namespace TimedSend

/-- `WaitForSpace` is called. -/
def startWait (s : TimedSend) : TimedSend :=
  { s with
    place := .waiting
    wait := { word := s.wait.word, pred := s.wait.pred, clock := s.wait.clock } }

/-- The condition of the loop and the look at the clock. -/
def enterRound (pktCount : Nat) (s : TimedSend) : TimedSend :=
  if s.writtenInBatch < pktCount then
    if s.wait.clock - s.start > maxTimeoutNs then { s with place := .returned .timeout }
    else { s with place := .offer }
  else { s with place := .returned .ok }

/-- What follows `TryWriteEvents`. -/
def afterOffer (pktCount writtenThis : Nat) (ret : MidiStatusCode) (s : TimedSend) : TimedSend :=
  let s := { s with writtenInBatch := s.writtenInBatch + writtenThis }
  if s.writtenInBatch = pktCount then { s with place := .returned .ok }
  else if ret ≠ .wouldBlock then { s with place := .returned (getStatusCode ret) }
  else if writtenThis = 0 then s.startWait
  else { s with place := .round }

/-- What follows `WaitForSpace`. -/
def afterWait (s : TimedSend) : TimedSend :=
  match s.wait.place with
  | .returned .timeout => { s with place := .round }
  | .returned (.code .success) => { s with place := .round }
  | .returned (.code _) => { s with place := .returned .systemError }
  | _ => s

def run (pktCount : Nat) : SendStep → TimedSend → TimedSend
  | .round, s => s.enterRound pktCount
  | .offer writtenThis ret, s => s.afterOffer pktCount writtenThis ret
  | .waited, s => s.afterWait
  | .during l, s => { s with wait := TimedWait.run waitSliceNs l s.wait }

/-- The steps of the thread, within the wait too. -/
def ofThread : SendStep → Bool
  | .during l => TimedWait.ofThread l
  | _ => true

/-- The ring takes no more packets than it is offered. -/
def Enabled (pktCount : Nat) (s : TimedSend) : SendStep → Prop
  | .round => s.place = .round
  | .offer writtenThis _ => s.place = .offer ∧ s.writtenInBatch + writtenThis ≤ pktCount
  | .waited => s.place = .waiting ∧ s.wait.Returned
  | .during l => s.wait.Enabled l ∧ (TimedWait.ofThread l = true → s.place = .waiting)

/-- A call with so many packets, begun at any time. -/
def machine (pktCount : Nat) : Machine TimedSend SendStep where
  init := fun s => ∃ word pred clock,
    s = { wait := { word := word, pred := pred, clock := clock }, start := clock }
  step := fun s l t => s.Enabled pktCount l ∧ t = run pktCount l s

variable {pktCount : Nat} {s t : TimedSend} {l : SendStep}

/-! ### The rounds of the loop -/

/-- The place of the loop between two rounds. -/
def loop (pktCount : Nat) (s : TimedSend) : Option SendLoop :=
  match s.place with
  | .round => some (.enter pktCount s.writtenInBatch)
  | .returned status => some (.returned status)
  | .offer | .waiting => none

/-- The top of the loop is that of a round. -/
theorem loop_enterRound (pktCount : Nat) (s : TimedSend) :
    (s.enterRound pktCount).loop pktCount =
      if s.writtenInBatch < pktCount then
        if s.wait.clock - s.start > maxTimeoutNs then some (.returned .timeout) else none
      else some (.returned .ok) := by
  unfold enterRound
  split
  · split <;> rfl
  · rfl

/-- What follows `TryWriteEvents` is what follows it in a round. -/
theorem loop_afterOffer (pktCount writtenThis : Nat) (ret : MidiStatusCode) (s : TimedSend) :
    (s.afterOffer pktCount writtenThis ret).loop pktCount =
      SendLoop.afterWrite pktCount s.writtenInBatch writtenThis ret := by
  unfold afterOffer SendLoop.afterWrite
  dsimp only
  split
  · rfl
  split
  · rfl
  split <;> rfl

/-- What follows `WaitForSpace` is what follows it in a round. -/
theorem loop_afterWait (pktCount : Nat) {code : TimedFutexCode}
    (hcode : s.wait.place = .returned code) :
    s.afterWait.loop pktCount = some (SendLoop.afterWait pktCount s.writtenInBatch code) := by
  unfold afterWait
  rw [hcode]
  cases code with
  | timeout => rfl
  | code c => cases c <;> rfl

/-! ### Waits and the clock -/

/-- The wait is one of `FutexWait`, and the call has lasted two seconds when it says so. -/
structure Timely (s : TimedSend) : Prop where
  waits : s.place = .waiting → (TimedWait.machine waitSliceNs).Reachable s.wait
  timedOut : s.place = .returned .timeout → s.start + maxTimeoutNs < s.wait.clock

theorem getStatusCode_ne_timeout (ret : MidiStatusCode) : getStatusCode ret ≠ .timeout := by
  cases ret <;> decide

theorem timely_enterRound (s : TimedSend) : (s.enterRound pktCount).Timely := by
  unfold enterRound
  split
  · split
    · next hlate =>
        have hup : s.start + maxTimeoutNs < s.wait.clock := by omega
        exact ⟨by simp, fun _ => hup⟩
    · exact ⟨by simp, by simp⟩
  · exact ⟨by simp, by simp⟩

theorem timely_afterOffer (s : TimedSend) (writtenThis : Nat) (ret : MidiStatusCode) :
    (s.afterOffer pktCount writtenThis ret).Timely := by
  unfold afterOffer
  dsimp only
  split
  · exact ⟨by simp, by simp⟩
  · split
    · refine ⟨by simp, fun htimeout => ?_⟩
      exact absurd (SendPlace.returned.inj htimeout) (getStatusCode_ne_timeout ret)
    · split
      · exact ⟨fun _ => .init ⟨s.wait.word, s.wait.pred, s.wait.clock, rfl⟩, by simp [startWait]⟩
      · exact ⟨by simp, by simp⟩

theorem timely_afterWait (h : s.Timely) : s.afterWait.Timely := by
  unfold afterWait
  split
  · exact ⟨by simp, by simp⟩
  · exact ⟨by simp, by simp⟩
  · exact ⟨by simp, by simp⟩
  · exact h

theorem timely_step (h : s.Timely) (hstep : (machine pktCount).step s l t) : t.Timely := by
  obtain ⟨henabled, rfl⟩ := hstep
  cases l with
  | round => exact timely_enterRound s
  | offer writtenThis ret => exact timely_afterOffer s writtenThis ret
  | waited => exact timely_afterWait h
  | during l =>
      constructor
      · exact fun hplace => (h.waits hplace).step (l := l) trivial ⟨henabled.1, rfl⟩
      · exact fun hplace => (h.timedOut hplace).trans_le (TimedWait.clock_le_run l s.wait)

theorem timely_reachable (reach : (machine pktCount).Reachable s) : s.Timely := by
  apply reach.invariant fun s => s.Timely
  · rintro _ ⟨word, pred, clock, rfl⟩
    exact ⟨by simp, by simp⟩
  · exact fun s l t _ h _ hstep => timely_step h hstep

/-- A timeout is reported only when more than two seconds have passed. -/
theorem timed_out_late (reach : (machine pktCount).Reachable s)
    (hplace : s.place = .returned .timeout) : s.start + maxTimeoutNs < s.wait.clock :=
  (timely_reachable reach).timedOut hplace

/-! ### The end of the call -/

/-- The two seconds are over, the ring is not being offered anything, and a wait has lasted its
slice. -/
structure Overdue (s : TimedSend) : Prop where
  late : s.start + maxTimeoutNs < s.wait.clock
  notOffering : s.place ≠ .offer
  waited : s.place = .waiting → s.wait.Over waitSliceNs

/-- The steps to the next look at the clock, or out of the call. -/
def stepsLeft (s : TimedSend) : Nat :=
  match s.place with
  | .waiting => s.wait.stepsLeft + 2
  | .round => 1
  | .offer | .returned _ => 0

theorem overdue_enterRound (h : s.Overdue) (hplace : s.place = .round) :
    (s.enterRound pktCount).Overdue ∧ (s.enterRound pktCount).stepsLeft < s.stepsLeft := by
  have hlate := h.late
  unfold enterRound
  split
  · have hover : s.wait.clock - s.start > maxTimeoutNs := by omega
    rw [if_pos hover]
    exact ⟨⟨hlate, by simp, by simp⟩, by simp [stepsLeft, hplace]⟩
  · exact ⟨⟨hlate, by simp, by simp⟩, by simp [stepsLeft, hplace]⟩

theorem overdue_afterWait (h : s.Overdue) (hplace : s.place = .waiting)
    (hreturned : s.wait.Returned) :
    s.afterWait.Overdue ∧ s.afterWait.stepsLeft < s.stepsLeft := by
  have hlate := h.late
  obtain ⟨code, hcode⟩ := hreturned
  unfold afterWait
  rw [hcode]
  cases code with
  | timeout => exact ⟨⟨hlate, by simp, by simp⟩, by simp [stepsLeft, hplace]⟩
  | code c => cases c <;> exact ⟨⟨hlate, by simp, by simp⟩, by simp [stepsLeft, hplace]⟩

theorem countdown_overdue :
    (machine pktCount).Countdown (fun _ => True) Overdue ofThread stepsLeft := by
  have hwait := TimedWait.countdown_over (by decide : 0 < waitSliceNs)
  have hstep : ∀ s l t, s.Overdue → (machine pktCount).step s l t →
      t.Overdue ∧ (ofThread l = true → t.stepsLeft < s.stepsLeft) ∧
        (ofThread l = false → t.stepsLeft ≤ s.stepsLeft) := by
    rintro s l _ hover ⟨henabled, rfl⟩
    cases l with
    | round =>
        obtain ⟨hnext, hlower⟩ := overdue_enterRound hover henabled
        exact ⟨hnext, fun _ => hlower, fun h => by contradiction⟩
    | offer writtenThis ret => exact absurd henabled.1 hover.notOffering
    | waited =>
        obtain ⟨hnext, hlower⟩ := overdue_afterWait hover henabled.1 henabled.2
        exact ⟨hnext, fun _ => hlower, fun h => by contradiction⟩
    | during l =>
        have hmove : (TimedWait.machine waitSliceNs).step s.wait l
            (TimedWait.run waitSliceNs l s.wait) := ⟨henabled.1, rfl⟩
        refine ⟨⟨?_, hover.notOffering, ?_⟩, ?_, ?_⟩
        · exact hover.late.trans_le (TimedWait.clock_le_run l s.wait)
        · exact fun hplace => hwait.stays _ _ _ trivial (hover.waited hplace) hmove
        · intro hthread
          have hplace := henabled.2 hthread
          have hlower := hwait.lowers _ _ _ trivial (hover.waited hplace) hmove hthread
          simpa [stepsLeft, run, hplace] using hlower
        · intro hothers
          unfold stepsLeft run
          cases hplace : s.place with
          | waiting =>
              have hkeep := hwait.keeps _ _ _ trivial (hover.waited hplace) hmove hothers
              simpa using hkeep
          | _ => exact le_refl _
  constructor
  · exact fun s l t _ hover hmove => (hstep s l t hover hmove).1
  · exact fun s l t _ hover hmove => (hstep s l t hover hmove).2.1
  · exact fun s l t _ hover hmove => (hstep s l t hover hmove).2.2

/-- The call has returned, it has a step to take, or it is in a wait that goes on. -/
def GoesOn (s : TimedSend) : Prop :=
  (∃ status, s.place = .returned status) ∨ s.place = .round ∨ s.place = .offer ∨
    s.place = .waiting ∧ s.wait.GoesOn waitSliceNs

/-- Once the two seconds are over, and the slice of the wait that the call may be in is too,
`SendSysExPackets` takes at most eight more steps, and until it has returned it is never held up,
whatever the ring and the others do. -/
theorem send_ends (reach : (machine pktCount).Reachable s) (hover : s.Overdue)
    {labels : List SendStep} (run : (machine pktCount).Run s labels t) :
    labels.countP ofThread ≤ 8 ∧ t.GoesOn := by
  constructor
  · have hcount := (countdown_overdue.run hover run fun _ _ => trivial).2
    have hsix := s.wait.stepsLeft_le
    have height : s.stepsLeft ≤ 8 := by
      unfold stepsLeft
      split <;> omega
    omega
  · cases hplace : t.place with
    | returned status => exact Or.inl ⟨status, hplace⟩
    | round => exact Or.inr (Or.inl hplace)
    | offer => exact Or.inr (Or.inr (Or.inl hplace))
    | waiting =>
        have hwaits := (timely_reachable (run.reachable reach)).waits hplace
        exact Or.inr (Or.inr (Or.inr ⟨hplace, TimedWait.goesOn_reachable (by decide) hwaits⟩))

/-- The thread of a call that waits takes some steps alone. -/
theorem reachable_alone (n : Nat) (reach : (machine pktCount).Reachable s)
    (hplace : s.place = .waiting)
    (h : ∀ k < n, (TimedWait.alone waitSliceNs k s.wait).outside = true) :
    (machine pktCount).Reachable { s with wait := TimedWait.alone waitSliceNs n s.wait } := by
  induction n generalizing s with
  | zero => exact reach
  | succ n ih =>
      have hfirst : s.wait.outside = true := h 0 (Nat.succ_pos n)
      have hnext := reach.step (l := SendStep.during .futexWait) trivial
        ⟨⟨TimedWait.enabled_of_outside hfirst, fun _ => hplace⟩, rfl⟩
      exact ih hnext hplace fun k hk => h (k + 1) (Nat.succ_lt_succ hk)

/-- A call that finds the ring full. -/
def refused : TimedSend :=
  run 1 (.offer 0 .wouldBlock) (run 1 .round
    { wait := { word := isReady, pred := false, clock := 0 }, start := 0 })

/-- Nobody has woken the thread, and three seconds are over. -/
def forgotten : TimedSend :=
  run 1 (.during (.tick 3000000000)) { refused with wait := .alone waitSliceNs 6 refused.wait }

theorem send_ends_forgotten :
    [SendStep.during .expire, .waited, .round].countP ofThread ≤ 8 ∧
      (run 1 .round (run 1 .waited (run 1 (.during .expire) forgotten))).GoesOn := by
  have hbegun : (machine 1).Reachable
      { wait := { word := isReady, pred := false, clock := 0 }, start := 0 } :=
    .init ⟨isReady, false, 0, rfl⟩
  have hround := hbegun.step (l := SendStep.round) trivial ⟨rfl, rfl⟩
  have hrefused : (machine 1).Reachable refused :=
    hround.step (l := SendStep.offer 0 .wouldBlock) trivial ⟨⟨rfl, by decide⟩, rfl⟩
  have hasleep := reachable_alone 6 hrefused rfl (by decide)
  have hforgotten : (machine 1).Reachable forgotten :=
    hasleep.step (l := SendStep.during (.tick 3000000000)) trivial
      ⟨⟨trivial, fun h => by contradiction⟩, rfl⟩
  have hblocked : forgotten.wait.place = .blocked (some 2000000) := rfl
  have hover : forgotten.Overdue := by
    refine ⟨by decide, by decide, fun _ => ⟨by simp [hblocked], by decide⟩⟩
  have hexpire : forgotten.Enabled 1 (.during .expire) :=
    ⟨⟨2000000, hblocked, by decide⟩, fun _ => rfl⟩
  have hrun := ((Machine.Run.nil (M := machine 1)).snoc ⟨hexpire, rfl⟩).snoc
    (l := SendStep.waited) ⟨⟨rfl, .timeout, rfl⟩, rfl⟩
  exact send_ends hforgotten hover (hrun.snoc (l := SendStep.round) ⟨rfl, rfl⟩)

end TimedSend

end MidiFramework.Client
