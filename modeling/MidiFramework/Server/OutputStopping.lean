import MidiFramework.Foundation.Countdown

/-!
# The thread of an output connection

`Start` makes the worker thread and `Stop` ends it: it clears `running_`, writes to the
eventfd that the worker waits for, and joins. The worker empties the eventfd at every
wakeup; clients write to it too, and so does `UpdateNextTimer`. Wherever the worker is
when it is stopped, it does not wait for good, and it comes to its end after the wakeup
it is in.

## Implementation notes

`HandleWakeupOnce` is one step of the worker. `Start` and `Stop` are called under the
lock of the controller, so they do not overlap. An eventfd that is written beyond its
greatest value keeps it, since the write fails. A read of an eventfd that does not block is
not interrupted.
-/

namespace MidiFramework.Server

open Foundation

/-- The greatest value of an eventfd, two less than `2 ^ 64`. -/
def maxEventFd : Nat := 0xfffffffffffffffe

/-- Where the worker is in `ThreadMain`. -/
inductive WorkerPlace
  | none
  | begin
  | loop
  | epollWait
  | drainEventFd
  | drainTimerFd
  | handleWakeupOnce
  | ended
  deriving DecidableEq

/-- Where the controller is in `Start` or `Stop`. -/
inductive CallerPlace
  | outside
  | initEpollAndFds
  | wakeWorker
  | join
  deriving DecidableEq

/-- The thread of a connection. The last flag says that a thread was assigned over one that was not
joined. -/
structure OutputThread where
  running : Bool := false
  joinable : Bool := false
  notifyEventFd : Option Nat := none
  timer : Bool := false
  worker : WorkerPlace := .none
  caller : CallerPlace := .outside
  terminated : Bool := false

/-- What a system call of the worker answers. -/
inductive SysAnswer
  | ready
  | interrupted
  | failed
  deriving DecidableEq

/-- What happens next: a call of the controller, a step of it, a step of the worker, a write of a
client or of `UpdateNextTimer`, or the timer. -/
inductive ThreadStep
  | start
  | init (ok kept : Bool)
  | stop
  | wake
  | join
  | worker (answer : SysAnswer)
  | notify (count : Nat)
  | expire
  deriving DecidableEq

namespace OutputThread

/-- `running_.compare_exchange_strong(expected, true)` and what follows. -/
def start (s : OutputThread) : OutputThread :=
  if s.running then s else { s with running := true, caller := .initEpollAndFds }

/-- `InitEpollAndFds`, which may leave the eventfd behind when it fails, and the rest of `Start`. -/
def init (ok kept : Bool) (s : OutputThread) : OutputThread :=
  if ok then
    { s with
      notifyEventFd := some 0
      timer := false
      joinable := true
      worker := .begin
      caller := .outside
      terminated := s.terminated || s.joinable }
  else
    { s with
      notifyEventFd := if kept then some 0 else none
      running := false
      caller := .outside }

def stop (s : OutputThread) : OutputThread :=
  if s.running then { s with running := false, caller := .wakeWorker } else s

/-- A write to the eventfd. -/
def writeEventFd (count : Nat) (s : OutputThread) : OutputThread :=
  { s with
    notifyEventFd := s.notifyEventFd.map fun n => if n + count ≤ maxEventFd then n + count else n }

def wakeWorkerByEventFd (s : OutputThread) : OutputThread :=
  { s.writeEventFd 1 with caller := .join }

/-- The join of a thread that has ended. -/
def joinWorker (s : OutputThread) : OutputThread :=
  if s.joinable then { s with joinable := false, worker := .none, caller := .outside }
  else { s with caller := .outside }

/-- The next step of `ThreadMain`. -/
def threadMain (answer : SysAnswer) (s : OutputThread) : OutputThread :=
  match s.worker with
  | .begin => { s with worker := .loop }
  | .loop => { s with worker := if s.running then .epollWait else .ended }
  | .epollWait =>
      match answer with
      | .ready => { s with worker := .drainEventFd }
      | .interrupted => { s with worker := .loop }
      | .failed => { s with worker := .ended }
  | .drainEventFd =>
      match answer with
      | .ready =>
          { s with notifyEventFd := s.notifyEventFd.map fun _ => 0, worker := .drainTimerFd }
      | _ => { s with worker := .drainTimerFd }
  | .drainTimerFd => { s with timer := false, worker := .handleWakeupOnce }
  | .handleWakeupOnce => { s with worker := .loop }
  | .none | .ended => s

def run : ThreadStep → OutputThread → OutputThread
  | .start, s => s.start
  | .init ok kept, s => s.init ok kept
  | .stop, s => s.stop
  | .wake, s => s.wakeWorkerByEventFd
  | .join, s => s.joinWorker
  | .worker answer, s => s.threadMain answer
  | .notify count, s => s.writeEventFd count
  | .expire, s => { s with timer := true }

/-- `epoll_wait` finds the eventfd or the timer readable. -/
def Readable (s : OutputThread) : Prop := (∃ n, s.notifyEventFd = some n ∧ 0 < n) ∨ s.timer = true

/-- There is a worker that has not ended. -/
def Alive (s : OutputThread) : Prop := s.worker ≠ .none ∧ s.worker ≠ .ended

def Enabled (s : OutputThread) : ThreadStep → Prop
  | .start | .stop => s.caller = .outside
  | .init _ _ => s.caller = .initEpollAndFds
  | .wake => s.caller = .wakeWorker
  | .join => s.caller = .join ∧ (s.joinable = true → s.worker = .ended)
  | .worker answer => s.Alive ∧ (s.worker = .epollWait → answer = .ready → s.Readable)
  | .notify _ | .expire => True

/-- A connection from its construction on. -/
def machine : Machine OutputThread ThreadStep where
  init := fun s => s = {}
  step := fun s l t => s.Enabled l ∧ t = run l s

variable {s t : OutputThread} {l : ThreadStep}

/-! ### What is known between the calls -/

/-- There is a thread to join exactly while the connection runs or is being stopped, and one that is
being stopped finds the eventfd written if it waits. -/
structure Sound (s : OutputThread) : Prop where
  proper : s.terminated = false
  worker : s.joinable = false → s.worker = .none
  thread : s.joinable = true → s.worker ≠ .none
  fds : s.joinable = true → ∃ n, s.notifyEventFd = some n
  outside : s.caller = .outside → s.running = s.joinable
  starting : s.caller = .initEpollAndFds → s.running = true ∧ s.joinable = false
  stopping : s.caller = .wakeWorker ∨ s.caller = .join → s.running = false ∧ s.joinable = true
  woken : s.caller = .join → s.worker = .epollWait → ∃ n, s.notifyEventFd = some n ∧ 0 < n

theorem sound_start (h : s.Sound) (hcaller : s.caller = .outside) : s.start.Sound := by
  unfold start
  split
  · exact h
  · next hrunning =>
      have hjoinable : s.joinable = false := by
        rw [← h.outside hcaller]
        exact Bool.eq_false_iff.mpr hrunning
      exact ⟨h.proper, h.worker, h.thread, h.fds, by simp, fun _ => ⟨rfl, hjoinable⟩, by simp,
        by simp⟩

theorem sound_init (h : s.Sound) (ok kept : Bool) (hcaller : s.caller = .initEpollAndFds) :
    (s.init ok kept).Sound := by
  obtain ⟨hrunning, hjoinable⟩ := h.starting hcaller
  unfold init
  split
  · refine ⟨?_, by simp, by simp, by simp, fun _ => hrunning, by simp, by simp, by simp⟩
    simp [h.proper, hjoinable]
  · refine ⟨h.proper, h.worker, h.thread, ?_, fun _ => hjoinable.symm, by simp, by simp, by simp⟩
    simp [hjoinable]

theorem sound_stop (h : s.Sound) (hcaller : s.caller = .outside) : s.stop.Sound := by
  unfold stop
  split
  · next hrunning =>
      have hjoinable : s.joinable = true := (h.outside hcaller).symm.trans hrunning
      exact ⟨h.proper, h.worker, h.thread, h.fds, by simp, by simp, fun _ => ⟨rfl, hjoinable⟩,
        by simp⟩
  · exact h

/-- A write leaves a value that is greater than zero if the one before was or if it adds one. -/
theorem writeEventFd_pos {count n : Nat} (hfd : s.notifyEventFd = some n) (h : 0 < n ∨ count = 1) :
    ∃ m, (s.writeEventFd count).notifyEventFd = some m ∧ 0 < m := by
  refine ⟨_, congrArg (Option.map _) hfd, ?_⟩
  dsimp only
  split
  · omega
  · next hfull =>
      rcases h with hpos | rfl
      · exact hpos
      · unfold maxEventFd at hfull
        omega

theorem fds_writeEventFd (h : s.Sound) (count : Nat) (hjoinable : s.joinable = true) :
    ∃ n, (s.writeEventFd count).notifyEventFd = some n := by
  obtain ⟨n, hn⟩ := h.fds hjoinable
  exact ⟨_, congrArg (Option.map _) hn⟩

theorem sound_notify (h : s.Sound) (count : Nat) : (s.writeEventFd count).Sound where
  proper := h.proper
  worker := h.worker
  thread := h.thread
  fds := fds_writeEventFd h count
  outside := h.outside
  starting := h.starting
  stopping := h.stopping
  woken := by
    intro hcaller hworker
    obtain ⟨n, hn, hpos⟩ := h.woken hcaller hworker
    exact writeEventFd_pos hn (Or.inl hpos)

theorem sound_wake (h : s.Sound) (hcaller : s.caller = .wakeWorker) :
    s.wakeWorkerByEventFd.Sound := by
  have hstopping := h.stopping (Or.inl hcaller)
  refine ⟨h.proper, h.worker, h.thread, fds_writeEventFd h 1, ?_, ?_, fun _ => hstopping,
    fun _ _ => ?_⟩
  · simp [wakeWorkerByEventFd]
  · simp [wakeWorkerByEventFd]
  · obtain ⟨n, hn⟩ := h.fds hstopping.2
    exact writeEventFd_pos hn (Or.inr rfl)

theorem sound_join (h : s.Sound) (hcaller : s.caller = .join) : s.joinWorker.Sound := by
  obtain ⟨hrunning, hjoinable⟩ := h.stopping (Or.inr hcaller)
  unfold joinWorker
  rw [if_pos hjoinable]
  exact ⟨h.proper, by simp, by simp, by simp, fun _ => hrunning, by simp, by simp, by simp⟩

/-- The worker goes to another place, which is not the wait of one that is being stopped. -/
theorem Sound.goTo (h : s.Sound) (halive : s.Alive) {place : WorkerPlace} {timer : Bool}
    (hthread : place ≠ .none) (hwaits : place = .epollWait → s.running = true) :
    Sound { s with worker := place, timer := timer } where
  proper := h.proper
  worker := fun hjoinable => absurd (h.worker hjoinable) halive.1
  thread := fun _ => hthread
  fds := h.fds
  outside := h.outside
  starting := h.starting
  stopping := h.stopping
  woken := by
    intro hcaller hplace
    have hrunning := (h.stopping (Or.inr hcaller)).1
    rw [hwaits hplace] at hrunning
    contradiction

theorem sound_threadMain (h : s.Sound) (halive : s.Alive) (answer : SysAnswer) :
    (s.threadMain answer).Sound := by
  unfold threadMain
  split
  · exact h.goTo halive (by simp) (by simp)
  · split
    · next hrunning => exact h.goTo halive (by simp) fun _ => hrunning
    · exact h.goTo halive (by simp) (by simp)
  · split <;> exact h.goTo halive (by simp) (by simp)
  · split
    · have hmoved : Sound { s with worker := .drainTimerFd } := h.goTo halive (by simp) (by simp)
      refine ⟨hmoved.proper, hmoved.worker, hmoved.thread, fun hjoinable => ?_, hmoved.outside,
        hmoved.starting, hmoved.stopping, by simp⟩
      obtain ⟨n, hn⟩ := h.fds hjoinable
      exact ⟨0, by simp [hn]⟩
    · exact h.goTo halive (by simp) (by simp)
  · exact h.goTo halive (by simp) (by simp)
  · exact h.goTo halive (by simp) (by simp)
  · exact h
  · exact h

theorem sound_step (h : s.Sound) (hstep : machine.step s l t) : t.Sound := by
  obtain ⟨henabled, rfl⟩ := hstep
  cases l with
  | start => exact sound_start h henabled
  | init ok kept => exact sound_init h ok kept henabled
  | stop => exact sound_stop h henabled
  | wake => exact sound_wake h henabled
  | join => exact sound_join h henabled.1
  | worker answer => exact sound_threadMain h henabled.1 answer
  | notify count => exact sound_notify h count
  | expire =>
      exact ⟨h.proper, h.worker, h.thread, h.fds, h.outside, h.starting, h.stopping, h.woken⟩

theorem sound_reachable (reach : machine.Reachable s) : s.Sound := by
  apply reach.invariant Sound
  · rintro _ rfl
    exact ⟨rfl, fun _ => rfl, by simp, by simp, fun _ => rfl, by simp, by simp, by simp⟩
  · exact fun s l t _ h _ hstep => sound_step h hstep

/-! ### The end of the worker -/

/-- A step of the worker. -/
def ofWorker : ThreadStep → Bool
  | .worker _ => true
  | _ => false

/-- The steps of the worker until it looks at `running_` and ends. -/
def stepsLeft (s : OutputThread) : Nat :=
  match s.worker with
  | .epollWait => 5
  | .drainEventFd => 4
  | .drainTimerFd => 3
  | .handleWakeupOnce => 2
  | .begin => 2
  | .loop => 1
  | .none | .ended => 0

theorem stepsLeft_threadMain (h : s.Sound) (hcaller : s.caller = .join) (halive : s.Alive)
    (answer : SysAnswer) : (s.threadMain answer).stepsLeft < s.stepsLeft := by
  have hrunning := (h.stopping (Or.inr hcaller)).1
  obtain ⟨hnone, hended⟩ := halive
  unfold threadMain
  cases hworker : s.worker with
  | none => contradiction
  | ended => contradiction
  | loop => simp [stepsLeft, hworker, hrunning]
  | epollWait => cases answer <;> simp [stepsLeft, hworker]
  | drainEventFd => cases answer <;> simp [stepsLeft, hworker]
  | _ => simp [stepsLeft, hworker]

theorem caller_threadMain (answer : SysAnswer) : (s.threadMain answer).caller = s.caller := by
  unfold threadMain
  split
  · rfl
  · rfl
  · split <;> rfl
  · split <;> rfl
  all_goals rfl

/-- While `Stop` joins the worker, only the worker, the writers of the eventfd and the timer go
on. -/
theorem step_joining (hjoin : s.caller = .join) (hl : l ≠ .join) (hstep : machine.step s l t) :
    (∃ answer, l = .worker answer ∧ s.Alive ∧ t = s.threadMain answer) ∨
      (∃ count, l = .notify count ∧ t = s.writeEventFd count) ∨
      (l = .expire ∧ t = { s with timer := true }) := by
  obtain ⟨henabled, rfl⟩ := hstep
  cases l with
  | start => exact absurd (henabled.symm.trans hjoin) (by decide)
  | init ok kept => exact absurd (henabled.symm.trans hjoin) (by decide)
  | stop => exact absurd (henabled.symm.trans hjoin) (by decide)
  | wake => exact absurd (henabled.symm.trans hjoin) (by decide)
  | join => contradiction
  | worker answer => exact Or.inl ⟨answer, rfl, henabled.1, rfl⟩
  | notify count => exact Or.inr (Or.inl ⟨count, rfl, rfl⟩)
  | expire => exact Or.inr (Or.inr ⟨rfl, rfl⟩)

theorem countdown_join :
    machine.Countdown (· ≠ .join) (fun s => s.Sound ∧ s.caller = .join) ofWorker stepsLeft := by
  constructor
  · intro s l t hl hregion hmove
    refine ⟨sound_step hregion.1 hmove, ?_⟩
    obtain ⟨answer, -, -, rfl⟩ | ⟨count, -, rfl⟩ | ⟨-, rfl⟩ := step_joining hregion.2 hl hmove
    · exact (caller_threadMain answer).trans hregion.2
    · exact hregion.2
    · exact hregion.2
  · intro s l t hl hregion hmove hown
    obtain ⟨answer, -, halive, rfl⟩ | ⟨count, rfl, -⟩ | ⟨rfl, -⟩ :=
      step_joining hregion.2 hl hmove
    · exact stepsLeft_threadMain hregion.1 hregion.2 halive answer
    · contradiction
    · contradiction
  · intro s l t hl hregion hmove hown
    obtain ⟨answer, rfl, -, -⟩ | ⟨count, -, rfl⟩ | ⟨-, rfl⟩ := step_joining hregion.2 hl hmove
    · contradiction
    · exact Nat.le_refl _
    · exact Nat.le_refl _

/-- While `Stop` waits for the worker, the worker takes at most five more steps, and as long as it
has not ended it can take one: if it waits, the eventfd is readable, although it may have emptied
the eventfd since it was told and whatever the clients write. So `Stop` returns, and a thread is
never assigned over another one. -/
theorem stop_returns (reach : machine.Reachable s) (hjoin : s.caller = .join)
    {labels : List ThreadStep} (run : machine.Run s labels t) (hstays : ThreadStep.join ∉ labels) :
    labels.countP ofWorker ≤ 5 ∧ (t.worker = .ended ∨ t.Enabled (.worker .ready)) ∧
      t.terminated = false := by
  have hsound := sound_reachable reach
  have hall : ∀ l ∈ labels, l ≠ ThreadStep.join := fun l hl heq => hstays (heq ▸ hl)
  obtain ⟨⟨hend, hcaller⟩, hcount⟩ := countdown_join.run ⟨hsound, hjoin⟩ run hall
  refine ⟨?_, ?_, hend.proper⟩
  · have hfive : s.stepsLeft ≤ 5 := by
      unfold stepsLeft
      split <;> decide
    omega
  · by_cases hended : t.worker = .ended
    · exact Or.inl hended
    have hjoinable := (hend.stopping (Or.inr hcaller)).2
    exact Or.inr ⟨⟨hend.thread hjoinable, hended⟩, fun hwaits _ =>
      Or.inl (hend.woken hcaller hwaits)⟩

/-- The worker waits when the connection is stopped. -/
def waiting : OutputThread where
  joinable := true
  notifyEventFd := some 1
  worker := .epollWait
  caller := .join

theorem waiting_reachable : machine.Reachable waiting := by
  have hstart : machine.Reachable { running := true, caller := .initEpollAndFds } :=
    .step (.init rfl) (l := ThreadStep.start) trivial ⟨rfl, rfl⟩
  have hinit := hstart.step (l := ThreadStep.init true false) trivial ⟨rfl, rfl⟩
  have hbegin := hinit.step (l := ThreadStep.worker .ready) trivial
    ⟨⟨⟨by decide, by decide⟩, fun h => by contradiction⟩, rfl⟩
  have hloop := hbegin.step (l := ThreadStep.worker .ready) trivial
    ⟨⟨⟨by decide, by decide⟩, fun h => by contradiction⟩, rfl⟩
  have hstop := hloop.step (l := ThreadStep.stop) trivial ⟨rfl, rfl⟩
  exact hstop.step (l := ThreadStep.wake) trivial ⟨rfl, rfl⟩

theorem stop_returns_waiting :
    [ThreadStep.worker .interrupted].countP ofWorker ≤ 5 ∧
      ((run (.worker .interrupted) waiting).worker = .ended ∨
        (run (.worker .interrupted) waiting).Enabled (.worker .ready)) ∧
      (run (.worker .interrupted) waiting).terminated = false := by
  have hmove : machine.step waiting (.worker .interrupted) (run (.worker .interrupted) waiting) :=
    ⟨⟨⟨by decide, by decide⟩, fun _ h => by contradiction⟩, rfl⟩
  exact stop_returns waiting_reachable rfl (.snoc .nil hmove) (by decide)

end OutputThread

end MidiFramework.Server
