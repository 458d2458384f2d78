import MidiFramework.Server.Basic
import MidiFramework.SharedRing.Descriptors

/-!
# The descriptors of an output port

An output connection wakes its worker through three descriptors and gives each client a
duplicate of one of them. Its `Start` may fail between any two of the calls that open
them, may be tried again, and the connection may go at any time, as may the rings of
its clients. In every run what is open is what was open before and what a living object
holds.
-/

namespace MidiFramework.Server

open Foundation Common SharedRing

/-- The members of an output connection that hold descriptors. -/
structure OutputFds where
  notifyEventFd : Tag
  epollFd : Tag
  timerFd : Tag
  running : Bool := false

namespace OutputFds

def tags (c : OutputFds) : List Tag := [c.notifyEventFd, c.epollFd, c.timerFd]

/-- What `epoll_ctl` answers for the two descriptors. -/
structure EpollEnv where
  addsNotifyEventFd : Bool
  addsTimerFd : Bool

def initEpollAndFds (k : Kernel) (env : EpollEnv) (c : OutputFds) (s : Process) :
    Status × Process :=
  let (eventFd, s) := request k .eventfd s
  if eventFd < 0 then (.systemError, s)
  else
    let s := UniqueFd.reset c.notifyEventFd eventFd s
    let (tfd, s) := request k .timerfdCreate s
    if tfd < 0 then (.systemError, UniqueFd.reset c.notifyEventFd (-1) s)
    else
      let s := UniqueFd.reset c.timerFd tfd s
      let (epfd, s) := request k .epollCreate s
      if epfd < 0 then
        (.systemError, UniqueFd.reset c.notifyEventFd (-1) (UniqueFd.reset c.timerFd (-1) s))
      else
        let s := UniqueFd.reset c.epollFd epfd s
        if !env.addsNotifyEventFd then (.systemError, s)
        else if !env.addsTimerFd then
          (.systemError, UniqueFd.reset c.notifyEventFd (-1)
            (UniqueFd.reset c.timerFd (-1) (UniqueFd.reset c.epollFd (-1) s)))
        else (.ok, s)

def start (k : Kernel) (env : EpollEnv) (c : OutputFds) (s : Process) :
    Status × OutputFds × Process :=
  if c.running then (.ok, c, s)
  else
    let (rc, s) := initEpollAndFds k env c s
    (rc, { c with running := decide (rc = .ok) }, s)

def stop (c : OutputFds) : OutputFds := { c with running := false }

/-- The members start without descriptors. -/
def construct (c : OutputFds) (s : Process) : Process :=
  UniqueFd.construct c.timerFd (-1)
    (UniqueFd.construct c.epollFd (-1) (UniqueFd.construct c.notifyEventFd (-1) s))

def destroy (c : OutputFds) (s : Process) : Process :=
  UniqueFd.destroy c.notifyEventFd (UniqueFd.destroy c.epollFd (UniqueFd.destroy c.timerFd s))

/-- `AddClientConnection`, as far as descriptors go. -/
def addClientConnection (k : Kernel) (mem notify : Tag) (capacity : Nat) (s : Process) :
    Option RingObject × Process :=
  let (fd, s) := request k .dup s
  if 0 ≤ fd then RingObject.createRingBuffer k mem notify capacity fd s else (none, s)

variable {k : Kernel} {new : List Tag} {s t : Process} {c : OutputFds}

theorem gains_initEpollAndFds (h : Gains new s t) (hlive : ∀ a ∈ c.tags, a ∈ new)
    (env : EpollEnv) : Gains new s (initEpollAndFds k env c t).2 := by
  have hat : ∀ {u : Process}, Gains new s u → ∀ a ∈ c.tags, u.Live a :=
    fun hu a ha => (hu.live a).mpr (.inl (hlive a ha))
  have hnotify : c.notifyEventFd ∈ c.tags := by simp [tags]
  have hepoll : c.epollFd ∈ c.tags := by simp [tags]
  have htimer : c.timerFd ∈ c.tags := by simp [tags]
  have hfails : ∀ {u : Process} {call : FdCall}, Gains new s u → (request k call u).1 < 0 →
      Gains new s (request k call u).2 := by
    intro u call hu hneg
    have hsame : (request k call u).2 = u := if_neg (Int.not_le.mpr hneg)
    rw [hsame]
    exact hu
  have hclears : ∀ {u : Process}, Gains new s u → ∀ a ∈ c.tags,
      Gains new s (UniqueFd.reset a (-1) u) := fun hu a ha => hu.clears (hat hu a ha)
  unfold initEpollAndFds
  dsimp only
  split
  · next hneg => exact hfails h hneg
  next hevent =>
  have hfirst := h.adopts (hat h _ hnotify) (Int.not_lt.mp hevent)
  split
  · next hneg => exact hclears (hfails hfirst hneg) _ hnotify
  next htimerFd =>
  have hsecond := hfirst.adopts (hat hfirst _ htimer) (Int.not_lt.mp htimerFd)
  split
  · next hneg => exact hclears (hclears (hfails hsecond hneg) _ htimer) _ hnotify
  next hepollFd =>
  have hthird := hsecond.adopts (hat hsecond _ hepoll) (Int.not_lt.mp hepollFd)
  split
  · exact hthird
  split
  · exact hclears (hclears (hclears hthird _ hepoll) _ htimer) _ hnotify
  · exact hthird

theorem gains_start (h : Gains new s t) (hlive : ∀ a ∈ c.tags, a ∈ new) (env : EpollEnv) :
    Gains new s (start k env c t).2.2 := by
  unfold start
  split
  · exact h
  · exact gains_initEpollAndFds h hlive env

theorem tags_start (k : Kernel) (env : EpollEnv) (c : OutputFds) (s : Process) :
    (start k env c s).2.1.tags = c.tags := by
  unfold start
  split <;> rfl

theorem gains_construct (h : Gains new s t) (hnodup : c.tags.Nodup)
    (hnew : ∀ a ∈ c.tags, a ∉ new ∧ ¬s.Live a) : Gains (c.tags ++ new) s (c.construct t) := by
  simp only [tags, List.nodup_cons, List.mem_cons, List.not_mem_nil, or_false, not_or] at hnodup
  obtain ⟨⟨hne, hne'⟩, hne'', -⟩ := hnodup
  simp only [tags, List.mem_cons, List.not_mem_nil, or_false, forall_eq_or_imp, forall_eq] at hnew
  obtain ⟨hnotify, hepoll, htimer⟩ := hnew
  have hfirst := h.constructs (h.dead hnotify.1 hnotify.2)
  have hsecond := hfirst.constructs (hfirst.dead (by simp [hepoll.1, Ne.symm hne]) hepoll.2)
  have hthird := hsecond.constructs
    (hsecond.dead (by simp [htimer.1, Ne.symm hne', Ne.symm hne'']) htimer.2)
  apply hthird.of_mem
  intro b
  simp only [tags, List.mem_append, List.mem_cons, List.not_mem_nil]
  tauto

theorem gains_destroy (h : Gains (c.tags ++ new) s t) (hnodup : c.tags.Nodup)
    (hnew : ∀ a ∈ c.tags, a ∉ new ∧ ¬s.Live a) : Gains new s (c.destroy t) := by
  simp only [tags, List.nodup_cons, List.mem_cons, List.not_mem_nil, or_false, not_or] at hnodup
  obtain ⟨⟨hne, hne'⟩, hne'', -⟩ := hnodup
  simp only [tags, List.mem_cons, List.not_mem_nil, or_false, forall_eq_or_imp, forall_eq] at hnew
  obtain ⟨hnotify, hepoll, htimer⟩ := hnew
  have hall : Gains (c.timerFd :: c.epollFd :: c.notifyEventFd :: new) s t := by
    apply h.of_mem
    intro b
    simp only [tags, List.mem_append, List.mem_cons, List.not_mem_nil]
    tauto
  have hfirst := hall.destroys (by simp [htimer.1, Ne.symm hne', Ne.symm hne'']) htimer.2
  have hsecond := hfirst.destroys (by simp [hepoll.1, Ne.symm hne]) hepoll.2
  exact hsecond.destroys hnotify.1 hnotify.2

/-- The client's ring holds all that was opened for it, or nothing stays open. -/
theorem gains_addClientConnection {mem notify : Tag} (h : Gains new s t)
    (hnew : mem ∉ new ∧ notify ∉ new) (hs : ¬s.Live mem ∧ ¬s.Live notify) (hne : mem ≠ notify)
    (capacity : Nat) :
    Gains ((addClientConnection k mem notify capacity t).1.elim [] RingObject.tags ++ new) s
      (addClientConnection k mem notify capacity t).2 := by
  unfold addClientConnection
  dsimp only
  split
  · next hfd => exact RingObject.gains_createRingBuffer_dup h hnew hs hne hfd capacity
  · next hfd =>
      have hsame : (request k .dup t).2 = t := if_neg hfd
      rw [hsame]
      exact h

end OutputFds

/-- The rings and the output connections of a process. -/
structure Descriptors where
  process : Process
  rings : List RingObject := []
  connections : List OutputFds := []

namespace Descriptors

/-- The objects that hold descriptors. -/
def tags (s : Descriptors) : List Tag :=
  s.rings.flatMap RingObject.tags ++ s.connections.flatMap OutputFds.tags

/-- New objects have tags of their own. -/
def Unused (s : Descriptors) (new : List Tag) : Prop := new.Nodup ∧ ∀ a ∈ new, a ∉ s.tags

/-- After a call that may have made a ring. -/
def withRing (s : Descriptors) (made : Option RingObject × Process) : Descriptors :=
  { s with process := made.2, rings := made.1.toList ++ s.rings }

inductive Step (s : Descriptors) : Descriptors → Prop
  | unmarshalling (k : Kernel) {mem guard notify : Tag} (ringSize : Nat) (hasNotifyFd : Bool)
      (unused : s.Unused [mem, guard, notify]) :
      Step s (s.withRing
        (RingObject.unmarshalling k mem guard notify ringSize hasNotifyFd s.process))
  | addInputClient (k : Kernel) {mem notify : Tag} (capacity : Nat)
      (unused : s.Unused [mem, notify]) :
      Step s (s.withRing (RingObject.createRingBuffer k mem notify capacity invalidFd s.process))
  | addOutputClient (k : Kernel) {mem notify : Tag} (capacity : Nat)
      (unused : s.Unused [mem, notify]) :
      Step s (s.withRing (OutputFds.addClientConnection k mem notify capacity s.process))
  | destroyRing {front back : List RingObject} {ring : RingObject}
      (found : s.rings = front ++ ring :: back) :
      Step s { s with process := ring.destroy s.process, rings := front ++ back }
  | construct {c : OutputFds} (unused : s.Unused c.tags) :
      Step s { s with process := c.construct s.process, connections := c :: s.connections }
  | start (k : Kernel) (env : OutputFds.EpollEnv) {front back : List OutputFds} {c : OutputFds}
      (found : s.connections = front ++ c :: back) :
      Step s { s with
        process := (OutputFds.start k env c s.process).2.2
        connections := front ++ (OutputFds.start k env c s.process).2.1 :: back }
  | stop {front back : List OutputFds} {c : OutputFds} (found : s.connections = front ++ c :: back) :
      Step s { s with connections := front ++ c.stop :: back }
  | destroyConnection {front back : List OutputFds} {c : OutputFds}
      (found : s.connections = front ++ c :: back) :
      Step s { s with process := c.destroy s.process, connections := front ++ back }

/-- All runs of a process that has no such object yet. -/
def machine (initial : Process) : Machine Descriptors Unit where
  init s := initial.Sound ∧ (∀ a, ¬initial.Live a) ∧ s = { process := initial }
  step s _ t := s.Step t

/-- The objects that live are those of the rings and the connections, and they hold all that was
opened. -/
structure Sound (initial : Process) (s : Descriptors) : Prop where
  before : initial.Sound
  blank : ∀ a, ¬initial.Live a
  nodup : s.tags.Nodup
  gains : Gains s.tags initial s.process

variable {initial : Process} {s t : Descriptors}

theorem Sound.perm {tags : List Tag} (h : s.tags.Perm tags) (hsound : s.Sound initial) :
    tags.Nodup ∧ Gains tags initial s.process :=
  ⟨h.nodup_iff.mp hsound.nodup, hsound.gains.of_mem fun _ => h.symm.mem_iff⟩

theorem tags_middle_ring {rings front back : List RingObject} {ring : RingObject}
    {connections : List OutputFds} {process : Process} (h : rings = front ++ ring :: back) :
    (tags ⟨process, rings, connections⟩).Perm
      (ring.tags ++ tags ⟨process, front ++ back, connections⟩) := by
  rw [tags, tags, h, ← List.append_assoc]
  exact (List.perm_middle.flatMap_right RingObject.tags).append_right _

theorem tags_middle_connection {rings : List RingObject} {connections front back : List OutputFds}
    {c : OutputFds} {process : Process} (h : connections = front ++ c :: back) :
    (tags ⟨process, rings, connections⟩).Perm
      (c.tags ++ tags ⟨process, rings, front ++ back⟩) := by
  rw [tags, tags, h]
  have hfirst : ((front ++ c :: back).flatMap OutputFds.tags).Perm
      (c.tags ++ (front ++ back).flatMap OutputFds.tags) :=
    List.perm_middle.flatMap_right OutputFds.tags
  exact (hfirst.append_left _).trans (List.perm_append_comm_assoc _ _ _)

/-- A ring that was made of new objects. -/
theorem Sound.withRing (h : s.Sound initial) {made : Option RingObject × Process} {mem notify : Tag}
    (hgains : Gains (made.1.elim [] RingObject.tags ++ s.tags) initial made.2)
    (hmade : ∀ ring ∈ made.1, RingObject.MadeOf mem notify ring)
    (hnew : mem ≠ notify ∧ mem ∉ s.tags ∧ notify ∉ s.tags) : (s.withRing made).Sound initial := by
  obtain ⟨ring, process⟩ := made
  cases ring with
  | none => exact ⟨h.before, h.blank, h.nodup, hgains⟩
  | some ring =>
      obtain ⟨hnodup, hmembers⟩ := (hmade ring rfl).tags hnew.1
      have htags : (s.withRing (some ring, process)).tags = ring.tags ++ s.tags := by
        simp [Descriptors.withRing, tags]
      refine ⟨h.before, h.blank, ?_, htags ▸ hgains⟩
      rw [htags]
      refine hnodup.append h.nodup fun a ha hold => ?_
      obtain rfl | rfl := hmembers a ha
      · exact hnew.2.1 hold
      · exact hnew.2.2 hold

/-- Objects that are not there any more. -/
theorem Sound.without (h : s.Sound initial) {gone : List Tag} (hperm : s.tags.Perm (gone ++ t.tags))
    (hgains : gone.Nodup → (∀ a ∈ gone, a ∉ t.tags ∧ ¬initial.Live a) →
      Gains (gone ++ t.tags) initial s.process → Gains t.tags initial t.process) :
    t.Sound initial := by
  obtain ⟨hnodup, hall⟩ := h.perm hperm
  obtain ⟨hgone, hrest, hdisjoint⟩ := List.nodup_append'.mp hnodup
  exact ⟨h.before, h.blank, hrest, hgains hgone (fun a ha => ⟨fun ha' => hdisjoint ha ha', h.blank a⟩) hall⟩

/-- An output connection changes and keeps its objects. -/
theorem Sound.replace (h : s.Sound initial) {front back : List OutputFds} {c c' : OutputFds}
    {process : Process} (found : s.connections = front ++ c :: back) (htags : c'.tags = c.tags)
    (hgains : Gains s.tags initial process) :
    Sound initial { s with process, connections := front ++ c' :: back } := by
  have hsame : tags { s with process, connections := front ++ c' :: back } = s.tags := by
    simp [tags, found, htags]
  exact ⟨h.before, h.blank, hsame ▸ h.nodup, hsame ▸ hgains⟩

theorem mem_tags_of_connection {front back : List OutputFds} {c : OutputFds}
    (found : s.connections = front ++ c :: back) : ∀ a ∈ c.tags, a ∈ s.tags := by
  intro a ha
  simp [tags, found, ha]

theorem Sound.step (h : s.Sound initial) (hstep : s.Step t) : t.Sound initial := by
  cases hstep with
  | @unmarshalling k mem guard notify ringSize hasNotifyFd unused =>
      obtain ⟨hnodup, hnew⟩ := unused
      simp only [List.nodup_cons, List.mem_cons, List.not_mem_nil, or_false, not_or] at hnodup
      simp only [List.mem_cons, List.not_mem_nil, or_false, forall_eq_or_imp, forall_eq] at hnew
      obtain ⟨⟨hguard, hnotify⟩, hnotify', -⟩ := hnodup
      exact h.withRing (RingObject.gains_unmarshalling h.gains ringSize hasNotifyFd hnew
        ⟨h.blank mem, h.blank guard, h.blank notify⟩ ⟨hguard, hnotify, hnotify'⟩)
        RingObject.madeOf_unmarshalling ⟨hnotify, hnew.1, hnew.2.2⟩
  | @addInputClient k mem notify capacity unused =>
      obtain ⟨hnodup, hnew⟩ := unused
      simp only [List.nodup_cons, List.mem_cons, List.not_mem_nil, or_false] at hnodup
      simp only [List.mem_cons, List.not_mem_nil, or_false, forall_eq_or_imp, forall_eq] at hnew
      exact h.withRing (RingObject.gains_createRingBuffer_none h.gains hnew.1 (h.blank mem) capacity)
        RingObject.madeOf_createRingBuffer ⟨hnodup.1, hnew⟩
  | @addOutputClient k mem notify capacity unused =>
      obtain ⟨hnodup, hnew⟩ := unused
      simp only [List.nodup_cons, List.mem_cons, List.not_mem_nil, or_false] at hnodup
      simp only [List.mem_cons, List.not_mem_nil, or_false, forall_eq_or_imp, forall_eq] at hnew
      have hmade : ∀ ring ∈ (OutputFds.addClientConnection k mem notify capacity s.process).1,
          RingObject.MadeOf mem notify ring := by
        unfold OutputFds.addClientConnection
        dsimp only
        split
        · exact RingObject.madeOf_createRingBuffer
        · simp
      exact h.withRing (OutputFds.gains_addClientConnection h.gains hnew
        ⟨h.blank mem, h.blank notify⟩ hnodup.1 capacity) hmade ⟨hnodup.1, hnew⟩
  | destroyRing found =>
      exact h.without (tags_middle_ring found) fun hnodup hnew hgains =>
        RingObject.gains_destroy hgains hnodup hnew
  | @construct c unused =>
      obtain ⟨hnodup, hnew⟩ := unused
      have hgains := OutputFds.gains_construct h.gains hnodup fun a ha => ⟨hnew a ha, h.blank a⟩
      have hperm : (tags { s with
          process := c.construct s.process, connections := c :: s.connections }).Perm
          (c.tags ++ s.tags) := by
        simp only [tags, List.flatMap_cons]
        exact List.perm_append_comm_assoc _ _ _
      refine ⟨h.before, h.blank, ?_, hgains.of_mem fun a => hperm.mem_iff⟩
      exact hperm.nodup_iff.mpr (hnodup.append h.nodup fun a ha hold => hnew a ha hold)
  | @start k env front back c found =>
      exact h.replace found (OutputFds.tags_start k env c s.process)
        (OutputFds.gains_start h.gains (mem_tags_of_connection found) env)
  | stop found => exact h.replace found rfl h.gains
  | destroyConnection found =>
      exact h.without (tags_middle_connection found) fun hnodup hnew hgains =>
        OutputFds.gains_destroy hgains hnodup hnew

theorem sound_of_reachable (reach : (machine initial).Reachable s) : s.Sound initial := by
  apply reach.invariant (Sound initial)
  · rintro s ⟨hsound, hblank, rfl⟩
    exact ⟨hsound, hblank, List.nodup_nil, .refl hsound⟩
  · exact fun s _ t _ h _ hstep => h.step hstep

/-- Whatever the system answers to any call, no close and no change of an owner ever names a wrong
one, and a descriptor that is open and was not before is held by one of the objects of a ring or a
connection. So once they are gone, exactly the descriptors are open that were open before. -/
theorem no_descriptor_leaks (reach : (machine initial).Reachable s) :
    s.process.table.faults = 0 ∧
      (∀ fd, minFd < fd → s.process.table.tag fd ≠ none →
        initial.table.tag fd ≠ none ∨ ∃ a ∈ s.tags, s.process.objects a = some fd) ∧
      (s.rings = [] → s.connections = [] →
        ∀ fd, minFd < fd → s.process.table.tag fd = initial.table.tag fd) := by
  have h := sound_of_reachable reach
  have hnonneg : ∀ fd, minFd < fd → 0 ≤ fd := by
    intro fd hfd
    simp only [minFd] at hfd
    omega
  have hinitial : ∀ fd, minFd < fd → initial.table.tag fd ≠ none → initial.Loose fd := by
    intro fd hfd hopen
    obtain ⟨owner, howner⟩ := Option.ne_none_iff_exists'.mp hopen
    cases owner with
    | none => exact howner
    | some a =>
        have hobject := (h.before.held a fd (hnonneg fd hfd)).mpr howner
        exact absurd (Option.isSome_iff_exists.mpr ⟨fd, hobject⟩) (h.blank a)
  have hopen : ∀ fd, minFd < fd → s.process.table.tag fd ≠ none →
      initial.Loose fd ∧ s.process.Loose fd ∨ ∃ a ∈ s.tags, s.process.objects a = some fd := by
    intro fd hfd hopen
    obtain ⟨owner, howner⟩ := Option.ne_none_iff_exists'.mp hopen
    cases owner with
    | none => exact .inl ⟨(h.gains.loose fd hfd).mp howner, howner⟩
    | some a =>
        have hobject := (h.gains.sound.held a fd (hnonneg fd hfd)).mpr howner
        have hlive := (h.gains.live a).mp (Option.isSome_iff_exists.mpr ⟨fd, hobject⟩)
        exact .inr ⟨a, hlive.resolve_right (h.blank a), hobject⟩
  refine ⟨h.gains.sound.faultless, fun fd hfd hfd' => ?_, fun hrings hconnections fd hfd => ?_⟩
  · refine (hopen fd hfd hfd').imp_left fun hloose => ?_
    rw [hloose.1]
    simp
  · have htags : s.tags = [] := by simp [tags, hrings, hconnections]
    by_cases hfd' : s.process.table.tag fd = none
    · rw [hfd']
      by_contra hbefore
      have hloose := (h.gains.loose fd hfd).mpr (hinitial fd hfd (Ne.symm hbefore))
      rw [hloose] at hfd'
      contradiction
    · obtain ⟨hloose, hloose'⟩ | ⟨a, ha, -⟩ := hopen fd hfd hfd'
      · exact hloose'.trans hloose.symm
      · rw [htags] at ha
        contradiction

/-- A system that gives the first closed descriptor of a few. -/
def smallKernel : Kernel where
  answer _ table := (([3, 4, 5, 6, 7, 8] : List Int).find? fun fd => (table.tag fd).isNone).getD (-1)
  fresh _ table hfd := by
    cases hfound : ([3, 4, 5, 6, 7, 8] : List Int).find? fun fd => (table.tag fd).isNone with
    | none => simp [hfound] at hfd
    | some fd => simpa using List.find?_some hfound
  allocates := true
  maps := true

/-- A process without descriptors. -/
def blankProcess : Process := ⟨⟨fun _ => none, 0⟩, fun _ => none⟩

/-- It receives a ring. -/
def attached : Descriptors :=
  withRing { process := blankProcess }
    (RingObject.unmarshalling smallKernel 1 2 3 2048 true blankProcess)

theorem no_descriptor_leaks_attached :
    attached.process.objects 1 = some 5 ∧ attached.process.objects 3 = some 4 ∧
      attached.process.table.faults = 0 ∧
      (∀ fd, minFd < fd → attached.process.table.tag fd ≠ none →
        blankProcess.table.tag fd ≠ none ∨ ∃ a ∈ attached.tags, attached.process.objects a = some fd) ∧
      (attached.rings = [] → attached.connections = [] →
        ∀ fd, minFd < fd → attached.process.table.tag fd = blankProcess.table.tag fd) := by
  have hblank : ∀ a, ¬blankProcess.Live a := fun a => by simp [Process.Live, blankProcess]
  have hsound : blankProcess.Sound := by
    refine ⟨rfl, fun a fd _ => ?_, fun _ _ => rfl⟩
    simp [blankProcess]
  have hstart : (machine blankProcess).Reachable { process := blankProcess } :=
    .init ⟨hsound, hblank, rfl⟩
  refine ⟨by decide, by decide, no_descriptor_leaks (hstart.step (l := ()) trivial
    (.unmarshalling smallKernel 2048 true ⟨by decide, ?_⟩))⟩
  simp [tags]

end Descriptors

end MidiFramework.Server
