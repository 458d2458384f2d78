import MidiFramework.Foundation.Ownership
import MidiFramework.Foundation.Transition

/-!
# Descriptors and their owners

A `UniqueFd` owns a descriptor and declares itself its owner, so that a close by
anybody else is noticed. The objects of a process share its table of descriptors: a
number that one of them closes is given to the next one that asks. Over every sequence
of constructions, resets, moves and destructions the declared owner of a descriptor is
the one object that holds it.

## Implementation notes

An object is named by its tag, which is made of its address, and tag zero is no owner. A descriptor
that an object is given must be open and without an owner, as the comment at `Reset`
asks.
-/

namespace MidiFramework.Common

open Foundation

/-- `Tag()`. -/
abbrev Tag := Nat

/-- The descriptors of a process and the `fd_` of each `UniqueFd` in it. -/
structure Process where
  table : OwnerTable Int Tag
  objects : Tag → Option Int

namespace Process

def Live (s : Process) (this : Tag) : Prop := (s.objects this).isSome

/-- The descriptor is open and no object's. -/
def Loose (s : Process) (fd : Int) : Prop := s.table.Loose fd

def fd (s : Process) (this : Tag) : Int := (s.objects this).getD (-1)

def setFd (s : Process) (this : Tag) (fd : Int) : Process :=
  { s with objects := Function.update s.objects this (some fd) }

end Process

namespace UniqueFd

variable (this other : Tag)

def get (s : Process) : Int := s.fd this

def valid (s : Process) : Bool := decide (0 ≤ s.fd this)

/-- The end of whatever the object holds. -/
def release (s : Process) : Process :=
  if 0 ≤ s.fd this then
    { s with table := s.table.closeWith (s.fd this) (some this) }.setFd this (-1)
  else s

/-- The object takes a descriptor that has no owner. -/
def adopt (fd : Int) (s : Process) : Process :=
  if 0 ≤ fd then
    { s.setFd this fd with table := s.table.exchange fd none (some this) }
  else s

def reset (fd : Int) (s : Process) : Process := adopt this fd (release this s)

def construct (fd : Int) (s : Process) : Process := reset this fd (s.setFd this (-1))

def destroy (s : Process) : Process :=
  { reset this (-1) s with objects := Function.update (reset this (-1) s).objects this none }

/-- What the object holds is taken over from the other one. -/
def take (s : Process) : Process :=
  let fd := s.fd other
  let s := (s.setFd this fd).setFd other (-1)
  if 0 ≤ fd then { s with table := s.table.exchange fd (some other) (some this) } else s

def moveConstruct (s : Process) : Process := take this other s

def moveAssign (s : Process) : Process :=
  if this = other then s else take this other (reset this (-1) s)

end UniqueFd

namespace Process

/-- The objects and the table tell the same, and no call has named a wrong owner. -/
structure Sound (s : Process) : Prop where
  faultless : s.table.faults = 0
  held : ∀ a fd, 0 ≤ fd → (s.objects a = some fd ↔ s.table.tag fd = some (some a))
  nonneg : ∀ fd < 0, s.table.tag fd = none

variable {s t : Process} {this other : Tag} {fd : Int}

@[simp] theorem fd_setFd (s : Process) (a b : Tag) (fd : Int) :
    (s.setFd a fd).fd b = if b = a then fd else s.fd b := by
  simp only [Process.fd, setFd, Function.update_apply]
  split <;> rfl

theorem live_setFd (s : Process) (a b : Tag) (fd : Int) :
    (s.setFd a fd).Live b ↔ b = a ∨ s.Live b := by
  simp only [Live, setFd, Function.update_apply]
  split <;> simp_all

/-- Two objects never hold one descriptor. -/
theorem Sound.exclusive (h : s.Sound) {a b : Tag} (hfd : 0 ≤ fd) (ha : s.objects a = some fd)
    (hb : s.objects b = some fd) : a = b := by
  have htag := ((h.held a fd hfd).mp ha).symm.trans ((h.held b fd hfd).mp hb)
  simpa using htag

theorem Live.objects (h : s.Live this) : s.objects this = some (s.fd this) := by
  obtain ⟨fd, hfd⟩ := Option.isSome_iff_exists.mp h
  rw [Process.fd, hfd]
  rfl

/-- An object without a descriptor holds a negative number. -/
def Empty (s : Process) (this : Tag) : Prop := ∃ fd < 0, s.objects this = some fd

theorem Empty.live (h : s.Empty this) : s.Live this := by
  obtain ⟨fd, -, hfd⟩ := h
  rw [Live, hfd]
  rfl

theorem Sound.release (h : s.Sound) (hlive : s.Live this) :
    (UniqueFd.release this s).Sound ∧ (UniqueFd.release this s).Empty this ∧
      (∀ a, a ≠ this → (UniqueFd.release this s).objects a = s.objects a) ∧
      ∀ fd, (UniqueFd.release this s).Loose fd ↔ s.Loose fd := by
  have hobject := hlive.objects
  unfold UniqueFd.release
  split
  · next hfd =>
      have htag : s.table.tag (s.fd this) = some (some this) := (h.held _ _ hfd).mp hobject
      refine ⟨⟨?_, ?_, ?_⟩, ⟨-1, by omega, Function.update_self _ _ _⟩,
        fun a ha => Function.update_of_ne ha _ _, ?_⟩
      · exact (OwnerTable.faults_closeWith htag).trans h.faultless
      · intro a fd hnonneg
        have hheld := h.held a fd hnonneg
        simp only [setFd, OwnerTable.tag_closeWith, Function.update_apply]
        grind
      · intro fd hneg
        have hclosed := h.nonneg fd hneg
        simp only [setFd, OwnerTable.tag_closeWith]
        grind
      · intro fd
        simp only [Loose, OwnerTable.Loose, setFd, OwnerTable.tag_closeWith]
        grind
  · next hfd => exact ⟨h, ⟨_, Int.not_le.mp hfd, hobject⟩, fun _ _ => rfl, fun _ => Iff.rfl⟩

theorem Sound.adopt (h : s.Sound) (hempty : s.Empty this) (hfd : fd < 0 ∨ s.Loose fd) :
    (UniqueFd.adopt this fd s).Sound ∧ (UniqueFd.adopt this fd s).Live this ∧
      (∀ a, a ≠ this → (UniqueFd.adopt this fd s).objects a = s.objects a) ∧
      ∀ fd', (UniqueFd.adopt this fd s).Loose fd' ↔ s.Loose fd' ∧ fd' ≠ fd := by
  obtain ⟨old, hold, hobject⟩ := hempty
  unfold UniqueFd.adopt
  split
  · next hnonneg =>
      have htag : s.table.tag fd = some none := hfd.resolve_left (Int.not_lt.mpr hnonneg)
      refine ⟨⟨?_, ?_, ?_⟩, ?_, fun a ha => Function.update_of_ne ha _ _, ?_⟩
      · exact (OwnerTable.faults_exchange htag).trans h.faultless
      · intro a fd' hnonneg'
        have hheld := h.held a fd' hnonneg'
        simp only [setFd, OwnerTable.tag_exchange htag, Function.update_apply]
        grind
      · intro fd' hneg
        have hclosed := h.nonneg fd' hneg
        simp only [OwnerTable.tag_exchange htag]
        grind
      · simp [Live, setFd]
      · intro fd'
        simp only [Loose, OwnerTable.Loose, OwnerTable.tag_exchange htag]
        grind
  · next hneg =>
      refine ⟨h, Empty.live ⟨old, hold, hobject⟩, fun _ _ => rfl, fun fd' => ?_⟩
      constructor
      · intro hloose
        refine ⟨hloose, ?_⟩
        rintro rfl
        have hclosed := h.nonneg fd' (Int.not_le.mp hneg)
        rw [Loose, OwnerTable.Loose, hclosed] at hloose
        contradiction
      · exact fun hloose => hloose.1

theorem Sound.reset (h : s.Sound) (hlive : s.Live this) (hfd : fd < 0 ∨ s.Loose fd) :
    (UniqueFd.reset this fd s).Sound ∧ (UniqueFd.reset this fd s).Live this ∧
      (∀ a, a ≠ this → (UniqueFd.reset this fd s).objects a = s.objects a) ∧
      ∀ fd', (UniqueFd.reset this fd s).Loose fd' ↔ s.Loose fd' ∧ fd' ≠ fd := by
  obtain ⟨hsound, hempty, hothers, hloose⟩ := h.release hlive
  obtain ⟨hsound', hlive', hothers', hloose'⟩ :=
    hsound.adopt hempty (hfd.imp_right (hloose fd).mpr)
  refine ⟨hsound', hlive', fun a ha => (hothers' a ha).trans (hothers a ha), fun fd' => ?_⟩
  exact (hloose' fd').trans (and_congr_left fun _ => hloose fd')

/-- A new object starts without a descriptor. -/
theorem Sound.setFd (h : s.Sound) (hnew : ¬s.Live this) :
    (s.setFd this (-1)).Sound ∧ (s.setFd this (-1)).Live this := by
  refine ⟨⟨h.faultless, ?_, h.nonneg⟩, (live_setFd s this this (-1)).mpr (.inl rfl)⟩
  intro a fd hnonneg
  have hheld := h.held a fd hnonneg
  rw [Live, Bool.not_eq_true, Option.isSome_eq_false_iff, Option.isNone_iff_eq_none] at hnew
  simp only [Process.setFd, Function.update_apply]
  grind

theorem Sound.destroy (h : s.Sound) (hlive : s.Live this) :
    (UniqueFd.destroy this s).Sound ∧ ¬(UniqueFd.destroy this s).Live this ∧
      (∀ a, a ≠ this → (UniqueFd.destroy this s).objects a = s.objects a) ∧
      ∀ fd, (UniqueFd.destroy this s).Loose fd ↔ s.Loose fd := by
  have hreset : UniqueFd.reset this (-1) s = UniqueFd.release this s := rfl
  obtain ⟨hsound, ⟨old, hold, hobject⟩, hothers, hloose⟩ := h.release hlive
  unfold UniqueFd.destroy
  rw [hreset]
  refine ⟨⟨hsound.faultless, ?_, hsound.nonneg⟩, ?_, ?_, hloose⟩
  · intro a fd hnonneg
    have hheld := hsound.held a fd hnonneg
    simp only [Function.update_apply]
    grind
  · simp [Live]
  · exact fun a ha => (Function.update_of_ne ha _ _).trans (hothers a ha)

theorem Sound.take (h : s.Sound) (hempty : s.Empty this) (hother : s.Live other)
    (hne : this ≠ other) : (UniqueFd.take this other s).Sound ∧
      (∀ a, (UniqueFd.take this other s).Live a ↔ s.Live a) ∧
      ∀ fd, (UniqueFd.take this other s).Loose fd ↔ s.Loose fd := by
  obtain ⟨old, hold, hthis⟩ := hempty
  have hobject := hother.objects
  have hlive : ∀ a fd, ((s.setFd this fd).setFd other (-1)).Live a ↔ s.Live a := by
    intro a fd
    rw [live_setFd, live_setFd]
    have hthis' : s.Live this := Empty.live ⟨old, hold, hthis⟩
    grind
  unfold UniqueFd.take
  dsimp only
  split
  · next hfd =>
      have htag : s.table.tag (s.fd other) = some (some other) := (h.held _ _ hfd).mp hobject
      refine ⟨⟨?_, ?_, ?_⟩, fun a => hlive a _, ?_⟩
      · exact (OwnerTable.faults_exchange htag).trans h.faultless
      · intro a fd hnonneg
        have hheld := h.held a fd hnonneg
        change (Function.update (Function.update s.objects this _) other _) a = _ ↔
          (s.table.exchange _ _ _).tag fd = _
        simp only [OwnerTable.tag_exchange htag, Function.update_apply]
        grind
      · intro fd hneg
        have hclosed := h.nonneg fd hneg
        change (s.table.exchange _ _ _).tag fd = _
        simp only [OwnerTable.tag_exchange htag]
        grind
      · intro fd
        change (s.table.exchange _ _ _).tag fd = _ ↔ _
        simp only [Loose, OwnerTable.Loose, OwnerTable.tag_exchange htag]
        grind
  · next hfd =>
      refine ⟨⟨h.faultless, ?_, h.nonneg⟩, fun a => hlive a _, fun fd => Iff.rfl⟩
      intro a fd hnonneg
      have hheld := h.held a fd hnonneg
      change (Function.update (Function.update s.objects this _) other _) a = _ ↔
        s.table.tag fd = _
      simp only [Function.update_apply]
      grind

theorem Sound.openLoose (h : s.Sound) (hfd : 0 ≤ fd) (hclosed : s.table.tag fd = none) :
    Sound { s with table := s.table.openLoose fd } := by
  refine ⟨h.faultless, ?_, ?_⟩
  · intro a fd' hnonneg
    have hheld := h.held a fd' hnonneg
    simp only [OwnerTable.tag_openLoose]
    grind
  · intro fd' hneg
    have hneg' := h.nonneg fd' hneg
    simp only [OwnerTable.tag_openLoose]
    grind

theorem Sound.closeLoose (h : s.Sound) (hloose : s.Loose fd) :
    Sound { s with table := s.table.closeWith fd none } := by
  refine ⟨(OwnerTable.faults_closeWith hloose).trans h.faultless, ?_, ?_⟩
  · intro a fd' hnonneg
    have hheld := h.held a fd' hnonneg
    have htag : s.table.tag fd = some none := hloose
    simp only [OwnerTable.tag_closeWith]
    grind
  · intro fd' hneg
    have hneg' := h.nonneg fd' hneg
    simp only [OwnerTable.tag_closeWith]
    grind

/-- What the objects of a process do, and what else opens and closes descriptors. -/
inductive Step (s : Process) : Process → Prop
  | construct {this : Tag} {fd : Int} (new : ¬s.Live this) (free : fd < 0 ∨ s.Loose fd) :
      Step s (UniqueFd.construct this fd s)
  | reset {this : Tag} {fd : Int} (live : s.Live this) (free : fd < 0 ∨ s.Loose fd) :
      Step s (UniqueFd.reset this fd s)
  | destroy {this : Tag} (live : s.Live this) : Step s (UniqueFd.destroy this s)
  | moveConstruct {this other : Tag} (new : ¬s.Live this) (live : s.Live other) :
      Step s (UniqueFd.moveConstruct this other s)
  | moveAssign {this other : Tag} (live : s.Live this) (live' : s.Live other) :
      Step s (UniqueFd.moveAssign this other s)
  | openLoose {fd : Int} (nonneg : 0 ≤ fd) (closed : s.table.tag fd = none) :
      Step s { s with table := s.table.openLoose fd }
  | closeLoose {fd : Int} (loose : s.Loose fd) : Step s { s with table := s.table.closeWith fd none }

/-- All runs from a process without objects. -/
def machine : Machine Process Unit where
  init s := s.table.faults = 0 ∧ (∀ fd < 0, s.table.tag fd = none) ∧
    (∀ fd a, s.table.tag fd ≠ some (some a)) ∧ s.objects = fun _ => none
  step s _ t := s.Step t

theorem take_setFd (hne : other ≠ this) :
    UniqueFd.take this other (s.setFd this fd) = UniqueFd.take this other s := by
  unfold UniqueFd.take
  rw [fd_setFd, if_neg hne]
  simp only [setFd, Function.update_idem]

theorem Sound.moveConstruct (h : s.Sound) (hnew : ¬s.Live this) (hother : s.Live other) :
    (UniqueFd.moveConstruct this other s).Sound := by
  have hne : other ≠ this := by
    rintro rfl
    exact hnew hother
  obtain ⟨hsound, -⟩ := h.setFd hnew
  have hempty : (s.setFd this (-1)).Empty this := ⟨-1, by omega, Function.update_self _ _ _⟩
  have htaken := hsound.take hempty ((live_setFd s this other (-1)).mpr (.inr hother)) hne.symm
  rw [take_setFd hne] at htaken
  exact htaken.1

theorem Sound.step (h : s.Sound) (hstep : s.Step t) : t.Sound := by
  cases hstep with
  | @construct this fd new free =>
      obtain ⟨hsound, hlive⟩ := h.setFd new
      exact (hsound.reset hlive free).1
  | reset live free => exact (h.reset live free).1
  | destroy live => exact (h.destroy live).1
  | moveConstruct new live => exact h.moveConstruct new live
  | @moveAssign this other live live' =>
      unfold UniqueFd.moveAssign
      split
      · exact h
      · next hne =>
          obtain ⟨hsound, hempty, hothers, -⟩ := h.release live
          have hother : (UniqueFd.release this s).Live other := by
            rw [Live, hothers other (Ne.symm hne)]
            exact live'
          exact (hsound.take hempty hother hne).1
  | openLoose nonneg closed => exact h.openLoose nonneg closed
  | closeLoose loose => exact h.closeLoose loose

theorem sound_of_reachable (reach : machine.Reachable s) : s.Sound := by
  apply reach.invariant Sound
  · rintro s ⟨hfaults, hnonneg, hunowned, hobjects⟩
    refine ⟨hfaults, fun a fd _ => iff_of_false ?_ (hunowned fd a), hnonneg⟩
    simp [hobjects]
  · exact fun s _ t _ h _ hstep => h.step hstep

/-- However descriptors are adopted, moved and closed, no call names an owner that a descriptor does
not have, and a descriptor has an owner exactly while that object holds it. So no two objects ever
hold one descriptor, and each is closed once. -/
theorem descriptor_has_one_owner (reach : machine.Reachable s) :
    s.table.faults = 0 ∧
      (∀ a fd, 0 ≤ fd → (s.objects a = some fd ↔ s.table.tag fd = some (some a))) ∧
      ∀ a b fd, 0 ≤ fd → s.objects a = some fd → s.objects b = some fd → a = b := by
  have h := sound_of_reachable reach
  exact ⟨h.faultless, h.held, fun a b fd hfd => h.exclusive hfd⟩

/-- A process that has opened descriptor 5. -/
def opened : Process := ⟨OwnerTable.openLoose ⟨fun _ => none, 0⟩ 5, fun _ => none⟩

/-- An object adopts it, is moved from and goes. -/
def moved : Process :=
  UniqueFd.destroy 1 (UniqueFd.moveConstruct 2 1 (UniqueFd.construct 1 5 opened))

theorem descriptor_has_one_owner_moved :
    moved.table.faults = 0 ∧
      (∀ a fd, 0 ≤ fd → (moved.objects a = some fd ↔ moved.table.tag fd = some (some a))) ∧
      ∀ a b fd, 0 ≤ fd → moved.objects a = some fd → moved.objects b = some fd → a = b := by
  have hinit : machine.Reachable ⟨⟨fun _ => none, 0⟩, fun _ => none⟩ :=
    .init ⟨rfl, fun _ _ => rfl, fun _ _ => by simp, rfl⟩
  have hopen : machine.Reachable opened :=
    hinit.step (l := ()) trivial (.openLoose (by decide) rfl)
  have hconstruct : machine.Reachable (UniqueFd.construct 1 5 opened) :=
    hopen.step (l := ()) trivial (.construct Bool.false_ne_true (.inr rfl))
  have hmove : machine.Reachable (UniqueFd.moveConstruct 2 1 (UniqueFd.construct 1 5 opened)) :=
    hconstruct.step (l := ()) trivial (.moveConstruct Bool.false_ne_true rfl)
  exact descriptor_has_one_owner (hmove.step (l := ()) trivial (.destroy rfl))

end Process

end MidiFramework.Common
