import MidiFramework.Foundation.Transition
import MidiFramework.Foundation.UnorderedMap

/-!
# The slot of a client's callback

A `Guard` keeps the callback of a client in use, and `CloseAndDrain` waits for
the guards that are out. Only the call that closes the slot waits: a later one
returns at once. `Guard::Release` tells the slot before it lets go of its
pointers, so a release takes two steps here.
-/

namespace MidiFramework.Server

open Foundation

/-- Whether `callback_` is set, with the other fields. -/
structure CallbackSlot where
  callback : Bool := true
  closing : Bool := false
  activeCallbacks : UInt32 := 0
  destroyed : Bool := false

/-- Whether `callback_` and `slot_` are set, and whether `Release` has told the slot already. -/
structure Guard where
  callback : Bool := false
  slot : Bool := false
  released : Bool := false
  deriving DecidableEq

namespace Guard

/-- A guard that is not empty and has not been released. -/
def live (g : Guard) : Bool := g.callback && !g.released

/-- What a guard counts for. -/
def weight (g : Guard) : Nat := if g.live then 1 else 0

def count (guards : UnorderedMap Nat Guard) : Nat := guards.total fun _ g => g.weight

theorem weight_of_live {g : Guard} (h : g.live = true) : g.weight = 1 := if_pos h

theorem weight_of_not_live {g : Guard} (h : g.live = false) : g.weight = 0 := by
  simp [weight, h]

variable {guards : UnorderedMap Nat Guard} {i other : Nat} {g o : Guard}

/-- One that is not live counts for nothing. -/
theorem weight_lookup (h : ∀ g, guards.lookup i = some g → g.live = false) :
    (guards.lookup i).elim 0 (fun g => g.weight) = 0 := by
  cases hg : guards.lookup i with
  | none => rfl
  | some g => exact weight_of_not_live (h g hg)

/-- A guard takes the place of one that is not live, or of none. -/
theorem count_insert (h : ∀ g, guards.lookup i = some g → g.live = false) :
    count (guards.insert i g) = count guards + g.weight := by
  have htotal := UnorderedMap.total_insert (fun _ g => g.weight) guards i g
  have hold := weight_lookup h
  unfold count
  omega

theorem count_erase (h : ∀ g, guards.lookup i = some g → g.live = false) :
    count (guards.erase i) = count guards := by
  have htotal := UnorderedMap.total_erase (fun _ g => g.weight) guards i
  have hold := weight_lookup h
  unfold count
  omega

/-- A live guard is released. -/
theorem count_release (hg : guards.lookup i = some g) (hlive : g.live = true) :
    count (guards.insert i { g with released := true }) + 1 = count guards := by
  have htotal := UnorderedMap.total_insert (fun _ g => g.weight) guards i
    { g with released := true }
  have hnew : weight { g with released := true } = 0 := weight_of_not_live (by simp [live])
  simp only [hg, Option.elim_some, hnew, weight_of_live hlive] at htotal
  exact htotal

/-- A guard takes what another has. -/
theorem count_take (hne : other ≠ i) (ho : guards.lookup other = some o)
    (h : ∀ g, guards.lookup i = some g → g.live = false) :
    count ((guards.insert i o).insert other {}) = count guards := by
  have hinsert := count_insert (g := o) h
  have htotal := UnorderedMap.total_insert (fun _ g => g.weight) (guards.insert i o) other {}
  have hempty : weight {} = 0 := rfl
  rw [AList.lookup_insert_ne hne] at htotal
  simp only [ho, Option.elim_some, hempty] at htotal
  unfold count at *
  omega

/-- The two pointers of a guard are set together. -/
def Paired (guards : UnorderedMap Nat Guard) : Prop :=
  ∀ i g, guards.lookup i = some g → g.callback = g.slot

theorem Paired.insert (h : Paired guards) (hg : g.callback = g.slot) :
    Paired (guards.insert i g) := by
  intro j x hx
  rw [UnorderedMap.lookup_insert_eq] at hx
  split at hx
  · exact Option.some.inj hx ▸ hg
  · exact h j x hx

theorem Paired.erase (h : Paired guards) : Paired (guards.erase i) := by
  intro j x hx
  rw [UnorderedMap.lookup_erase_eq] at hx
  split at hx
  · contradiction
  · exact h j x hx

/-- A guard without the slot, or with its release told, is not live. -/
theorem Paired.not_live (h : Paired guards) (hg : guards.lookup i = some g)
    (hgiven : g.slot = true → g.released = true) : g.live = false := by
  have hpair := h i g hg
  cases hslot : g.slot with
  | false => simp [live, hpair, hslot]
  | true => simp [live, hgiven hslot]

end Guard

namespace CallbackSlot

def acquire (s : CallbackSlot) : Guard × CallbackSlot :=
  if s.closing || !s.callback then ({}, s)
  else ({ callback := s.callback, slot := true },
    { s with activeCallbacks := s.activeCallbacks + 1 })

/-- What `Release` tells the slot. -/
def onGuardReleased (s : CallbackSlot) : CallbackSlot :=
  if s.destroyed then s else { s with activeCallbacks := s.activeCallbacks - 1 }

/-- A slot that is open gives a live guard and counts it. -/
theorem acquire_cases (s : CallbackSlot) :
    s.acquire = ({}, s) ∨
      s.closing = false ∧ s.callback = true ∧
        s.acquire = ({ callback := true, slot := true },
          { s with activeCallbacks := s.activeCallbacks + 1 }) := by
  cases hclosing : s.closing <;> cases hcallback : s.callback <;>
    simp [acquire, hclosing, hcallback]

theorem acquire_of_closing {s : CallbackSlot} (h : s.closing = true) : s.acquire.1 = {} := by
  simp [acquire, h]

end CallbackSlot

/-- The slot, the guards there are, and how many calls of `CloseAndDrain` wait or have returned. -/
structure GuardedSlot where
  slot : CallbackSlot := {}
  guards : UnorderedMap Nat Guard := ∅
  waiting : Nat := 0
  returned : Nat := 0

/-- What a thread does next. An assignment or a destruction of a guard that has the slot comes
after its release. -/
inductive GuardStep
  | construct (i : Nat)
  | acquire (i : Nat)
  | moveConstruct (i other : Nat)
  | release (i : Nat)
  | moveAssign (i other : Nat)
  | destroy (i : Nat)
  | closeAndDrain
  | wake

namespace GuardedSlot

/-- A new guard from `Acquire`. -/
def acquire (i : Nat) (s : GuardedSlot) : GuardedSlot :=
  { s with slot := s.slot.acquire.2, guards := s.guards.insert i s.slot.acquire.1 }

/-- The pointers of the other guard move to this one. -/
def take (i other : Nat) (s : GuardedSlot) : GuardedSlot :=
  match s.guards.lookup other with
  | none => s
  | some o => { s with guards := (s.guards.insert i o).insert other {} }

def release (i : Nat) (s : GuardedSlot) : GuardedSlot :=
  match s.guards.lookup i with
  | none => s
  | some g =>
      { s with
        slot := s.slot.onGuardReleased
        guards := s.guards.insert i { g with released := true } }

/-- `CloseAndDrain` up to its first look at the count. -/
def closeAndDrain (s : GuardedSlot) : GuardedSlot :=
  if s.slot.closing then { s with returned := s.returned + 1 }
  else
    let closed := { s.slot with closing := true, callback := false }
    if closed.activeCallbacks = 0 then { s with slot := closed, returned := s.returned + 1 }
    else { s with slot := closed, waiting := s.waiting + 1 }

def run : GuardStep → GuardedSlot → GuardedSlot
  | .construct i, s => { s with guards := s.guards.insert i {} }
  | .acquire i, s => s.acquire i
  | .moveConstruct i other, s => s.take i other
  | .release i, s => s.release i
  | .moveAssign i other, s => if i = other then s else s.take i other
  | .destroy i, s => { s with guards := s.guards.erase i }
  | .closeAndDrain, s => s.closeAndDrain
  | .wake, s => { s with waiting := s.waiting - 1, returned := s.returned + 1 }

/-- The guard is there and no release of it is in progress. -/
def Idle (s : GuardedSlot) (i : Nat) : Prop :=
  ∃ g, s.guards.lookup i = some g ∧ g.released = false

/-- The guard is there, and has told the slot if it had to. -/
def Given (s : GuardedSlot) (i : Nat) : Prop :=
  ∃ g, s.guards.lookup i = some g ∧ (g.slot = true → g.released = true)

/-- No two threads use a guard at once, and no drain times out. -/
def Enabled (s : GuardedSlot) : GuardStep → Prop
  | .construct i | .acquire i => i ∉ s.guards
  | .moveConstruct i other => i ∉ s.guards ∧ s.Idle other
  | .release i => ∃ g, s.guards.lookup i = some g ∧ g.released = false ∧ g.slot = true
  | .moveAssign i other => s.Idle other ∧ (i = other ∨ s.Given i)
  | .destroy i => s.Given i
  | .closeAndDrain => True
  | .wake => 0 < s.waiting ∧ s.slot.activeCallbacks = 0

def machine : Machine GuardedSlot GuardStep where
  init := fun s => ∃ callback, s = { slot := { callback := callback } }
  step := fun s l s' => s.Enabled l ∧ s' = run l s

/-- How many guards are live. -/
def live (s : GuardedSlot) : Nat := Guard.count s.guards

/-- The count can still grow where a guard is given out, and the slot is not closed again while a
guard is live. -/
def Drained (s : GuardedSlot) : GuardStep → Prop
  | .acquire _ => s.slot.closing = false → s.slot.callback = true → s.live + 1 < 2 ^ 32
  | .closeAndDrain => s.slot.closing = true → s.live = 0
  | _ => True

variable {s t : GuardedSlot} {i other : Nat} {g : Guard}

/-! ### The count -/

/-- The slot counts the live guards, and a closed slot that a call has left has none. -/
structure Counted (s : GuardedSlot) : Prop where
  active : s.slot.activeCallbacks = UInt32.ofNat s.live
  bounded : s.live < 2 ^ 32
  paired : Guard.Paired s.guards
  kept : s.slot.destroyed = false
  waiting : 0 < s.waiting → s.slot.closing = true
  returned : 0 < s.returned → s.slot.closing = true ∧ s.live = 0

/-- The count is zero exactly when no guard is live. -/
theorem Counted.active_eq_zero (h : s.Counted) : s.slot.activeCallbacks = 0 ↔ s.live = 0 := by
  constructor
  · intro hzero
    have hnat := congrArg UInt32.toNat (h.active.symm.trans hzero)
    rw [UInt32.toNat_ofNat_of_lt' h.bounded] at hnat
    exact hnat
  · intro hzero
    rw [h.active, hzero]
    rfl

/-- The guards change and as many are live. -/
theorem Counted.withGuards (h : s.Counted) {guards : UnorderedMap Nat Guard}
    (hpaired : Guard.Paired guards) (hcount : Guard.count guards = s.live) :
    Counted { s with guards := guards } where
  active := h.active.trans (congrArg UInt32.ofNat hcount.symm)
  bounded := by
    rw [live, hcount]
    exact h.bounded
  paired := hpaired
  kept := h.kept
  waiting := h.waiting
  returned := by
    intro hreturned
    rw [live, hcount]
    exact h.returned hreturned

theorem Counted.construct (h : s.Counted) (hnew : i ∉ s.guards) :
    Counted { s with guards := s.guards.insert i {} } := by
  apply h.withGuards (h.paired.insert rfl)
  apply Guard.count_insert
  intro g hg
  exact absurd (UnorderedMap.mem_of_lookup hg) hnew

theorem Counted.acquire (h : s.Counted) (hnew : i ∉ s.guards) (hdrained : s.Drained (.acquire i)) :
    (s.acquire i).Counted := by
  unfold GuardedSlot.acquire
  rcases s.slot.acquire_cases with hempty | ⟨hopen, hcallback, hacquired⟩
  · rw [hempty]
    exact h.construct hnew
  · have hcount : Guard.count (s.guards.insert i { callback := true, slot := true }) =
        s.live + 1 := by
      apply Guard.count_insert
      intro g hg
      exact absurd (UnorderedMap.mem_of_lookup hg) hnew
    rw [hacquired]
    constructor
    · rw [live, hcount, UInt32.ofNat_add, ← h.active]
      rfl
    · rw [live, hcount]
      exact hdrained hopen hcallback
    · exact h.paired.insert rfl
    · exact h.kept
    · exact h.waiting
    · intro hreturned
      have hclosing := (h.returned hreturned).1
      rw [hopen] at hclosing
      contradiction

theorem Counted.take (h : s.Counted) (hne : other ≠ i) (hidle : s.Idle other)
    (hgiven : ∀ g, s.guards.lookup i = some g → g.live = false) : (s.take i other).Counted := by
  obtain ⟨o, ho, _⟩ := hidle
  unfold GuardedSlot.take
  rw [ho]
  apply h.withGuards
  · exact (h.paired.insert (h.paired other o ho)).insert rfl
  · exact Guard.count_take hne ho hgiven

theorem Counted.release (h : s.Counted) (henabled : s.Enabled (.release i)) :
    (s.release i).Counted := by
  obtain ⟨g, hg, hreleased, hslot⟩ := henabled
  have hlive : g.live = true := by
    simp [Guard.live, hreleased, h.paired i g hg, hslot]
  have hcount := Guard.count_release hg hlive
  have hbefore : s.live = Guard.count s.guards := rfl
  have hrelease : s.release i =
      { s with
        slot := s.slot.onGuardReleased
        guards := s.guards.insert i { g with released := true } } := by
    simp [GuardedSlot.release, hg]
  rw [hrelease]
  constructor
  · rw [CallbackSlot.onGuardReleased, h.kept, live]
    change s.slot.activeCallbacks - 1 = _
    rw [h.active, hbefore, ← hcount, UInt32.ofNat_add]
    exact UInt32.add_sub_cancel _ 1
  · have hbounded := h.bounded
    rw [hbefore, ← hcount] at hbounded
    exact Nat.lt_of_succ_lt hbounded
  · exact h.paired.insert (h.paired i g hg)
  · simp [CallbackSlot.onGuardReleased, h.kept]
  · intro hwaiting
    simp [CallbackSlot.onGuardReleased, h.kept, h.waiting hwaiting]
  · intro hreturned
    have hnone := (h.returned hreturned).2
    omega

theorem Counted.closeAndDrain (h : s.Counted) (hdrained : s.Drained .closeAndDrain) :
    s.closeAndDrain.Counted := by
  unfold GuardedSlot.closeAndDrain
  split
  · next hclosing =>
      exact ⟨h.active, h.bounded, h.paired, h.kept, h.waiting, fun _ => ⟨hclosing, hdrained hclosing⟩⟩
  · next hopen =>
      dsimp only
      split
      · next hzero =>
          exact ⟨h.active, h.bounded, h.paired, h.kept, fun _ => rfl,
            fun _ => ⟨rfl, h.active_eq_zero.mp hzero⟩⟩
      · exact ⟨h.active, h.bounded, h.paired, h.kept, fun _ => rfl,
          fun hreturned => absurd (h.returned hreturned).1 hopen⟩

theorem Counted.wake (h : s.Counted) (henabled : s.Enabled .wake) : (run .wake s).Counted where
  active := h.active
  bounded := h.bounded
  paired := h.paired
  kept := h.kept
  waiting := fun _ => h.waiting henabled.1
  returned := fun _ => ⟨h.waiting henabled.1, h.active_eq_zero.mp henabled.2⟩

theorem Counted.run {l : GuardStep} (h : s.Counted) (henabled : s.Enabled l)
    (hdrained : s.Drained l) : (run l s).Counted := by
  cases l with
  | construct i => exact h.construct henabled
  | acquire i => exact h.acquire henabled hdrained
  | moveConstruct i other =>
      obtain ⟨hnew, hidle⟩ := henabled
      have hnone : ∀ g, s.guards.lookup i ≠ some g :=
        fun g hg => hnew (UnorderedMap.mem_of_lookup hg)
      apply h.take _ hidle fun g hg => absurd hg (hnone g)
      rintro rfl
      obtain ⟨o, ho, _⟩ := hidle
      exact hnone o ho
  | release i => exact h.release henabled
  | moveAssign i other =>
      obtain ⟨hidle, hgiven⟩ := henabled
      unfold GuardedSlot.run
      dsimp only
      split
      · exact h
      · next hne =>
          obtain ⟨g, hg, hslot⟩ := hgiven.resolve_left hne
          apply h.take (Ne.symm hne) hidle
          intro x hx
          obtain rfl := Option.some.inj (hg.symm.trans hx)
          exact h.paired.not_live hg hslot
  | destroy i =>
      obtain ⟨g, hg, hslot⟩ := henabled
      apply h.withGuards h.paired.erase
      apply Guard.count_erase
      intro x hx
      obtain rfl := Option.some.inj (hg.symm.trans hx)
      exact h.paired.not_live hg hslot
  | closeAndDrain => exact h.closeAndDrain hdrained
  | wake => exact h.wake henabled

theorem counted_reachable (reach : machine.ReachableWith Drained s) : s.Counted := by
  apply reach.invariant Counted
  · rintro s ⟨callback, rfl⟩
    exact ⟨rfl, Nat.two_pow_pos 32, fun i g hg => absurd hg (by simp), rfl,
      fun hwaiting => absurd hwaiting (Nat.lt_irrefl 0),
      fun hreturned => absurd hreturned (Nat.lt_irrefl 0)⟩
  · rintro s l s' _ h hdrained ⟨henabled, rfl⟩
    exact h.run henabled hdrained

/-- The slot counts the live guards, and when a call of `CloseAndDrain` has returned no guard is
live and the slot gives out empty ones only. -/
theorem callback_drain_barrier (reach : machine.ReachableWith Drained s) :
    s.slot.activeCallbacks.toNat = s.live ∧
      (0 < s.returned →
        (∀ i g, s.guards.lookup i = some g → g.live = false) ∧ s.slot.acquire.1 = {}) := by
  have h := counted_reachable reach
  constructor
  · rw [h.active]
    exact UInt32.toNat_ofNat_of_lt' h.bounded
  · intro hreturned
    obtain ⟨hclosing, hnone⟩ := h.returned hreturned
    refine ⟨?_, CallbackSlot.acquire_of_closing hclosing⟩
    intro i g hg
    by_contra hlive
    have hrelease := Guard.count_release hg (Bool.eq_true_of_not_eq_false hlive)
    have hzero : Guard.count s.guards = 0 := hnone
    omega

/-! ### Closing while a guard is out -/

/-- A guard is taken, and the slot is closed. -/
def closedEarly : GuardedSlot := closeAndDrain (acquire 0 {})

theorem reachable_closedEarly {cond : GuardedSlot → GuardStep → Prop}
    (hacquire : cond {} (.acquire 0)) (hclose : cond (acquire 0 {}) .closeAndDrain) :
    machine.ReachableWith cond closedEarly := by
  have hacquired : machine.ReachableWith cond (acquire 0 {}) :=
    .step (.init ⟨true, rfl⟩) hacquire ⟨by simp [Enabled], rfl⟩
  exact hacquired.step hclose ⟨trivial, rfl⟩

/-- The guard goes and the call that waits for it returns. -/
theorem callback_drain_barrier_released :
    let s := run .wake (release 0 closedEarly)
    s.slot.activeCallbacks.toNat = s.live ∧
      (0 < s.returned →
        (∀ i g, s.guards.lookup i = some g → g.live = false) ∧ s.slot.acquire.1 = {}) := by
  have hclosed : machine.ReachableWith Drained closedEarly :=
    reachable_closedEarly (fun _ _ => by decide) fun hclosing => absurd hclosing (by decide)
  have hrelease : closedEarly.Enabled (.release 0) :=
    ⟨{ callback := true, slot := true }, by decide +kernel, rfl, rfl⟩
  have hreleased : machine.ReachableWith Drained (release 0 closedEarly) :=
    hclosed.step (by trivial) ⟨hrelease, rfl⟩
  have hwake : (release 0 closedEarly).Enabled .wake := ⟨by decide +kernel, by decide +kernel⟩
  have hwoken : machine.ReachableWith Drained (run .wake (release 0 closedEarly)) :=
    hreleased.step (by trivial) ⟨hwake, rfl⟩
  exact callback_drain_barrier hwoken

/-- The slot is closed a second time, and that call returns while the guard is out. -/
theorem callback_drain_left_early :
    ¬∀ s, machine.Reachable s → s.slot.activeCallbacks.toNat = s.live ∧
      (0 < s.returned →
        (∀ i g, s.guards.lookup i = some g → g.live = false) ∧ s.slot.acquire.1 = {}) := by
  intro h
  have hclose : closedEarly.Enabled .closeAndDrain := trivial
  have hreach : machine.Reachable (closeAndDrain closedEarly) :=
    (reachable_closedEarly trivial trivial).step trivial ⟨hclose, rfl⟩
  have hreturned : 0 < (closeAndDrain closedEarly).returned := by decide +kernel
  have hguard : (closeAndDrain closedEarly).guards.lookup 0 =
      some { callback := true, slot := true } := by decide +kernel
  have hlive := ((h _ hreach).2 hreturned).1 0 _ hguard
  contradiction

end GuardedSlot

end MidiFramework.Server
