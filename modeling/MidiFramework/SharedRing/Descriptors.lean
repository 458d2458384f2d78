import MidiFramework.Common.UniqueFd
import MidiFramework.SharedRing.Attach

/-!
# The descriptors of a ring

A ring holds a descriptor of its memory and, on an output port, one that wakes the
worker. Creating a ring asks the system for descriptors one after the other, and
receiving one takes them out of a parcel; any of these calls may fail, and an early
return leaves what was opened so far to destructors. Whatever the system answers, a
ring that comes out holds all that was opened and a failure leaves nothing open. Only
a received number up to that of standard error is left alone.

## Implementation notes

The objects that hold descriptors are named by their tags: the memory object, the
notification descriptor that the ring shares, and the guard of the received
descriptor. The mapping of the memory ends where its object closes and is left out.
-/

namespace MidiFramework.SharedRing

open Foundation Common

/-- The calls that give a descriptor. -/
inductive FdCall
  | dup | ashmemCreate | readFileDescriptor | eventfd | timerfdCreate | epollCreate

/-- The system's answers. A descriptor it gives was closed. -/
structure Kernel where
  answer : FdCall → OwnerTable Int Tag → Int
  fresh : ∀ call table, 0 ≤ answer call table → table.tag (answer call table) = none
  allocates : Bool
  maps : Bool

/-- A call for a descriptor, which is open and without an owner then. -/
def request (k : Kernel) (call : FdCall) (s : Process) : Int × Process :=
  let fd := k.answer call s.table
  (fd, if 0 ≤ fd then { s with table := s.table.openLoose fd } else s)

/-- The objects of a ring that hold descriptors. -/
structure RingObject where
  mem : Tag
  notifyFd : Option Tag

namespace MidiSharedMemory

/-- The constructor over a descriptor, which it duplicates. -/
def ofFd (k : Kernel) (mem : Tag) (s : Process) : Process :=
  let (dupFd, s) := request k .dup (UniqueFd.construct mem (-1) s)
  if 0 ≤ dupFd then UniqueFd.reset mem dupFd s else s

/-- `Init`: without a descriptor a new memory is created. -/
def init (k : Kernel) (mem : Tag) (size : Nat) (s : Process) : Bool × Process :=
  if ¬ (0 < size ∧ size < maxMmapBufferSize) then (false, s)
  else if UniqueFd.valid mem s then (k.maps, s)
  else
    let (newFd, s) := request k .ashmemCreate s
    if 0 ≤ newFd then (k.maps, UniqueFd.reset mem newFd s) else (false, s)

/-- `Close` and the destructor of the descriptor. -/
def destroy (mem : Tag) (s : Process) : Process :=
  UniqueFd.destroy mem (if UniqueFd.valid mem s then UniqueFd.reset mem (-1) s else s)

/-- `Init` of a new object, which is destroyed when it fails. -/
def create (k : Kernel) (mem : Tag) (size : Nat) (s : Process) : Bool × Process :=
  let (ok, s) := init k mem size s
  if ok then (true, s) else (false, destroy mem s)

def createFromLocal (k : Kernel) (mem : Tag) (size : Nat) (s : Process) : Bool × Process :=
  create k mem size (UniqueFd.construct mem (-1) s)

def createFromRemote (k : Kernel) (mem : Tag) (fd : Int) (size : Nat) (s : Process) :
    Bool × Process :=
  if ¬ fd > minFd then (false, s) else create k mem size (ofFd k mem s)

end MidiSharedMemory

/-- `INVALID_FD`. -/
def invalidFd : Int := -1

namespace RingObject

/-- `MidiSharedRing::Init`, as far as descriptors go. -/
def init (k : Kernel) (mem : Tag) (capacity : Nat) (dataFd : Int) (s : Process) :
    Bool × Process :=
  if ¬ capacity ≤ maxMmapBufferSize - sizeofControlHeader then (false, s)
  else if ¬ sizeofControlHeader + capacity ≤ maxMmapBufferSize then (false, s)
  else if dataFd = invalidFd then
    MidiSharedMemory.createFromLocal k mem (sizeofControlHeader + capacity) s
  else MidiSharedMemory.createFromRemote k mem dataFd (sizeofControlHeader + capacity) s

def destroyNotifyFd (notifyFd : Option Tag) (s : Process) : Process :=
  match notifyFd with
  | some a => UniqueFd.destroy a s
  | none => s

/-- The destructor of a ring. -/
def destroy (ring : RingObject) (s : Process) : Process :=
  destroyNotifyFd ring.notifyFd (MidiSharedMemory.destroy ring.mem s)

/-- `CreateFromLocal` of a ring that shares a notification descriptor. -/
def createFromLocal (k : Kernel) (mem : Tag) (notifyFd : Option Tag) (capacity : Nat)
    (s : Process) : Option RingObject × Process :=
  let (ok, s) := init k mem capacity invalidFd s
  if ok then (some ⟨mem, notifyFd⟩, s) else (none, destroyNotifyFd notifyFd s)

/-- `CreateRingBuffer` of a client connection. -/
def createRingBuffer (k : Kernel) (mem notify : Tag) (capacity : Nat) (fd : Int) (s : Process) :
    Option RingObject × Process :=
  if 0 ≤ fd then createFromLocal k mem (some notify) capacity (UniqueFd.construct notify fd s)
  else createFromLocal k mem none capacity s

/-- The end of `Unmarshalling`, from the new ring on. -/
def attach (k : Kernel) (mem guard : Tag) (notifyFd : Option Tag) (ringSize : Nat)
    (s : Process) : Option RingObject × Process :=
  let (ok, s) := if k.allocates then init k mem ringSize (UniqueFd.get guard s) s else (false, s)
  if ok then (some ⟨mem, notifyFd⟩, UniqueFd.destroy guard s)
  else (none, UniqueFd.destroy guard (destroyNotifyFd notifyFd s))

/-- `Unmarshalling`. -/
def unmarshalling (k : Kernel) (mem guard notify : Tag) (ringSize : Nat) (hasNotifyFd : Bool)
    (s : Process) : Option RingObject × Process :=
  if ¬ (0 < ringSize ∧ ringSize ≤ maxMmapBufferSize - sizeofControlHeader) then (none, s)
  else
    let (dataFd, s) := request k .readFileDescriptor s
    if ¬ dataFd > minFd then (none, s)
    else
      let s := UniqueFd.construct guard dataFd s
      if hasNotifyFd then
        let (eventFd, s) := request k .readFileDescriptor s
        if eventFd ≤ minFd then (none, UniqueFd.destroy guard s)
        else attach k mem guard (some notify) ringSize (UniqueFd.construct notify eventFd s)
      else attach k mem guard none ringSize s

/-- The tags of a ring's objects. -/
def tags (ring : RingObject) : List Tag := ring.mem :: ring.notifyFd.toList

end RingObject

section Accounting

/-- Between the two states new objects came, and nothing that was opened was left without one. -/
structure Gains (new : List Tag) (s t : Process) : Prop where
  sound : t.Sound
  live : ∀ a, t.Live a ↔ a ∈ new ∨ s.Live a
  loose : ∀ fd, minFd < fd → (t.Loose fd ↔ s.Loose fd)

variable {k : Kernel} {call : FdCall} {new : List Tag} {s t : Process} {a : Tag} {fd : Int}

theorem Gains.refl (h : s.Sound) : Gains [] s s := ⟨h, by simp, fun _ _ => Iff.rfl⟩

theorem live_of_others (hothers : ∀ b, b ≠ a → t.objects b = s.objects b) (hs : s.Live a)
    (ht : t.Live a) (b : Tag) : t.Live b ↔ s.Live b := by
  by_cases hb : b = a
  · exact hb ▸ iff_of_true ht hs
  · rw [Process.Live, hothers b hb, Process.Live]

theorem Gains.congr {u : Process} (h : Gains new s t) (hsound : u.Sound)
    (hlive : ∀ b, u.Live b ↔ t.Live b) (hloose : ∀ fd, minFd < fd → (u.Loose fd ↔ t.Loose fd)) :
    Gains new s u :=
  ⟨hsound, fun b => (hlive b).trans (h.live b), fun fd hfd => (hloose fd hfd).trans (h.loose fd hfd)⟩

/-- A call for a descriptor opens one at most. -/
theorem request_spec (k : Kernel) (call : FdCall) (h : s.Sound) :
    (request k call s).2.Sound ∧ (∀ b, (request k call s).2.objects b = s.objects b) ∧
      ∀ fd, (request k call s).2.Loose fd ↔
        s.Loose fd ∨ 0 ≤ (request k call s).1 ∧ fd = (request k call s).1 := by
  unfold request
  dsimp only
  split
  · next hfd =>
      have hclosed := k.fresh call s.table hfd
      refine ⟨h.openLoose hfd hclosed, fun _ => rfl, fun fd => ?_⟩
      simp only [Process.Loose, OwnerTable.Loose, OwnerTable.tag_openLoose]
      grind
  · next hfd => exact ⟨h, fun _ => rfl, fun fd => by grind⟩

theorem not_loose_request (h : 0 ≤ (request k call s).1) : ¬s.Loose (request k call s).1 := by
  have hclosed := k.fresh call s.table h
  change s.table.tag (request k call s).1 ≠ some none
  change s.table.tag (request k call s).1 = none at hclosed
  rw [hclosed]
  simp

/-- The object that is there adopts what a call gives. -/
theorem Gains.adopts (h : Gains new s t) (hlive : t.Live a) (hfd : 0 ≤ (request k call t).1) :
    Gains new s (UniqueFd.reset a (request k call t).1 (request k call t).2) := by
  obtain ⟨hsound, hobjects, hloose⟩ := request_spec k call h.sound
  have hfree : (request k call t).2.Loose (request k call t).1 := (hloose _).mpr (.inr ⟨hfd, rfl⟩)
  have hlive' : (request k call t).2.Live a := by
    rw [Process.Live, hobjects]
    exact hlive
  obtain ⟨hsound', hlive'', hothers, hloose'⟩ := hsound.reset hlive' (.inr hfree)
  refine h.congr hsound' (live_of_others (fun b hb => ?_) hlive hlive'') fun fd _ => ?_
  · rw [hothers b hb, hobjects]
  · rw [hloose', hloose]
    have hnot := not_loose_request hfd
    grind

/-- A new object that holds nothing. -/
theorem Gains.constructs (h : Gains new s t) (hnew : ¬t.Live a) :
    Gains (a :: new) s (UniqueFd.construct a (-1) t) := by
  obtain ⟨hsound, hlive⟩ := h.sound.setFd hnew
  obtain ⟨hsound', hlive', hothers, hloose⟩ := hsound.reset hlive (.inl (by omega : (-1 : Int) < 0))
  refine ⟨hsound', fun b => ?_, fun fd hfd => ?_⟩
  · rw [List.mem_cons, or_assoc, ← h.live]
    exact (live_of_others hothers hlive hlive' b).trans (Process.live_setFd t a b (-1))
  · refine (hloose fd).trans (Iff.trans ?_ (h.loose fd hfd))
    simp only [minFd] at hfd
    exact and_iff_left (by omega)

/-- A new object adopts what a call gives. -/
theorem Gains.constructsWith (h : Gains new s t) (hnew : ¬t.Live a)
    (hfd : 0 ≤ (request k call t).1) :
    Gains (a :: new) s (UniqueFd.construct a (request k call t).1 (request k call t).2) := by
  obtain ⟨hsound, hobjects, hloose⟩ := request_spec k call h.sound
  have hnew' : ¬(request k call t).2.Live a := by
    rw [Process.Live, hobjects]
    exact hnew
  obtain ⟨hsound', hlive⟩ := hsound.setFd hnew'
  have hfree : ((request k call t).2.setFd a (-1)).Loose (request k call t).1 :=
    (hloose _).mpr (.inr ⟨hfd, rfl⟩)
  obtain ⟨hsound'', hlive', hothers, hloose'⟩ := hsound'.reset hlive (.inr hfree)
  refine ⟨hsound'', fun b => ?_, fun fd hfd' => ?_⟩
  · rw [List.mem_cons, or_assoc, ← h.live]
    refine (live_of_others hothers hlive hlive' b).trans
      ((Process.live_setFd _ a b (-1)).trans (or_congr_right ?_))
    rw [Process.Live, hobjects]
    rfl
  · refine (hloose' fd).trans (Iff.trans ?_ (h.loose fd hfd'))
    have hnot := not_loose_request hfd
    have hopen := hloose fd
    change (request k call t).2.Loose fd ∧ _ ↔ _
    grind

/-- A received number up to that of standard error is left alone. -/
theorem Gains.ignores (h : Gains new s t) (hfd : (request k call t).1 ≤ minFd) :
    Gains new s (request k call t).2 := by
  obtain ⟨hsound, hobjects, hloose⟩ := request_spec k call h.sound
  refine h.congr hsound (fun b => ?_) fun fd hfd' => ?_
  · rw [Process.Live, hobjects, Process.Live]
  · rw [hloose]
    exact or_iff_left fun heq => absurd heq.2 (by omega)

/-- An object goes. -/
theorem Gains.destroys (h : Gains (a :: new) s t) (hnew : a ∉ new) (hs : ¬s.Live a) :
    Gains new s (UniqueFd.destroy a t) := by
  obtain ⟨hsound, hdead, hothers, hloose⟩ := h.sound.destroy ((h.live a).mpr (by simp))
  refine ⟨hsound, fun b => ?_, fun fd hfd => (hloose fd).trans (h.loose fd hfd)⟩
  by_cases hb : b = a
  · subst hb
    exact iff_of_false hdead (not_or.mpr ⟨hnew, hs⟩)
  · rw [Process.Live, hothers b hb]
    have hlive := h.live b
    rw [List.mem_cons, or_iff_right hb] at hlive
    exact hlive

/-- An object lets go of what it holds. -/
theorem Gains.clears (h : Gains new s t) (hlive : t.Live a) :
    Gains new s (UniqueFd.reset a (-1) t) := by
  obtain ⟨hsound, hlive', hothers, hloose⟩ := h.sound.reset hlive (.inl (by omega : (-1 : Int) < 0))
  refine h.congr hsound (live_of_others hothers hlive hlive') fun fd hfd => (hloose fd).trans ?_
  simp only [minFd] at hfd
  exact and_iff_left (by omega)

theorem Gains.of_mem {new' : List Tag} (h : Gains new s t) (hmem : ∀ b, b ∈ new' ↔ b ∈ new) :
    Gains new' s t :=
  ⟨h.sound, fun b => (h.live b).trans (or_congr_left (hmem b).symm), h.loose⟩

theorem Gains.dead (h : Gains new s t) (hnew : a ∉ new) (hs : ¬s.Live a) : ¬t.Live a :=
  fun hlive => ((h.live a).mp hlive).elim hnew hs

end Accounting

section Functions

variable {k : Kernel} {new : List Tag} {s t : Process} {mem guard notify : Tag}

namespace MidiSharedMemory

theorem gains_ofFd (h : Gains new s t) (hmem : ¬t.Live mem) :
    Gains (mem :: new) s (ofFd k mem t) := by
  have hnew := h.constructs hmem
  unfold ofFd
  dsimp only
  split
  · next hfd => exact hnew.adopts ((hnew.live mem).mpr (by simp)) hfd
  · next hfd =>
      have hsame : (request k .dup (UniqueFd.construct mem (-1) t)).2 =
          UniqueFd.construct mem (-1) t := if_neg hfd
      rw [hsame]
      exact hnew

theorem gains_init (h : Gains new s t) (hmem : t.Live mem) (size : Nat) :
    Gains new s (init k mem size t).2 := by
  unfold init
  split
  · exact h
  split
  · exact h
  dsimp only
  split
  · next hfd => exact h.adopts hmem hfd
  · next hfd =>
      have hsame : (request k .ashmemCreate t).2 = t := if_neg hfd
      rw [hsame]
      exact h

theorem gains_destroy (h : Gains (mem :: new) s t) (hnew : mem ∉ new) (hs : ¬s.Live mem) :
    Gains new s (destroy mem t) := by
  unfold destroy
  split
  · exact (h.clears ((h.live mem).mpr (by simp))).destroys hnew hs
  · exact h.destroys hnew hs

/-- The memory object is there exactly when its creation succeeds. -/
theorem gains_create (h : Gains (mem :: new) s t) (hnew : mem ∉ new) (hs : ¬s.Live mem)
    (size : Nat) : Gains (if (create k mem size t).1 then mem :: new else new) s
      (create k mem size t).2 := by
  have hinit := gains_init (k := k) h ((h.live mem).mpr (by simp)) size
  unfold create
  dsimp only
  split
  · exact hinit
  · exact gains_destroy hinit hnew hs

end MidiSharedMemory

namespace RingObject

open MidiSharedMemory

theorem gains_init (h : Gains new s t) (hnew : mem ∉ new) (hs : ¬s.Live mem) (capacity : Nat)
    (dataFd : Int) : Gains (if (init k mem capacity dataFd t).1 then mem :: new else new) s
      (init k mem capacity dataFd t).2 := by
  have hmem := h.dead hnew hs
  unfold init
  split
  · exact h
  split
  · exact h
  split
  · exact gains_create (h.constructs hmem) hnew hs _
  · unfold MidiSharedMemory.createFromRemote
    split
    · exact h
    · exact gains_create (gains_ofFd h hmem) hnew hs _

theorem gains_destroyNotifyFd {notifyFd : Option Tag} (h : Gains (notifyFd.toList ++ new) s t)
    (hnew : ∀ a ∈ notifyFd, a ∉ new ∧ ¬s.Live a) : Gains new s (destroyNotifyFd notifyFd t) := by
  cases notifyFd with
  | none => exact h
  | some a => exact h.destroys (hnew a rfl).1 (hnew a rfl).2

/-- A ring that comes out holds its notification descriptor, and a failure destroys that. -/
theorem gains_createFromLocal (notifyFd : Option Tag) (h : Gains (notifyFd.toList ++ new) s t)
    (hnew : ∀ a ∈ notifyFd, a ∉ new ∧ ¬s.Live a) (hmem : mem ∉ notifyFd.toList ++ new)
    (hs : ¬s.Live mem) (capacity : Nat) :
    Gains ((createFromLocal k mem notifyFd capacity t).1.elim [] tags ++ new) s
      (createFromLocal k mem notifyFd capacity t).2 := by
  have hinit := gains_init (k := k) h hmem hs capacity invalidFd
  unfold createFromLocal
  dsimp only
  split
  · next hok =>
      rw [if_pos hok] at hinit
      exact hinit
  · next hfailed =>
      rw [if_neg hfailed] at hinit
      exact gains_destroyNotifyFd hinit hnew

/-- `AddClientConnection` of an output connection: the client gets a duplicate of the descriptor
that wakes the worker. -/
theorem gains_createRingBuffer_dup (h : Gains new s t) (hnew : mem ∉ new ∧ notify ∉ new)
    (hs : ¬s.Live mem ∧ ¬s.Live notify) (hne : mem ≠ notify)
    (hfd : 0 ≤ (request k .dup t).1) (capacity : Nat) :
    Gains ((createRingBuffer k mem notify capacity (request k .dup t).1
        (request k .dup t).2).1.elim [] tags ++ new) s
      (createRingBuffer k mem notify capacity (request k .dup t).1 (request k .dup t).2).2 := by
  have hgains := h.constructsWith (h.dead hnew.2 hs.2) hfd
  unfold createRingBuffer
  rw [if_pos hfd]
  apply gains_createFromLocal (some notify) hgains ?_ ?_ hs.1
  · rintro a ⟨⟩
    exact ⟨hnew.2, hs.2⟩
  · simpa using ⟨hne, hnew.1⟩

theorem gains_createRingBuffer_none (h : Gains new s t) (hnew : mem ∉ new) (hs : ¬s.Live mem)
    (capacity : Nat) :
    Gains ((createRingBuffer k mem notify capacity invalidFd t).1.elim [] tags ++ new) s
      (createRingBuffer k mem notify capacity invalidFd t).2 := by
  unfold createRingBuffer
  rw [if_neg (by decide)]
  exact gains_createFromLocal none h (by simp) hnew hs capacity

theorem gains_attach (notifyFd : Option Tag) {ringSize : Nat}
    (h : Gains (notifyFd.toList ++ guard :: new) s t)
    (hnotify : ∀ a ∈ notifyFd, a ∉ guard :: new ∧ ¬s.Live a)
    (hmem : mem ∉ notifyFd.toList ++ guard :: new) (hs : ¬s.Live mem) (hguard : guard ∉ new)
    (hguard' : ¬s.Live guard) :
    Gains ((attach k mem guard notifyFd ringSize t).1.elim [] tags ++ new) s
      (attach k mem guard notifyFd ringSize t).2 := by
  have hdone : ∀ {u : Process}, Gains (mem :: (notifyFd.toList ++ guard :: new)) s u →
      Gains (tags ⟨mem, notifyFd⟩ ++ new) s (UniqueFd.destroy guard u) := by
    intro u hu
    have hfirst : Gains (guard :: (mem :: notifyFd.toList ++ new)) s u := by
      apply hu.of_mem
      intro b
      simp only [List.mem_cons, List.mem_append]
      tauto
    apply hfirst.destroys ?_ hguard'
    simp only [List.mem_cons, List.mem_append, Option.mem_toList]
    rintro ((rfl | hshared) | hold)
    · exact hmem (by simp)
    · exact (hnotify guard hshared).1 (by simp)
    · exact hguard hold
  have hfailed : ∀ {u : Process}, Gains (notifyFd.toList ++ guard :: new) s u →
      Gains new s (UniqueFd.destroy guard (destroyNotifyFd notifyFd u)) :=
    fun hu => (gains_destroyNotifyFd hu hnotify).destroys hguard hguard'
  unfold attach
  dsimp only
  by_cases hallocates : k.allocates
  · rw [if_pos hallocates]
    have hinit := gains_init (k := k) h hmem hs ringSize (UniqueFd.get guard t)
    split
    · next hok =>
        rw [if_pos hok] at hinit
        exact hdone hinit
    · next hnot =>
        rw [if_neg hnot] at hinit
        exact hfailed hinit
  · rw [if_neg hallocates]
    exact hfailed h

/-- Whatever arrives and whatever the system answers, a ring that is unmarshalled holds all that was
opened for it, and a failure leaves nothing open. -/
theorem gains_unmarshalling (h : Gains new s t) (ringSize : Nat) (hasNotifyFd : Bool)
    (hnew : mem ∉ new ∧ guard ∉ new ∧ notify ∉ new)
    (hs : ¬s.Live mem ∧ ¬s.Live guard ∧ ¬s.Live notify)
    (hne : mem ≠ guard ∧ mem ≠ notify ∧ guard ≠ notify) :
    Gains ((unmarshalling k mem guard notify ringSize hasNotifyFd t).1.elim [] tags ++ new) s
      (unmarshalling k mem guard notify ringSize hasNotifyFd t).2 := by
  unfold unmarshalling
  split
  · exact h
  dsimp only
  split
  · next hsmall => exact h.ignores (by omega)
  next hdata =>
  have hopen : 0 ≤ (request k .readFileDescriptor t).1 := by
    simp only [minFd] at hdata
    omega
  have hguarded := h.constructsWith (h.dead hnew.2.1 hs.2.1) hopen
  set u := UniqueFd.construct guard (request k .readFileDescriptor t).1
    (request k .readFileDescriptor t).2
  split
  · split
    · next hsmall => exact (hguarded.ignores hsmall).destroys hnew.2.1 hs.2.1
    · next hevent =>
        have hnotify : notify ∉ guard :: new := by simpa using ⟨hne.2.2.symm, hnew.2.2⟩
        have hopen' : 0 ≤ (request k .readFileDescriptor u).1 := by
          simp only [minFd] at hevent
          omega
        have hboth := hguarded.constructsWith (hguarded.dead hnotify hs.2.2) hopen'
        apply gains_attach (some notify) hboth ?_ ?_ hs.1 hnew.2.1 hs.2.1
        · rintro a ⟨⟩
          exact ⟨hnotify, hs.2.2⟩
        · simpa using ⟨hne.2.1, hne.1, hnew.1⟩
  · exact gains_attach none hguarded (by simp) (by simpa using ⟨hne.1, hnew.1⟩) hs.1
      hnew.2.1 hs.2.1

/-- The ring is made of the objects with these tags. -/
def MadeOf (mem notify : Tag) (ring : RingObject) : Prop :=
  ring.mem = mem ∧ ∀ a ∈ ring.notifyFd, a = notify

theorem madeOf_createFromLocal {notifyFd : Option Tag} {capacity : Nat}
    (hnotify : ∀ a ∈ notifyFd, a = notify) :
    ∀ ring ∈ (createFromLocal k mem notifyFd capacity s).1, MadeOf mem notify ring := by
  unfold createFromLocal
  dsimp only
  split
  · rintro ring ⟨⟩
    exact ⟨rfl, hnotify⟩
  · simp

theorem madeOf_createRingBuffer {capacity : Nat} {fd : Int} :
    ∀ ring ∈ (createRingBuffer k mem notify capacity fd s).1, MadeOf mem notify ring := by
  unfold createRingBuffer
  split <;> exact madeOf_createFromLocal (by simp)

theorem madeOf_attach {notifyFd : Option Tag} {ringSize : Nat}
    (hnotify : ∀ a ∈ notifyFd, a = notify) :
    ∀ ring ∈ (attach k mem guard notifyFd ringSize s).1, MadeOf mem notify ring := by
  unfold attach
  dsimp only
  generalize (if k.allocates then init k mem ringSize (UniqueFd.get guard s) s else (false, s)) = r
  split
  · rintro ring ⟨⟩
    exact ⟨rfl, hnotify⟩
  · simp

theorem madeOf_unmarshalling {ringSize : Nat} {hasNotifyFd : Bool} :
    ∀ ring ∈ (unmarshalling k mem guard notify ringSize hasNotifyFd s).1,
      MadeOf mem notify ring := by
  unfold unmarshalling
  split
  · simp
  dsimp only
  split
  · simp
  split
  · split
    · simp
    · exact madeOf_attach (by simp)
  · exact madeOf_attach (by simp)

theorem MadeOf.tags {ring : RingObject} (h : MadeOf mem notify ring) (hne : mem ≠ notify) :
    ring.tags.Nodup ∧ ∀ a ∈ ring.tags, a = mem ∨ a = notify := by
  obtain ⟨ringMem, notifyFd⟩ := ring
  obtain ⟨rfl, hnotify⟩ := h
  cases notifyFd with
  | none => simp [RingObject.tags]
  | some a =>
      obtain rfl := hnotify a rfl
      simpa [RingObject.tags] using hne

/-- The destructor of a ring takes all it holds along. -/
theorem gains_destroy {ring : RingObject} (h : Gains (ring.tags ++ new) s t)
    (hnodup : ring.tags.Nodup) (hnew : ∀ a ∈ ring.tags, a ∉ new ∧ ¬s.Live a) :
    Gains new s (ring.destroy t) := by
  have hmem := hnew ring.mem (by simp [tags])
  have hother : ring.mem ∉ ring.notifyFd.toList := by
    have hcons := List.nodup_cons.mp hnodup
    exact hcons.1
  apply gains_destroyNotifyFd
  · apply MidiSharedMemory.gains_destroy h ?_ hmem.2
    simpa using ⟨by simpa using hother, hmem.1⟩
  · intro a ha
    apply hnew
    simp [tags, Option.mem_toList.mpr ha]

end RingObject

end Functions

end MidiFramework.SharedRing
