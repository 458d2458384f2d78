import MidiFramework.Foundation.Interference
import MidiFramework.SharedRing.Layout

/-!
# What the writer and the reader rely on

The state of a ring is its memory with the history of the records: those that
were ever published and how many of them were taken. The notes of the position
stores move the history, and no response depends on it. The two roles of a ring
are what each side promises for its own accesses; the promise of one side is
what the other side relies on.
-/

namespace MidiFramework.SharedRing

open Foundation Program

/-- The memory of a ring and the history of its records. -/
structure RingState where
  mem : RingMemory
  appended : List Record
  removed : Nat

namespace RingState

variable (s : RingState)

def readIndex : Nat := s.mem.readPosition.toNat

def writeIndex : Nat := s.mem.writePosition.toNat

def index : Position → Nat
  | .readPosition => s.readIndex
  | .writePosition => s.writeIndex

def unread : List Record := s.appended.drop s.removed

/-- The bytes between the two positions are occupied. -/
def Occupied (i : Nat) : Prop := SharedRing.Occupied s.readIndex s.writeIndex i

end RingState

section History

/-- The published records after an access. -/
def RingCmd.appendedAfter : RingCmd → RingState → List Record
  | .storePosition .writePosition _ (.append x), s => s.appended ++ [x]
  | .storePosition _ _ .reset, s => s.appended.take s.removed
  | _, s => s.appended

/-- The number of taken records after an access. -/
def RingCmd.removedAfter : RingCmd → RingState → Nat
  | .storePosition .readPosition _ .commit, s => s.removed + 1
  | _, s => s.removed

/-- `exec` with the history. -/
def execTraced (c : RingCmd) (s : RingState) : c.Resp × RingState :=
  ((exec c s.mem).1, ⟨(exec c s.mem).2, c.appendedAfter s, c.removedAfter s⟩)

/-- The history can be erased. -/
theorem run_exec {α : Type} (p : RingProgram α) (s : RingState) :
    p.run exec s.mem = ((p.run execTraced s).1, (p.run execTraced s).2.mem) :=
  run_map execTraced RingState.mem (fun _ _ => rfl) p s

/-- Loads and computations. -/
def ReadOnly : RingCmd → Prop
  | .loadPosition _ => True
  | .load32 _ => True
  | .load64 _ => True
  | .arith _ => True
  | _ => False

theorem ReadOnly.state {c : RingCmd} (h : ReadOnly c) (s : RingState) :
    (execTraced c s).2 = s := by
  cases c with
  | loadPosition p => cases p <;> rfl
  | load32 off => rfl
  | load64 off => rfl
  | arith exact => rfl
  | _ => exact h.elim

end History

section Roles

variable (ok : UInt32 → Prop) (cap : Nat)

/-- The representation invariant of a ring. -/
structure RingState.Inv (s : RingState) : Prop where
  layout : Layout ok cap s.mem.data s.readIndex s.writeIndex s.unread
  removed_le : s.removed ≤ s.appended.length

instance [DecidablePred ok] (s : RingState) : Decidable (s.Inv ok cap) :=
  decidable_of_iff (Layout ok cap s.mem.data s.readIndex s.writeIndex s.unread ∧
      s.removed ≤ s.appended.length)
    ⟨fun ⟨hlayout, hremoved⟩ => ⟨hlayout, hremoved⟩, fun h => ⟨h.layout, h.removed_le⟩⟩

/-- What the reader may do to the state. -/
structure ReaderMoves (s t : RingState) : Prop where
  data : t.mem.data = s.mem.data
  write : t.mem.writePosition = s.mem.writePosition
  flag : t.mem.flushFlag = s.mem.flushFlag
  appended : t.appended = s.appended
  between : Between s.readIndex t.readIndex s.writeIndex
  inv : s.Inv ok cap → t.Inv ok cap

/-- What the writer may do to the state. -/
structure WriterMoves (s t : RingState) : Prop where
  read : t.mem.readPosition = s.mem.readPosition
  flag : t.mem.flushFlag = s.mem.flushFlag
  removed : t.removed = s.removed
  appended : s.appended <+: t.appended
  data : ∀ i, s.Occupied i → t.Occupied i ∧ t.mem.data i = s.mem.data i
  inv : s.Inv ok cap → t.Inv ok cap

variable {ok cap} {s t u : RingState}

theorem RingState.Inv.mono {ok' : UInt32 → Prop} (h : s.Inv ok cap) (hok : ∀ v, ok v → ok' v) :
    s.Inv ok' cap :=
  ⟨h.layout.mono hok, h.removed_le⟩

theorem ReaderMoves.refl (s : RingState) : ReaderMoves ok cap s s :=
  ⟨rfl, rfl, rfl, rfl, Between.refl _ _, id⟩

theorem ReaderMoves.trans (h : ReaderMoves ok cap s t) (h' : ReaderMoves ok cap t u) :
    ReaderMoves ok cap s u := by
  refine ⟨h'.data.trans h.data, h'.write.trans h.write, h'.flag.trans h.flag,
    h'.appended.trans h.appended, ?_, fun hs => h'.inv (h.inv hs)⟩
  have hnext := h'.between
  rw [RingState.writeIndex, h.write] at hnext
  exact h.between.trans hnext

theorem WriterMoves.refl (s : RingState) : WriterMoves ok cap s s :=
  ⟨rfl, rfl, rfl, List.prefix_refl _, fun _ hi => ⟨hi, rfl⟩, id⟩

theorem WriterMoves.trans (h : WriterMoves ok cap s t) (h' : WriterMoves ok cap t u) :
    WriterMoves ok cap s u := by
  refine ⟨h'.read.trans h.read, h'.flag.trans h.flag, h'.removed.trans h.removed,
    h.appended.trans h'.appended, ?_, fun hs => h'.inv (h.inv hs)⟩
  intro i hi
  obtain ⟨hocc, hdata⟩ := h.data i hi
  obtain ⟨hocc', hdata'⟩ := h'.data i hocc
  exact ⟨hocc', hdata'.trans hdata⟩

/-- The byte `i` of the data area is stored to. -/
def Touches : RingCmd → Nat → Prop
  | .store32 off _, i => off ≤ i ∧ i < off + 4
  | .store64 off _, i => off ≤ i ∧ i < off + 8
  | .memset len, i => i < len
  | _, _ => False

/-- How the unread records change by an access of the writer. -/
def WriterEffect (c : RingCmd) (s t : RingState) : Prop :=
  match c with
  | .storePosition .writePosition v (.append x) =>
      t.unread = s.unread ++ [x] ∧ v.toNat ≠ s.readIndex
  | _ => t.unread = s.unread

/-- How the unread records change by an access of the reader. -/
def ReaderEffect (c : RingCmd) (s t : RingState) : Prop :=
  match c with
  | .storePosition .readPosition _ .commit => ∃ x, s.unread = x :: t.unread
  | _ => t.unread = s.unread

/-- What the writer promises for each of its accesses. -/
structure WriterGuarantee (ok : UInt32 → Prop) (cap : Nat) (c : RingCmd) (s t : RingState) :
    Prop where
  moves : WriterMoves ok cap s t
  spares : ∀ i, Touches c i → ¬ s.Occupied i
  effect : WriterEffect c s t

/-- What the reader promises for each of its accesses. -/
structure ReaderGuarantee (ok : UInt32 → Prop) (cap : Nat) (c : RingCmd) (s t : RingState) :
    Prop where
  moves : ReaderMoves ok cap s t
  spares : ∀ i, ¬ Touches c i
  effect : ReaderEffect c s t

/-- The writer relies on the reader. -/
def writerRole (ok : UInt32 → Prop) (cap : Nat) : Discipline ringInterface RingState where
  exec := execTraced
  rely := ReaderMoves ok cap
  guarantee := WriterGuarantee ok cap
  refl := ReaderMoves.refl
  trans := ReaderMoves.trans

/-- The reader relies on the writer. -/
def readerRole (ok : UInt32 → Prop) (cap : Nat) : Discipline ringInterface RingState where
  exec := execTraced
  rely := WriterMoves ok cap
  guarantee := ReaderGuarantee ok cap
  refl := WriterMoves.refl
  trans := WriterMoves.trans

end Roles

section Reads

variable {D : Discipline ringInterface RingState}

/-- The discipline is about rings, and a party may always read and compute. -/
structure ReadsFreely (D : Discipline ringInterface RingState) : Prop where
  exec : D.exec = execTraced
  guarantee : ∀ c s, ReadOnly c → D.guarantee c s s

theorem ReadOnly.not_touches {c : RingCmd} (h : ReadOnly c) (i : Nat) : ¬ Touches c i := by
  cases c <;> first | exact h.elim | exact id

theorem writerRole_reads (ok : UInt32 → Prop) (cap : Nat) :
    ReadsFreely (writerRole ok cap) := by
  refine ⟨rfl, fun c s hro => ⟨.refl s, fun i hi => absurd hi (hro.not_touches i), ?_⟩⟩
  cases c <;> first | exact hro.elim | rfl

theorem readerRole_reads (ok : UInt32 → Prop) (cap : Nat) :
    ReadsFreely (readerRole ok cap) := by
  refine ⟨rfl, fun c s hro => ⟨.refl s, hro.not_touches, ?_⟩⟩
  cases c <;> first | exact hro.elim | rfl

variable {P : RingState → Prop}

theorem triple_access (hD : ReadsFreely D) {c : RingCmd} (hro : ReadOnly c)
    {M : c.Resp → RingState → Prop} (hs : D.Stable P)
    (hm : ∀ s, P s → M (execTraced c s).1 s) (hM : ∀ r, D.Stable (M r)) :
    D.Triple P (access c) M := by
  refine Discipline.Triple.perform hs ?_ ?_ hM
  · intro s _
    rw [hD.exec, hro.state]
    exact hD.guarantee c s hro
  · intro s hp
    rw [hD.exec]
    have hstate := hro.state s
    change M (execTraced c s).1 (execTraced c s).2
    rw [hstate]
    exact hm s hp

theorem triple_loadPosition (hD : ReadsFreely D) {p : Position} {Q : Nat → RingState → Prop}
    (hs : D.Stable P) (hm : ∀ s, P s → Q (s.index p) s) (hQ : ∀ v, D.Stable (Q v)) :
    D.Triple P (loadPosition p) Q := by
  refine Discipline.Triple.bind (Q := fun (v : UInt32) => Q v.toNat) ?_
    fun v => Discipline.Triple.ret (hQ _) fun s h => h
  refine triple_access hD (by trivial) hs ?_ fun _ => hQ _
  intro s h
  cases p <;> exact hm s h

/-- The computed value is a fact that no access can change. -/
theorem triple_arith (hD : ReadsFreely D) (hs : D.Stable P) {exact : Int} {v : Nat}
    (hv : wrap32 exact = v) :
    D.Triple P (do let _ ← access (.arith exact); return wrap32 exact)
      fun r s => r = v ∧ P s := by
  refine Discipline.Triple.bind (Q := fun _ => P) ?_ fun _ => ?_
  · exact triple_access hD (by trivial) hs (fun _ h => h) fun _ => hs
  · exact Discipline.Triple.ret hs fun s h => ⟨hv, h⟩

theorem triple_sub32 (hD : ReadsFreely D) (hs : D.Stable P) {a b : Nat} (hb : b ≤ a)
    (ha : a < 2 ^ 32) : D.Triple P (sub32 a b) fun v s => v = a - b ∧ P s :=
  triple_arith hD hs (wrap32_sub hb ha)

theorem triple_add32 (hD : ReadsFreely D) (hs : D.Stable P) {a b : Nat}
    (h : a + b < 2 ^ 32) : D.Triple P (add32 a b) fun v s => v = a + b ∧ P s :=
  triple_arith hD hs (wrap32_add h)

theorem triple_ringUsed (hD : ReadsFreely D) (hs : D.Stable P) {r w cap : Nat}
    (hr : r < cap) (hw : w < cap) (hcap : cap < 2 ^ 32) :
    D.Triple P (ringUsed r w cap) fun v s => v = usedBytes r w cap ∧ P s := by
  unfold ringUsed usedBytes
  split
  · exact triple_sub32 hD hs (by omega) (by omega)
  · refine Discipline.Triple.bind (triple_sub32 hD hs (by omega) (by omega)) fun gap => ?_
    refine Discipline.Triple.pure ?_
    rintro rfl
    exact triple_sub32 hD hs (by omega) (by omega)

theorem triple_ringFree (hD : ReadsFreely D) (hs : D.Stable P) {r w cap : Nat}
    (hr : r < cap) (hw : w < cap) (hcap : cap < 2 ^ 32) :
    D.Triple P (ringFree r w cap) fun v s => v = freeBytes r w cap ∧ P s := by
  have hused := usedBytes_lt hr hw
  refine Discipline.Triple.bind (triple_ringUsed hD hs hr hw hcap) fun used => ?_
  refine Discipline.Triple.pure ?_
  rintro rfl
  refine Discipline.Triple.bind (triple_sub32 hD hs (by omega) (by omega)) fun limit => ?_
  refine Discipline.Triple.pure ?_
  rintro rfl
  exact triple_sub32 hD hs (by omega) (by omega)

end Reads

end MidiFramework.SharedRing
