import Mathlib.Logic.Basic

/-!
# Programs that issue commands

A program is a tree of commands: after each command it continues with the
response. The same program is read in three ways. `run` answers every command
from a state, which is the sequential meaning. `Issues` and `Returns` let every
response be arbitrary, which is the meaning against an environment that answers
as it likes. The third reading, with another party acting between any two
commands, is in the module on interference.

## Implementation notes

Loops of unknown length take a fuel argument in the programs themselves, so a
program is a finite tree and every rule below is an induction on it.
-/

namespace Foundation

/-- Commands and the type of the response to each. -/
structure Interface where
  Cmd : Type
  Resp : Cmd → Type

/-- A computation over the commands of `I` with a result in `α`. -/
inductive Program (I : Interface) (α : Type) : Type
  | ret (a : α) : Program I α
  | op (c : I.Cmd) (k : I.Resp c → Program I α) : Program I α

namespace Program

variable {I : Interface} {α β γ : Type}

def bind : Program I α → (α → Program I β) → Program I β
  | ret a, f => f a
  | op c k, f => op c fun r => (k r).bind f

instance : Monad (Program I) where
  pure := ret
  bind := bind

/-- The program that issues one command and returns its response. -/
def perform (c : I.Cmd) : Program I (I.Resp c) := op c ret

@[simp] theorem pure_eq (a : α) : (pure a : Program I α) = ret a := rfl

@[simp] theorem ret_bind (a : α) (f : α → Program I β) : (ret a >>= f) = f a := rfl

@[simp] theorem op_bind (c : I.Cmd) (k : I.Resp c → Program I α) (f : α → Program I β) :
    (op c k >>= f) = op c fun r => k r >>= f := rfl

@[simp] theorem perform_bind (c : I.Cmd) (f : I.Resp c → Program I β) :
    (perform c >>= f) = op c f := rfl

theorem bind_bind (p : Program I α) (f : α → Program I β) (g : β → Program I γ) :
    (p >>= f) >>= g = p >>= fun a => f a >>= g := by
  induction p with
  | ret a => rfl
  | op c k ih => exact congrArg (op c) (funext ih)

section Sequential

variable {S T : Type} (exec : (c : I.Cmd) → S → I.Resp c × S)

/-- Answer every command from the state, one after the other. -/
def run : Program I α → S → α × S
  | ret a, s => (a, s)
  | op c k, s => (k (exec c s).1).run (exec c s).2

/-- The rest of a program and the state after `n` of its commands, or after all if it has fewer. -/
def after : Nat → Program I α → S → Program I α × S
  | 0, p, s => (p, s)
  | _ + 1, ret a, s => (ret a, s)
  | n + 1, op c k, s => after n (k (exec c s).1) (exec c s).2

@[simp] theorem run_ret (a : α) (s : S) : (ret a : Program I α).run exec s = (a, s) := rfl

@[simp] theorem run_op (c : I.Cmd) (k : I.Resp c → Program I α) (s : S) :
    (op c k).run exec s = (k (exec c s).1).run exec (exec c s).2 := rfl

@[simp] theorem run_perform (c : I.Cmd) (s : S) : (perform c).run exec s = exec c s := rfl

theorem run_bind (p : Program I α) (f : α → Program I β) (s : S) :
    (p >>= f).run exec s = (f (p.run exec s).1).run exec (p.run exec s).2 := by
  induction p generalizing s with
  | ret a => rfl
  | op c k ih => exact ih _ _

/-- A state map that respects every command respects every run: parts of the
state that no response depends on can be erased. -/
theorem run_map {exec' : (c : I.Cmd) → T → I.Resp c × T} (e : S → T)
    (he : ∀ c s, exec' c (e s) = ((exec c s).1, e (exec c s).2))
    (p : Program I α) (s : S) :
    p.run exec' (e s) = ((p.run exec s).1, e (p.run exec s).2) := by
  induction p generalizing s with
  | ret a => rfl
  | op c k ih => simp only [run_op, he, ih]

end Sequential

section Adversarial

/-- The command `c` is issued on some path, whatever the responses were. -/
inductive Issues : Program I α → I.Cmd → Prop
  | here (c : I.Cmd) (k) : Issues (op c k) c
  | later {c : I.Cmd} {k} {c' : I.Cmd} (r : I.Resp c) (h : Issues (k r) c') :
      Issues (op c k) c'

/-- The result `a` is returned on some path, whatever the responses were. -/
inductive Returns : Program I α → α → Prop
  | ret (a : α) : Returns (ret a) a
  | op {c : I.Cmd} {k} {a : α} (r : I.Resp c) (h : Returns (k r) a) : Returns (op c k) a

/-- Every command on every path meets `P` and every result meets `Q`. -/
def Always (P : I.Cmd → Prop) (Q : α → Prop) : Program I α → Prop
  | ret a => Q a
  | op c k => P c ∧ ∀ r, (k r).Always P Q

variable {P : I.Cmd → Prop} {Q : α → Prop} {R : β → Prop}

theorem Always.issues {p : Program I α} (h : p.Always P Q) {c : I.Cmd}
    (hc : p.Issues c) : P c := by
  induction hc with
  | here c k => exact h.1
  | later r _ ih => exact ih (h.2 r)

theorem Always.returns {p : Program I α} (h : p.Always P Q) {a : α}
    (ha : p.Returns a) : Q a := by
  induction ha with
  | ret a => exact h
  | op r _ ih => exact ih (h.2 r)

theorem Always.run {S : Type} {exec : (c : I.Cmd) → S → I.Resp c × S} {p : Program I α}
    (h : p.Always P Q) (s : S) : Q (p.run exec s).1 := by
  induction p generalizing s with
  | ret a => exact h
  | op c k ih => exact ih _ (h.2 _) _

theorem Always.trivial (p : Program I α) : p.Always (fun _ => True) fun _ => True := by
  induction p with
  | ret a => exact True.intro
  | op c k ih => exact ⟨True.intro, ih⟩

theorem Always.ret {a : α} (h : Q a) : (Program.ret a : Program I α).Always P Q := h

theorem Always.bind {p : Program I α} {f : α → Program I β} (hp : p.Always P Q)
    (hf : ∀ a, Q a → (f a).Always P R) : (p >>= f).Always P R := by
  induction p with
  | ret a => exact hf a hp
  | op c k ih => exact ⟨hp.1, fun r => ih r (hp.2 r)⟩

theorem Always.mono {Q' : α → Prop} {p : Program I α} (hp : p.Always P Q)
    (h : ∀ a, Q a → Q' a) : p.Always P Q' := by
  induction p with
  | ret a => exact h a hp
  | op c k ih => exact ⟨hp.1, fun r => ih r (hp.2 r)⟩

end Adversarial

section Length

/-- Whatever the responses are, the program ends after at most so many commands. -/
def AtMost : Nat → Program I α → Prop
  | _, ret _ => True
  | 0, op _ _ => False
  | n + 1, op _ k => ∀ r, AtMost n (k r)

theorem AtMost.mono {p : Program I α} {m n : Nat} (h : p.AtMost m) (hle : m ≤ n) : p.AtMost n := by
  induction p generalizing m n with
  | ret a => cases n <;> trivial
  | op c k ih =>
      cases m with
      | zero => exact h.elim
      | succ m =>
          obtain ⟨n, rfl⟩ := Nat.exists_eq_add_of_le' (Nat.one_le_of_lt hle)
          exact fun r => ih r (h r) (Nat.le_of_succ_le_succ hle)

theorem AtMost.ret (n : Nat) (a : α) : (Program.ret a : Program I α).AtMost n := by
  cases n <;> trivial

theorem AtMost.bind {p : Program I α} {f : α → Program I β} {m n : Nat} (hp : p.AtMost m)
    (hf : ∀ a, (f a).AtMost n) : (p >>= f).AtMost (m + n) := by
  induction p generalizing m with
  | ret a => exact (hf a).mono (Nat.le_add_left n m)
  | op c k ih =>
      cases m with
      | zero => exact hp.elim
      | succ m =>
          rw [Nat.succ_add]
          exact fun r => ih r (hp r)

theorem AtMost.ite {c : Prop} [Decidable c] {p q : Program I α} {n : Nat} (hp : p.AtMost n)
    (hq : q.AtMost n) : (if c then p else q).AtMost n := by
  split
  · exact hp
  · exact hq

end Length

end Program

end Foundation
