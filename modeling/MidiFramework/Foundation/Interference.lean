import MidiFramework.Foundation.Program
import MidiFramework.Foundation.Transition

/-!
# Programs of two parties on one state

Two parties run programs on a shared state, one command at a time, in any
order. Each party promises a guarantee for its own commands and relies on what
the other party may do. `Sat` says that a program keeps its guarantee and
reaches its postcondition whatever the relied-on changes between its commands;
`Triple` gives the rules to prove it. If each party's guarantee is within the
other's rely, `TwoParty.sound` carries both through every interleaving.
-/

namespace Foundation

/-- How commands act on the state, what the party relies on between its
commands, and what it guarantees about each of them. -/
structure Discipline (I : Interface) (S : Type) where
  exec : (c : I.Cmd) → S → I.Resp c × S
  rely : S → S → Prop
  guarantee : I.Cmd → S → S → Prop
  refl : ∀ s, rely s s
  trans : ∀ {s t u}, rely s t → rely t u → rely s u

namespace Discipline

open Program

variable {I : Interface} {S α β : Type} (D : Discipline I S)

/-- From the state `s`, and after any relied-on change before each command, the
program keeps the guarantee and its result meets `Q`. -/
def Sat (Q : α → S → Prop) : Program I α → S → Prop
  | ret a, s => ∀ t, D.rely s t → Q a t
  | op c k, s => ∀ t, D.rely s t →
      D.guarantee c t (D.exec c t).2 ∧ Sat Q (k (D.exec c t).1) (D.exec c t).2

/-- Relied-on changes keep the assertion. -/
def Stable (P : S → Prop) : Prop := ∀ s t, D.rely s t → P s → P t

/-- Started where `P` holds, the program satisfies `Q`. -/
def Triple (P : S → Prop) (p : Program I α) (Q : α → S → Prop) : Prop :=
  ∀ s, P s → D.Sat Q p s

variable {D} {P P' : S → Prop} {Q Q' : α → S → Prop} {R : β → S → Prop}

theorem Stable.and {a : Prop} (hs : D.Stable P) : D.Stable fun s => a ∧ P s :=
  fun s t hr h => ⟨h.1, hs s t hr h.2⟩

/-- Another relied-on change first makes no difference. -/
theorem Sat.rely {p : Program I α} {s t : S} (h : D.Sat Q p s) (hr : D.rely s t) :
    D.Sat Q p t := by
  cases p with
  | ret a => exact fun u hu => h u (D.trans hr hu)
  | op c k => exact fun u hu => h u (D.trans hr hu)

theorem Sat.mono {p : Program I α} {s : S} (h : D.Sat Q p s)
    (hq : ∀ a t, Q a t → Q' a t) : D.Sat Q' p s := by
  induction p generalizing s with
  | ret a => exact fun t ht => hq a t (h t ht)
  | op c k ih => exact fun t ht => ⟨(h t ht).1, ih _ (h t ht).2⟩

theorem Sat.bind {p : Program I α} {f : α → Program I β} {s : S} (hp : D.Sat Q p s)
    (hf : ∀ a t, Q a t → D.Sat R (f a) t) : D.Sat R (p >>= f) s := by
  induction p generalizing s with
  | ret a => exact hf a s (hp s (D.refl s))
  | op c k ih => exact fun t ht => ⟨(hp t ht).1, ih _ (hp t ht).2⟩

/-- What is true of the result on every path is true with the postcondition. -/
theorem Sat.always {p : Program I α} {s : S} {A : α → Prop} (h : D.Sat Q p s)
    (hp : p.Always (fun _ => True) A) : D.Sat (fun a t => A a ∧ Q a t) p s := by
  induction p generalizing s with
  | ret a => exact fun t ht => ⟨hp, h t ht⟩
  | op c k ih => exact fun t ht => ⟨(h t ht).1, ih _ (h t ht).2 (hp.2 _)⟩

/-- With no change in between, the sequential run meets the postcondition. -/
theorem Sat.run {p : Program I α} {s : S} (h : D.Sat Q p s) :
    Q (p.run D.exec s).1 (p.run D.exec s).2 := by
  induction p generalizing s with
  | ret a => exact h s (D.refl s)
  | op c k ih => exact ih _ (h s (D.refl s)).2

/-- A sequential run stays within what every guarantee allows. -/
theorem Sat.run_within {p : Program I α} {s : S} {R : S → S → Prop} (h : D.Sat Q p s)
    (hrefl : ∀ s, R s s) (htrans : ∀ {s t u}, R s t → R t u → R s u)
    (hg : ∀ c s t, D.guarantee c s t → R s t) : R s (p.run D.exec s).2 := by
  induction p generalizing s with
  | ret a => exact hrefl s
  | op c k ih =>
      have hstep := h s (D.refl s)
      exact htrans (hg _ _ _ hstep.1) (ih _ hstep.2)

theorem Triple.ret {a : α} (hs : D.Stable P) (h : ∀ s, P s → Q a s) :
    D.Triple P (ret a) Q :=
  fun s hp t ht => h t (hs s t ht hp)

theorem Triple.op {c : I.Cmd} {k : I.Resp c → Program I α} {M : I.Resp c → S → Prop}
    (hs : D.Stable P) (hg : ∀ s, P s → D.guarantee c s (D.exec c s).2)
    (hm : ∀ s, P s → M (D.exec c s).1 (D.exec c s).2)
    (hk : ∀ r, D.Triple (M r) (k r) Q) : D.Triple P (op c k) Q :=
  fun s hp t ht => ⟨hg t (hs s t ht hp), hk _ _ (hm t (hs s t ht hp))⟩

theorem Triple.perform {c : I.Cmd} {M : I.Resp c → S → Prop} (hs : D.Stable P)
    (hg : ∀ s, P s → D.guarantee c s (D.exec c s).2)
    (hm : ∀ s, P s → M (D.exec c s).1 (D.exec c s).2) (hM : ∀ r, D.Stable (M r)) :
    D.Triple P (perform c) M :=
  Triple.op hs hg hm fun r => Triple.ret (hM r) fun _ h => h

theorem Triple.bind {p : Program I α} {f : α → Program I β}
    (hp : D.Triple P p Q) (hf : ∀ a, D.Triple (Q a) (f a) R) : D.Triple P (p >>= f) R :=
  fun s h => (hp s h).bind fun a t hq => hf a t hq

theorem Triple.conseq {p : Program I α} (h : D.Triple P' p Q') (hpre : ∀ s, P s → P' s)
    (hpost : ∀ a s, Q' a s → Q a s) : D.Triple P p Q :=
  fun s hs => (h s (hpre s hs)).mono hpost

theorem Triple.ite {c : Prop} [Decidable c] {p q : Program I α}
    (hp : c → D.Triple P p Q) (hq : ¬c → D.Triple P q Q) :
    D.Triple P (if c then p else q) Q := by
  by_cases h : c
  · simpa only [if_pos h] using hp h
  · simpa only [if_neg h] using hq h

/-- A fact about values only can be pulled out of the precondition. -/
theorem Triple.pure {a : Prop} {p : Program I α} (h : a → D.Triple P p Q) :
    D.Triple (fun s => a ∧ P s) p Q :=
  fun s hs => h hs.1 s hs.2

/-- A fact that the precondition implies may be used for the whole program. -/
theorem Triple.given {a : Prop} {p : Program I α} (hP : ∀ s, P s → a)
    (h : a → D.Triple P p Q) : D.Triple P p Q :=
  fun s hs => h (hP s hs) s hs

end Discipline

/-- What a party does between programs: the calls it may start, the program of
each call, and the local state after a call has returned. -/
structure Party (I : Interface) where
  Local : Type
  Call : Type
  Result : Call → Type
  program : (call : Call) → Program I (Result call)
  enabled : Local → Call → Prop
  finish : (l : Local) → (call : Call) → Result call → Local

namespace Party

variable {I : Interface}

/-- Between calls, or with the rest of a call still to run. -/
inductive Control (p : Party I) : Type
  | idle (l : p.Local) : Control p
  | busy (l : p.Local) (call : p.Call) (rest : Program I (p.Result call)) : Control p

/-- What a party does in one step of the shared system. -/
inductive Action (I : Interface) : Type
  | start : Action I
  | command (c : I.Cmd) : Action I
  | finish : Action I

/-- One step of a party: start a call, run one command, or return. -/
inductive Step {S : Type} (exec : (c : I.Cmd) → S → I.Resp c × S) (p : Party I) :
    p.Control × S → Action I → p.Control × S → Prop
  | start {l call s} (h : p.enabled l call) :
      Step exec p (.idle l, s) .start (.busy l call (p.program call), s)
  | command {l call c k s} :
      Step exec p (.busy l call (.op c k), s) (.command c)
        (.busy l call (k (exec c s).1), (exec c s).2)
  | finish {l call a s} :
      Step exec p (.busy l call (.ret a), s) .finish (.idle (p.finish l call a), s)

end Party

/-- Two parties on one state. -/
structure TwoParty (I : Interface) (S : Type) where
  exec : (c : I.Cmd) → S → I.Resp c × S
  left : Party I
  right : Party I

namespace TwoParty

variable {I : Interface} {S : Type} (W : TwoParty I S)

/-- The control of both parties and the shared state. -/
structure State where
  left : W.left.Control
  right : W.right.Control
  shared : S

/-- Steps are those of either party, in any order. -/
inductive Step : W.State → Party.Action I ⊕ Party.Action I → W.State → Prop
  | left {cl cl' cr s s' a} (h : Party.Step W.exec W.left (cl, s) a (cl', s')) :
      Step ⟨cl, cr, s⟩ (.inl a) ⟨cl', cr, s'⟩
  | right {cl cr cr' s s' a} (h : Party.Step W.exec W.right (cr, s) a (cr', s')) :
      Step ⟨cl, cr, s⟩ (.inr a) ⟨cl, cr', s'⟩

/-- The machine of all interleavings from idle parties. -/
def machine (init : W.left.Local → W.right.Local → S → Prop) :
    Machine W.State (Party.Action I ⊕ Party.Action I) where
  init σ := ∃ l r, σ.left = .idle l ∧ σ.right = .idle r ∧ init l r σ.shared
  step := W.Step

section Commands

variable {W} {σ τ : W.State}

/-- The next command of the call that the left party is in. -/
def State.commandLeft (σ : W.State) : Option W.State :=
  match σ.left with
  | .busy l call (.op c k) =>
      let answered := W.exec c σ.shared
      some ⟨.busy l call (k answered.1), σ.right, answered.2⟩
  | _ => none

def State.commandRight (σ : W.State) : Option W.State :=
  match σ.right with
  | .busy r call (.op c k) =>
      let answered := W.exec c σ.shared
      some ⟨σ.left, .busy r call (k answered.1), answered.2⟩
  | _ => none

theorem commandLeft_eq_some :
    σ.commandLeft = some τ ↔ ∃ c, W.Step σ (.inl (.command c)) τ := by
  constructor
  · intro h
    obtain ⟨cl, cr, s⟩ := σ
    unfold State.commandLeft at h
    split at h
    · next c k hbusy =>
        obtain rfl : cl = .busy _ _ (.op c k) := hbusy
        obtain rfl := Option.some.inj h
        exact ⟨c, .left .command⟩
    · contradiction
  · rintro ⟨c, hstep⟩
    cases hstep with
    | left hp =>
        cases hp with
        | command => rfl

theorem commandRight_eq_some :
    σ.commandRight = some τ ↔ ∃ c, W.Step σ (.inr (.command c)) τ := by
  constructor
  · intro h
    obtain ⟨cl, cr, s⟩ := σ
    unfold State.commandRight at h
    split at h
    · next c k hbusy =>
        obtain rfl : cr = .busy _ _ (.op c k) := hbusy
        obtain rfl := Option.some.inj h
        exact ⟨c, .right .command⟩
    · contradiction
  · rintro ⟨c, hstep⟩
    cases hstep with
    | right hp =>
        cases hp with
        | command => rfl

end Commands

section Runs

variable {W} {init : W.left.Local → W.right.Local → S → Prop} {σ : W.State}

/-- A call of the left party that nothing comes in between leads to the state after it has
returned. -/
theorem reachable_left_run {l : W.left.Local} {call : W.left.Call}
    {p : Program I (W.left.Result call)} {cr : W.right.Control} {s : S}
    (reach : (W.machine init).Reachable ⟨.busy l call p, cr, s⟩) :
    (W.machine init).Reachable
      ⟨.idle (W.left.finish l call (p.run W.exec s).1), cr, (p.run W.exec s).2⟩ := by
  induction p generalizing s with
  | ret a => exact reach.step trivial (.left .finish)
  | op c k ih => exact ih _ (reach.step trivial (.left .command))

theorem reachable_right_run {r : W.right.Local} {call : W.right.Call}
    {p : Program I (W.right.Result call)} {cl : W.left.Control} {s : S}
    (reach : (W.machine init).Reachable ⟨cl, .busy r call p, s⟩) :
    (W.machine init).Reachable
      ⟨cl, .idle (W.right.finish r call (p.run W.exec s).1), (p.run W.exec s).2⟩ := by
  induction p generalizing s with
  | ret a => exact reach.step trivial (.right .finish)
  | op c k ih => exact ih _ (reach.step trivial (.right .command))

/-- The first commands of a call of the left party. -/
theorem reachable_left_after (n : Nat) {l : W.left.Local} {call : W.left.Call}
    {p : Program I (W.left.Result call)} {cr : W.right.Control} {s : S}
    (reach : (W.machine init).Reachable ⟨.busy l call p, cr, s⟩) :
    (W.machine init).Reachable ⟨.busy l call (p.after W.exec n s).1, cr, (p.after W.exec n s).2⟩ := by
  induction n generalizing p s with
  | zero => exact reach
  | succ n ih =>
      cases p with
      | ret a => exact reach
      | op c k => exact ih (reach.step trivial (.left .command))

variable (σ)

/-- The state after a whole call of the left party, if it is idle. -/
def State.callLeft (call : W.left.Call) : W.State :=
  match σ.left with
  | .idle l =>
      let run := (W.left.program call).run W.exec σ.shared
      ⟨.idle (W.left.finish l call run.1), σ.right, run.2⟩
  | .busy .. => σ

def State.callRight (call : W.right.Call) : W.State :=
  match σ.right with
  | .idle r =>
      let run := (W.right.program call).run W.exec σ.shared
      ⟨σ.left, .idle (W.right.finish r call run.1), run.2⟩
  | .busy .. => σ

/-- The state within a call of the left party, after `n` of its commands. -/
def State.beginLeft (call : W.left.Call) (n : Nat) : W.State :=
  match σ.left with
  | .idle l =>
      let begun := (W.left.program call).after W.exec n σ.shared
      ⟨.busy l call begun.1, σ.right, begun.2⟩
  | .busy .. => σ

/-- The state after the rest of the call that the left party is in. -/
def State.finishLeft : W.State :=
  match σ.left with
  | .idle _ => σ
  | .busy l call p =>
      let run := p.run W.exec σ.shared
      ⟨.idle (W.left.finish l call run.1), σ.right, run.2⟩

variable {σ}

theorem reachable_callLeft {call : W.left.Call} (reach : (W.machine init).Reachable σ)
    (henabled : ∀ l, σ.left = .idle l → W.left.enabled l call) :
    (W.machine init).Reachable (σ.callLeft call) := by
  obtain ⟨cl, cr, s⟩ := σ
  cases cl with
  | idle l => exact reachable_left_run (reach.step trivial (.left (.start (henabled l rfl))))
  | busy l call' p => exact reach

theorem reachable_callRight {call : W.right.Call} (reach : (W.machine init).Reachable σ)
    (henabled : ∀ r, σ.right = .idle r → W.right.enabled r call) :
    (W.machine init).Reachable (σ.callRight call) := by
  obtain ⟨cl, cr, s⟩ := σ
  cases cr with
  | idle r => exact reachable_right_run (reach.step trivial (.right (.start (henabled r rfl))))
  | busy r call' p => exact reach

theorem reachable_beginLeft {call : W.left.Call} (n : Nat) (reach : (W.machine init).Reachable σ)
    (henabled : ∀ l, σ.left = .idle l → W.left.enabled l call) :
    (W.machine init).Reachable (σ.beginLeft call n) := by
  obtain ⟨cl, cr, s⟩ := σ
  cases cl with
  | idle l => exact reachable_left_after n (reach.step trivial (.left (.start (henabled l rfl))))
  | busy l call' p => exact reach

theorem reachable_finishLeft (reach : (W.machine init).Reachable σ) :
    (W.machine init).Reachable σ.finishLeft := by
  obtain ⟨cl, cr, s⟩ := σ
  cases cl with
  | idle l => exact reach
  | busy l call p => exact reachable_left_run reach

end Runs

/-- A party's proof: an assertion for each idle local state that its rely keeps,
and a triple for each enabled call that leads back to such an assertion. -/
structure Proof (p : Party I) (D : Discipline I S) where
  At : p.Local → S → Prop
  post : (l : p.Local) → (call : p.Call) → p.Result call → S → Prop
  stable : ∀ l, D.Stable (At l)
  call : ∀ l call, p.enabled l call → D.Triple (At l) (p.program call) (post l call)
  back : ∀ l call a s, post l call a s → At (p.finish l call a) s

namespace Proof

variable {p : Party I} {D : Discipline I S} (X : Proof p D)

/-- The assertion carried by a control state. -/
def Holds : p.Control → S → Prop
  | .idle l, s => X.At l s
  | .busy l call rest, s => D.Sat (X.post l call) rest s

variable {X}

theorem Holds.rely {c : p.Control} {s t : S} (h : X.Holds c s) (hr : D.rely s t) :
    X.Holds c t := by
  cases c with
  | idle l => exact X.stable l s t hr h
  | busy l call rest => exact Discipline.Sat.rely h hr

/-- A step keeps the party's own assertion. -/
theorem Holds.step {c c' : p.Control} {s s' : S} {a : Party.Action I}
    (h : X.Holds c s) (hstep : Party.Step D.exec p (c, s) a (c', s')) :
    X.Holds c' s' := by
  cases hstep with
  | start henabled => exact X.call _ _ henabled s h
  | command => exact (h s (D.refl s)).2
  | finish => exact X.back _ _ _ s (h s (D.refl s))

/-- A command step is within the party's guarantee. -/
theorem Holds.guarantee {c c' : p.Control} {s s' : S} {cmd : I.Cmd}
    (h : X.Holds c s) (hstep : Party.Step D.exec p (c, s) (.command cmd) (c', s')) :
    D.guarantee cmd s s' := by
  cases hstep with
  | command => exact (h s (D.refl s)).1

end Proof

section Sound

variable {W} {DL DR : Discipline I S}
variable (XL : Proof W.left DL) (XR : Proof W.right DR)

/-- Both parties' assertions hold together. -/
def Holds (σ : W.State) : Prop := XL.Holds σ.left σ.shared ∧ XR.Holds σ.right σ.shared

variable {XL XR}

theorem Holds.step (hl : DL.exec = W.exec) (hr : DR.exec = W.exec)
    (hlr : ∀ c s s', DL.guarantee c s s' → DR.rely s s')
    (hrl : ∀ c s s', DR.guarantee c s s' → DL.rely s s')
    {σ σ' : W.State} {a : Party.Action I ⊕ Party.Action I}
    (h : Holds XL XR σ) (hstep : W.Step σ a σ') : Holds XL XR σ' := by
  cases hstep with
  | @left cl cl' cr s s' a hp =>
      rw [← hl] at hp
      refine ⟨h.1.step hp, ?_⟩
      cases hp with
      | start henabled => exact h.2
      | command => exact h.2.rely (hlr _ _ _ (h.1.guarantee .command))
      | finish => exact h.2
  | @right cl cr cr' s s' a hp =>
      rw [← hr] at hp
      refine ⟨?_, h.2.step hp⟩
      cases hp with
      | start henabled => exact h.1
      | command => exact h.1.rely (hrl _ _ _ (h.2.guarantee .command))
      | finish => exact h.1

/-- Every interleaving keeps both parties' assertions. -/
theorem sound (hl : DL.exec = W.exec) (hr : DR.exec = W.exec)
    (hlr : ∀ c s s', DL.guarantee c s s' → DR.rely s s')
    (hrl : ∀ c s s', DR.guarantee c s s' → DL.rely s s')
    {init : W.left.Local → W.right.Local → S → Prop}
    (hinit : ∀ l r s, init l r s → XL.At l s ∧ XR.At r s)
    {σ : W.State} (reach : (W.machine init).Reachable σ) : Holds XL XR σ := by
  apply reach.invariant (Holds XL XR)
  · rintro ⟨cl, cr, s⟩ ⟨l, r, rfl, rfl, h⟩
    exact hinit l r s h
  · intro s a s' _ ih _ hstep
    exact ih.step hl hr hlr hrl hstep

/-- What the two guarantees say about a step of the system. -/
def StepGuarantee (DL DR : Discipline I S) (s : S) :
    Party.Action I ⊕ Party.Action I → S → Prop
  | .inl (.command c), t => DL.guarantee c s t
  | .inr (.command c), t => DR.guarantee c s t
  | _, t => t = s

theorem Holds.stepGuarantee (hl : DL.exec = W.exec) (hr : DR.exec = W.exec)
    {σ σ' : W.State} {a : Party.Action I ⊕ Party.Action I}
    (h : Holds XL XR σ) (hstep : W.Step σ a σ') :
    StepGuarantee DL DR σ.shared a σ'.shared := by
  cases hstep with
  | left hp =>
      rw [← hl] at hp
      cases hp with
      | start henabled => rfl
      | command => exact h.1.guarantee .command
      | finish => rfl
  | right hp =>
      rw [← hr] at hp
      cases hp with
      | start henabled => rfl
      | command => exact h.2.guarantee .command
      | finish => rfl

/-- A property of the shared state that both guarantees keep holds throughout. -/
theorem shared_invariant (hl : DL.exec = W.exec) (hr : DR.exec = W.exec)
    {init : W.left.Local → W.right.Local → S → Prop}
    (hsound : ∀ σ, (W.machine init).Reachable σ → Holds XL XR σ) {J : S → Prop}
    (hinit : ∀ l r s, init l r s → J s)
    (hleft : ∀ c s t, DL.guarantee c s t → J s → J t)
    (hright : ∀ c s t, DR.guarantee c s t → J s → J t)
    {σ : W.State} (reach : (W.machine init).Reachable σ) : J σ.shared := by
  refine reach.invariant (fun σ => J σ.shared) ?_ ?_
  · rintro ⟨cl, cr, s⟩ ⟨l, r, rfl, rfl, h⟩
    exact hinit l r s h
  · intro σ a σ' hreach hJ _ hstep
    have hguarantee := (hsound σ hreach).stepGuarantee hl hr hstep
    rcases a with (_ | c | _) | (_ | c | _)
    · exact (hguarantee : σ'.shared = σ.shared) ▸ hJ
    · exact hleft c _ _ hguarantee hJ
    · exact (hguarantee : σ'.shared = σ.shared) ▸ hJ
    · exact (hguarantee : σ'.shared = σ.shared) ▸ hJ
    · exact hright c _ _ hguarantee hJ
    · exact (hguarantee : σ'.shared = σ.shared) ▸ hJ

end Sound

end TwoParty

end Foundation
