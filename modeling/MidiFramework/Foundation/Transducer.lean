import Mathlib.Data.List.Basic

/-!
# Transducers

A transducer keeps a state and hands out a list of outputs for each input it
is fed. Feeding a list in pieces is the same as feeding it at once.
-/

namespace Foundation

/-- What a call hands out, in order, and the state it leaves. -/
@[ext] structure Emission (σ ω : Type*) where
  out : List ω
  state : σ
  deriving DecidableEq, Repr

namespace Emission

variable {σ ω : Type*}

/-- A call that hands nothing out. -/
def silent (s : σ) : Emission σ ω := ⟨[], s⟩

/-- Runs `next` in the state that `first` left. -/
def andThen (first : Emission σ ω) (next : σ → Emission σ ω) : Emission σ ω :=
  ⟨first.out ++ (next first.state).out, (next first.state).state⟩

@[simp] theorem silent_out (s : σ) : (silent s : Emission σ ω).out = [] := rfl

@[simp] theorem silent_state (s : σ) : (silent s : Emission σ ω).state = s := rfl

@[simp] theorem silent_andThen (s : σ) (next : σ → Emission σ ω) :
    (silent s).andThen next = next s := rfl

@[simp] theorem andThen_silent (first : Emission σ ω) : first.andThen silent = first := by
  ext1
  · simp only [andThen, silent_out, List.append_nil]
  · rfl

theorem andThen_assoc (first : Emission σ ω) (next last : σ → Emission σ ω) :
    (first.andThen next).andThen last = first.andThen fun s => (next s).andThen last := by
  ext1
  · simp only [andThen, List.append_assoc]
  · rfl

end Emission

section Feed

variable {σ α ω : Type*} (step : σ → α → Emission σ ω)

/-- Feeds the inputs one after the other. -/
def feed (s : σ) : List α → Emission σ ω
  | [] => .silent s
  | a :: as => (step s a).andThen fun s' => feed s' as

@[simp] theorem feed_nil (s : σ) : feed step s [] = .silent s := rfl

theorem feed_cons (s : σ) (a : α) (as : List α) :
    feed step s (a :: as) = (step s a).andThen fun s' => feed step s' as := rfl

theorem feed_singleton (s : σ) (a : α) : feed step s [a] = step s a :=
  Emission.andThen_silent _

theorem feed_append (s : σ) (as bs : List α) :
    feed step s (as ++ bs) = (feed step s as).andThen fun s' => feed step s' bs := by
  induction as generalizing s with
  | nil => rfl
  | cons a as ih =>
      rw [List.cons_append, feed_cons, feed_cons, Emission.andThen_assoc]
      simp only [ih]

theorem feed_map {β : Type*} (f : β → α) (s : σ) (bs : List β) :
    feed step s (bs.map f) = feed (fun s b => step s (f b)) s bs := by
  induction bs generalizing s with
  | nil => rfl
  | cons b bs ih =>
      rw [List.map_cons, feed_cons, feed_cons]
      simp only [ih]

/-- What holds of the outputs of every step from a state with `I`, which every step keeps, holds
of all outputs. -/
theorem feed_out {I : σ → Prop} {P : ω → Prop}
    (hstep : ∀ s a, I s → I (step s a).state ∧ ∀ o ∈ (step s a).out, P o) {s : σ} (hs : I s)
    (as : List α) : ∀ o ∈ (feed step s as).out, P o := by
  induction as generalizing s with
  | nil => simp
  | cons a as ih =>
      obtain ⟨hstate, hout⟩ := hstep s a hs
      intro o ho
      rcases List.mem_append.mp ho with ho | ho
      · exact hout o ho
      · exact ih hstate o ho

/-- Where steps hand out one output at most, each output belongs to one input. -/
theorem feed_split {I : σ → Prop}
    (hstep : ∀ s a, I s → I (step s a).state ∧ (step s a).out.length ≤ 1) {s : σ} (hs : I s)
    {as : List α} {pre post : List ω} {o : ω} (h : (feed step s as).out = pre ++ o :: post) :
    ∃ before a after, as = before ++ a :: after ∧ (feed step s before).out = pre ∧
      (step (feed step s before).state a).out = [o] := by
  induction as generalizing s pre with
  | nil => simp at h
  | cons a as ih =>
      obtain ⟨hstate, hlen⟩ := hstep s a hs
      have hout : (step s a).out ++ (feed step (step s a).state as).out = pre ++ o :: post := h
      rcases Nat.le_one_iff_eq_zero_or_eq_one.mp hlen with hzero | hlen
      · have hnone := List.eq_nil_of_length_eq_zero hzero
        rw [hnone, List.nil_append] at hout
        obtain ⟨before, a', after, rfl, hbefore, ha'⟩ := ih hstate hout
        refine ⟨a :: before, a', after, rfl, ?_, ha'⟩
        rw [feed_cons, Emission.andThen, hnone, List.nil_append]
        exact hbefore
      · obtain ⟨o', hone⟩ := List.length_eq_one_iff.mp hlen
        rw [hone, List.singleton_append] at hout
        cases pre with
        | nil =>
            obtain ⟨rfl, -⟩ := List.cons.inj hout
            exact ⟨[], a, as, rfl, rfl, hone⟩
        | cons o'' pre =>
            obtain ⟨rfl, hrest⟩ := List.cons.inj hout
            obtain ⟨before, a', after, rfl, hbefore, ha'⟩ := ih hstate hrest
            refine ⟨a :: before, a', after, rfl, ?_, ha'⟩
            rw [feed_cons, Emission.andThen, hone]
            exact congrArg (o' :: ·) hbefore

/-- The calls of a session may be joined into longer calls. -/
theorem feed_flatten (call : σ → List α → Emission σ ω) (P : List α → Prop)
    (hnil : ∀ s, call s [] = .silent s)
    (happ : ∀ s as bs, P as → call s (as ++ bs) = (call s as).andThen fun s' => call s' bs)
    (s : σ) {calls : List (List α)} (hcalls : ∀ as ∈ calls, P as) :
    feed call s calls = call s calls.flatten := by
  induction calls generalizing s with
  | nil => rw [List.flatten_nil, hnil, feed_nil]
  | cons as calls ih =>
      rw [List.flatten_cons, happ s as _ (hcalls as List.mem_cons_self), feed_cons]
      simp only [ih _ fun bs hbs => hcalls bs (List.mem_cons_of_mem _ hbs)]

end Feed

section Pipe

variable {σ τ α β ω : Type*} (first : σ → α → Emission σ β) (second : τ → β → Emission τ ω)

/-- Two transducers in a row: the second one is fed what the first one hands out. -/
def pipe (s : σ × τ) (a : α) : Emission (σ × τ) ω :=
  let middle := first s.1 a
  let last := feed second s.2 middle.out
  ⟨last.out, (middle.state, last.state)⟩

theorem feed_pipe (s : σ × τ) (as : List α) :
    feed (pipe first second) s as =
      ⟨(feed second s.2 (feed first s.1 as).out).out,
        ((feed first s.1 as).state, (feed second s.2 (feed first s.1 as).out).state)⟩ := by
  induction as generalizing s with
  | nil => rfl
  | cons a as ih =>
      rw [feed_cons, feed_cons]
      simp only [Emission.andThen, ih, feed_append]
      rfl

end Pipe

section Transparent

variable {σ α ω : Type*} {step : σ → α → Emission σ ω} {passes : α → Bool} {shown : ω → Bool}
  {image : α → ω}

/-- Some inputs are handed on at once and leave the state alone. The outputs they give can be
told from the others. -/
structure Transparent (step : σ → α → Emission σ ω) (passes : α → Bool) (shown : ω → Bool)
    (image : α → ω) : Prop where
  step : ∀ s a, passes a = true → step s a = ⟨[image a], s⟩
  shown : ∀ a, passes a = true → shown (image a) = true

/-- Without the transparent inputs the same state is reached and the same other outputs are
given. -/
theorem Transparent.feed_filter (h : Transparent step passes shown image) (s : σ) (as : List α) :
    (feed step s as).state = (feed step s (as.filter fun a => !passes a)).state ∧
      (feed step s as).out.filter (fun o => !shown o) =
        (feed step s (as.filter fun a => !passes a)).out.filter fun o => !shown o := by
  induction as generalizing s with
  | nil => exact ⟨rfl, rfl⟩
  | cons a as ih =>
      rw [feed_cons]
      by_cases ha : passes a = true
      · rw [h.step s a ha, List.filter_cons_of_neg (by simp [ha])]
        obtain ⟨hstate, hout⟩ := ih s
        refine ⟨hstate, ?_⟩
        change List.filter _ (image a :: (feed step s as).out) = _
        rw [List.filter_cons_of_neg (by simp [h.shown a ha]), hout]
      · rw [List.filter_cons_of_pos (by simpa using ha), feed_cons]
        obtain ⟨hstate, hout⟩ := ih (step s a).state
        refine ⟨hstate, ?_⟩
        simp only [Emission.andThen, List.filter_append, hout]

/-- The outputs that are shown are those of the transparent inputs, if the other inputs give
none. -/
theorem Transparent.feed_shown (h : Transparent step passes shown image) {s : σ} {as : List α}
    (hothers : ∀ o ∈ (feed step s (as.filter fun a => !passes a)).out, shown o = false) :
    (feed step s as).out.filter shown = (as.filter passes).map image := by
  induction as generalizing s with
  | nil => rfl
  | cons a as ih =>
      rw [feed_cons]
      by_cases ha : passes a = true
      · rw [List.filter_cons_of_neg (by simp [ha])] at hothers
        rw [h.step s a ha, List.filter_cons_of_pos ha, List.map_cons]
        change List.filter _ (image a :: (feed step s as).out) = _
        rw [List.filter_cons_of_pos (h.shown a ha), ih hothers]
      · rw [List.filter_cons_of_pos (by simpa using ha), feed_cons] at hothers
        have hstep : (step s a).out.filter shown = [] := by
          apply List.filter_eq_nil_iff.mpr
          intro o ho
          simp [hothers o (List.mem_append_left _ ho)]
        rw [List.filter_cons_of_neg ha]
        simp only [Emission.andThen, List.filter_append, hstep, List.nil_append]
        exact ih fun o ho => hothers o (List.mem_append_right _ ho)

end Transparent

end Foundation
