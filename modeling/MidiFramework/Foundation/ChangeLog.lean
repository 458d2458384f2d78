import Mathlib.Algebra.Order.Group.Multiset
import Mathlib.Data.Finset.Basic

/-!
# Logs of changes to a set

A log says which keys are added to a set and which are taken out. The log leads
to a set when every entry is a real change: it adds a key that is absent or
takes out one that is present. Entries may be sent on in another order than the
log has. When no entry is sent before an earlier one of its key, the entries
sent tell of each key what the log does.
-/

namespace Foundation

/-- The key that an entry changes, whether it adds the key, and its place in the log. -/
structure ChangeLog (E K : Type) where
  key : E → K
  adds : E → Bool
  index : E → Nat

/-- The changes lead from presence or absence to presence or absence, each of them a real one. -/
def Leads : Bool → List Bool → Bool → Prop
  | present, [], present' => present = present'
  | present, change :: changes, present' => change = !present ∧ Leads change changes present'

/-- Additions and removals take turns, and the next one is as expected. -/
def TakeTurns : Bool → List Bool → Prop
  | _, [] => True
  | expected, change :: changes => change = expected ∧ TakeTurns (!expected) changes

theorem Leads.takeTurns {present present' : Bool} {changes : List Bool}
    (h : Leads present changes present') : TakeTurns (!present) changes := by
  induction changes generalizing present with
  | nil => trivial
  | cons change changes ih =>
      obtain ⟨rfl, hrest⟩ := h
      exact ⟨rfl, ih hrest⟩

theorem leads_append {present present' : Bool} {changes changes' : List Bool} :
    Leads present (changes ++ changes') present' ↔
      ∃ b, Leads present changes b ∧ Leads b changes' present' := by
  induction changes generalizing present with
  | nil => simp [Leads]
  | cons change changes ih => simp [Leads, ih, and_assoc]

namespace ChangeLog

variable {E K : Type} [DecidableEq K] (C : ChangeLog E K)

/-- What the log does to one key. -/
def changes (log : List E) (k : K) : List Bool := (log.filter fun e => C.key e = k).map C.adds

def apply (s : Finset K) (e : E) : Finset K :=
  if C.adds e then insert (C.key e) s else s.erase (C.key e)

/-- The set after the changes of the log, from the empty set on. -/
def replay (log : List E) : Finset K := log.foldl C.apply ∅

theorem changes_append (log log' : List E) (k : K) :
    C.changes (log ++ log') k = C.changes log k ++ C.changes log' k := by
  simp [changes]

theorem mem_apply {s : Finset K} {e : E} {k : K} :
    k ∈ C.apply s e ↔ if C.key e = k then C.adds e = true else k ∈ s := by
  unfold apply
  by_cases hadds : C.adds e = true
  · rw [if_pos hadds, Finset.mem_insert]
    split
    · next hkey => simp [hkey, hadds]
    · next hkey => simp [Ne.symm hkey]
  · rw [if_neg hadds, Finset.mem_erase]
    split
    · next hkey => simp [hkey, hadds]
    · next hkey => simp [Ne.symm hkey]

/-- A key is in the replayed set exactly when the log leads to its presence. -/
theorem mem_replay {log : List E} {k : K} {present : Bool}
    (h : Leads false (C.changes log k) present) : k ∈ C.replay log ↔ present = true := by
  induction log using List.reverseRecOn generalizing present with
  | nil =>
      obtain rfl : false = present := h
      simp [replay]
  | append_singleton log e ih =>
      rw [changes_append, leads_append] at h
      obtain ⟨b, hlog, he⟩ := h
      rw [replay, List.foldl_append, List.foldl_cons, List.foldl_nil, mem_apply]
      split
      · next hkey =>
          have hchange : C.changes [e] k = [C.adds e] := by simp [changes, hkey]
          rw [hchange] at he
          rw [← he.2]
      · next hkey =>
          have hchange : C.changes [e] k = [] := by simp [changes, hkey]
          rw [hchange] at he
          exact he ▸ ih hlog

/-- The log tells of each key, by real changes only, whether it is in the set. -/
def LeadsTo (log : List E) (s : Finset K) : Prop :=
  ∀ k, Leads false (C.changes log k) (decide (k ∈ s))

variable {C}

theorem LeadsTo.replay {log : List E} {s : Finset K} (h : C.LeadsTo log s) : C.replay log = s := by
  ext k
  rw [C.mem_replay (h k), decide_eq_true_iff]

theorem LeadsTo.takeTurns {log : List E} {s : Finset K} (h : C.LeadsTo log s) (k : K) :
    TakeTurns true (C.changes log k) :=
  (h k).takeTurns

/-- Entries of distinct keys that all add or all take out tell of each of these keys once. -/
theorem changes_of_nodup {log : List E} {added : Bool} (hadds : ∀ e ∈ log, C.adds e = added)
    (hnodup : (log.map C.key).Nodup) (k : K) :
    C.changes log k = if k ∈ log.map C.key then [added] else [] := by
  have hlength : (log.filter fun e => C.key e = k).length =
      if k ∈ log.map C.key then 1 else 0 := by
    rw [← List.Nodup.count hnodup, List.count_eq_countP, List.countP_map, List.countP_eq_length_filter]
    rfl
  have hsame : C.changes log k =
      List.replicate (log.filter fun e => C.key e = k).length added := by
    apply List.eq_replicate_iff.mpr
    refine ⟨List.length_map _, ?_⟩
    intro change hchange
    obtain ⟨e, he, rfl⟩ := List.mem_map.mp hchange
    exact hadds e (List.mem_of_mem_filter he)
  rw [hsame, hlength]
  split <;> rfl

/-- The log goes on by the keys that come and those that go. -/
theorem LeadsTo.append {log added removed : List E} {s s' : Finset K} (h : C.LeadsTo log s)
    (hadds : ∀ e ∈ added, C.adds e = true) (hremoves : ∀ e ∈ removed, C.adds e = false)
    (haddedNodup : (added.map C.key).Nodup) (hremovedNodup : (removed.map C.key).Nodup)
    (hadded : ∀ k, k ∈ added.map C.key ↔ k ∈ s' ∧ k ∉ s)
    (hremoved : ∀ k, k ∈ removed.map C.key ↔ k ∈ s ∧ k ∉ s') :
    C.LeadsTo (log ++ (added ++ removed)) s' := by
  intro k
  rw [changes_append, changes_append, changes_of_nodup hadds haddedNodup,
    changes_of_nodup hremoves hremovedNodup, leads_append]
  refine ⟨_, h k, ?_⟩
  simp only [hadded, hremoved]
  by_cases hk : k ∈ s <;> by_cases hk' : k ∈ s' <;> simp [hk, hk', Leads]

/-! ### Sending the entries -/

variable (C) in
/-- The entries sent so far, and those that wait: together they are the log, and of each key they
are sent in the order of the log. -/
structure SentInOrder (log sent : List E) (waiting : Multiset E) : Prop where
  placed : log.Pairwise fun a b => C.index a < C.index b
  split : (sent : Multiset E) + waiting = log
  ordered : sent.Pairwise fun a b => C.key a = C.key b → C.index a < C.index b
  ahead : ∀ a ∈ sent, ∀ b ∈ waiting, C.key a = C.key b → C.index a < C.index b

omit [DecidableEq K] in
theorem sentInOrder_nil : C.SentInOrder [] [] 0 :=
  ⟨List.Pairwise.nil, rfl, List.Pairwise.nil, fun _ ha => absurd ha List.not_mem_nil⟩

omit [DecidableEq K] in
/-- The log grows by entries that wait. -/
theorem SentInOrder.append {log sent new : List E} {waiting : Multiset E}
    (h : C.SentInOrder log sent waiting)
    (hnew : new.Pairwise fun a b => C.index a < C.index b)
    (hlater : ∀ a ∈ log, ∀ b ∈ new, C.index a < C.index b) :
    C.SentInOrder (log ++ new) sent ((new : Multiset E) + waiting) where
  placed := List.pairwise_append.mpr ⟨h.placed, hnew, hlater⟩
  split := by
    calc
      (sent : Multiset E) + ((new : Multiset E) + waiting)
          = ((sent : Multiset E) + waiting) + (new : Multiset E) := by
            rw [add_comm (new : Multiset E), add_assoc]
      _ = ((log ++ new : List E) : Multiset E) := by rw [h.split, Multiset.coe_add]
  ordered := h.ordered
  ahead := by
    intro a ha b hb hkey
    rcases Multiset.mem_add.mp hb with hb | hb
    · have hlog : a ∈ (log : Multiset E) := by
        rw [← h.split]
        exact Multiset.mem_add.mpr (Or.inl (Multiset.mem_coe.mpr ha))
      exact hlater a (Multiset.mem_coe.mp hlog) b (Multiset.mem_coe.mp hb)
    · exact h.ahead a ha b hb hkey

omit [DecidableEq K] in
/-- An entry is sent when every earlier one of its key was sent. -/
theorem SentInOrder.send {log sent : List E} {waiting : Multiset E} {e : E}
    (h : C.SentInOrder log sent (e ::ₘ waiting))
    (hearlier : ∀ b ∈ log, C.key b = C.key e → C.index b < C.index e → b ∈ sent) :
    C.SentInOrder log (sent ++ [e]) waiting where
  placed := h.placed
  split := by
    rw [← h.split, ← Multiset.coe_add, add_assoc]
    rfl
  ordered := by
    apply List.pairwise_append.mpr
    refine ⟨h.ordered, List.pairwise_singleton _ _, ?_⟩
    intro a ha b hb
    rw [List.mem_singleton.mp hb]
    exact h.ahead a ha e (Multiset.mem_cons_self e waiting)
  ahead := by
    intro a ha b hb hkey
    rcases List.mem_append.mp ha with ha | ha
    · exact h.ahead a ha b (Multiset.mem_cons_of_mem hb) hkey
    · obtain rfl := List.mem_singleton.mp ha
      have hindices : (log.map C.index).Nodup := by
        apply List.pairwise_map.mpr
        exact h.placed.imp fun hlt => hlt.ne
      have hparts : ((sent : Multiset E) + (a ::ₘ waiting)).Nodup := by
        rw [h.split]
        exact Multiset.coe_nodup.mpr hindices.of_map
      obtain ⟨_, hwaiting, hdisjoint⟩ := Multiset.nodup_add.mp hparts
      have hlog : ∀ x ∈ a ::ₘ waiting, x ∈ log := by
        intro x hx
        apply Multiset.mem_coe.mp
        rw [← h.split]
        exact Multiset.mem_add.mpr (Or.inr hx)
      have hb' : b ∈ a ::ₘ waiting := Multiset.mem_cons_of_mem hb
      rcases lt_trichotomy (C.index a) (C.index b) with hlt | heq | hlt
      · exact hlt
      · have hab := List.inj_on_of_nodup_map hindices (hlog a (Multiset.mem_cons_self a waiting))
          (hlog b hb') heq
        exact absurd (hab ▸ hb) (Multiset.nodup_cons.mp hwaiting).1
      · have hsent := hearlier b (hlog b hb') hkey.symm hlt
        exact absurd hb' (Multiset.disjoint_left.mp hdisjoint (Multiset.mem_coe.mpr hsent))

/-- When nothing waits, the entries of each key were sent as the log has them. -/
theorem SentInOrder.changes_eq {log sent : List E} (h : C.SentInOrder log sent 0) (k : K) :
    C.changes sent k = C.changes log k := by
  have hperm : sent.Perm log := by
    rw [← Multiset.coe_eq_coe, ← h.split, add_zero]
  have hsent : (sent.filter fun e => C.key e = k).Pairwise fun a b => C.index a < C.index b := by
    apply (h.ordered.filter _).imp_of_mem
    intro a b ha hb hab
    have hkeyA := of_decide_eq_true (List.mem_filter.mp ha).2
    have hkeyB := of_decide_eq_true (List.mem_filter.mp hb).2
    exact hab (hkeyA.trans hkeyB.symm)
  apply congrArg (List.map C.adds)
  apply List.Perm.eq_of_pairwise _ hsent (h.placed.filter _) (hperm.filter _)
  exact fun _ _ _ _ hab hba => absurd (hab.trans hba) (Nat.lt_irrefl _)

theorem SentInOrder.leadsTo {log sent : List E} {s : Finset K} (h : C.SentInOrder log sent 0)
    (hlog : C.LeadsTo log s) : C.LeadsTo sent s := by
  intro k
  rw [h.changes_eq]
  exact hlog k

end ChangeLog

end Foundation
