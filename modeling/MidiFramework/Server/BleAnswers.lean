import MidiFramework.Server.BleRequests
import MidiFramework.Server.ListAgreement

/-!
# Answers to Bluetooth requests

A request waits in the controller until a completion of its address takes it,
or its client is destroyed. A report leads to a completion unless it is a
failure that finds its device in the list, and a completion answers whatever
waits for the address, also what another report is still to complete.
-/

namespace MidiFramework.Server

open Foundation

/-- The report whose completion is still to come. -/
def Task.uncompleted : Task → Option Report
  | .handleBleConnect report | .listBleDevice report _ | .handleBleDisconnect report
  | .unlistBleDevice report _ | .handleBleOpenComplete report _ _ => some report
  | _ => none

/-- The number of the report that the task handles, or whose requests it answers. -/
def Task.reportNumber : Task → Option Nat
  | .notifyDeviceOpened report _ => report
  | t => t.uncompleted.map Report.number

/-- The tasks that bring requests to their answers. -/
def Task.ofRequests : Task → Bool
  | .notifyDeviceOpened .. => true
  | t => t.uncompleted.isSome

/-- Whether the task answers the request with the number. -/
def Task.answers (k : Nat) : Task → Bool
  | .notifyDeviceOpened _ answer => answer.request.callback == k
  | _ => false

theorem Task.quiet {t : Task} (h : t.ofRequests = false) :
    t.uncompleted = none ∧ ∀ k, t.answers k = false := by
  cases t <;> first | exact ⟨rfl, fun _ => rfl⟩ | contradiction

namespace Service

/-- The requests that wait for the address. -/
def waitingFor (address : Address) (s : Service) : List PendingBleConnection :=
  s.controller.pendingBleConnections.getD address []

/-- A failure finds its device in the list only if none of its requests waits any more, and no
completion takes a request that another report is still to complete. -/
def Separates (s : Service) (ts : Multiset Task) : Task → Prop
  | .unlistBleDevice report d => (s.manager.find? d).isSome →
      ∀ f ∈ s.requests.reports, f.report = report → ∀ q ∈ f.waiting,
        q ∉ s.waitingFor report.address
  | .handleBleOpenComplete report _ _ =>
      ∀ f ∈ s.requests.reports, f.report ≠ report → f.report.address = report.address →
        (∃ t ∈ ts, t.uncompleted = some f.report) → ∀ q ∈ f.waiting,
          q ∉ s.waitingFor report.address
  | _ => True

/-- No request that was queued before the report waits any more, and each one of a client that was
not destroyed since has one answer, with the reported outcome. -/
structure Served (s : Service) (f : FiledReport) : Prop where
  taken : ∀ q ∈ f.waiting, q ∉ s.waitingFor f.report.address
  answered : ∀ q ∈ f.waiting, q.clientId ∉ s.requests.destroyed.drop f.destroyed →
    ∃ info, s.requests.answers.filter (fun answer => answer.request = q) =
      [⟨q, f.report.success, info⟩]

/-! ### How often a request is in the system -/

/-- How many times the request with the number waits, in all lists. -/
def waits (k : Nat) (s : Service) : Nat :=
  s.controller.pendingBleConnections.total fun _ requests =>
    requests.countP fun q => q.callback == k

/-- How many times it was answered. -/
def answered (k : Nat) (s : Service) : Nat :=
  s.requests.answers.countP fun answer => answer.request.callback == k

/-- How many times it is about to be answered. -/
def answering (k : Nat) (ts : Multiset Task) : Nat := ts.countP fun t => t.answers k

/-- What has become of a request that waited for a report. -/
inductive Outcome (s : Service) (ts : Multiset Task) (f : FiledReport) (q : PendingBleConnection) :
    Prop
  | gone (destroyed : q.clientId ∈ s.requests.destroyed.drop f.destroyed)
      (taken : q ∉ s.waitingFor f.report.address)
  | waits (waiting : q ∈ s.waitingFor f.report.address) (t : Task) (outstanding : t ∈ ts)
      (uncompleted : t.uncompleted = some f.report)
  | answering (info : MidiDeviceInfo)
      (outstanding : Task.notifyDeviceOpened (some f.report.number) ⟨q, f.report.success, info⟩ ∈ ts)
  | answered (info : MidiDeviceInfo)
      (answer : ⟨q, f.report.success, info⟩ ∈ s.requests.answers)

/-- The invariant: a request is in the system at most once, and every request that waited for a
report waits for its completion or has got what the report says. -/
structure Awaits (s : Service) (ts : Multiset Task) : Prop where
  once : ∀ k, s.waits k + answering k ts + s.answered k ≤ if k < s.requests.calls then 1 else 0
  numbered : ∀ (n : Nat) (f : FiledReport), s.requests.reports[n]? = some f → f.report.number = n
  filed : ∀ t ∈ ts, ∀ report, t.uncompleted = some report →
    ∃ f : FiledReport, f ∈ s.requests.reports ∧ f.report = report
  destroyed : ∀ f ∈ s.requests.reports, f.destroyed ≤ s.requests.destroyed.length
  queued : ∀ f ∈ s.requests.reports, ∀ q ∈ f.waiting, q.callback < s.requests.calls
  outcome : ∀ f ∈ s.requests.reports, ∀ q ∈ f.waiting, s.Outcome ts f q

variable {s s' : Service} {ts : Multiset Task} {f : FiledReport} {q : PendingBleConnection}

/-- Further tasks change nothing for a request. -/
theorem Outcome.mono {ts' : Multiset Task} (h : s.Outcome ts f q) (hts : ts ≤ ts')
    (hdestroyed : s'.requests.destroyed = s.requests.destroyed)
    (hanswers : s'.requests.answers = s.requests.answers)
    (hwaiting : s'.waitingFor f.report.address = s.waitingFor f.report.address) :
    s'.Outcome ts' f q := by
  cases h with
  | gone destroyed taken => exact .gone (hdestroyed ▸ destroyed) (hwaiting ▸ taken)
  | waits waiting t outstanding uncompleted =>
      exact .waits (hwaiting ▸ waiting) t (Multiset.mem_of_le hts outstanding) uncompleted
  | answering info outstanding => exact .answering info (Multiset.mem_of_le hts outstanding)
  | answered info answer => exact .answered info (hanswers ▸ answer)

/-- A request that waits is counted. -/
theorem waits_pos {address : Address} (h : q ∈ s.waitingFor address) : 0 < s.waits q.callback := by
  unfold waitingFor UnorderedMap.getD at h
  cases hrequests : s.controller.pendingBleConnections.lookup address with
  | none =>
      rw [hrequests] at h
      contradiction
  | some requests =>
      rw [hrequests] at h
      have htotal := UnorderedMap.total_erase
        (fun _ (requests : List PendingBleConnection) =>
          requests.countP fun x => x.callback == q.callback)
        s.controller.pendingBleConnections address
      rw [hrequests] at htotal
      have hcount : 0 < requests.countP fun x => x.callback == q.callback :=
        List.countP_pos_iff.mpr ⟨q, h, beq_self_eq_true _⟩
      exact hcount.trans_le (Nat.le_of_add_left_le (Nat.le_of_eq htotal))

theorem filter_eq_singleton {α : Type} {p : α → Bool} {l : List α} {a : α} (ha : a ∈ l)
    (hp : p a) (hcount : l.countP p ≤ 1) : l.filter p = [a] := by
  have hmem : a ∈ l.filter p := List.mem_filter.mpr ⟨ha, hp⟩
  rw [List.countP_eq_length_filter] at hcount
  obtain ⟨b, hb⟩ := List.length_eq_one_iff.mp
    (Nat.le_antisymm hcount (List.length_pos_of_mem hmem))
  rw [hb] at hmem ⊢
  rw [List.mem_singleton.mp hmem]

/-- A request that waits was made by an earlier call. -/
theorem Awaits.lt_calls (h : s.Awaits ts) {address : Address} (hq : q ∈ s.waitingFor address) :
    q.callback < s.requests.calls := by
  have honce := h.once q.callback
  have hpos := waits_pos hq
  split at honce
  · next hlt => exact hlt
  · omega

/-- When no task of a report is left, its requests are served. -/
theorem Awaits.served (h : s.Awaits ts) (hf : f ∈ s.requests.reports)
    (hfinished : ∀ t ∈ ts, t.reportNumber ≠ some f.report.number) : s.Served f := by
  have houtcome : ∀ q ∈ f.waiting,
      q.clientId ∈ s.requests.destroyed.drop f.destroyed ∧ q ∉ s.waitingFor f.report.address ∨
        ∃ info, ⟨q, f.report.success, info⟩ ∈ s.requests.answers := by
    intro q hq
    cases h.outcome f hf q hq with
    | gone destroyed taken => exact Or.inl ⟨destroyed, taken⟩
    | waits waiting t outstanding uncompleted =>
        have hnumber : t.reportNumber = some f.report.number := by
          cases t <;> first | contradiction | exact congrArg (Option.map Report.number) uncompleted
        exact absurd hnumber (hfinished t outstanding)
    | answering info outstanding => exact absurd rfl (hfinished _ outstanding)
    | answered info answer => exact Or.inr ⟨info, answer⟩
  have hcounted : ∀ q info, (⟨q, f.report.success, info⟩ : DeviceOpened) ∈ s.requests.answers →
      s.waits q.callback = 0 ∧ s.answered q.callback ≤ 1 := by
    intro q info hanswer
    have honce := h.once q.callback
    have hpos : 0 < s.answered q.callback :=
      List.countP_pos_iff.mpr ⟨_, hanswer, beq_self_eq_true _⟩
    split at honce <;> omega
  constructor
  · intro q hq hwaiting
    rcases houtcome q hq with ⟨_, htaken⟩ | ⟨info, hanswer⟩
    · exact htaken hwaiting
    · have hpos := waits_pos hwaiting
      rw [(hcounted q info hanswer).1] at hpos
      exact absurd hpos (Nat.lt_irrefl 0)
  · intro q hq halive
    rcases houtcome q hq with ⟨hdestroyed, _⟩ | ⟨info, hanswer⟩
    · exact absurd hdestroyed halive
    · refine ⟨info, filter_eq_singleton hanswer (decide_eq_true rfl) ?_⟩
      apply le_trans _ (hcounted q info hanswer).2
      apply List.countP_mono_left
      intro answer _ heq
      rw [of_decide_eq_true heq]
      exact beq_self_eq_true _

/-! ### Tasks change, or the requests do -/

@[simp] theorem answering_zero (k : Nat) : answering k 0 = 0 := rfl

theorem answering_cons (k : Nat) (t : Task) (ts : Multiset Task) :
    answering k (t ::ₘ ts) = answering k ts + if t.answers k then 1 else 0 :=
  Multiset.countP_cons _ t ts

theorem answering_add (k : Nat) (ts ts' : Multiset Task) :
    answering k (ts + ts') = answering k ts + answering k ts' :=
  Multiset.countP_add _ ts ts'

theorem answering_coe (k : Nat) (tasks : List Task) :
    answering k tasks = tasks.countP fun t => t.answers k := by
  rw [answering, Multiset.coe_countP]
  simp only [Bool.decide_eq_true]

theorem answering_eq_zero {k : Nat} {tasks : List Task} (h : ∀ t ∈ tasks, t.answers k = false) :
    answering k tasks = 0 := by
  apply Multiset.countP_eq_zero.mpr
  intro t ht
  rw [h t (Multiset.mem_coe.mp ht)]
  exact Bool.false_ne_true

/-- Only the requests and their history matter. -/
theorem Awaits.congr (h : s.Awaits ts)
    (hpending : s'.controller.pendingBleConnections = s.controller.pendingBleConnections)
    (hrequests : s'.requests = s.requests) : s'.Awaits ts := by
  have hwaiting : ∀ address, s'.waitingFor address = s.waitingFor address := by
    intro address
    unfold waitingFor
    rw [hpending]
  constructor
  · intro k
    unfold waits answered
    rw [hpending, hrequests]
    exact h.once k
  · exact hrequests ▸ h.numbered
  · exact hrequests ▸ h.filed
  · exact hrequests ▸ h.destroyed
  · exact hrequests ▸ h.queued
  · intro f hf q hq
    have houtcome := h.outcome f (hrequests ▸ hf) q hq
    exact houtcome.mono le_rfl (by rw [hrequests]) (by rw [hrequests]) (hwaiting f.report.address)

/-- A task that answers nothing gives way to tasks that answer nothing. A report whose requests
still wait goes on. -/
theorem Awaits.pass {t : Task} {tasks : List Task} (h : s.Awaits (t ::ₘ ts))
    (ht : ∀ k, t.answers k = false) (htasks : ∀ t' ∈ tasks, ∀ k, t'.answers k = false)
    (hgoesOn : ∀ f ∈ s.requests.reports, t.uncompleted = some f.report →
      ∀ q ∈ f.waiting, q ∈ s.waitingFor f.report.address →
        ∃ t' ∈ tasks, t'.uncompleted = some f.report)
    (hsame : ∀ t' ∈ tasks, ∀ report, t'.uncompleted = some report → t.uncompleted = some report) :
    s.Awaits ((tasks : Multiset Task) + ts) where
  once := by
    intro k
    have honce := h.once k
    rw [answering_cons, ht k] at honce
    rw [answering_add, answering_eq_zero fun t' ht' => htasks t' ht' k, Nat.zero_add]
    exact honce
  numbered := h.numbered
  filed := by
    intro t' ht' report hreport
    rcases Multiset.mem_add.mp ht' with hnew | hold
    · exact h.filed t (Multiset.mem_cons_self t ts) report
        (hsame t' (Multiset.mem_coe.mp hnew) report hreport)
    · exact h.filed t' (Multiset.mem_cons_of_mem hold) report hreport
  destroyed := h.destroyed
  queued := h.queued
  outcome := by
    intro f hf q hq
    cases h.outcome f hf q hq with
    | gone destroyed taken => exact .gone destroyed taken
    | waits waiting t' outstanding uncompleted =>
        rcases Multiset.mem_cons.mp outstanding with rfl | hold
        · obtain ⟨t'', hmem, ht''⟩ := hgoesOn f hf uncompleted q hq waiting
          exact .waits waiting t'' (Multiset.mem_add.mpr (Or.inl (Multiset.mem_coe.mpr hmem))) ht''
        · exact .waits waiting t' (Multiset.mem_add.mpr (Or.inr hold)) uncompleted
    | answering info outstanding =>
        rcases Multiset.mem_cons.mp outstanding with heq | hold
        · have hanswers := ht q.callback
          rw [← heq] at hanswers
          exact absurd hanswers (by simp [Task.answers])
        · exact .answering info (Multiset.mem_add.mpr (Or.inr hold))
    | answered info answer => exact .answered info answer

theorem Awaits.quiet {t : Task} {tasks : List Task} (h : s.Awaits (t ::ₘ ts))
    (ht : t.ofRequests = false) (htasks : ∀ t' ∈ tasks, t'.ofRequests = false) :
    s.Awaits ((tasks : Multiset Task) + ts) := by
  apply h.pass (Task.quiet ht).2 fun t' ht' => (Task.quiet (htasks t' ht')).2
  · intro f _ huncompleted
    rw [(Task.quiet ht).1] at huncompleted
    contradiction
  · intro t' ht' report hreport
    rw [(Task.quiet (htasks t' ht')).1] at hreport
    contradiction

/-- A report is made, and every request that waits for its address waits for its completion. -/
theorem Awaits.file {t : Task} {report : Report} (h : s.Awaits ts)
    (hnumber : report.number = s.requests.reports.length)
    (ht : ∀ k, t.answers k = false) (huncompleted : t.uncompleted = some report) :
    Awaits { s with requests := { s.requests with reports := s.requests.reports ++
        [{ report := report
           waiting := s.waitingFor report.address
           destroyed := s.requests.destroyed.length }] } } (t ::ₘ ts) := by
  constructor
  · intro k
    rw [answering_cons, ht k]
    exact h.once k
  · intro n f hf
    rw [List.getElem?_append] at hf
    split at hf
    · exact h.numbered n f hf
    · next hn =>
        obtain ⟨hlt, rfl⟩ := List.getElem?_eq_some_iff.mp hf
        rw [List.getElem_singleton]
        rw [List.length_singleton] at hlt
        change report.number = n
        omega
  · intro t' ht' report' hreport'
    rcases Multiset.mem_cons.mp ht' with rfl | hold
    · rw [huncompleted] at hreport'
      exact ⟨_, List.mem_append_right _ List.mem_cons_self, Option.some.inj hreport'⟩
    · obtain ⟨f, hf, hreport⟩ := h.filed t' hold report' hreport'
      exact ⟨f, List.mem_append_left _ hf, hreport⟩
  · intro f hf
    rcases List.mem_append.mp hf with hold | hnew
    · exact h.destroyed f hold
    · rw [List.mem_singleton.mp hnew]
  · intro f hf q hq
    rcases List.mem_append.mp hf with hold | hnew
    · exact h.queued f hold q hq
    · rw [List.mem_singleton.mp hnew] at hq
      exact h.lt_calls hq
  · intro f hf q hq
    rcases List.mem_append.mp hf with hold | hnew
    · exact (h.outcome f hold q hq).mono (Multiset.le_cons_self ts t) rfl rfl rfl
    · rw [List.mem_singleton.mp hnew] at hq ⊢
      exact .waits hq t (Multiset.mem_cons_self t ts) huncompleted

/-- An answer reaches its client. -/
theorem Awaits.notifyDeviceOpened {report : Option Nat} {answer : DeviceOpened}
    (h : s.Awaits (.notifyDeviceOpened report answer ::ₘ ts)) :
    (s.notifyDeviceOpened answer).Awaits ts := by
  constructor
  · intro k
    have honce := h.once k
    rw [answering_cons] at honce
    have hanswered : (s.notifyDeviceOpened answer).answered k =
        s.answered k + if answer.request.callback == k then 1 else 0 := by
      change (s.requests.answers ++ [answer]).countP _ = _
      rw [List.countP_append, List.countP_singleton]
      rfl
    rw [hanswered]
    change _ ≤ if k < s.requests.calls then 1 else 0
    change s.waits k + (answering k ts + if answer.request.callback == k then 1 else 0) +
      s.answered k ≤ _ at honce
    change s.waits k + answering k ts + _ ≤ _
    omega
  · exact h.numbered
  · exact fun t ht => h.filed t (Multiset.mem_cons_of_mem ht)
  · exact h.destroyed
  · exact h.queued
  · intro f hf q hq
    cases h.outcome f hf q hq with
    | gone destroyed taken => exact .gone destroyed taken
    | waits waiting t outstanding uncompleted =>
        rcases Multiset.mem_cons.mp outstanding with rfl | hold
        · contradiction
        · exact .waits waiting t hold uncompleted
    | answering info outstanding =>
        rcases Multiset.mem_cons.mp outstanding with heq | hold
        · cases heq
          exact .answered info (List.mem_append_right _ List.mem_cons_self)
        · exact .answering info hold
    | answered info answer => exact .answered info (List.mem_append_left _ answer)

theorem waitingFor_eq (address : Address) (s : Service) :
    s.waitingFor address = (s.controller.pendingBleConnections.lookup address).getD [] := rfl

/-- A completion answers every request that waits for its address. -/
theorem waits_handleBleOpenComplete (report : Report) (d : DeviceId) (info : MidiDeviceInfo)
    (s : Service) (k : Nat) :
    (s.handleBleOpenComplete report d info).1.waits k +
      answering k (s.handleBleOpenComplete report d info).2 = s.waits k := by
  have hpending := (MidiServiceController.requests_handleBleOpenComplete report.address
    report.success d info s.controller).1
  have hanswers := MidiServiceController.answers_handleBleOpenComplete report.address
    report.success d info s.controller
  have htotal := UnorderedMap.total_erase
    (fun _ (requests : List PendingBleConnection) => requests.countP fun q => q.callback == k)
    s.controller.pendingBleConnections report.address
  have hclose : ∀ ds : List DeviceId,
      (ds.map Task.managerCloseDevice).countP (fun t => t.answers k) = 0 := by
    intro ds
    apply List.countP_eq_zero.mpr
    intro t ht
    obtain ⟨x, _, rfl⟩ := List.mem_map.mp ht
    exact Bool.false_ne_true
  have htaken : answering k (s.handleBleOpenComplete report d info).2 =
      (s.waitingFor report.address).countP fun q => q.callback == k := by
    rw [answering_coe]
    change (_ ++ List.map _ (Locked.answers _)).countP _ = _
    rw [List.countP_append, hclose, Nat.zero_add, hanswers, List.map_map, List.countP_map]
    rfl
  have hwaits : (s.handleBleOpenComplete report d info).1.waits k =
      UnorderedMap.total (fun _ (requests : List PendingBleConnection) =>
        requests.countP fun q => q.callback == k)
        (s.controller.pendingBleConnections.erase report.address) := by
    unfold waits
    exact congrArg _ hpending
  rw [htaken, hwaits, waitingFor_eq]
  unfold waits
  rw [← htotal]
  cases s.controller.pendingBleConnections.lookup report.address with
  | none => rfl
  | some requests => rfl

/-- The requests that wait move into answers, all of them with the outcome of the report. -/
theorem Awaits.handleBleOpenComplete {report : Report} {d : DeviceId} {info : MidiDeviceInfo}
    (h : s.Awaits (.handleBleOpenComplete report d info ::ₘ ts))
    (hseparates : s.Separates ts (.handleBleOpenComplete report d info)) :
    (s.handleBleOpenComplete report d info).1.Awaits
      (((s.handleBleOpenComplete report d info).2 : Multiset Task) + ts) := by
  set s' := (s.handleBleOpenComplete report d info).1 with hs'
  set tasks := (s.handleBleOpenComplete report d info).2 with htasks
  have hpending : s'.controller.pendingBleConnections =
      s.controller.pendingBleConnections.erase report.address :=
    (MidiServiceController.requests_handleBleOpenComplete report.address report.success d info
      s.controller).1
  have hrequests : s'.requests = s.requests := rfl
  have hanswers : (s.controller.handleBleOpenComplete report.address report.success d info).answers =
      (s.waitingFor report.address).map fun request => ⟨request, report.success, info⟩ :=
    MidiServiceController.answers_handleBleOpenComplete report.address report.success d info
      s.controller
  have hwaiting : ∀ address, s'.waitingFor address =
      if address = report.address then [] else s.waitingFor address := by
    intro address
    rw [waitingFor_eq, hpending, UnorderedMap.lookup_erase_eq]
    split <;> rfl
  have hmem : ∀ q ∈ s.waitingFor report.address,
      Task.notifyDeviceOpened (some report.number) ⟨q, report.success, info⟩ ∈ tasks := by
    intro q hq
    apply List.mem_append_right
    rw [hanswers]
    exact List.mem_map_of_mem (List.mem_map_of_mem hq)
  have huncompleted : ∀ t ∈ tasks, t.uncompleted = none := by
    intro t ht
    rcases List.mem_append.mp ht with hclose | hanswer
    · obtain ⟨x, _, rfl⟩ := List.mem_map.mp hclose
      rfl
    · obtain ⟨x, _, rfl⟩ := List.mem_map.mp hanswer
      rfl
  have hcount : ∀ k, s'.waits k + answering k tasks = s.waits k :=
    waits_handleBleOpenComplete report d info s
  constructor
  · intro k
    have honce := h.once k
    rw [answering_cons] at honce
    rw [answering_add]
    change s.waits k + (answering k ts + 0) + s.answered k ≤ _ at honce
    change s'.waits k + (answering k tasks + answering k ts) + s.answered k ≤ _
    have hk := hcount k
    change _ ≤ if k < s.requests.calls then 1 else 0
    omega
  · exact h.numbered
  · intro t ht report' hreport'
    rcases Multiset.mem_add.mp ht with hnew | hold
    · rw [huncompleted t (Multiset.mem_coe.mp hnew)] at hreport'
      contradiction
    · exact h.filed t (Multiset.mem_cons_of_mem hold) report' hreport'
  · exact h.destroyed
  · exact h.queued
  · intro f hf q hq
    cases h.outcome f hf q hq with
    | gone destroyed taken =>
        have hdestroyed : q.clientId ∈ s'.requests.destroyed.drop f.destroyed := destroyed
        apply Outcome.gone hdestroyed
        rw [hwaiting]
        split
        · exact List.not_mem_nil
        · exact taken
    | waits waiting t outstanding uncompleted =>
        by_cases haddress : f.report.address = report.address
        · by_cases hreport : f.report = report
          · rw [haddress] at waiting
            apply Outcome.answering info
            rw [hreport]
            exact Multiset.mem_add.mpr (Or.inl (Multiset.mem_coe.mpr (hmem q waiting)))
          · rcases Multiset.mem_cons.mp outstanding with rfl | hold
            · exact absurd (Option.some.inj uncompleted).symm hreport
            · have htaken := hseparates f hf hreport haddress ⟨t, hold, uncompleted⟩ q hq
              rw [haddress] at waiting
              exact absurd waiting htaken
        · rcases Multiset.mem_cons.mp outstanding with rfl | hold
          · exact absurd (congrArg Report.address (Option.some.inj uncompleted).symm) haddress
          · apply Outcome.waits _ t (Multiset.mem_add.mpr (Or.inr hold)) uncompleted
            rw [hwaiting, if_neg haddress]
            exact waiting
    | answering info' outstanding =>
        rcases Multiset.mem_cons.mp outstanding with heq | hold
        · contradiction
        · exact .answering info' (Multiset.mem_add.mpr (Or.inr hold))
    | answered info' answer => exact .answered info' answer

/-- The requests of a client that is destroyed go, and no others. -/
theorem Awaits.dismiss {c : ClientId} (h : s.Awaits ts)
    (hpending : s'.controller.pendingBleConnections =
      (s.controller.removePendingBleConnectionsForClient c).pendingBleConnections)
    (hrequests : s'.requests = { s.requests with destroyed := s.requests.destroyed ++ [c] }) :
    s'.Awaits ts := by
  have hwaiting : ∀ address, s'.waitingFor address =
      (s.waitingFor address).filter fun q => q.clientId ≠ c := by
    intro address
    rw [waitingFor_eq, hpending]
    unfold MidiServiceController.removePendingBleConnectionsForClient
    dsimp only
    rw [UnorderedMap.lookup_filterMap, waitingFor_eq]
    cases s.controller.pendingBleConnections.lookup address with
    | none => rfl
    | some requests =>
        rw [Option.bind_some, Option.getD_some]
        split
        · next hempty => exact (List.isEmpty_iff.mp hempty).symm
        · rfl
  have hwaits : ∀ k, s'.waits k ≤ s.waits k := by
    intro k
    have hpending' : s'.controller.pendingBleConnections =
        s.controller.pendingBleConnections.filterMap fun _ requests =>
          let requests := requests.filter fun request => request.clientId ≠ c
          if requests.isEmpty then none else some requests := hpending
    unfold waits
    rw [hpending']
    apply UnorderedMap.total_filterMap_le
    intro address requests left hleft
    dsimp only at hleft
    split at hleft
    · contradiction
    · rw [← Option.some.inj hleft]
      exact List.filter_sublist.countP_le
  have hdestroyed : s'.requests.destroyed = s.requests.destroyed ++ [c] := by rw [hrequests]
  have hreports : s'.requests.reports = s.requests.reports := by rw [hrequests]
  constructor
  · intro k
    have honce := h.once k
    have hanswered : s'.answered k = s.answered k := by
      unfold answered
      rw [hrequests]
    have hcalls : s'.requests.calls = s.requests.calls := by rw [hrequests]
    have hk := hwaits k
    rw [hanswered, hcalls]
    omega
  · exact hreports ▸ h.numbered
  · exact hreports ▸ h.filed
  · intro f hf
    rw [hdestroyed, List.length_append]
    exact (h.destroyed f (hreports ▸ hf)).trans (Nat.le_add_right _ _)
  · rw [hrequests]
    exact h.queued
  · intro f hf q hq
    have hf' : f ∈ s.requests.reports := hreports ▸ hf
    have hdrop : s'.requests.destroyed.drop f.destroyed =
        s.requests.destroyed.drop f.destroyed ++ [c] := by
      rw [hdestroyed, List.drop_append_of_le_length (h.destroyed f hf')]
    have htaken : ∀ address, q ∉ s.waitingFor address → q ∉ s'.waitingFor address := by
      intro address hq hq'
      rw [hwaiting] at hq'
      exact hq (List.mem_of_mem_filter hq')
    cases h.outcome f hf' q hq with
    | gone destroyed taken =>
        refine .gone ?_ (htaken _ taken)
        rw [hdrop]
        exact List.mem_append_left _ destroyed
    | waits waiting t outstanding uncompleted =>
        by_cases hclient : q.clientId = c
        · refine .gone ?_ ?_
          · rw [hdrop, hclient]
            exact List.mem_append_right _ List.mem_cons_self
          · rw [hwaiting]
            intro hmem
            exact of_decide_eq_true (List.mem_filter.mp hmem).2 hclient
        · refine .waits ?_ t outstanding uncompleted
          rw [hwaiting]
          exact List.mem_filter.mpr ⟨waiting, decide_eq_true hclient⟩
    | answering info outstanding => exact .answering info outstanding
    | answered info answer =>
        refine .answered info ?_
        rw [hrequests]
        exact answer

theorem Awaits.destroyMidiClient {c : ClientId} (h : s.Awaits (.destroyMidiClient c ::ₘ ts)) :
    (s.destroyMidiClient c).1.Awaits (((s.destroyMidiClient c).2 : Multiset Task) + ts) := by
  unfold Service.destroyMidiClient
  split
  · exact h.quiet rfl fun t ht => absurd ht List.not_mem_nil
  · next hc =>
      have hpassed := h.quiet rfl fun t (ht : t ∈ (s.controller.destroyMidiClient
        MidiDeviceManager.api c).devicesToClose.map Task.managerCloseDevice ++
          [.finishDestroyMidiClient]) => ?_
      · exact hpassed.dismiss
          (MidiServiceController.pending_destroyMidiClient (not_not.mp hc)) rfl
      · rcases List.mem_append.mp ht with hclose | hfinish
        · obtain ⟨x, _, rfl⟩ := List.mem_map.mp hclose
          rfl
        · rw [List.mem_singleton.mp hfinish]
          rfl

/-- A new request waits, is answered at once, or is refused. -/
theorem Awaits.ask {answers : List DeviceOpened}
    {controller : MidiServiceController MidiDeviceManager} (h : s.Awaits ts)
    (hwaiting : ∀ a, ∀ q ∈ s.waitingFor a,
      q ∈ (controller.pendingBleConnections.lookup a).getD [])
    (hshare : ∀ k, controller.pendingBleConnections.total (fun _ requests =>
          requests.countP fun q => q.callback == k) +
        answers.countP (fun answer => answer.request.callback == k) ≤
      s.waits k + if s.requests.calls = k then 1 else 0)
    (hnew : ∀ a, ∀ q ∈ (controller.pendingBleConnections.lookup a).getD [],
      q ∈ s.waitingFor a ∨ q.callback = s.requests.calls) :
    Awaits { s with
        controller := controller
        requests := { s.requests with calls := s.requests.calls + 1 } }
      ((answers.map (Task.notifyDeviceOpened none) : Multiset Task) + ts) := by
  constructor
  · intro k
    have honce := h.once k
    have hk := hshare k
    rw [answering_add, answering_coe, List.countP_map]
    change _ + (answers.countP (fun answer => answer.request.callback == k) + _) +
      s.answered k ≤ if k < s.requests.calls + 1 then 1 else 0
    change controller.pendingBleConnections.total _ + _ + _ ≤ _
    split at honce <;> split at hk <;> split <;> omega
  · exact h.numbered
  · intro t ht report hreport
    rcases Multiset.mem_add.mp ht with hnew | hold
    · obtain ⟨answer, _, rfl⟩ := List.mem_map.mp (Multiset.mem_coe.mp hnew)
      contradiction
    · exact h.filed t hold report hreport
  · exact h.destroyed
  · exact fun f hf q hq => (h.queued f hf q hq).trans (Nat.lt_succ_self _)
  · intro f hf q hq
    cases h.outcome f hf q hq with
    | gone destroyed taken =>
        refine .gone destroyed fun hmem => ?_
        rcases hnew _ q hmem with hold | hcallback
        · exact taken hold
        · exact Nat.ne_of_lt (h.queued f hf q hq) hcallback
    | waits waiting t outstanding uncompleted =>
        exact .waits (hwaiting _ q waiting) t (Multiset.mem_add.mpr (Or.inr outstanding))
          uncompleted
    | answering info outstanding =>
        exact .answering info (Multiset.mem_add.mpr (Or.inr outstanding))
    | answered info answer => exact .answered info answer

theorem Awaits.openBleDevice {token : TokenId} {c : ClientId} {address : Address}
    (h : s.Awaits (.openBleDevice token c address ::ₘ ts)) :
    (s.openBleDevice token c address).1.Awaits
      (((s.openBleDevice token c address).2 : Multiset Task) + ts) := by
  have hrest : s.Awaits ((([] : List Task) : Multiset Task) + ts) :=
    h.quiet rfl fun t ht => absurd ht List.not_mem_nil
  by_cases hgranted : s.granted token
  · obtain ⟨clients, r, hr, hopen⟩ := openBleDevice_granted hgranted c address
    rw [Multiset.coe_nil, Multiset.zero_add] at hrest
    rw [hopen]
    rcases hr.pending with ⟨hpending, hanswers⟩ | ⟨hpending, hanswers⟩
    · apply hrest.ask
      · intro a q hq
        rw [hpending]
        exact hq
      · intro k
        rw [hpending]
        apply Nat.add_le_add_left
        rcases hanswers with hnone | ⟨info, hone⟩
        · rw [hnone]
          exact Nat.zero_le _
        · rw [hone, List.countP_singleton]
          simp
      · intro a q hq
        rw [hpending] at hq
        exact Or.inl hq
    · apply hrest.ask
      · intro a q hq
        rw [hpending, UnorderedMap.lookup_insert_eq]
        split
        · next ha => exact List.mem_append_left _ (ha ▸ hq)
        · exact hq
      · intro k
        rw [hpending, hanswers]
        have htotal := UnorderedMap.total_insert
          (fun _ (requests : List PendingBleConnection) => requests.countP fun q => q.callback == k)
          s.controller.pendingBleConnections address
          (s.waitingFor address ++ [⟨c, s.requests.calls⟩])
        rw [List.countP_append, List.countP_singleton, waitingFor_eq] at htotal
        have hwaiting : (s.controller.pendingBleConnections.lookup address).elim 0
            (fun requests => requests.countP fun q => q.callback == k) =
              ((s.controller.pendingBleConnections.lookup address).getD []).countP
                fun q => q.callback == k := by
          cases s.controller.pendingBleConnections.lookup address <;> rfl
        rw [hwaiting] at htotal
        simp only [beq_iff_eq] at htotal
        change UnorderedMap.total _ (s.controller.pendingBleConnections.insert address
          ((s.controller.pendingBleConnections.lookup address).getD [] ++ _)) + 0 ≤
            UnorderedMap.total _ s.controller.pendingBleConnections + _
        omega
      · intro a q hq
        rw [hpending, UnorderedMap.lookup_insert_eq] at hq
        split at hq
        · next ha =>
            rcases List.mem_append.mp hq with hold | hown
            · exact Or.inl (ha ▸ hold)
            · exact Or.inr (congrArg PendingBleConnection.callback (List.mem_singleton.mp hown))
        · exact Or.inl hq
  · obtain ⟨clients, hclients⟩ := updateBluetoothPermission_eq token c s
    rw [openBleDevice_refused hgranted, hclients]
    exact hrest.congr rfl rfl

/-! ### One task -/

/-- A section of the Bluetooth driver makes a report or does not. -/
theorem Awaits.bleSection {t : Task} {i : Int} {reported : Reported}
    (h : s.Awaits (t ::ₘ ts)) (ht : t.ofRequests = false) :
    (s.bleSection i reported).1.Awaits (((s.bleSection i reported).2 : Multiset Task) + ts) := by
  have hcleanup : ∀ t' ∈ (if reported.cleanup then [Task.cleanupDevice i] else []),
      t'.ofRequests = false := by
    split <;> simp [Task.ofRequests, Task.uncompleted]
  have hquiet : Awaits (s.setManager { s.manager with ble := reported.driver })
      (((if reported.cleanup then [Task.cleanupDevice i] else [] : List Task) : Multiset Task) +
        ts) :=
    (h.quiet ht hcleanup).congr rfl rfl
  unfold Service.bleSection notifyManager
  split
  · exact hquiet
  · split
    · exact hquiet
    · dsimp only
      rw [List.singleton_append, ← Multiset.cons_coe, Multiset.cons_add]
      apply hquiet.file rfl
      · intro k
        split <;> rfl
      · split <;> rfl

/-- A section that has nothing to do with the requests. -/
theorem Awaits.aside {t : Task} {result : Service × List Task} (h : s.Awaits (t ::ₘ ts))
    (ht : t.ofRequests = false) (htasks : ∀ t' ∈ result.2, t'.ofRequests = false)
    (hpending : result.1.controller.pendingBleConnections =
      s.controller.pendingBleConnections)
    (hrequests : result.1.requests = s.requests) :
    result.1.Awaits ((result.2 : Multiset Task) + ts) :=
  (h.quiet ht htasks).congr hpending hrequests

/-- A report goes on to the task that has to complete it. -/
theorem Awaits.forward {t t' : Task} {tasks : List Task} (h : s.Awaits (t ::ₘ ts)) {report : Report}
    (ht : t.uncompleted = some report) (ht' : t'.uncompleted = some report)
    (htasks : ∀ x ∈ tasks, x.ofRequests = false) :
    s.Awaits (((t' :: tasks : List Task) : Multiset Task) + ts) := by
  have hanswers : ∀ x : Task, x.uncompleted = some report → ∀ k, x.answers k = false := by
    intro x hx k
    cases x <;> first | rfl | contradiction
  apply h.pass (hanswers t ht)
  · intro x hx
    rcases List.mem_cons.mp hx with rfl | hrest
    · exact hanswers x ht'
    · exact (Task.quiet (htasks x hrest)).2
  · intro f _ hreport _ _ _
    exact ⟨t', List.mem_cons_self, ht'.trans (ht.symm.trans hreport)⟩
  · intro x hx report' hreport'
    rcases List.mem_cons.mp hx with rfl | hrest
    · exact ht.trans (ht'.symm.trans hreport')
    · rw [(Task.quiet (htasks x hrest)).1] at hreport'
      contradiction

theorem Awaits.unlistBleDevice {report : Report} {d : DeviceId}
    (h : s.Awaits (.unlistBleDevice report d ::ₘ ts))
    (hseparates : s.Separates ts (.unlistBleDevice report d)) :
    (s.unlistBleDevice report d).1.Awaits
      (((s.unlistBleDevice report d).2 : Multiset Task) + ts) := by
  rcases unlistBleDevice_cases report d s with ⟨_, heq⟩ | ⟨found, hfound, heq⟩
  · rw [heq]
    exact (h.forward rfl rfl fun t ht => absurd ht List.not_mem_nil).congr rfl rfl
  · rw [heq]
    have htasks : ∀ t ∈ [Task.notifyDeviceChange found
        ⟨s.listing.edits.length, found.id, .removed⟩], t.ofRequests = false := by
      intro t ht
      rw [List.mem_singleton.mp ht]
      rfl
    -- The completion is not called, so nothing of the report may wait.
    have hpassed := h.pass (fun _ => rfl) (fun t ht => (Task.quiet (htasks t ht)).2)
      (fun f hf hreport q hq hwaiting => ?_) (fun t ht report' hreport' => ?_)
    · exact hpassed.congr rfl rfl
    · have hf' : f.report = report := (Option.some.inj hreport).symm
      have hgone := hseparates (Option.isSome_iff_exists.mpr ⟨found, hfound⟩) f hf hf' q hq
      rw [hf'] at hwaiting
      exact absurd hwaiting hgone
    · rw [(Task.quiet (htasks t ht)).1] at hreport'
      contradiction

/-- The section of every task keeps the invariant. -/
theorem Awaits.run {t : Task} (h : s.Awaits (t ::ₘ ts)) (hseparates : s.Separates ts t) :
    (s.run t).1.Awaits (((s.run t).2 : Multiset Task) + ts) := by
  have hnone : ∀ t ∈ ([] : List Task), t.ofRequests = false :=
    fun t ht => absurd ht List.not_mem_nil
  have hclose : ∀ ds : List DeviceId, ∀ t ∈ ds.map Task.managerCloseDevice,
      t.ofRequests = false := by
    intro ds t ht
    obtain ⟨d, _, rfl⟩ := List.mem_map.mp ht
    rfl
  have hone : ∀ {t' : Task}, t'.ofRequests = false → ∀ t ∈ [t'], t.ofRequests = false := by
    intro t' ht' t ht
    rw [List.mem_singleton.mp ht]
    exact ht'
  cases t with
  | createMidiInServer uid object token added =>
      exact h.aside rfl hnone (MidiServiceController.leavesRequests_createMidiInServer uid object
        _ added s.controller).pending rfl
  | getDevices token c =>
      obtain ⟨clients, hclients⟩ := updateBluetoothPermission_eq token c s
      apply h.aside rfl hnone
      · change (s.updateBluetoothPermission token c).controller.pendingBleConnections = _
        rw [hclients]
      · change (s.updateBluetoothPermission token c).requests = _
        rw [hclients]
  | openDevice token c d =>
      exact h.aside rfl hnone
        (MidiServiceController.leavesRequests_openDevice _ c d s.controller).pending rfl
  | closeDevice c d =>
      exact h.aside rfl (hclose _)
        (MidiServiceController.leavesRequests_closeDevice c d s.controller).pending rfl
  | openBleDevice token c address => exact h.openBleDevice
  | openPort direction env token c d p =>
      apply h.aside rfl hnone _ rfl
      cases direction with
      | input =>
          exact (MidiServiceController.leavesRequests_openPort .input _ env _ c d p
            s.controller).pending
      | output =>
          exact (MidiServiceController.leavesRequests_openPort .output _ env _ c d p
            s.controller).pending
  | closePort direction c d p =>
      exact h.aside rfl hnone
        (MidiServiceController.leavesRequests_closePort direction c d p s.controller).pending rfl
  | destroyMidiClient c => exact h.destroyMidiClient
  | finishDestroyMidiClient =>
      exact h.aside rfl hnone
        (MidiServiceController.leavesRequests_finishDestroyMidiClient s.controller).pending rfl
  | managerCloseDevice d =>
      apply h.aside rfl _ rfl rfl
      intro t ht
      change t ∈ ite _ _ _ at ht
      split at ht
      · contradiction
      · rw [List.mem_singleton.mp ht]
        rfl
  | driverCloseDevice key =>
      obtain ⟨i, kind⟩ := key
      cases kind with
      | usb => exact h.aside rfl hnone rfl rfl
      | ble => exact h.bleSection rfl
  | notifyDeviceOpened report answer =>
      change (s.notifyDeviceOpened answer).Awaits (0 + ts)
      rw [Multiset.zero_add]
      exact h.notifyDeviceOpened
  | notifyDeviceChange device edit =>
      apply h.aside rfl _
        (MidiServiceController.leavesRequests_notifyDeviceChange edit.change device.id
          s.controller).pending rfl
      intro t ht
      obtain ⟨e, _, rfl⟩ := List.mem_map.mp ht
      rfl
  | deliver c server change info =>
      obtain ⟨clients, hclients⟩ := updateBluetoothPermission_eq
        (s.controller.clients.getD c server).callerTokenId c s
      have hdelivered : (s.deliver c server change info).controller.pendingBleConnections =
          s.controller.pendingBleConnections ∧
            (s.deliver c server change info).requests = s.requests := by
        unfold deliver
        dsimp only
        rw [hclients]
        split <;> exact ⟨rfl, rfl⟩
      exact h.aside rfl hnone hdelivered.1 hdelivered.2
  | updateDevices => exact h.aside rfl (hone rfl) rfl rfl
  | takeSnapshot refresh => exact h.aside rfl (hone rfl) rfl rfl
  | assignIds snapshot rest named =>
      cases rest with
      | nil => exact h.aside rfl (hone rfl) rfl rfl
      | cons e rest => exact h.aside rfl (hone rfl) rfl rfl
  | installDevices snapshot devices =>
      apply h.aside rfl _ rfl rfl
      intro t ht
      rcases List.mem_append.mp ht with herase | hnotify
      · split at herase
        · contradiction
        · exact hone rfl t herase
      · obtain ⟨x, _, rfl⟩ := List.mem_map.mp hnotify
        rfl
  | eraseDriverIds keys => exact h.aside rfl hnone rfl rfl
  | handleBleConnect report => exact (h.forward rfl rfl hnone).congr rfl rfl
  | listBleDevice report d =>
      change (s.listBleDevice report d).1.Awaits
        (((s.listBleDevice report d).2 : Multiset Task) + ts)
      rcases listBleDevice_cases report d s with ⟨found, _, heq⟩ | ⟨_, heq⟩
      · rw [heq]
        exact (h.forward rfl rfl hnone).congr rfl rfl
      · rw [heq]
        exact (h.forward rfl rfl (hone rfl)).congr rfl rfl
  | handleBleDisconnect report => exact (h.forward rfl rfl hnone).congr rfl rfl
  | unlistBleDevice report d => exact h.unlistBleDevice hseparates
  | handleBleOpenComplete report d info => exact h.handleBleOpenComplete hseparates
  | onConnectionState i connState status => exact h.bleSection rfl
  | onServicesComplete i status => exact h.bleSection rfl
  | onRegisterNotify i status => exact h.bleSection rfl
  | cleanupDevice i => exact h.bleSection rfl

theorem awaits_initial (h : sections.init s) : s.Awaits 0 := by
  obtain ⟨usbFirst, hdi, gatt, granted, rfl⟩ := h
  constructor
  · exact fun k => Nat.zero_le _
  · exact fun n f hf => by contradiction
  · exact fun t ht => absurd ht (Multiset.notMem_zero t)
  · exact fun f hf => absurd hf List.not_mem_nil
  · exact fun f hf => absurd hf List.not_mem_nil
  · exact fun f hf => absurd hf List.not_mem_nil

theorem Awaits.environment (h : s.Awaits ts) (henvironment : Environment s s') : s'.Awaits ts := by
  cases henvironment with
  | answers hdi gatt granted => exact h.congr rfl rfl
  | rehash c hmove hmanager =>
      have hpending : c.pendingBleConnections = s.controller.pendingBleConnections := by
        cases hmove with
        | manager m => rfl
        | rehash hcontexts hactive => rfl
      exact h.congr hpending rfl
  | rehashBle table hrehash => exact h.congr rfl rfl

/-- A new thread has no part in the requests yet. -/
theorem Awaits.start {t : Task} (h : s.Awaits ts) (ht : t.external) : s.Awaits (t ::ₘ ts) := by
  have hnone : t.ofRequests = false := by
    cases t <;> first | rfl | contradiction
  constructor
  · intro k
    have honce := h.once k
    rw [answering_cons, (Task.quiet hnone).2 k]
    exact honce
  · exact h.numbered
  · intro t' ht' report hreport
    rcases Multiset.mem_cons.mp ht' with rfl | hold
    · rw [(Task.quiet hnone).1] at hreport
      contradiction
    · exact h.filed t' hold report hreport
  · exact h.destroyed
  · exact h.queued
  · intro f hf q hq
    exact (h.outcome f hf q hq).mono (Multiset.le_cons_self ts t) rfl rfl rfl

/-- Every report is served: when the manager and the controller have finished with a report of
the driver, no request that was queued before it waits for its address any more, and every client
that waited and was not destroyed has one answer, with the outcome of the report. -/
theorem ble_requests_answered {c : Config Service Task}
    (reach : sections.ReachedWith (fun s ts t => s.Separates ts t) c) {f : FiledReport}
    (hf : f ∈ c.shared.requests.reports)
    (hfinished : ∀ t ∈ c.outstanding, t.reportNumber ≠ some f.report.number) :
    c.shared.Served f := by
  have hawaits := reach.invariant (I := Awaits) (fun s => awaits_initial)
    (fun s ts t hstarts h => h.start hstarts) (fun s ts t hok h => h.run hok)
    (fun s ts s' henvironment h => h.environment henvironment)
  exact hawaits.served hf hfinished

/-! ### A device that comes online, and one that a refresh lists before it fails -/

theorem finished_of_quiet {c : Config Service Task} (h : c.Quiet) (n : Nat) :
    ∀ t ∈ c.outstanding, t.reportNumber ≠ some n := by
  intro t ht
  rw [h] at ht
  exact absurd ht (Multiset.notMem_zero t)

/-- No failure reaches the list, and the report that is completed is the only one. -/
def oneReport (s : Service) : Task → Bool
  | .unlistBleDevice .. => false
  | .handleBleOpenComplete report _ _ => s.requests.reports.all fun f => f.report = report
  | _ => true

theorem separates_of_oneReport (s : Service) (ts : Multiset Task) (t : Task)
    (h : s.oneReport t) : s.Separates ts t := by
  cases t with
  | unlistBleDevice report d => contradiction
  | handleBleOpenComplete report d info =>
      intro f hf hother
      exact absurd (of_decide_eq_true (List.all_eq_true.mp h f hf)) hother
  | _ => trivial

def cameOnline : Config Service Task :=
  sections.after (start {} {} fun _ => true) (bleRequest ++ bleOpening 2)

theorem ble_requests_answered_online :
    cameOnline.shared.requests.reports.map FiledReport.waiting = [[⟨1, 0⟩]] ∧
      ∀ f ∈ cameOnline.shared.requests.reports, cameOnline.shared.Served f := by
  have hreach : sections.ReachedWith (fun s ts t => s.Separates ts t) cameOnline :=
    reachedWith_after separates_of_oneReport (by decide +kernel)
  have hthreads : cameOnline.threads.flatten.isEmpty := by decide +kernel
  exact ⟨by decide +kernel, fun f hf => ble_requests_answered hreach hf
    (finished_of_quiet (Config.quiet_of_isEmpty hthreads) f.report.number)⟩

/-- The device connects, a refresh lists it, and then it is lost before it is online. -/
def listedThenLost : List (Turn Service Task) :=
  bleRequest ++ [.start (.onConnectionState 1 .connected 0), .run 2, .start .updateDevices] ++
    List.replicate 7 (.run 3) ++ .start (.onConnectionState 1 .disconnected 0) ::
      List.replicate 5 (.run 4)

def lost : Config Service Task := sections.after (start {} {} fun _ => true) listedThenLost

/-- The failure finds the device in the list and takes it out, and the request waits on. -/
theorem ble_request_forgotten :
    ¬∀ c : Config Service Task, sections.Reached c → ∀ f ∈ c.shared.requests.reports,
      (∀ t ∈ c.outstanding, t.reportNumber ≠ some f.report.number) → c.shared.Served f := by
  intro h
  have hreach : sections.Reached lost := reached_after (by decide +kernel)
  have hthreads : lost.threads.flatten.isEmpty := by decide +kernel
  have hwaiting : lost.shared.requests.reports.map (fun f => (f.waiting, f.report.address)) =
      [([⟨1, 0⟩], "11:22:33:44:55:66")] := by
    decide +kernel
  have hpending : lost.shared.waitingFor "11:22:33:44:55:66" = [⟨1, 0⟩] := by decide +kernel
  obtain ⟨f, hf, hsnapshot⟩ := List.mem_map.mp (hwaiting ▸ List.mem_cons_self)
  obtain ⟨hrequests, haddress⟩ := Prod.mk.inj hsnapshot
  have hserved := h lost hreach f hf
    (finished_of_quiet (Config.quiet_of_isEmpty hthreads) f.report.number)
  apply hserved.taken ⟨1, 0⟩
  · rw [hrequests]
    exact List.mem_cons_self
  · rw [haddress, hpending]
    exact List.mem_cons_self

end Service

end MidiFramework.Server
