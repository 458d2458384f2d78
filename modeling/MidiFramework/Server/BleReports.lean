import MidiFramework.Server.ListAgreement

/-!
# The reports of a Bluetooth session

Every callback of the stack and `CloseDevice` end in `NotifyManager`, which
calls the manager after the driver's lock is released. The driver keeps a flag
against a second call and never reads it, so a session reports once only where
the stack confirms the notification once and no failure overtakes the success.
-/

namespace MidiFramework.Server

open Foundation

/-- A session: its client id and its number. -/
def DeviceCtx.sessionId (d : DeviceCtx) : Int × Nat := (d.id, d.session)

/-- The driver, the reports the manager's callback has received, and the sessions whose
notification the stack has confirmed. -/
structure BleCalls where
  driver : BleDriver
  received : List (Bool × Int × Nat) := []
  confirmed : List (Int × Nat) := []

/-- A section of the driver, or a call of the manager's callback. -/
inductive BleTask
  | openDevice (address : Address)
  | closeDevice (deviceId : Int)
  | onConnectionState (clientId : Int) (connState : ConnState) (status : Int)
  | onServicesComplete (clientId : Int) (status : Int)
  | onRegisterNotify (clientId : Int) (status : Int)
  | switchPort (isOpen : Bool) (direction : PortDirection) (deviceId : Int) (portIndex : PortIndex)
  | cleanupDevice (clientId : Int)
  | notifyManager (success : Bool) (device : DeviceCtx)

namespace BleTask

/-- The calls of the manager and of the stack. -/
def external : BleTask → Bool
  | .cleanupDevice _ | .notifyManager .. => false
  | _ => true

/-- The report that a call of the manager's callback gives it. -/
def report : BleTask → Option (Bool × Int × Nat)
  | .notifyManager success device =>
      if device.deviceCallback.isSome then some (success, device.sessionId) else none
  | _ => none

end BleTask

namespace BleCalls

/-- The reports of a session, as the manager received them. -/
def reports (s : BleCalls) (session : Int × Nat) : List Bool :=
  s.received.filterMap fun r => if r.2 = session then some r.1 else none

/-- What a section leaves to do. -/
def reported (clientId : Int) (r : Reported) (s : BleCalls) : BleCalls × List BleTask :=
  ({ s with driver := r.driver },
    (r.report.map fun x => .notifyManager x.1 x.2).toList ++
      if r.cleanup then [.cleanupDevice clientId] else [])

/-- The stack confirms the notification of a client id. -/
def confirm (clientId : Int) (s : BleCalls) : BleCalls :=
  match s.driver.devices.lookup clientId with
  | some d =>
      if d.deviceCallback.isSome then { s with confirmed := d.sessionId :: s.confirmed } else s
  | none => s

/-- `NotifyManager`. -/
def notifyManager (success : Bool) (device : DeviceCtx) (s : BleCalls) : BleCalls :=
  if device.deviceCallback.isSome then
    { s with received := s.received ++ [(success, device.sessionId)] }
  else s

def run : BleTask → BleCalls → BleCalls × List BleTask
  | .openDevice address, s => ({ s with driver := (s.driver.openDevice address).2 }, [])
  | .closeDevice i, s => s.reported i (s.driver.closeDevice i).2
  | .onConnectionState i connState status, s =>
      s.reported i (s.driver.onConnectionState i connState status)
  | .onServicesComplete i status, s => s.reported i (s.driver.onServicesComplete i status)
  | .onRegisterNotify i status, s =>
      (if status = 0 then s.confirm i else s).reported i (s.driver.onRegisterNotify i status)
  | .switchPort isOpen direction d p, s =>
      ({ s with driver := (s.driver.switchPort isOpen direction d p).2 }, [])
  | .cleanupDevice i, s => s.reported i (s.driver.cleanupDeviceAndNotifyFailure i)
  | .notifyManager success device, s => (s.notifyManager success device, [])

/-- The stack answers otherwise from now on, and a loop over the table takes another order. -/
inductive Environment (s : BleCalls) : BleCalls → Prop
  | changed (gatt : Gatt) (table : UnorderedMap Int DeviceCtx)
      (h : s.driver.devices.Rehash table) :
      Environment s { s with driver := { s.driver with gatt := gatt, devices := table } }

/-- The driver with its callers and the Bluetooth stack. -/
def sections : Sections BleCalls BleTask where
  init := fun s => ∃ gatt, s = { driver := { gatt := gatt } }
  starts := fun t => t.external
  environment := Environment
  run := run

/-- The stack confirms the notification of a session once, and a failure is delivered only when no
success of its session is on the way. -/
def InOrder (s : BleCalls) (ts : Multiset BleTask) : BleTask → Prop
  | .onRegisterNotify i status =>
      status = 0 → ∀ d, s.driver.devices.lookup i = some d → d.deviceCallback.isSome →
        d.sessionId ∉ s.confirmed
  | .notifyManager false device =>
      ∀ t ∈ ts, t.report ≠ some (true, device.sessionId)
  | _ => True

end BleCalls

/-! ### What a section reports -/

namespace BleDriver

/-- A section reports nothing, or the failure of a context that it takes out. -/
inductive Withdraws (s : BleDriver) (i : Int) (r : Reported) : Prop
  | silent (evolves : s.Evolves r.driver) (report : r.report = none)
  | failed (d : DeviceCtx) (found : s.devices.lookup i = some d)
      (driver : r.driver = s.eraseContext i) (report : r.report = some (false, d))

theorem withdraws_dropContext (i : Int) (s : BleDriver) : s.Withdraws i (s.dropContext i) := by
  unfold dropContext
  cases h : s.devices.lookup i with
  | none => exact .silent (.refl s) rfl
  | some d => exact .failed d h rfl rfl

theorem withdraws_onConnectionState (i : Int) (connState : ConnState) (status : Int)
    (s : BleDriver) : s.Withdraws i (s.onConnectionState i connState status) := by
  have hevolves := evolves_onConnectionState i connState status s
  unfold onConnectionState at hevolves ⊢
  split
  · exact withdraws_dropContext i s
  · next hstays =>
      rw [if_neg hstays] at hevolves
      split
      · next hconnected =>
          rw [if_pos hconnected] at hevolves
          exact .silent hevolves rfl
      · exact .silent (.refl s) rfl

theorem withdraws_onServicesComplete (i : Int) (status : Int) (s : BleDriver) :
    s.Withdraws i (s.onServicesComplete i status) := by
  apply Withdraws.silent (evolves_onServicesComplete i status s)
  unfold onServicesComplete
  split
  · rfl
  · split
    · rfl
    · split <;> rfl

theorem onRegisterNotify_of_lookup {s : BleDriver} {i : Int} {d : DeviceCtx}
    (h : s.devices.lookup i = some d) :
    s.onRegisterNotify i 0 =
      { driver := s.insertContext i (s.onlineContext d)
        report := some (true, s.onlineContext d) } := by
  unfold onRegisterNotify
  rw [h]
  rfl

theorem report_onRegisterNotify {s : BleDriver} {i status : Int}
    (h : status = 0 → s.devices.lookup i = none) : (s.onRegisterNotify i status).report = none := by
  unfold onRegisterNotify
  split
  · rfl
  · next hd =>
      split
      · next hstatus =>
          rw [h hstatus] at hd
          contradiction
      · rfl

end BleDriver

namespace BleCalls

variable {s : BleCalls} {P : Multiset (Bool × Int × Nat)} {ts : Multiset BleTask}
  {session : Int × Nat} {i : Int} {d : DeviceCtx}

/-! ### Each session reports once -/

/-- The reports that are on the way. -/
def pending (ts : Multiset BleTask) : Multiset (Bool × Int × Nat) := ts.filterMap BleTask.report

/-- The reports made so far, of which `P` are on the way: none is made twice, a session that has
failed is not in the table, and each session was received in order. -/
structure Accounted (s : BleCalls) (P : Multiset (Bool × Int × Nat)) : Prop where
  keyed : s.driver.Keyed
  made : ((s.received : Multiset (Bool × Int × Nat)) + P).Nodup
  numbered : ∀ r ∈ (s.received : Multiset (Bool × Int × Nat)) + P, r.2.2 ≤ s.driver.sessions
  confirmed : ∀ k ∈ s.confirmed, k.2 ≤ s.driver.sessions
  succeeded : ∀ k, (true, k) ∈ (s.received : Multiset (Bool × Int × Nat)) + P → k ∈ s.confirmed
  alive : ∀ i d, s.driver.devices.lookup i = some d → d.deviceCallback.isSome →
    (false, d.sessionId) ∉ (s.received : Multiset (Bool × Int × Nat)) + P
  settled : ∀ k, (false, k) ∈ s.received → (true, k) ∉ P
  ordered : ∀ k, (s.reports k).Sublist [true, false]

theorem mem_reports {success : Bool} :
    success ∈ s.reports session ↔ (success, session) ∈ s.received := by
  unfold reports
  rw [List.mem_filterMap]
  constructor
  · rintro ⟨⟨b, k⟩, hmem, hk⟩
    dsimp only at hk
    split at hk
    · next heq => exact heq ▸ Option.some.inj hk ▸ hmem
    · contradiction
  · intro hmem
    exact ⟨(success, session), hmem, if_pos rfl⟩

/-- The table goes on and nothing is reported. -/
theorem Accounted.evolves (h : s.Accounted P) {driver : BleDriver}
    (hevolves : s.driver.Evolves driver) : Accounted { s with driver := driver } P where
  keyed := h.keyed.evolves hevolves
  made := h.made
  numbered := fun r hr => (h.numbered r hr).trans hevolves.sessions
  confirmed := fun k hk => (h.confirmed k hk).trans hevolves.sessions
  succeeded := h.succeeded
  alive := by
    intro i d hd hclaimed
    cases hevolves.descends i d hd with
    | same d₀ found session id address callback connected =>
        have hsession : d.sessionId = d₀.sessionId := Prod.ext id session
        rw [hsession]
        exact h.alive i d₀ found (callback ▸ hclaimed)
    | unclaimed session callback =>
        rw [callback] at hclaimed
        contradiction
    | opened later id callback => exact fun hmem => absurd (h.numbered _ hmem) (Nat.not_le.mpr later)
  settled := h.settled
  ordered := h.ordered

/-- A context is taken out and its failure goes on its way. -/
theorem Accounted.fails (h : s.Accounted P) (hd : s.driver.devices.lookup i = some d)
    (hclaimed : d.deviceCallback.isSome) :
    Accounted { s with driver := s.driver.eraseContext i } ((false, d.sessionId) ::ₘ P) := by
  have hnew := h.alive i d hd hclaimed
  have hgone := h.evolves (BleDriver.evolves_eraseContext s.driver i)
  constructor
  · exact hgone.keyed
  · rw [Multiset.add_cons]
    exact Multiset.nodup_cons.mpr ⟨hnew, h.made⟩
  · intro r hr
    rw [Multiset.add_cons, Multiset.mem_cons] at hr
    rcases hr with rfl | hr
    · exact (h.keyed i d hd).1
    · exact h.numbered r hr
  · exact h.confirmed
  · intro k hk
    rw [Multiset.add_cons, Multiset.mem_cons] at hk
    exact h.succeeded k (hk.resolve_left (by simp))
  · intro j e he hclaim hmem
    rw [Multiset.add_cons, Multiset.mem_cons] at hmem
    rcases hmem with heq | hmem
    · -- The other context would have the client id of the one that is gone.
      have he' := he
      change (s.driver.devices.erase i).lookup j = some e at he'
      rw [UnorderedMap.lookup_erase_eq] at he'
      split at he'
      · contradiction
      · next hne =>
          have hid : e.id = d.id := congrArg (fun r => r.2.1) heq
          have hj := ((h.keyed j e he').2 hclaim).1
          have hi := ((h.keyed i d hd).2 hclaimed).1
          exact hne (hj.symm.trans (hid.trans hi))
    · exact hgone.alive j e he hclaim hmem
  · intro k hk hmem
    rw [Multiset.mem_cons] at hmem
    exact h.settled k hk (hmem.resolve_left (by simp))
  · exact h.ordered

/-- The notification of a session is confirmed for the first time and its success goes on its
way. -/
theorem Accounted.succeeds (h : s.Accounted P) (hd : s.driver.devices.lookup i = some d)
    (hclaimed : d.deviceCallback.isSome) (hfirst : d.sessionId ∉ s.confirmed) {driver : BleDriver}
    (hevolves : s.driver.Evolves driver) :
    Accounted { s with driver := driver, confirmed := d.sessionId :: s.confirmed }
      ((true, d.sessionId) ::ₘ P) := by
  have hrest := h.evolves hevolves
  have hsession := ((h.keyed i d hd).1).trans hevolves.sessions
  constructor
  · exact hrest.keyed
  · rw [Multiset.add_cons]
    exact Multiset.nodup_cons.mpr ⟨fun hmem => hfirst (h.succeeded _ hmem), h.made⟩
  · intro r hr
    rw [Multiset.add_cons, Multiset.mem_cons] at hr
    rcases hr with rfl | hr
    · exact hsession
    · exact hrest.numbered r hr
  · intro k hk
    rcases List.mem_cons.mp hk with rfl | hk
    · exact hsession
    · exact hrest.confirmed k hk
  · intro k hk
    rw [Multiset.add_cons, Multiset.mem_cons] at hk
    rcases hk with heq | hk
    · exact List.mem_cons.mpr (Or.inl (congrArg Prod.snd heq))
    · exact List.mem_cons_of_mem _ (h.succeeded k hk)
  · intro j e he hclaim hmem
    rw [Multiset.add_cons, Multiset.mem_cons] at hmem
    exact hrest.alive j e he hclaim (hmem.resolve_left (by simp))
  · intro k hk hmem
    rcases Multiset.mem_cons.mp hmem with heq | hmem
    · have hfailed : (false, d.sessionId) ∈ (s.received : Multiset (Bool × Int × Nat)) + P := by
        have hk' : (false, d.sessionId) ∈ s.received := (Prod.mk.inj heq).2 ▸ hk
        exact Multiset.mem_add.mpr (Or.inl hk')
      exact h.alive i d hd hclaimed hfailed
    · exact h.settled k hk hmem
  · exact h.ordered

/-- A report is received. -/
theorem Accounted.receives {r : Bool × Int × Nat} (h : s.Accounted (r ::ₘ P))
    (horder : r.1 = false → (true, r.2) ∉ P) :
    Accounted { s with received := s.received ++ [r] } P := by
  have hmade : ((s.received ++ [r] : List (Bool × Int × Nat)) : Multiset (Bool × Int × Nat)) + P =
      (s.received : Multiset (Bool × Int × Nat)) + r ::ₘ P := by
    rw [← Multiset.coe_add, add_assoc]
    rfl
  have hmem : ∀ x ∈ s.received, x ∈ (s.received : Multiset (Bool × Int × Nat)) + P :=
    fun x hx => Multiset.mem_add.mpr (Or.inl hx)
  have hnew : r ∉ s.received := by
    intro hr
    have hnodup := h.made
    rw [Multiset.add_cons, Multiset.nodup_cons] at hnodup
    exact hnodup.1 (hmem r hr)
  constructor
  · exact h.keyed
  · rw [hmade]
    exact h.made
  · rw [hmade]
    exact h.numbered
  · exact h.confirmed
  · rw [hmade]
    exact h.succeeded
  · rw [hmade]
    exact h.alive
  · intro k hk
    rcases List.mem_append.mp hk with hk | hk
    · exact fun hpending => h.settled k hk (Multiset.mem_cons_of_mem hpending)
    · obtain rfl := List.mem_singleton.mp hk
      exact horder rfl
  · intro k
    have hreports : reports { s with received := s.received ++ [r] } k =
        s.reports k ++ if r.2 = k then [r.1] else [] := by
      unfold reports
      rw [List.filterMap_append]
      split
      · next heq => simp [heq]
      · next hne => simp [hne]
    rw [hreports]
    split
    · next heq =>
        subst heq
        obtain ⟨success, session⟩ := r
        cases success with
        | true =>
            -- Neither a success nor a failure of the session came before.
            have hnone : s.reports session = [] := by
              apply List.eq_nil_iff_forall_not_mem.mpr
              intro b hb
              have hb := mem_reports.mp hb
              cases b with
              | true => exact hnew hb
              | false => exact h.settled session hb (Multiset.mem_cons_self _ _)
            rw [hnone]
            exact List.singleton_sublist.mpr (by simp)
        | false =>
            have hfalse : false ∉ s.reports session := fun hb => hnew (mem_reports.mp hb)
            have hbefore : (s.reports session).Sublist [true] := by
              have hsub := (h.ordered session).filter (· = true)
              have hall : (s.reports session).filter (· = true) = s.reports session := by
                apply List.filter_eq_self.mpr
                intro b hb
                cases b with
                | true => rfl
                | false => contradiction
              rw [hall] at hsub
              exact hsub
            exact hbefore.append (List.Sublist.refl [false])
    · rw [List.append_nil]
      exact h.ordered k

/-- A section leaves a call of the callback to do for its report. -/
theorem pending_reported (r : Reported) (ts : Multiset BleTask) :
    pending (((s.reported i r).2 : Multiset BleTask) + ts) =
      ((r.report.bind fun x => (BleTask.notifyManager x.1 x.2).report).toList :
        Multiset (Bool × Int × Nat)) + pending ts := by
  have hcleanup : (if r.cleanup then [BleTask.cleanupDevice i] else []).filterMap BleTask.report =
      [] := by
    split <;> rfl
  have htasks : (s.reported i r).2.filterMap BleTask.report =
      (r.report.bind fun x => (BleTask.notifyManager x.1 x.2).report).toList := by
    unfold reported
    rw [List.filterMap_append, hcleanup, List.append_nil]
    cases r.report with
    | none => rfl
    | some x =>
        change [BleTask.notifyManager x.1 x.2].filterMap BleTask.report = _
        rw [List.filterMap_cons, Option.bind_some]
        cases (BleTask.notifyManager x.1 x.2).report with
        | none => rfl
        | some report => rfl
  unfold pending
  rw [Multiset.filterMap_add, Multiset.filterMap_coe, htasks]

theorem Accounted.reported (h : s.Accounted (pending ts)) {r : Reported}
    (hwithdraws : s.driver.Withdraws i r) :
    Accounted (s.reported i r).1 (pending (((s.reported i r).2 : Multiset BleTask) + ts)) := by
  rw [pending_reported]
  change Accounted { s with driver := r.driver } _
  cases hwithdraws with
  | silent evolves report =>
      rw [report, Option.bind_none, Option.toList_none, Multiset.coe_nil, Multiset.zero_add]
      exact h.evolves evolves
  | failed d found driver report =>
      rw [report, driver, Option.bind_some, BleTask.report]
      split
      · next hclaimed =>
          rw [Option.toList_some, Multiset.coe_singleton, Multiset.singleton_add]
          exact h.fails found hclaimed
      · rw [Option.toList_none, Multiset.coe_nil, Multiset.zero_add]
        exact h.evolves (BleDriver.evolves_eraseContext s.driver i)

theorem Accounted.onRegisterNotify {status : Int} (h : s.Accounted (pending ts))
    (hfirst : s.InOrder ts (.onRegisterNotify i status)) :
    Accounted (run (.onRegisterNotify i status) s).1
      (pending (((run (.onRegisterNotify i status) s).2 : Multiset BleTask) + ts)) := by
  have hevolves := BleDriver.evolves_onRegisterNotify i status s.driver
  unfold run
  dsimp only
  rw [pending_reported]
  by_cases hstatus : status = 0
  · subst hstatus
    rw [if_pos rfl]
    cases hd : s.driver.devices.lookup i with
    | none =>
        have hconfirm : s.confirm i = s := by
          unfold confirm
          rw [hd]
        have hreport := BleDriver.report_onRegisterNotify fun _ : (0 : Int) = 0 => hd
        rw [hconfirm, hreport, Option.bind_none, Option.toList_none, Multiset.coe_nil,
          Multiset.zero_add]
        exact h.evolves hevolves
    | some d =>
        have hreported := BleDriver.onRegisterNotify_of_lookup hd
        rw [hreported] at hevolves ⊢
        by_cases hclaimed : d.deviceCallback.isSome
        · have hconfirm : s.confirm i = { s with confirmed := d.sessionId :: s.confirmed } := by
            unfold confirm
            rw [hd]
            exact if_pos hclaimed
          have hreport : (BleTask.notifyManager true (s.driver.onlineContext d)).report =
              some (true, d.sessionId) := if_pos hclaimed
          rw [hconfirm, Option.bind_some, hreport, Option.toList_some, Multiset.coe_singleton,
            Multiset.singleton_add]
          exact h.succeeds hd hclaimed (hfirst rfl d hd hclaimed) hevolves
        · have hconfirm : s.confirm i = s := by
            unfold confirm
            rw [hd]
            exact if_neg hclaimed
          have hreport : (BleTask.notifyManager true (s.driver.onlineContext d)).report = none :=
            if_neg hclaimed
          rw [hconfirm, Option.bind_some, hreport, Option.toList_none, Multiset.coe_nil,
            Multiset.zero_add]
          exact h.evolves hevolves
  · rw [if_neg hstatus]
    have hreport : (s.driver.onRegisterNotify i status).report = none :=
      BleDriver.report_onRegisterNotify fun hzero => absurd hzero hstatus
    rw [hreport, Option.bind_none, Option.toList_none, Multiset.coe_nil, Multiset.zero_add]
    exact h.evolves hevolves

theorem pending_cons_of_none {t : BleTask} (h : t.report = none) :
    pending (t ::ₘ ts) = pending ts :=
  Multiset.filterMap_cons_none t ts h

theorem Accounted.notifyManager {success : Bool} {device : DeviceCtx}
    (h : s.Accounted (pending (.notifyManager success device ::ₘ ts)))
    (horder : s.InOrder ts (.notifyManager success device)) :
    Accounted (s.notifyManager success device) (pending ts) := by
  unfold BleCalls.notifyManager
  split
  · next hclaimed =>
      have hreport : (BleTask.notifyManager success device).report =
          some (success, device.sessionId) := if_pos hclaimed
      unfold pending at h
      rw [Multiset.filterMap_cons_some _ _ _ hreport] at h
      apply h.receives
      rintro rfl hmem
      obtain ⟨t, ht, hsuccess⟩ := (Multiset.mem_filterMap _ _).mp hmem
      exact horder t ht hsuccess
  · next hunclaimed =>
      have hreport : (BleTask.notifyManager success device).report = none := if_neg hunclaimed
      rw [pending_cons_of_none hreport] at h
      exact h

theorem Accounted.run {t : BleTask} (h : s.Accounted (pending (t ::ₘ ts)))
    (horder : s.InOrder ts t) :
    Accounted (run t s).1 (pending (((run t s).2 : Multiset BleTask) + ts)) := by
  have hnothing : (([] : List BleTask) : Multiset BleTask) + ts = ts := Multiset.zero_add ts
  cases t with
  | notifyManager success device =>
      change Accounted (s.notifyManager success device) (pending (([] : List BleTask) + ts))
      rw [hnothing]
      exact h.notifyManager horder
  | openDevice address =>
      change Accounted _ (pending (([] : List BleTask) + ts))
      rw [hnothing]
      rw [pending_cons_of_none rfl] at h
      exact h.evolves (BleDriver.evolves_openDevice address s.driver)
  | switchPort isOpen direction d p =>
      change Accounted _ (pending (([] : List BleTask) + ts))
      rw [hnothing]
      rw [pending_cons_of_none rfl] at h
      exact h.evolves (BleDriver.evolves_switchPort isOpen direction d p s.driver)
  | onRegisterNotify i status =>
      rw [pending_cons_of_none rfl] at h
      exact h.onRegisterNotify horder
  | closeDevice i =>
      rw [pending_cons_of_none rfl] at h
      exact h.reported (BleDriver.withdraws_dropContext i s.driver)
  | cleanupDevice i =>
      rw [pending_cons_of_none rfl] at h
      exact h.reported (BleDriver.withdraws_dropContext i s.driver)
  | onConnectionState i connState status =>
      rw [pending_cons_of_none rfl] at h
      exact h.reported (BleDriver.withdraws_onConnectionState i connState status s.driver)
  | onServicesComplete i status =>
      rw [pending_cons_of_none rfl] at h
      exact h.reported (BleDriver.withdraws_onServicesComplete i status s.driver)

theorem accounted_reached {c : Config BleCalls BleTask} (reach : sections.ReachedWith InOrder c) :
    c.shared.Accounted (pending c.outstanding) := by
  apply reach.invariant fun s ts => s.Accounted (pending ts)
  · rintro s ⟨gatt, rfl⟩
    constructor
    · exact fun i d hd => absurd hd (by simp)
    · exact Multiset.nodup_zero
    · exact fun r hr => absurd hr (Multiset.notMem_zero r)
    · exact fun k hk => absurd hk List.not_mem_nil
    · exact fun k hk => absurd hk (Multiset.notMem_zero _)
    · exact fun i d hd => absurd hd (by simp)
    · exact fun k hk => absurd hk List.not_mem_nil
    · exact fun k => List.nil_sublist _
  · intro s ts t hstarts h
    have hreport : t.report = none := by
      cases t with
      | notifyManager success device => contradiction
      | _ => rfl
    rw [pending_cons_of_none hreport]
    exact h
  · exact fun s ts t horder h => h.run horder
  · rintro s ts _ ⟨gatt, table, hrehash⟩ h
    apply h.evolves
    have hold : ∀ i d, table.lookup i = some d → s.driver.devices.lookup i = some d :=
      fun i d hd => (hrehash.lookup i).symm.trans hd
    exact ⟨Nat.le_refl _, fun hs i d hd => hs i d (hold i d hd),
      fun i d hd => .same d (hold i d hd) rfl rfl rfl rfl id⟩

/-- The manager receives at most one success of a session, and at most one failure after it. -/
theorem driver_reports_once {c : Config BleCalls BleTask}
    (reach : sections.ReachedWith InOrder c) (session : Int × Nat) :
    (c.shared.reports session).Sublist [true, false] :=
  (accounted_reached reach).ordered session

/-! ### Two runs -/

instance : DecidablePred sections.starts :=
  fun t => inferInstanceAs (Decidable (t.external = true))

/-- Before the first call. -/
def start : Config BleCalls BleTask where
  shared := { driver := {} }

/-- A device is opened and comes online. -/
def comesOnline : List (Turn BleCalls BleTask) :=
  [.start (.openDevice "00:11:22:33:44:55"), .run 0, .start (.onConnectionState 1 .connected 0),
    .run 1, .start (.onServicesComplete 1 0), .run 2, .start (.onRegisterNotify 1 0), .run 3,
    .run 3]

/-- Then it is closed. -/
def comesAndGoes : List (Turn BleCalls BleTask) :=
  comesOnline ++ [.start (.closeDevice 1), .run 4, .run 4]

/-- Its services are found a second time. -/
def foundTwice : List (Turn BleCalls BleTask) :=
  comesOnline ++ [.start (.onServicesComplete 1 0), .run 4, .start (.onRegisterNotify 1 0), .run 5,
    .run 5]

/-- A check that is enough for a run in order. -/
def inOrder (s : BleCalls) (ts : Multiset BleTask) : BleTask → Bool
  | .onRegisterNotify i _ =>
      (s.driver.devices.lookup i).all fun d => !s.confirmed.contains d.sessionId
  | .notifyManager false device => decide (∀ t ∈ ts, t.report ≠ some (true, device.sessionId))
  | _ => true

theorem inOrder_of_inOrder (s : BleCalls) (ts : Multiset BleTask) (t : BleTask)
    (h : s.inOrder ts t) : s.InOrder ts t := by
  cases t with
  | onRegisterNotify i status =>
      intro _ d hd _ hconfirmed
      change (s.driver.devices.lookup i).all (fun d => !s.confirmed.contains d.sessionId) = true at h
      rw [hd, Option.all_some, List.contains_iff_mem.mpr hconfirmed] at h
      contradiction
  | notifyManager success device =>
      cases success with
      | true => trivial
      | false =>
          have horder : ∀ t ∈ ts, t.report ≠ some (true, device.sessionId) := of_decide_eq_true h
          exact horder
  | _ => trivial

def goneDevice : Config BleCalls BleTask := sections.after start comesAndGoes

theorem driver_reports_once_goneDevice :
    goneDevice.shared.reports (1, 1) = [true, false] ∧
      (goneDevice.shared.reports (1, 1)).Sublist [true, false] := by
  have hreach : sections.ReachedWith InOrder goneDevice :=
    Sections.ReachedWith.after (.init ⟨⟨{}, rfl⟩, rfl⟩)
      (Sections.permits_of_follows inOrder_of_inOrder (by decide +kernel))
  exact ⟨by decide +kernel, driver_reports_once hreach (1, 1)⟩

/-- The stack confirms the notification again, and the manager receives a second success. -/
theorem driver_reports_twice :
    ¬∀ c, sections.Reached c → ∀ session : Int × Nat,
      (c.shared.reports session).Sublist [true, false] := by
  intro h
  have hreach : sections.Reached (sections.after start foundTwice) :=
    Sections.ReachedWith.after (.init ⟨⟨{}, rfl⟩, rfl⟩)
      (Sections.permits_of_schedules (fun _ _ _ _ => trivial)
        (by decide +kernel : sections.Schedules (fun _ _ => true) start foundTwice))
  have hsuccesses : (sections.after start foundTwice).shared.reports (1, 1) = [true, true] := by
    decide +kernel
  have honce := h _ hreach (1, 1)
  rw [hsuccesses] at honce
  exact absurd honce (by decide)

end BleCalls

end MidiFramework.Server
