import MidiFramework.Foundation.ChangeLog
import MidiFramework.Server.ListAgreement

/-!
# Notifications replay the device list

The list changes in one section and the change is announced in a later one. The
changes of the list are a log that leads to the ids in the list; the
notifications tell the same of every id when none of them overtakes an earlier
one of its id.
-/

namespace MidiFramework.Server

open Foundation

/-- The announcement that a task makes. -/
def Task.edit : Task → Option Edit
  | .notifyDeviceChange _ edit => some edit
  | _ => none

theorem edit_of_ofList {t : Task} (h : t.ofList = false ∨ t.reports) : t.edit = none := by
  cases t <;> first | rfl | (rcases h with h | h <;> contradiction)

/-- The announcements that are still to be made. -/
def waiting (ts : Multiset Task) : Multiset Edit := ts.filterMap Task.edit

@[simp] theorem waiting_add (ts ts' : Multiset Task) :
    waiting (ts + ts') = waiting ts + waiting ts' :=
  Multiset.filterMap_add _ _ _

theorem waiting_cons {t : Task} (ts : Multiset Task) (h : t.edit = none) :
    waiting (t ::ₘ ts) = waiting ts :=
  Multiset.filterMap_cons_none t ts h

theorem waiting_eq_zero {ts : List Task} (h : ∀ t ∈ ts, t.edit = none) :
    waiting (ts : Multiset Task) = 0 := by
  apply Multiset.eq_zero_of_forall_notMem
  intro e he
  obtain ⟨t, ht, hedit⟩ := (Multiset.mem_filterMap _ _).mp he
  rw [h t (Multiset.mem_coe.mp ht)] at hedit
  contradiction

/-- The edits as changes of a set of ids. -/
def deviceChanges : ChangeLog Edit DeviceId where
  key := Edit.deviceId
  adds := fun e => e.change == .add
  index := Edit.index

/-- The edits of a change of the list that has `n` edits before it. -/
def editsFrom (n : Nat) (changes : List (DeviceChangeType × DeviceInformation)) : List Edit :=
  (changes.zipIdx n).map fun x => ⟨x.2, x.1.2.id, x.1.1⟩

section

variable (n : Nat) (changes changes' : List (DeviceChangeType × DeviceInformation))

theorem editsFrom_append : editsFrom n (changes ++ changes') =
    editsFrom n changes ++ editsFrom (n + changes.length) changes' := by
  simp [editsFrom, List.zipIdx_append]

theorem editsFrom_index : (editsFrom n changes).map Edit.index = List.range' n changes.length := by
  rw [← List.zipIdx_map_snd n changes, editsFrom, List.map_map]
  rfl

theorem editsFrom_map (change : DeviceChangeType) (devices : List DeviceInformation) :
    (editsFrom n (devices.map fun e => (change, e))).map Edit.deviceId =
        devices.map DeviceInformation.id ∧
      ∀ e ∈ editsFrom n (devices.map fun e => (change, e)), e.change = change := by
  induction devices generalizing n with
  | nil => simp [editsFrom]
  | cons device devices ih => simpa [editsFrom] using ih (n + 1)

end

namespace Service

variable {s s' : Service} {ts : Multiset Task}

/-- The ids in the list. -/
def listedIds (s : Service) : List DeviceId := s.manager.devices.map DeviceInformation.id

/-- A notification is sent only when every earlier change of its id was announced. A refresh
installs each key once, and a key that is in the list under the id it has there. -/
def Ordered (s : Service) : Task → Prop
  | .notifyDeviceChange _ edit => ∀ e ∈ s.listing.edits, e.deviceId = edit.deviceId →
      e.index < edit.index → e ∈ s.listing.notified
  | .installDevices _ devices => (devices.map DeviceInformation.key).Nodup ∧
      ∀ e ∈ s.manager.devices, ∀ e' ∈ devices, e.key = e'.key → e.id = e'.id
  | _ => True

instance : DecidablePred s.Ordered := fun t =>
  match t with
  | .notifyDeviceChange _ edit => inferInstanceAs (Decidable (∀ e ∈ s.listing.edits,
      e.deviceId = edit.deviceId → e.index < edit.index → e ∈ s.listing.notified))
  | .installDevices _ devices => inferInstanceAs (Decidable (
      (devices.map DeviceInformation.key).Nodup ∧
        ∀ e ∈ s.manager.devices, ∀ e' ∈ devices, e.key = e'.key → e.id = e'.id))
  | .createMidiInServer .. | .getDevices .. | .openDevice .. | .closeDevice .. | .openBleDevice ..
  | .openPort .. | .closePort .. | .destroyMidiClient .. | .finishDestroyMidiClient
  | .managerCloseDevice .. | .driverCloseDevice .. | .notifyDeviceOpened .. | .deliver ..
  | .updateDevices | .takeSnapshot .. | .assignIds .. | .eraseDriverIds .. | .handleBleConnect ..
  | .listBleDevice .. | .handleBleDisconnect .. | .unlistBleDevice .. | .handleBleOpenComplete ..
  | .onConnectionState .. | .onServicesComplete .. | .onRegisterNotify .. | .cleanupDevice .. =>
      isTrue trivial

/-- The invariant: the edits lead to the ids in the list, and the notifications sent and those
that are still to be sent are the edits. -/
structure Announced (s : Service) (ts : Multiset Task) : Prop where
  distinct : s.listedIds.Nodup
  indexed : ∀ e ∈ s.listing.edits, e.index < s.listing.edits.length
  listed : deviceChanges.LeadsTo s.listing.edits s.listedIds.toFinset
  sent : deviceChanges.SentInOrder s.listing.edits s.listing.notified (waiting ts)

/-- A task that makes no announcement and leaves the list alone. -/
theorem Announced.keep {t : Task} {result : Service × List Task} (h : s.Announced (t ::ₘ ts))
    (ht : t.edit = none) (hdevices : result.1.manager.devices = s.manager.devices)
    (hedits : result.1.listing.edits = s.listing.edits)
    (hnotified : result.1.listing.notified = s.listing.notified)
    (htasks : ∀ t ∈ result.2, t.edit = none) :
    result.1.Announced ((result.2 : Multiset Task) + ts) := by
  have hids : result.1.listedIds = s.listedIds := by rw [listedIds, hdevices, listedIds]
  have hwaiting : waiting ((result.2 : Multiset Task) + ts) = waiting (t ::ₘ ts) := by
    rw [waiting_add, waiting_eq_zero htasks, zero_add, waiting_cons ts ht]
  constructor
  · exact hids ▸ h.distinct
  · exact hedits ▸ h.indexed
  · rw [hids, hedits]
    exact h.listed
  · rw [hwaiting, hedits, hnotified]
    exact h.sent

/-- A task that changes the list and leaves its changes to announce. -/
theorem Announced.announce {t : Task} {result : Service × List Task} (h : s.Announced (t ::ₘ ts))
    (ht : t.edit = none) (added removed : List DeviceInformation)
    (hedits : result.1.listing.edits = s.listing.edits ++ editsFrom s.listing.edits.length
      (added.map (fun e => (.add, e)) ++ removed.map fun e => (.removed, e)))
    (hnotified : result.1.listing.notified = s.listing.notified)
    (htasks : waiting (result.2 : Multiset Task) = editsFrom s.listing.edits.length
      (added.map (fun e => (.add, e)) ++ removed.map fun e => (.removed, e)))
    (hdistinct : result.1.listedIds.Nodup)
    (haddedNodup : (added.map DeviceInformation.id).Nodup)
    (hremovedNodup : (removed.map DeviceInformation.id).Nodup)
    (hadded : ∀ d, d ∈ added.map DeviceInformation.id ↔ d ∈ result.1.listedIds ∧ d ∉ s.listedIds)
    (hremoved : ∀ d, d ∈ removed.map DeviceInformation.id ↔
      d ∈ s.listedIds ∧ d ∉ result.1.listedIds) :
    result.1.Announced ((result.2 : Multiset Task) + ts) := by
  have hindices := editsFrom_index s.listing.edits.length
    (added.map (fun e => (DeviceChangeType.add, e)) ++
      removed.map fun e => (DeviceChangeType.removed, e))
  have hbounds : ∀ e ∈ editsFrom s.listing.edits.length
      (added.map (fun e => (DeviceChangeType.add, e)) ++
        removed.map fun e => (DeviceChangeType.removed, e)),
      s.listing.edits.length ≤ e.index ∧ e.index < result.1.listing.edits.length := by
    intro e he
    have hmem : e.index ∈ List.range' s.listing.edits.length _ :=
      hindices ▸ List.mem_map_of_mem he
    rw [List.mem_range'_1] at hmem
    have hlength := congrArg List.length hindices
    rw [List.length_map, List.length_range'] at hlength
    rw [hedits, List.length_append, hlength]
    exact hmem
  constructor
  · exact hdistinct
  · intro e he
    rw [hedits] at he
    rcases List.mem_append.mp he with he | he
    · apply (h.indexed e he).trans_le
      rw [hedits, List.length_append]
      exact Nat.le_add_right _ _
    · exact (hbounds e he).2
  · rw [hedits, editsFrom_append]
    obtain ⟨haddedIds, haddedChange⟩ := editsFrom_map s.listing.edits.length .add added
    obtain ⟨hremovedIds, hremovedChange⟩ := editsFrom_map
      (s.listing.edits.length + (added.map fun e => (DeviceChangeType.add, e)).length) .removed
      removed
    apply h.listed.append
    · exact fun e he => by simp [deviceChanges, haddedChange e he]
    · exact fun e he => by simp [deviceChanges, hremovedChange e he]
    · exact (congrArg List.Nodup haddedIds).mpr haddedNodup
    · exact (congrArg List.Nodup hremovedIds).mpr hremovedNodup
    · intro d
      rw [List.mem_toFinset, List.mem_toFinset, ← hadded d, ← haddedIds]
      rfl
    · intro d
      rw [List.mem_toFinset, List.mem_toFinset, ← hremoved d, ← hremovedIds]
      rfl
  · rw [waiting_add, htasks, hedits, hnotified]
    rw [← waiting_cons ts ht]
    apply h.sent.append
    · apply List.pairwise_map.mp
      exact hindices ▸ List.pairwise_lt_range'
    · intro a ha b hb
      exact (h.indexed a ha).trans_le (hbounds b hb).1

/-- The announcements that a change of the list leaves to make. -/
theorem waiting_announce (changes : List (DeviceChangeType × DeviceInformation)) (s : Service) :
    waiting ((s.announce changes).2 : Multiset Task) =
      editsFrom s.listing.edits.length changes := by
  change (((((changes.zipIdx s.listing.edits.length).map fun x =>
    (x.1.2, (⟨x.2, x.1.2.id, x.1.1⟩ : Edit))).map fun x =>
      Task.notifyDeviceChange x.1 x.2).filterMap Task.edit : List Edit) : Multiset Edit) = _
  rw [List.map_map, List.filterMap_map]
  apply congrArg
  exact congrFun List.filterMap_eq_map _

theorem edits_announce (changes : List (DeviceChangeType × DeviceInformation)) (s : Service) :
    (s.announce changes).1.listing.edits =
      s.listing.edits ++ editsFrom s.listing.edits.length changes := by
  change s.listing.edits ++ _ = _
  rw [List.map_map]
  rfl

theorem mem_without {devices others : List DeviceInformation} {e : DeviceInformation} :
    e ∈ MidiDeviceManager.without devices others ↔
      e ∈ devices ∧ ∀ o ∈ others, o.key ≠ e.key := by
  simp [MidiDeviceManager.without]

/-- The ids of the devices that are only in one of two lists, where ids and keys agree. -/
theorem mem_without_ids {owner : DeviceId → DriverKey} {next : DeviceId}
    {devices others : List DeviceInformation} (hdevices : ∀ e ∈ devices, Named owner next e)
    (hothers : ∀ e ∈ others, Named owner next e)
    (hagree : ∀ e ∈ devices, ∀ o ∈ others, e.key = o.key → e.id = o.id) (d : DeviceId) :
    d ∈ (MidiDeviceManager.without devices others).map DeviceInformation.id ↔
      d ∈ devices.map DeviceInformation.id ∧ d ∉ others.map DeviceInformation.id := by
  constructor
  · intro h
    obtain ⟨e, he, rfl⟩ := List.mem_map.mp h
    obtain ⟨hmem, hnone⟩ := mem_without.mp he
    refine ⟨List.mem_map_of_mem hmem, ?_⟩
    intro hother
    obtain ⟨o, ho, hid⟩ := List.mem_map.mp hother
    exact hnone o ho ((hothers o ho).key_eq (hdevices e hmem) hid)
  · rintro ⟨h, hnone⟩
    obtain ⟨e, he, rfl⟩ := List.mem_map.mp h
    apply List.mem_map_of_mem
    apply mem_without.mpr
    refine ⟨he, ?_⟩
    intro o ho hkey
    apply hnone
    rw [hagree e he o ho hkey.symm]
    exact List.mem_map_of_mem ho

theorem Announced.installDevices {owner : DeviceId → DriverKey} {snapshot : Snapshot}
    {devices : List DeviceInformation}
    (h : s.Announced (.installDevices snapshot devices ::ₘ ts))
    (hnamed : s.NamedBy owner (.installDevices snapshot devices ::ₘ ts))
    (hok : s.Ordered (.installDevices snapshot devices)) :
    (s.installDevices snapshot devices).1.Announced
      (((s.installDevices snapshot devices).2 : Multiset Task) + ts) := by
  obtain ⟨hkeys, hagree⟩ := hok
  have hnew : ∀ e ∈ devices, Named owner s.manager.nextDeviceId e :=
    hnamed.tasks _ (Multiset.mem_cons_self _ _)
  have hdistinct : (devices.map DeviceInformation.id).Nodup := by
    apply List.Nodup.of_map owner
    have hsame : (devices.map DeviceInformation.id).map owner =
        devices.map DeviceInformation.key := by
      rw [List.map_map]
      exact List.map_congr_left fun e he => (hnew e he).owns.key
    exact hsame ▸ hkeys
  apply h.announce rfl (MidiDeviceManager.without devices s.manager.devices)
    (MidiDeviceManager.without s.manager.devices devices)
  · exact edits_announce _ _
  · rfl
  · rw [Service.installDevices, ← Multiset.coe_add, waiting_add, waiting_announce,
      waiting_eq_zero, zero_add]
    · rfl
    · intro t ht
      split at ht
      · contradiction
      · rw [List.mem_singleton.mp ht]
        rfl
  · exact hdistinct
  · exact hdistinct.sublist (List.filter_sublist.map _)
  · exact h.distinct.sublist (List.filter_sublist.map _)
  · exact mem_without_ids hnew hnamed.devices fun e he o ho hkey =>
      (hagree o ho e he hkey.symm).symm
  · exact mem_without_ids hnamed.devices hnew hagree

theorem Announced.listBleDevice {report : Report} {d : DeviceId}
    (h : s.Announced (.listBleDevice report d ::ₘ ts)) :
    (s.listBleDevice report d).1.Announced
      (((s.listBleDevice report d).2 : Multiset Task) + ts) := by
  rcases listBleDevice_cases report d s with ⟨found, _, heq⟩ | ⟨hnone, heq⟩
  · rw [heq]
    apply h.keep rfl rfl rfl rfl
    intro t ht
    rw [List.mem_singleton.mp ht]
    rfl
  · have hnot : d ∉ s.listedIds := by
      intro hmem
      obtain ⟨e, he, hid⟩ := List.mem_map.mp hmem
      exact List.find?_eq_none.mp hnone e he (by simpa using hid)
    have hids : (s.manager.devices ++ [report.device.information.withId d]).map
        DeviceInformation.id = s.listedIds ++ [d] := by
      rw [List.map_append]
      rfl
    rw [heq]
    apply h.announce rfl [report.device.information.withId d] []
    · exact edits_announce _ _
    · rfl
    · rfl
    · change ((s.manager.devices ++ _).map DeviceInformation.id).Nodup
      rw [hids]
      exact List.nodup_append_comm.mp (List.nodup_cons.mpr ⟨hnot, h.distinct⟩)
    · exact List.nodup_singleton _
    · exact List.nodup_nil
    · intro d'
      change d' ∈ [d] ↔ d' ∈ (s.manager.devices ++ _).map DeviceInformation.id ∧ _
      rw [hids, List.mem_append, List.mem_singleton]
      constructor
      · rintro rfl
        exact ⟨Or.inr rfl, hnot⟩
      · exact fun h => h.1.resolve_left h.2
    · intro d'
      change d' ∈ [] ↔ _ ∧ d' ∉ (s.manager.devices ++ _).map DeviceInformation.id
      rw [hids, List.mem_append]
      constructor
      · exact fun h => absurd h List.not_mem_nil
      · exact fun h => absurd (Or.inl h.1) h.2

theorem Announced.unlistBleDevice {report : Report} {d : DeviceId}
    (h : s.Announced (.unlistBleDevice report d ::ₘ ts)) :
    (s.unlistBleDevice report d).1.Announced
      (((s.unlistBleDevice report d).2 : Multiset Task) + ts) := by
  rcases unlistBleDevice_cases report d s with ⟨_, heq⟩ | ⟨found, hfound, heq⟩
  · rw [heq]
    apply h.keep rfl rfl rfl rfl
    intro t ht
    rw [List.mem_singleton.mp ht]
    rfl
  · obtain ⟨before, after, hsplit, herase⟩ := eraseP_of_find? hfound
    have hids : s.listedIds =
        before.map DeviceInformation.id ++ found.id :: after.map DeviceInformation.id := by
      rw [listedIds, hsplit, List.map_append, List.map_cons]
    have hdistinct := h.distinct
    rw [hids, List.nodup_middle] at hdistinct
    obtain ⟨hnot, hrest⟩ := List.nodup_cons.mp hdistinct
    have hleft : (s.manager.devices.eraseP fun e => e.id == d).map DeviceInformation.id =
        before.map DeviceInformation.id ++ after.map DeviceInformation.id := by
      rw [herase, List.map_append]
    rw [heq]
    apply h.announce rfl [] [found]
    · exact edits_announce _ _
    · rfl
    · rfl
    · exact (congrArg List.Nodup hleft).mpr hrest
    · exact List.nodup_nil
    · exact List.nodup_singleton _
    · intro d'
      change d' ∈ [] ↔ d' ∈ (s.manager.devices.eraseP _).map DeviceInformation.id ∧ _
      rw [hleft, hids]
      constructor
      · exact fun h => absurd h List.not_mem_nil
      · rintro ⟨hin, hout⟩
        simp only [List.mem_append, List.mem_cons] at hin hout
        exact absurd (hin.imp_right Or.inr) hout
    · intro d'
      change d' ∈ [found.id] ↔ _ ∧ d' ∉ (s.manager.devices.eraseP _).map DeviceInformation.id
      rw [hleft, hids, List.mem_singleton]
      constructor
      · rintro rfl
        exact ⟨by simp, hnot⟩
      · rintro ⟨hin, hout⟩
        simp only [List.mem_append, List.mem_cons] at hin hout
        rcases hin with hin | hin | hin
        · exact absurd (Or.inl hin) hout
        · exact hin
        · exact absurd (Or.inr hin) hout

theorem Announced.notifyDeviceChange {device : DeviceInformation} {edit : Edit}
    (h : s.Announced (.notifyDeviceChange device edit ::ₘ ts))
    (hok : s.Ordered (.notifyDeviceChange device edit)) :
    (s.notifyDeviceChange device edit).1.Announced
      (((s.notifyDeviceChange device edit).2 : Multiset Task) + ts) := by
  have hmanager : (s.notifyDeviceChange device edit).1.manager = s.manager :=
    MidiServiceController.deviceManager_notifyDeviceChange _ _ _
  have hids : (s.notifyDeviceChange device edit).1.listedIds = s.listedIds := by
    rw [listedIds, hmanager, listedIds]
  have hdelivers : waiting ((s.notifyDeviceChange device edit).2 : Multiset Task) = 0 := by
    apply waiting_eq_zero
    intro t ht
    obtain ⟨e, _, rfl⟩ := List.mem_map.mp ht
    rfl
  have hwaiting : waiting (.notifyDeviceChange device edit ::ₘ ts) = edit ::ₘ waiting ts :=
    Multiset.filterMap_cons_some _ _ _ rfl
  constructor
  · exact hids ▸ h.distinct
  · exact h.indexed
  · exact hids ▸ h.listed
  · rw [waiting_add, hdelivers, zero_add]
    apply ChangeLog.SentInOrder.send (hwaiting ▸ h.sent)
    exact hok

/-- The section of every task of an ordered run keeps the invariant. -/
theorem Announced.run {owner : DeviceId → DriverKey} {t : Task} (h : s.Announced (t ::ₘ ts))
    (hnamed : s.NamedBy owner (t ::ₘ ts)) (hok : s.Ordered t) :
    (s.run t).1.Announced (((s.run t).2 : Multiset Task) + ts) := by
  by_cases hlist : t.ofList = false
  · have hleaves := leavesList_run hlist s
    apply h.keep (edit_of_ofList (Or.inl hlist)) hleaves.manager.devices
      (congrArg ListHistory.edits hleaves.listing) (congrArg ListHistory.notified hleaves.listing)
    exact fun t ht => edit_of_ofList (hleaves.tasks t ht)
  · cases t with
    | notifyDeviceChange device edit => exact h.notifyDeviceChange hok
    | installDevices snapshot devices => exact h.installDevices hnamed hok
    | listBleDevice report d => exact h.listBleDevice
    | unlistBleDevice report d => exact h.unlistBleDevice
    | deliver c server change info =>
        have hlisting := listing_deliver c server change info s
        have hresult : s.run (.deliver c server change info) =
            (s.deliver c server change info, []) := rfl
        rw [hresult]
        apply h.keep rfl (congrArg _ (manager_deliver c server change info s))
          (congrArg ListHistory.edits hlisting) (congrArg ListHistory.notified hlisting)
        exact fun t ht => absurd ht List.not_mem_nil
    | updateDevices =>
        apply h.keep rfl rfl rfl rfl
        exact fun t ht => List.mem_singleton.mp ht ▸ rfl
    | takeSnapshot refresh =>
        apply h.keep rfl rfl rfl rfl
        exact fun t ht => List.mem_singleton.mp ht ▸ rfl
    | assignIds snapshot rest named =>
        cases rest with
        | nil =>
            apply h.keep rfl rfl rfl rfl
            exact fun t ht => List.mem_singleton.mp ht ▸ rfl
        | cons e rest =>
            apply h.keep rfl
            · exact (MidiDeviceManager.getOrCreateDeviceId_fst e.key s.manager).1
            · rfl
            · rfl
            · exact fun t ht => List.mem_singleton.mp ht ▸ rfl
    | eraseDriverIds keys =>
        apply h.keep rfl rfl rfl rfl
        exact fun t ht => absurd ht List.not_mem_nil
    | handleBleConnect report =>
        apply h.keep rfl
        · exact (MidiDeviceManager.getOrCreateDeviceId_fst _ s.manager).1
        · rfl
        · rfl
        · exact fun t ht => List.mem_singleton.mp ht ▸ rfl
    | handleBleDisconnect report =>
        apply h.keep rfl
        · exact (MidiDeviceManager.takeDeviceId_snd _ s.manager).1
        · rfl
        · rfl
        · exact fun t ht => List.mem_singleton.mp ht ▸ rfl
    | _ => exact absurd rfl hlist

theorem announced_initial (h : sections.init s) : s.Announced 0 := by
  obtain ⟨usbFirst, hdi, gatt, granted, rfl⟩ := h
  constructor
  · exact List.nodup_nil
  · exact fun e he => absurd he List.not_mem_nil
  · exact fun d => rfl
  · exact ChangeLog.sentInOrder_nil

theorem announced_reached {c : Config Service Task}
    (reach : sections.ReachedWith (fun s _ t => s.Ordered t) c) :
    c.shared.Announced c.outstanding := by
  apply reach.invariant_using (fun s ts => ∃ owner, s.NamedBy owner ts) fun s ts => s.Announced ts
  · exact fun c reach => namedBy_reached reach
  · exact fun s h => announced_initial h
  · intro s ts t hexternal h
    have hnone : t.edit = none := by cases t <;> first | rfl | contradiction
    exact ⟨h.distinct, h.indexed, h.listed, (waiting_cons ts hnone).symm ▸ h.sent⟩
  · rintro s ts t ⟨owner, hnamed⟩ hok h
    exact h.run hnamed hok
  · intro s ts s' henvironment h
    obtain ⟨hdevices, _, _, _, hlisting, _⟩ := leavesList_environment henvironment
    have hids : s'.listedIds = s.listedIds := by rw [listedIds, hdevices, listedIds]
    constructor
    · exact hids ▸ h.distinct
    · exact hlisting ▸ h.indexed
    · exact hids ▸ hlisting ▸ h.listed
    · exact hlisting ▸ h.sent

/-- In an ordered run the notifications replay to the ids in the list whenever none of them is
still to be sent, and of every id additions and removals take turns. -/
theorem notifications_replay {c : Config Service Task}
    (reach : sections.ReachedWith (fun s _ t => s.Ordered t) c)
    (hidle : ∀ t ∈ c.outstanding, t.edit = none) :
    deviceChanges.replay c.shared.listing.notified = c.shared.listedIds.toFinset ∧
      c.shared.listedIds.Nodup ∧
      ∀ d, TakeTurns true (deviceChanges.changes c.shared.listing.notified d) := by
  have h := announced_reached reach
  have hwaiting : waiting c.outstanding = 0 := by
    apply Multiset.eq_zero_of_forall_notMem
    intro e he
    obtain ⟨t, ht, hedit⟩ := (Multiset.mem_filterMap _ _).mp he
    rw [hidle t ht] at hedit
    contradiction
  have hsent := ChangeLog.SentInOrder.leadsTo (hwaiting ▸ h.sent) h.listed
  exact ⟨hsent.replay, h.distinct, hsent.takeTurns⟩

/-! ### A device that comes, goes and comes again, and one whose client is gone -/

/-- A Bluetooth device is opened, drops its connection and is opened again. -/
def reopened : List (Turn Service Task) :=
  bleRequest ++ bleOpening 2 ++ .start (.onConnectionState 1 .disconnected 0) ::
    List.replicate 5 (.run 5) ++ [.start (.openBleDevice 1 1 "11:22:33:44:55:66"), .run 6] ++
    bleOpening 7

def reopenedService : Config Service Task :=
  sections.after (start pluggedIn {} fun _ => true) reopened

theorem notifications_replay_reopened :
    deviceChanges.replay reopenedService.shared.listing.notified =
        reopenedService.shared.listedIds.toFinset ∧
      reopenedService.shared.listedIds.Nodup ∧
      ∀ d, TakeTurns true (deviceChanges.changes reopenedService.shared.listing.notified d) := by
  have hcheck : ∀ (s : Service) (_ : Multiset Task) (t : Task), decide (s.Ordered t) →
      s.Ordered t := fun s _ t h => of_decide_eq_true h
  have reach : sections.ReachedWith (fun s _ t => s.Ordered t) reopenedService :=
    reachedWith_after hcheck (by decide +kernel)
  exact notifications_replay reach (by decide +kernel)

/-- The client that asked for the device is destroyed before the device is connected, so the
device is closed from inside the handling of its success. -/
def abandoned : List (Turn Service Task) :=
  bleRequest ++ [.start (.destroyMidiClient 1), .run 2, .run 2] ++ bleOpening 3 ++
    List.replicate 3 (.run 5)

def abandonedService : Config Service Task :=
  sections.after (start {} {} fun _ => true) abandoned

/-- The removal is announced before the addition that it takes back. -/
theorem notifications_not_replayed : ∃ c : Config Service Task, sections.Reached c ∧ c.Quiet ∧
    deviceChanges.replay c.shared.listing.notified ≠ c.shared.listedIds.toFinset := by
  have hquiet : abandonedService.threads.flatten.isEmpty := by decide +kernel
  have hids : abandonedService.shared.listedIds = [] := by decide +kernel
  have hnotified : abandonedService.shared.listing.notified =
      [⟨1, 1001, .removed⟩, ⟨0, 1001, .add⟩] := by decide +kernel
  refine ⟨abandonedService, reached_after (by decide +kernel), Config.quiet_of_isEmpty hquiet, ?_⟩
  rw [hids, hnotified]
  decide

end Service

end MidiFramework.Server
