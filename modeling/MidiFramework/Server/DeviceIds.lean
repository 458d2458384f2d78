import MidiFramework.Server.Service

/-!
# Device ids name driver keys

Most tasks leave the device list, the id map and their history alone. The ids
that the others hand out are new each time, so an id belongs to one driver key
for good: the entries of the list, of the map, of the notifications and of
every refresh that is under way agree on the key of an id.
-/

namespace MidiFramework.Server

open Foundation

/-- The tasks that carry devices of the list or work on it. -/
def Task.ofList : Task → Bool
  | .notifyDeviceChange .. | .deliver .. | .updateDevices | .takeSnapshot .. | .assignIds ..
  | .installDevices .. | .eraseDriverIds .. | .handleBleConnect .. | .listBleDevice ..
  | .handleBleDisconnect .. | .unlistBleDevice .. => true
  | _ => false

/-- A handler of a report before it has looked at the list. -/
def Task.reports : Task → Bool
  | .handleBleConnect .. | .handleBleDisconnect .. => true
  | _ => false

namespace MidiDeviceManager

theorem calling_serves : api.Calling Serves where
  refl := Serves.refl
  trans := Serves.trans
  openDevice := serves_openDevice
  openBleDevice := serves_openBleDevice
  openPort := serves_openPort
  closePort := serves_closePort

end MidiDeviceManager

namespace Service

variable {s s' : Service}

/-- What a task that does not work on the list leaves of the list, its history and the
notifications. -/
structure LeavesList (s : Service) (result : Service × List Task) : Prop where
  manager : s.manager.Serves result.1.manager
  listing : result.1.listing = s.listing
  deliveries : result.1.deliveries = s.deliveries
  tasks : ∀ t ∈ result.2, t.ofList = false ∨ t.reports

@[simp] theorem manager_updateBluetoothPermission (token : TokenId) (c : ClientId) (s : Service) :
    (s.updateBluetoothPermission token c).manager = s.manager := by
  unfold updateBluetoothPermission
  split <;> rfl

@[simp] theorem listing_updateBluetoothPermission (token : TokenId) (c : ClientId) (s : Service) :
    (s.updateBluetoothPermission token c).listing = s.listing := by
  unfold updateBluetoothPermission
  split <;> rfl

@[simp] theorem deliveries_updateBluetoothPermission (token : TokenId) (c : ClientId)
    (s : Service) : (s.updateBluetoothPermission token c).deliveries = s.deliveries := by
  unfold updateBluetoothPermission
  split <;> rfl

@[simp] theorem manager_deliver (c : ClientId) (server : MidiInServer) (change : DeviceChangeType)
    (info : MidiDeviceInfo) (s : Service) : (s.deliver c server change info).manager = s.manager := by
  unfold deliver
  dsimp only
  split <;> exact manager_updateBluetoothPermission _ c s

@[simp] theorem listing_deliver (c : ClientId) (server : MidiInServer) (change : DeviceChangeType)
    (info : MidiDeviceInfo) (s : Service) : (s.deliver c server change info).listing = s.listing := by
  unfold deliver
  dsimp only
  split <;> exact listing_updateBluetoothPermission _ c s

theorem leavesList_of_serves {c : MidiServiceController MidiDeviceManager}
    (h : s.manager.Serves c.deviceManager) (requests : RequestHistory) {tasks : List Task}
    (htasks : ∀ t ∈ tasks, t.ofList = false) :
    s.LeavesList ({ s with controller := c, requests := requests }, tasks) :=
  ⟨h, rfl, rfl, fun t ht => Or.inl (htasks t ht)⟩

theorem leavesList_bleSection (i : Int) {reported : Reported}
    (h : s.manager.ble.Evolves reported.driver) : s.LeavesList (s.bleSection i reported) := by
  have hserves := MidiDeviceManager.serves_ble h
  have hcleanup : ∀ t ∈ (if reported.cleanup then [Task.cleanupDevice i] else []),
      t.ofList = false := by
    split <;> simp [Task.ofList]
  unfold bleSection notifyManager
  split
  · exact ⟨hserves, rfl, rfl, fun t ht => Or.inl (hcleanup t (by simpa using ht))⟩
  · split
    · exact ⟨hserves, rfl, rfl, fun t ht => Or.inl (hcleanup t (by simpa using ht))⟩
    · refine ⟨hserves, rfl, rfl, ?_⟩
      intro t ht
      rcases List.mem_append.mp ht with ht | ht
      · right
        rw [List.mem_singleton.mp ht]
        split <;> rfl
      · exact Or.inl (hcleanup t ht)

/-- A task that does not work on the list leaves it alone. -/
theorem leavesList_run {t : Task} (h : t.ofList = false) (s : Service) :
    s.LeavesList (s.run t) := by
  have hcalls := fun op => MidiServiceController.calling_run
    (s := s.controller) MidiDeviceManager.calling_serves op
  have hclose : ∀ ds : List DeviceId, ∀ t ∈ ds.map Task.managerCloseDevice, t.ofList = false := by
    intro ds t ht
    obtain ⟨d, _, rfl⟩ := List.mem_map.mp ht
    rfl
  have hanswer : ∀ (report : Option Nat) (answers : List DeviceOpened),
      ∀ t ∈ answers.map (Task.notifyDeviceOpened report), t.ofList = false := by
    intro report answers t ht
    obtain ⟨answer, _, rfl⟩ := List.mem_map.mp ht
    rfl
  cases t with
  | createMidiInServer uid object token added =>
      apply leavesList_of_serves _ _ (by simp)
      rw [MidiServiceController.deviceManager_createMidiInServer]
      exact .refl _
  | getDevices token c =>
      apply LeavesList.mk _ (listing_updateBluetoothPermission token c s)
        (deliveries_updateBluetoothPermission token c s) (by simp [run])
      change s.manager.Serves (s.updateBluetoothPermission token c).manager
      rw [manager_updateBluetoothPermission]
      exact .refl _
  | openDevice token c d =>
      exact leavesList_of_serves (hcalls (.openDevice (s.granted token) c d)) _ (by simp)
  | closeDevice c d => exact leavesList_of_serves (hcalls (.closeDevice c d)) _ (hclose _)
  | openBleDevice token c address =>
      have hpermission : s.LeavesList (s.updateBluetoothPermission token c, []) := by
        apply LeavesList.mk _ (listing_updateBluetoothPermission token c s)
          (deliveries_updateBluetoothPermission token c s) (by simp)
        change s.manager.Serves (s.updateBluetoothPermission token c).manager
        rw [manager_updateBluetoothPermission]
        exact .refl _
      change s.LeavesList (s.openBleDevice token c address)
      unfold openBleDevice
      dsimp only
      split
      · exact hpermission
      · have hopen := MidiServiceController.calling_openBleDevice
          MidiDeviceManager.calling_serves c address
          (s.updateBluetoothPermission token c).requests.calls
          (s.updateBluetoothPermission token c).controller
        exact ⟨hpermission.manager.trans hopen, hpermission.listing, hpermission.deliveries,
          fun t ht => Or.inl (hanswer none _ t ht)⟩
  | openPort direction env token c d p =>
      have hopen : s.manager.Serves
          (s.openPort direction env token c d p).state.deviceManager := by
        cases direction with
        | input => exact hcalls (.openInputPort env (s.granted token) c d p)
        | output => exact hcalls (.openOutputPort env (s.granted token) c d p)
      exact leavesList_of_serves hopen _ (by simp)
  | closePort direction c d p =>
      have hclosed := MidiServiceController.closing_closePort
        MidiDeviceManager.calling_serves.toClosing direction c d p s.controller
      exact leavesList_of_serves hclosed _ (by simp)
  | destroyMidiClient c =>
      change s.LeavesList (s.destroyMidiClient c)
      unfold destroyMidiClient
      split
      · exact ⟨.refl _, rfl, rfl, by simp⟩
      · apply leavesList_of_serves (hcalls (.destroyMidiClient c))
        intro t ht
        rcases List.mem_append.mp ht with ht | ht
        · exact hclose _ t ht
        · rw [List.mem_singleton.mp ht]
          rfl
  | finishDestroyMidiClient =>
      exact leavesList_of_serves (hcalls .finishDestroyMidiClient) _ (by simp)
  | managerCloseDevice d =>
      refine ⟨.refl _, rfl, rfl, ?_⟩
      intro t ht
      change t ∈ (if (s.manager.getDeviceForDeviceId d).id = 0 then [] else _) at ht
      split at ht
      · contradiction
      · rw [List.mem_singleton.mp ht]
        exact Or.inl rfl
  | driverCloseDevice key =>
      change s.LeavesList (s.driverCloseDevice key)
      unfold driverCloseDevice
      split
      · have hhdi : (s.manager.usb.closeDevice key.1).2.hdi = s.manager.usb.hdi := by
          unfold UsbDriver.closeDevice
          split <;> rfl
        exact ⟨⟨rfl, rfl, rfl, hhdi, .refl _⟩, rfl, rfl, by simp⟩
      · exact leavesList_bleSection _ (s.manager.ble.evolves_dropContext key.1)
  | notifyDeviceOpened report answer => exact ⟨.refl _, rfl, rfl, by simp [run]⟩
  | handleBleOpenComplete report d info =>
      apply leavesList_of_serves
        (hcalls (.handleBleOpenComplete report.address report.success d info))
      intro t ht
      rcases List.mem_append.mp ht with ht | ht
      · exact hclose _ t ht
      · exact hanswer _ _ t ht
  | onConnectionState i connState status =>
      exact leavesList_bleSection i (s.manager.ble.evolves_onConnectionState i connState status)
  | onServicesComplete i status =>
      exact leavesList_bleSection i (s.manager.ble.evolves_onServicesComplete i status)
  | onRegisterNotify i status =>
      exact leavesList_bleSection i (s.manager.ble.evolves_onRegisterNotify i status)
  | cleanupDevice i => exact leavesList_bleSection i (s.manager.ble.evolves_dropContext i)
  | notifyDeviceChange device edit => contradiction
  | deliver c server change info => contradiction
  | updateDevices => contradiction
  | takeSnapshot refresh => contradiction
  | assignIds snapshot rest named => contradiction
  | installDevices snapshot devices => contradiction
  | eraseDriverIds keys => contradiction
  | handleBleConnect report => contradiction
  | listBleDevice report d => contradiction
  | handleBleDisconnect report => contradiction
  | unlistBleDevice report d => contradiction

/-- The environment changes nothing of the list either, and the contexts of the Bluetooth driver
stay as they are. -/
theorem leavesList_environment (h : Environment s s') :
    s'.manager.devices = s.manager.devices ∧
      s'.manager.driverIdToMidiId = s.manager.driverIdToMidiId ∧
      s'.manager.nextDeviceId = s.manager.nextDeviceId ∧
      s.manager.ble.Evolves s'.manager.ble ∧ s'.listing = s.listing ∧
      s'.deliveries = s.deliveries := by
  cases h with
  | answers hdi gatt granted =>
      refine ⟨rfl, rfl, rfl, ⟨le_rfl, fun hs => hs, ?_⟩, rfl, rfl⟩
      intro i d hd
      exact .same d hd rfl rfl rfl rfl id
  | rehash c _ hmanager =>
      change c.deviceManager.devices = _ ∧ c.deviceManager.driverIdToMidiId = _ ∧
        c.deviceManager.nextDeviceId = _ ∧ s.manager.ble.Evolves c.deviceManager.ble ∧ _
      rw [hmanager]
      exact ⟨rfl, rfl, rfl, .refl _, rfl, rfl⟩
  | rehashBle table hrehash =>
      refine ⟨rfl, rfl, rfl, ⟨le_rfl, ?_, ?_⟩, rfl, rfl⟩
      · intro hs i d hd
        exact hs i d ((hrehash.lookup i).symm.trans hd)
      · intro i d hd
        exact .same d ((hrehash.lookup i).symm.trans hd) rfl rfl rfl rfl id

end Service

/-! ### Ids belong to keys -/

/-- The id was given out, and its key is the owner's. -/
structure Owns (owner : DeviceId → DriverKey) (next : DeviceId) (d : DeviceId) (key : DriverKey) :
    Prop where
  positive : 1000 < d
  given : d ≤ next
  key : owner d = key

/-- A device as the drivers describe it: a Bluetooth device has ports. -/
def DeviceInformation.Described (e : DeviceInformation) : Prop :=
  e.key.2 = .ble → e.portInfos ≠ []

/-- A device with the id of its key. -/
structure Named (owner : DeviceId → DriverKey) (next : DeviceId) (e : DeviceInformation) :
    Prop where
  owns : Owns owner next e.id e.key
  described : e.Described

/-- What a task carries is named. -/
def Task.Named (owner : DeviceId → DriverKey) (next : DeviceId) : Task → Prop
  | .assignIds _ rest named =>
      (∀ e ∈ rest, e.Described) ∧ ∀ e ∈ named, Server.Named owner next e
  | .installDevices _ devices => ∀ e ∈ devices, Server.Named owner next e
  | .listBleDevice report d => Owns owner next d report.device.information.key
  | .unlistBleDevice report d => d = 0 ∨ Owns owner next d report.device.information.key
  | .notifyDeviceChange device edit =>
      Server.Named owner next device ∧ edit.deviceId = device.id
  | .deliver _ _ _ info => Owns owner next info.deviceId (info.driverDeviceId, info.deviceType)
  | _ => True

/-- Later owners keep what was given out. -/
structure Extends (owner : DeviceId → DriverKey) (next : DeviceId)
    (owner' : DeviceId → DriverKey) (next' : DeviceId) : Prop where
  le : next ≤ next'
  agrees : ∀ d, d ≤ next → owner' d = owner d

section

variable {owner owner' : DeviceId → DriverKey} {next next' : DeviceId}

theorem Extends.refl (owner : DeviceId → DriverKey) (next : DeviceId) :
    Extends owner next owner next :=
  ⟨le_rfl, fun _ _ => rfl⟩

theorem Owns.mono {d : DeviceId} {key : DriverKey} (h : Owns owner next d key)
    (hext : Extends owner next owner' next') : Owns owner' next' d key :=
  ⟨h.positive, h.given.trans hext.le, (hext.agrees d h.given).trans h.key⟩

theorem Named.mono {e : DeviceInformation} (h : Named owner next e)
    (hext : Extends owner next owner' next') : Named owner' next' e :=
  ⟨h.owns.mono hext, h.described⟩

theorem Task.Named.mono {t : Task} (h : t.Named owner next)
    (hext : Extends owner next owner' next') : t.Named owner' next' := by
  cases t with
  | assignIds snapshot rest named => exact ⟨h.1, fun e he => (h.2 e he).mono hext⟩
  | installDevices snapshot devices => exact fun e he => Server.Named.mono (h e he) hext
  | listBleDevice report d => exact Owns.mono h hext
  | unlistBleDevice report d => exact Or.imp_right (fun h => Owns.mono h hext) h
  | notifyDeviceChange device edit => exact ⟨h.1.mono hext, h.2⟩
  | deliver c server change info => exact Owns.mono h hext
  | _ => trivial

theorem named_of_ofList {t : Task} (h : t.ofList = false ∨ t.reports) :
    t.Named owner next := by
  cases t <;> first | trivial | (rcases h with h | h <;> contradiction)

/-- Two named devices with one id have one key. -/
theorem Named.key_eq {e e' : DeviceInformation} (h : Named owner next e)
    (h' : Named owner next e') (hid : e.id = e'.id) : e.key = e'.key := by
  rw [← h.owns.key, ← h'.owns.key, hid]

end

/-- The invariant: everything that carries an id is named by one owner. -/
structure Service.NamedBy (owner : DeviceId → DriverKey) (s : Service) (ts : Multiset Task) :
    Prop where
  next : 1000 ≤ s.manager.nextDeviceId
  devices : ∀ e ∈ s.manager.devices, Named owner s.manager.nextDeviceId e
  ids : ∀ key d, s.manager.driverIdToMidiId.lookup key = some d →
    Owns owner s.manager.nextDeviceId d key
  deliveries : ∀ x ∈ s.deliveries, Owns owner s.manager.nextDeviceId x.deviceInfo.deviceId
    (x.deviceInfo.driverDeviceId, x.deviceInfo.deviceType)
  tasks : ∀ t ∈ ts, t.Named owner s.manager.nextDeviceId

namespace MidiDeviceManager

variable {m : MidiDeviceManager}

/-- What looking up an id leaves, where a new one goes to a key of its own. -/
theorem getOrCreateDeviceId_owns {owner : DeviceId → DriverKey}
    (hnext : 1000 ≤ m.nextDeviceId)
    (hids : ∀ key d, m.driverIdToMidiId.lookup key = some d → Owns owner m.nextDeviceId d key)
    (key : DriverKey) : ∃ owner', Extends owner m.nextDeviceId owner'
        (m.getOrCreateDeviceId key).2.nextDeviceId ∧
      Owns owner' (m.getOrCreateDeviceId key).2.nextDeviceId (m.getOrCreateDeviceId key).1 key ∧
      ∀ key' d, (m.getOrCreateDeviceId key).2.driverIdToMidiId.lookup key' = some d →
        Owns owner' (m.getOrCreateDeviceId key).2.nextDeviceId d key' := by
  unfold getOrCreateDeviceId
  split
  · next d hd => exact ⟨owner, .refl _ _, hids key d hd, hids⟩
  · have hext : Extends owner m.nextDeviceId
        (Function.update owner (m.nextDeviceId + 1) key) (m.nextDeviceId + 1) := by
      refine ⟨Int.le_add_one le_rfl, ?_⟩
      intro d hd
      apply Function.update_of_ne
      exact (Int.lt_add_one_of_le hd).ne
    have hnew : Owns (Function.update owner (m.nextDeviceId + 1) key) (m.nextDeviceId + 1)
        (m.nextDeviceId + 1) key :=
      ⟨Int.lt_add_one_of_le hnext, le_rfl, Function.update_self _ _ _⟩
    refine ⟨_, hext, hnew, ?_⟩
    intro key' d hd
    rw [UnorderedMap.lookup_insert_eq] at hd
    split at hd
    · next hkey =>
        subst hkey
        exact Option.some.inj hd ▸ hnew
    · exact (hids key' d hd).mono hext

theorem getOrCreateDeviceId_fst (key : DriverKey) (m : MidiDeviceManager) :
    (m.getOrCreateDeviceId key).2.devices = m.devices ∧
      (m.getOrCreateDeviceId key).2.ble = m.ble ∧
      (m.getOrCreateDeviceId key).2.usb = m.usb := by
  unfold getOrCreateDeviceId
  split <;> exact ⟨rfl, rfl, rfl⟩

theorem takeDeviceId_snd (key : DriverKey) (m : MidiDeviceManager) :
    (m.takeDeviceId key).2.devices = m.devices ∧
      (m.takeDeviceId key).2.nextDeviceId = m.nextDeviceId ∧
      (m.takeDeviceId key).2.ble = m.ble ∧ (m.takeDeviceId key).2.usb = m.usb := by
  unfold takeDeviceId
  split <;> exact ⟨rfl, rfl, rfl, rfl⟩

theorem takeDeviceId_fst (key : DriverKey) (m : MidiDeviceManager) :
    m.driverIdToMidiId.lookup key = some (m.takeDeviceId key).1 ∨ (m.takeDeviceId key).1 = 0 := by
  unfold takeDeviceId
  split
  · next d hd => exact Or.inl hd
  · exact Or.inr rfl

theorem lookup_takeDeviceId {key key' : DriverKey} {d : DeviceId}
    (h : (m.takeDeviceId key).2.driverIdToMidiId.lookup key' = some d) :
    m.driverIdToMidiId.lookup key' = some d := by
  unfold takeDeviceId at h
  split at h
  · rw [UnorderedMap.lookup_erase_eq] at h
    split at h
    · contradiction
    · exact h
  · exact h

theorem lookup_eraseDriverIds {keys : List DriverKey} {key : DriverKey} {d : DeviceId}
    (h : (m.eraseDriverIds keys).driverIdToMidiId.lookup key = some d) :
    m.driverIdToMidiId.lookup key = some d := by
  unfold eraseDriverIds at h
  induction keys generalizing m with
  | nil => exact h
  | cons k keys ih =>
      have herased := @ih { m with driverIdToMidiId := m.driverIdToMidiId.erase k } h
      rw [UnorderedMap.lookup_erase_eq] at herased
      split at herased
      · contradiction
      · exact herased

theorem mem_of_find {d : DeviceId} {e : DeviceInformation} (h : m.find? d = some e) :
    e ∈ m.devices ∧ e.id = d :=
  ⟨List.mem_of_find?_eq_some h, by simpa using List.find?_some h⟩

theorem without_subset {devices others : List DeviceInformation} {e : DeviceInformation}
    (h : e ∈ without devices others) : e ∈ devices :=
  List.mem_of_mem_filter h

/-- The drivers describe the ports of every Bluetooth device. -/
theorem described_snapshot {e : DeviceInformation} (h : e ∈ m.snapshot) : e.Described := by
  have hparts : e ∈ m.usb.getRegisteredDevices ∨ e ∈ m.ble.getRegisteredDevices := by
    unfold snapshot at h
    split at h
    · exact List.mem_append.mp h
    · exact (List.mem_append.mp h).symm
  rcases hparts with husb | hble
  · unfold UsbDriver.getRegisteredDevices at husb
    split at husb
    · contradiction
    · obtain ⟨device, _, rfl⟩ := List.mem_map.mp husb
      intro htype
      contradiction
  · obtain ⟨i, d, _, _, rfl⟩ := BleDriver.mem_getRegisteredDevices.mp hble
    exact fun _ => List.cons_ne_nil _ _

end MidiDeviceManager

namespace Service

variable {s s' : Service} {ts : Multiset Task} {owner : DeviceId → DriverKey}

/-- A task carries on under a later owner when the state does. -/
theorem NamedBy.advance {t : Task} {result : Service × List Task} {owner' : DeviceId → DriverKey}
    (h : s.NamedBy owner (t ::ₘ ts))
    (hext : Extends owner s.manager.nextDeviceId owner' result.1.manager.nextDeviceId)
    (hdevices : ∀ e ∈ result.1.manager.devices,
      Named owner' result.1.manager.nextDeviceId e)
    (hids : ∀ key d, result.1.manager.driverIdToMidiId.lookup key = some d →
      Owns owner' result.1.manager.nextDeviceId d key)
    (hdeliveries : ∀ x ∈ result.1.deliveries, x ∈ s.deliveries ∨
      Owns owner' result.1.manager.nextDeviceId x.deviceInfo.deviceId
        (x.deviceInfo.driverDeviceId, x.deviceInfo.deviceType))
    (htasks : ∀ t ∈ result.2, t.Named owner' result.1.manager.nextDeviceId) :
    result.1.NamedBy owner' ((result.2 : Multiset Task) + ts) where
  next := h.next.trans hext.le
  devices := hdevices
  ids := hids
  deliveries := fun x hx => (hdeliveries x hx).elim (fun hx => (h.deliveries x hx).mono hext) id
  tasks := by
    intro t' ht'
    rcases Multiset.mem_add.mp ht' with ht' | ht'
    · exact htasks t' (Multiset.mem_coe.mp ht')
    · exact (h.tasks t' (Multiset.mem_cons_of_mem ht')).mono hext

/-- The tasks that announce changes of named devices. -/
theorem named_announce {changes : List (DeviceChangeType × DeviceInformation)}
    {next : DeviceId} (h : ∀ x ∈ changes, Named owner next x.2) (s : Service) :
    ∀ t ∈ (s.announce changes).2, t.Named owner next := by
  intro t ht
  obtain ⟨x, hx, rfl⟩ := List.mem_map.mp ht
  obtain ⟨y, hy, rfl⟩ := List.mem_map.mp hx
  obtain ⟨_, _, hmem⟩ := List.mem_zipIdx hy
  exact ⟨h y.1 (hmem ▸ List.getElem_mem _), rfl⟩

@[simp] theorem manager_announce (changes : List (DeviceChangeType × DeviceInformation))
    (s : Service) : (s.announce changes).1.manager = s.manager := rfl

@[simp] theorem deliveries_announce (changes : List (DeviceChangeType × DeviceInformation))
    (s : Service) : (s.announce changes).1.deliveries = s.deliveries := rfl

/-- The list section of a success report: the device is listed already, or it is put at the end
of the list. -/
theorem listBleDevice_cases (report : Report) (d : DeviceId) (s : Service) :
    (∃ found, s.manager.find? d = some found ∧
      s.listBleDevice report d =
        (s.handle report.device true,
          [.handleBleOpenComplete report d found.midiDeviceInfo])) ∨
    (s.manager.find? d = none ∧
      s.listBleDevice report d =
        ((((s.setManager { s.manager with
            devices := s.manager.devices ++ [report.device.information.withId d] }).handle
              report.device true).announce
                [(.add, report.device.information.withId d)]).1,
          [.handleBleOpenComplete report d (report.device.information.withId d).midiDeviceInfo,
            .notifyDeviceChange (report.device.information.withId d)
              ⟨s.listing.edits.length, d, .add⟩])) := by
  unfold listBleDevice MidiDeviceManager.listBleDevice
  cases hfound : s.manager.find? d with
  | some found => exact Or.inl ⟨found, rfl, by simp [announce, handle, setManager, manager]⟩
  | none => exact Or.inr ⟨rfl, rfl⟩

/-- The list section of a failure report: the device is taken out of the list and its removal is
announced, or it is not there and the completion is called. -/
theorem unlistBleDevice_cases (report : Report) (d : DeviceId) (s : Service) :
    (s.manager.find? d = none ∧
      s.unlistBleDevice report d =
        (s.handle report.device false,
          [.handleBleOpenComplete report d report.device.information.midiDeviceInfo])) ∨
    (∃ found, s.manager.find? d = some found ∧
      s.unlistBleDevice report d =
        ((((s.setManager { s.manager with
            devices := s.manager.devices.eraseP fun e => e.id == d }).handle
              report.device false).announce [(.removed, found)]).1,
          [.notifyDeviceChange found ⟨s.listing.edits.length, found.id, .removed⟩])) := by
  unfold unlistBleDevice MidiDeviceManager.unlistBleDevice
  cases hfound : s.manager.find? d with
  | some found => exact Or.inr ⟨found, rfl, rfl⟩
  | none =>
      have hsame : (s.manager.devices.eraseP fun e => e.id == d) = s.manager.devices := by
        apply List.eraseP_of_forall_not
        intro e he
        exact List.find?_eq_none.mp hfound e he
      refine Or.inl ⟨rfl, ?_⟩
      simp only [hsame]
      rfl

/-! ### The tasks of the list -/

theorem NamedBy.notifyDeviceChange {device : DeviceInformation} {edit : Edit}
    (h : s.NamedBy owner (.notifyDeviceChange device edit ::ₘ ts)) :
    (s.notifyDeviceChange device edit).1.NamedBy owner
      (((s.notifyDeviceChange device edit).2 : Multiset Task) + ts) := by
  have hself := h.tasks _ (Multiset.mem_cons_self _ ts)
  have hmanager : (s.notifyDeviceChange device edit).1.manager = s.manager :=
    MidiServiceController.deviceManager_notifyDeviceChange _ _ _
  refine h.advance ?_ ?_ ?_ (fun x hx => Or.inl hx) ?_
  · exact hmanager ▸ .refl _ _
  · exact hmanager ▸ h.devices
  · exact hmanager ▸ h.ids
  · rw [hmanager]
    intro t ht
    obtain ⟨e, _, rfl⟩ := List.mem_map.mp ht
    exact hself.1.owns

theorem NamedBy.deliver {c : ClientId} {server : MidiInServer} {change : DeviceChangeType}
    {info : MidiDeviceInfo} (h : s.NamedBy owner (.deliver c server change info ::ₘ ts)) :
    (s.run (.deliver c server change info)).1.NamedBy owner
      (((s.run (.deliver c server change info)).2 : Multiset Task) + ts) := by
  have hself := h.tasks _ (Multiset.mem_cons_self _ ts)
  have hmanager := manager_deliver c server change info s
  have hresult : s.run (.deliver c server change info) =
      (s.deliver c server change info, []) := rfl
  rw [hresult]
  refine h.advance ?_ ?_ ?_ ?_ (fun t ht => absurd ht List.not_mem_nil)
  · exact hmanager ▸ .refl _ _
  · exact hmanager ▸ h.devices
  · exact hmanager ▸ h.ids
  · rw [hmanager]
    intro x hx
    unfold Service.deliver at hx
    dsimp only at hx
    split at hx
    · rw [deliveries_updateBluetoothPermission] at hx
      exact Or.inl hx
    · rw [deliveries_updateBluetoothPermission] at hx
      rcases List.mem_append.mp hx with hx | hx
      · exact Or.inl hx
      · rw [List.mem_singleton.mp hx]
        exact Or.inr hself

/-- A key that is new gets an id that no key had. -/
theorem NamedBy.assignIds {snapshot : Snapshot} {rest named : List DeviceInformation}
    (h : s.NamedBy owner (.assignIds snapshot rest named ::ₘ ts)) :
    ∃ owner', (s.assignIds snapshot rest named).1.NamedBy owner'
      (((s.assignIds snapshot rest named).2 : Multiset Task) + ts) := by
  have hself := h.tasks _ (Multiset.mem_cons_self _ ts)
  cases rest with
  | nil => exact ⟨owner, h.advance (.refl _ _) h.devices h.ids (fun x hx => Or.inl hx)
      (fun t ht => List.mem_singleton.mp ht ▸ hself.2)⟩
  | cons e rest =>
      obtain ⟨owner', hext, howns, hids⟩ :=
        MidiDeviceManager.getOrCreateDeviceId_owns h.next h.ids e.key
      have hsame := MidiDeviceManager.getOrCreateDeviceId_fst e.key s.manager
      refine ⟨owner', h.advance hext ?_ hids (fun x hx => Or.inl hx) ?_⟩
      · intro e' he'
        exact (h.devices e' (hsame.1 ▸ he')).mono hext
      · intro t ht
        rw [List.mem_singleton.mp ht]
        refine ⟨fun e' he' => hself.1 e' (List.mem_cons_of_mem e he'), ?_⟩
        intro e' he'
        rcases List.mem_append.mp he' with he' | he'
        · exact (hself.2 e' he').mono hext
        · rw [List.mem_singleton.mp he']
          exact ⟨howns, hself.1 e List.mem_cons_self⟩

theorem NamedBy.installDevices {snapshot : Snapshot} {devices : List DeviceInformation}
    (h : s.NamedBy owner (.installDevices snapshot devices ::ₘ ts)) :
    (s.installDevices snapshot devices).1.NamedBy owner
      (((s.installDevices snapshot devices).2 : Multiset Task) + ts) := by
  have hself := h.tasks _ (Multiset.mem_cons_self _ ts)
  refine h.advance (.refl _ _) hself h.ids (fun x hx => Or.inl hx) ?_
  intro t ht
  rcases List.mem_append.mp ht with ht | ht
  · split at ht
    · contradiction
    · exact List.mem_singleton.mp ht ▸ trivial
  · apply named_announce _ _ t ht
    intro x hx
    rcases List.mem_append.mp hx with hx | hx
    · obtain ⟨e, he, rfl⟩ := List.mem_map.mp hx
      exact hself e (MidiDeviceManager.without_subset he)
    · obtain ⟨e, he, rfl⟩ := List.mem_map.mp hx
      exact h.devices e (MidiDeviceManager.without_subset he)

theorem NamedBy.handleBleConnect {report : Report}
    (h : s.NamedBy owner (.handleBleConnect report ::ₘ ts)) :
    ∃ owner', (s.handleBleConnect report).1.NamedBy owner'
      (((s.handleBleConnect report).2 : Multiset Task) + ts) := by
  obtain ⟨owner', hext, howns, hids⟩ :=
    MidiDeviceManager.getOrCreateDeviceId_owns h.next h.ids report.device.information.key
  have hsame := MidiDeviceManager.getOrCreateDeviceId_fst report.device.information.key s.manager
  refine ⟨owner', h.advance hext ?_ hids (fun x hx => Or.inl hx) ?_⟩
  · intro e he
    exact (h.devices e (hsame.1 ▸ he)).mono hext
  · intro t ht
    rw [List.mem_singleton.mp ht]
    exact howns

theorem NamedBy.listBleDevice {report : Report} {d : DeviceId}
    (h : s.NamedBy owner (.listBleDevice report d ::ₘ ts)) :
    (s.listBleDevice report d).1.NamedBy owner
      (((s.listBleDevice report d).2 : Multiset Task) + ts) := by
  have hself := h.tasks _ (Multiset.mem_cons_self _ ts)
  have hnew : Named owner s.manager.nextDeviceId (report.device.information.withId d) :=
    ⟨hself, fun _ => List.cons_ne_nil _ _⟩
  rcases listBleDevice_cases report d s with ⟨found, hfound, heq⟩ | ⟨_, heq⟩
  · rw [heq]
    refine h.advance (.refl _ _) h.devices h.ids (fun x hx => Or.inl hx) ?_
    intro t ht
    rw [List.mem_singleton.mp ht]
    trivial
  · rw [heq]
    refine h.advance (.refl _ _) ?_ h.ids (fun x hx => Or.inl hx) ?_
    · intro e he
      rcases List.mem_append.mp he with he | he
      · exact h.devices e he
      · exact List.mem_singleton.mp he ▸ hnew
    · intro t ht
      rcases List.mem_cons.mp ht with rfl | ht
      · trivial
      · rw [List.mem_singleton.mp ht]
        exact ⟨hnew, rfl⟩

theorem NamedBy.handleBleDisconnect {report : Report}
    (h : s.NamedBy owner (.handleBleDisconnect report ::ₘ ts)) :
    (s.handleBleDisconnect report).1.NamedBy owner
      (((s.handleBleDisconnect report).2 : Multiset Task) + ts) := by
  have hsame := MidiDeviceManager.takeDeviceId_snd report.device.information.key s.manager
  refine h.advance ?_ ?_ ?_ (fun x hx => Or.inl hx) ?_
  · exact ⟨hsame.2.1.ge, fun _ _ => rfl⟩
  · intro e he
    exact hsame.2.1.symm ▸ h.devices e (hsame.1 ▸ he)
  · intro key d hd
    exact hsame.2.1.symm ▸ h.ids key d (MidiDeviceManager.lookup_takeDeviceId hd)
  · intro t ht
    rw [List.mem_singleton.mp ht]
    rcases MidiDeviceManager.takeDeviceId_fst report.device.information.key s.manager with
      hfound | hnone
    · exact Or.inr (hsame.2.1.symm ▸ h.ids _ _ hfound)
    · exact Or.inl hnone

theorem NamedBy.unlistBleDevice {report : Report} {d : DeviceId}
    (h : s.NamedBy owner (.unlistBleDevice report d ::ₘ ts)) :
    (s.unlistBleDevice report d).1.NamedBy owner
      (((s.unlistBleDevice report d).2 : Multiset Task) + ts) := by
  rcases unlistBleDevice_cases report d s with ⟨_, heq⟩ | ⟨found, hfound, heq⟩
  · rw [heq]
    refine h.advance (.refl _ _) h.devices h.ids (fun x hx => Or.inl hx) ?_
    intro t ht
    rw [List.mem_singleton.mp ht]
    trivial
  · rw [heq]
    refine h.advance (.refl _ _) ?_ h.ids (fun x hx => Or.inl hx) ?_
    · exact fun e he => h.devices e (List.mem_of_mem_eraseP he)
    · intro t ht
      rw [List.mem_singleton.mp ht]
      exact ⟨h.devices found (MidiDeviceManager.mem_of_find hfound).1, rfl⟩

/-- The section of every task keeps the names, with a later owner where it gives out an id. -/
theorem namedBy_run {t : Task} (h : s.NamedBy owner (t ::ₘ ts)) :
    ∃ owner', (s.run t).1.NamedBy owner' (((s.run t).2 : Multiset Task) + ts) := by
  by_cases hlist : t.ofList = false
  · have hleaves := leavesList_run hlist s
    refine ⟨owner, h.advance ?_ ?_ ?_ ?_ ?_⟩
    · exact ⟨hleaves.manager.next.ge, fun _ _ => rfl⟩
    · rw [hleaves.manager.devices, hleaves.manager.next]
      exact h.devices
    · rw [hleaves.manager.ids, hleaves.manager.next]
      exact h.ids
    · exact fun x hx => Or.inl (hleaves.deliveries ▸ hx)
    · exact fun t ht => named_of_ofList (hleaves.tasks t ht)
  · cases t with
    | notifyDeviceChange device edit => exact ⟨owner, h.notifyDeviceChange⟩
    | deliver c server change info => exact ⟨owner, h.deliver⟩
    | updateDevices => exact ⟨owner, h.advance (.refl _ _) h.devices h.ids (fun x hx => Or.inl hx)
        (fun t ht => List.mem_singleton.mp ht ▸ trivial)⟩
    | takeSnapshot refresh =>
        refine ⟨owner, h.advance (.refl _ _) h.devices h.ids (fun x hx => Or.inl hx) ?_⟩
        intro t ht
        rw [List.mem_singleton.mp ht]
        exact ⟨fun e he => MidiDeviceManager.described_snapshot he, by simp⟩
    | assignIds snapshot rest named => exact h.assignIds
    | installDevices snapshot devices => exact ⟨owner, h.installDevices⟩
    | eraseDriverIds keys =>
        refine ⟨owner, h.advance (.refl _ _) h.devices ?_ (fun x hx => Or.inl hx) (by simp [run])⟩
        exact fun key d hd => h.ids key d (MidiDeviceManager.lookup_eraseDriverIds hd)
    | handleBleConnect report => exact h.handleBleConnect
    | listBleDevice report d => exact ⟨owner, h.listBleDevice⟩
    | handleBleDisconnect report => exact ⟨owner, h.handleBleDisconnect⟩
    | unlistBleDevice report d => exact ⟨owner, h.unlistBleDevice⟩
    | _ => exact absurd rfl hlist

theorem namedBy_initial (h : sections.init s) : s.NamedBy owner 0 := by
  obtain ⟨usbFirst, hdi, gatt, granted, rfl⟩ := h
  refine ⟨le_rfl, fun e he => absurd he List.not_mem_nil, ?_,
    fun x hx => absurd hx List.not_mem_nil, fun t ht => absurd ht (Multiset.notMem_zero t)⟩
  intro key d hd
  simp [initial, manager] at hd

/-- In every run there is one owner of all ids. -/
theorem namedBy_reached {ok : Service → Multiset Task → Task → Prop} {c : Config Service Task}
    (reach : sections.ReachedWith ok c) :
    ∃ owner, c.shared.NamedBy owner c.outstanding := by
  apply reach.invariant fun s ts => ∃ owner, s.NamedBy owner ts
  · exact fun s h => ⟨fun _ => (0, .usb), namedBy_initial h⟩
  · rintro s ts t hexternal ⟨owner, h⟩
    refine ⟨owner, h.next, h.devices, h.ids, h.deliveries, ?_⟩
    intro t' ht'
    rcases Multiset.mem_cons.mp ht' with rfl | ht'
    · cases t' <;> trivial
    · exact h.tasks t' ht'
  · rintro s ts t _ ⟨owner, h⟩
    exact namedBy_run h
  · rintro s ts s' henvironment ⟨owner, h⟩
    obtain ⟨hdevices, hids, hnext, _, _, hdeliveries⟩ := leavesList_environment henvironment
    refine ⟨owner, ?_, ?_, ?_, ?_, ?_⟩
    · exact hnext ▸ h.next
    · exact hdevices ▸ hnext ▸ h.devices
    · exact hids ▸ hnext ▸ h.ids
    · exact hdeliveries ▸ hnext ▸ h.deliveries
    · exact hnext ▸ h.tasks

end Service

end MidiFramework.Server
