import MidiFramework.Server.DeviceIds

/-!
# Bluetooth devices and the Bluetooth permission

Calls that name a device ask for the permission when the device is a value of
`activeBleDevices_`. The list of devices and the notifications are filtered by
the type of the device instead. The two agree on a listed Bluetooth device
exactly while the map has it.
-/

namespace MidiFramework.Server

open Foundation

namespace Service

variable {s : Service} {token : TokenId} {d : DeviceId}

/-- What a caller without the permission gets of a device: no ports, no success of a call that
opens, no entry in the list and no notification. -/
structure Withheld (s : Service) (token : TokenId) (d : DeviceId) : Prop where
  ports : (s.getDevicePorts token d).2 = []
  openDevice : ∀ c, (s.openDevice token c d).status ≠ .ok
  openPort : ∀ direction env c p, (s.openPort direction env token c d p).status ≠ .ok
  listed : ∀ info ∈ s.visibleDevices token, info.deviceId ≠ d
  notified : ∀ x ∈ s.deliveries, x.permitted = false → x.deviceInfo.deviceId ≠ d

/-! ### The calls that ask the map -/

theorem openDevice_denied (hactive : s.controller.isBluetoothDevice d)
    (hdenied : s.granted token = false) (c : ClientId) :
    (s.openDevice token c d).status ≠ .ok := by
  unfold openDevice MidiServiceController.openDevice
  rw [hactive, hdenied]
  split
  · exact (by decide : Status.invalidClient ≠ .ok)
  · simp [Status.permissionDenied, Status.ok]

theorem openPort_denied (hactive : s.controller.isBluetoothDevice d)
    (hdenied : s.granted token = false) (direction : PortDirection)
    (env : MidiServiceController.PortEnv) (c : ClientId) (p : PortIndex) :
    (s.openPort direction env token c d p).status ≠ .ok := by
  have hgate : ∀ ready, (s.controller.openPort MidiDeviceManager.api direction ready env
      (s.granted token) c d p).status ≠ .ok := by
    intro ready
    unfold MidiServiceController.openPort
    rw [hactive, hdenied]
    split
    · exact (by decide : Status.invalidClient ≠ .ok)
    · split
      · exact (by decide : Status.invalidDeviceHandle ≠ .ok)
      · split
        · exact (by decide : Status.systemError ≠ .ok)
        · simp [Status.permissionDenied, Status.ok]
  cases direction with
  | input => exact hgate _
  | output => exact hgate _

/-- Where the map does not have a listed device, its ports are given to every caller. -/
theorem ports_of_inactive {owner : DeviceId → DriverKey} {ts : Multiset Task}
    {e : DeviceInformation} (h : s.NamedBy owner ts) (he : e ∈ s.manager.devices)
    (hble : e.key.2 = .ble) (hinactive : s.controller.isBluetoothDevice e.id = false)
    (token : TokenId) : (s.getDevicePorts token e.id).2 ≠ [] := by
  have hsome : (s.manager.find? e.id).isSome := by
    rw [MidiDeviceManager.find?, List.find?_isSome]
    exact ⟨e, he, beq_self_eq_true _⟩
  obtain ⟨found, hfound⟩ := Option.isSome_iff_exists.mp hsome
  obtain ⟨hmem, hid⟩ := MidiDeviceManager.mem_of_find hfound
  have hnamed := h.devices found hmem
  have hkey := hnamed.key_eq (h.devices e he) hid
  have hpositive := hnamed.owns.positive
  unfold getDevicePorts MidiDeviceManager.getDevicePorts MidiDeviceManager.getDeviceForDeviceId
  rw [hinactive, hfound]
  simp only [Bool.false_and, Bool.false_eq_true, if_false, Option.getD_some]
  rw [if_neg]
  · exact hnamed.described (hkey ▸ hble)
  · intro hzero
    rw [hzero] at hpositive
    exact absurd hpositive (by decide)

/-! ### The filters by type -/

theorem deliveries_run (t : Task) (s : Service) :
    ∀ x ∈ (s.run t).1.deliveries, x ∈ s.deliveries ∨
      x.permitted ∨ x.deviceInfo.deviceType ≠ .ble := by
  by_cases hlist : t.ofList = false
  · exact fun x hx => Or.inl ((leavesList_run hlist s).deliveries ▸ hx)
  · cases t with
    | deliver c server change info =>
        intro x hx
        change x ∈ (s.deliver c server change info).deliveries at hx
        unfold deliver at hx
        dsimp only at hx
        split at hx
        · rw [deliveries_updateBluetoothPermission] at hx
          exact Or.inl hx
        · next hshown =>
            rw [deliveries_updateBluetoothPermission] at hx
            rcases List.mem_append.mp hx with hx | hx
            · exact Or.inl hx
            · right
              rw [List.mem_singleton.mp hx]
              simp only [Bool.and_eq_true, Bool.not_eq_true', beq_iff_eq, not_and_or,
                Bool.not_eq_false] at hshown
              exact hshown
    | assignIds snapshot rest named =>
        cases rest with
        | nil => exact fun x hx => Or.inl hx
        | cons e rest => exact fun x hx => Or.inl hx
    | listBleDevice report d =>
        intro x hx
        change x ∈ (s.listBleDevice report d).1.deliveries at hx
        rcases listBleDevice_cases report d s with ⟨_, _, heq⟩ | ⟨_, heq⟩ <;> rw [heq] at hx <;>
          exact Or.inl hx
    | unlistBleDevice report d =>
        intro x hx
        change x ∈ (s.unlistBleDevice report d).1.deliveries at hx
        rcases unlistBleDevice_cases report d s with ⟨_, heq⟩ | ⟨_, _, heq⟩ <;> rw [heq] at hx <;>
          exact Or.inl hx
    | notifyDeviceChange device edit => exact fun x hx => Or.inl hx
    | updateDevices => exact fun x hx => Or.inl hx
    | takeSnapshot refresh => exact fun x hx => Or.inl hx
    | installDevices snapshot devices => exact fun x hx => Or.inl hx
    | eraseDriverIds keys => exact fun x hx => Or.inl hx
    | handleBleConnect report => exact fun x hx => Or.inl hx
    | handleBleDisconnect report => exact fun x hx => Or.inl hx
    | _ => exact absurd rfl hlist

/-- No notification of a Bluetooth device ever reaches a client without the permission. -/
theorem deliveries_reached {ok : Service → Multiset Task → Task → Prop} {c : Config Service Task}
    (reach : sections.ReachedWith ok c) :
    ∀ x ∈ c.shared.deliveries, x.permitted ∨ x.deviceInfo.deviceType ≠ .ble := by
  apply reach.invariant fun s _ =>
    ∀ x ∈ s.deliveries, x.permitted ∨ x.deviceInfo.deviceType ≠ .ble
  · rintro s ⟨usbFirst, hdi, gatt, granted, rfl⟩ x hx
    exact absurd hx List.not_mem_nil
  · exact fun s ts t _ h => h
  · intro s ts t _ h x hx
    exact (deliveries_run t s x hx).elim (h x) id
  · intro s ts s' henvironment h
    obtain ⟨_, _, _, _, _, hdeliveries⟩ := leavesList_environment henvironment
    exact hdeliveries ▸ h

/-- In every reachable state, a listed Bluetooth device is withheld from a caller without the
permission exactly when the map of active Bluetooth devices has it. -/
theorem bluetooth_withheld_iff {c : Config Service Task} (reach : sections.Reached c)
    {e : DeviceInformation} (he : e ∈ c.shared.manager.devices) (hble : e.key.2 = .ble)
    (hdenied : c.shared.granted token = false) :
    c.shared.Withheld token e.id ↔ c.shared.controller.isBluetoothDevice e.id := by
  obtain ⟨owner, hnamed⟩ := namedBy_reached reach
  constructor
  · intro hwithheld
    by_contra hinactive
    exact ports_of_inactive hnamed he hble (Bool.eq_false_iff.mpr hinactive) token
      hwithheld.ports
  · intro hactive
    constructor
    · rw [getDevicePorts, hactive, hdenied]
      rfl
    · exact openDevice_denied hactive hdenied
    · exact openPort_denied hactive hdenied
    · intro info hinfo hid
      rw [visibleDevices, hdenied] at hinfo
      obtain ⟨hinfo, htype⟩ := List.mem_filter.mp hinfo
      obtain ⟨e', he', rfl⟩ := List.mem_map.mp hinfo
      have hkey := (hnamed.devices e' he').key_eq (hnamed.devices e he) hid
      exact of_decide_eq_true htype ((congrArg Prod.snd hkey).trans hble)
    · intro x hx hpermitted hid
      have hkey := (hnamed.deliveries x hx).key.symm.trans
        ((congrArg owner hid).trans (hnamed.devices e he).owns.key)
      rcases deliveries_reached reach x hx with h | h
      · rw [hpermitted] at h
        contradiction
      · exact h ((congrArg Prod.snd hkey).trans hble)

/-! ### A device that is listed before it is active -/

/-- The service at its start, where one caller has the permission. -/
def oneGranted : Config Service Task := start {} {} fun token => token == 1

/-- A client asks for a Bluetooth device and the stack connects it. -/
def connecting : List (Turn Service Task) :=
  [.start (.createMidiInServer 7 0 1 true), .run 0,
    .start (.openBleDevice 1 1 "11:22:33:44:55:66"), .run 1,
    .start (.onConnectionState 1 .connected 0), .run 2]

/-- The device comes online and its report is handled. -/
def opening : List (Turn Service Task) :=
  connecting ++
    [.start (.onServicesComplete 1 0), .run 3, .start (.onRegisterNotify 1 0), .run 4, .run 4,
      .run 4, .run 4]

/-- A refresh runs before the device is online. -/
def refreshing : List (Turn Service Task) :=
  connecting ++ [.start .updateDevices, .run 3, .run 3, .run 3, .run 3, .run 3]

/-- The listed Bluetooth device of these runs. -/
def heldDevice : DeviceInformation :=
  (DeviceCtx.information { id := 1, address := "11:22:33:44:55:66" }).withId 1001

def openedService : Config Service Task := sections.after oneGranted opening

def refreshedService : Config Service Task := sections.after oneGranted refreshing

theorem openedService_reached : sections.Reached openedService :=
  reached_after (by decide +kernel)

theorem refreshedService_reached : sections.Reached refreshedService :=
  reached_after (by decide +kernel)

theorem bluetooth_withheld_iff_opened :
    openedService.shared.Withheld 2 heldDevice.id ↔
      openedService.shared.controller.isBluetoothDevice heldDevice.id :=
  have hlisted : heldDevice ∈ openedService.shared.manager.devices := by decide +kernel
  have hdenied : openedService.shared.granted 2 = false := by decide +kernel
  bluetooth_withheld_iff openedService_reached hlisted rfl hdenied

/-- A refresh lists a device that is connecting, and its ports are given to a caller without the
permission. -/
theorem bluetooth_not_withheld :
    ∃ c : Config Service Task, sections.Reached c ∧ heldDevice ∈ c.shared.manager.devices ∧
      heldDevice.key.2 = .ble ∧ c.shared.granted 2 = false ∧
      ¬ c.shared.Withheld 2 heldDevice.id := by
  refine ⟨refreshedService, refreshedService_reached, by decide +kernel, rfl,
    by decide +kernel, ?_⟩
  intro hwithheld
  have hports : (refreshedService.shared.getDevicePorts 2 heldDevice.id).2 ≠ [] := by
    decide +kernel
  exact hports hwithheld.ports

end Service

end MidiFramework.Server
