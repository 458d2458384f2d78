import MidiFramework.Server.ClientRegistry
import MidiFramework.Server.Manager

/-!
# Requests that fail

The calls that create a client, open a device or open a port, on the manager
with its two drivers. A port that the driver has opened before the rest of the
call fails is closed again; everything else that a failed call has touched was
checked before it was changed.
-/

namespace MidiFramework.Server

open Foundation

namespace MidiDeviceManager

variable {m m' : MidiDeviceManager}

/-- The devices that the drivers hold open: those of the HDI service, and the sessions of the
Bluetooth driver. -/
def openDevices (m : MidiDeviceManager) : Set DriverKey :=
  {key | match key.2 with
    | .usb => key.1 ∈ m.usb.opened
    | .ble => key.1 ∈ m.ble.devices}

/-- The ports that the drivers hold open. -/
def openPorts (m : MidiDeviceManager) : Set (DriverKey × PortDirection × PortIndex) :=
  {port | match port.1.2 with
    | .usb => (port.1.1, port.2.1, port.2.2) ∈ m.usb.openPorts
    | .ble => ∃ d, m.ble.devices.lookup port.1.1 = some d ∧ d.isOpen port.2.1 ∧
        port.2.2 = BleDriver.portOf port.2.1}

theorem mem_openPorts_usb {i : Int} {direction : PortDirection} {p : PortIndex} :
    ((i, .usb), direction, p) ∈ m.openPorts ↔ (i, direction, p) ∈ m.usb.openPorts :=
  Iff.rfl

/-- The drivers hold the same devices and ports open. -/
structure SameOpen (m m' : MidiDeviceManager) : Prop where
  devices : m'.openDevices = m.openDevices
  ports : m'.openPorts = m.openPorts

theorem SameOpen.refl (m : MidiDeviceManager) : m.SameOpen m := ⟨rfl, rfl⟩

/-- The tables of the drivers decide what is open. -/
theorem SameOpen.of_tables (hopened : ∀ i, i ∈ m'.usb.opened ↔ i ∈ m.usb.opened)
    (hports : ∀ port, port ∈ m'.usb.openPorts ↔ port ∈ m.usb.openPorts)
    (hble : ∀ i, m'.ble.devices.lookup i = m.ble.devices.lookup i) : m.SameOpen m' := by
  constructor
  · ext ⟨i, type⟩
    cases type with
    | usb => exact hopened i
    | ble =>
        change i ∈ m'.ble.devices ↔ i ∈ m.ble.devices
        rw [UnorderedMap.mem_iff_lookup, UnorderedMap.mem_iff_lookup, hble]
  · ext ⟨⟨i, type⟩, direction, p⟩
    cases type with
    | usb => exact hports (i, direction, p)
    | ble =>
        change (∃ d, m'.ble.devices.lookup i = some d ∧ _) ↔
          ∃ d, m.ble.devices.lookup i = some d ∧ _
        rw [hble]

end MidiDeviceManager

namespace UsbDriver

variable {s : UsbDriver}

theorem openDevice_failed {i : Int} (h : (s.openDevice i).1 ≠ .ok) : (s.openDevice i).2 = s := by
  unfold openDevice at h ⊢
  by_cases hok : s.hdi.openDevice = .ok
  · rw [if_pos hok] at h
    exact absurd rfl h
  · rw [if_neg hok]

theorem switchPort_failed {isOpen : Bool} {direction : PortDirection} {i : Int} {p : PortIndex}
    (h : (s.switchPort isOpen direction i p).1 ≠ .ok) :
    (s.switchPort isOpen direction i p).2 = s := by
  unfold switchPort at h ⊢
  cases isOpen with
  | true =>
      by_cases hok : s.hdi.openPort = .ok
      · exact absurd (congrArg Prod.fst (if_pos hok)) h
      · exact congrArg Prod.snd (if_neg hok)
  | false =>
      by_cases hok : s.hdi.closePort = .ok
      · exact absurd (congrArg Prod.fst (if_pos hok)) h
      · exact congrArg Prod.snd (if_neg hok)

end UsbDriver

namespace BleDriver

variable {s : BleDriver}

theorem switchPort_failed {isOpen : Bool} {direction : PortDirection} {i : Int} {p : PortIndex}
    (h : (s.switchPort isOpen direction i p).1 ≠ .ok) :
    (s.switchPort isOpen direction i p).2 = s := by
  unfold switchPort at h ⊢
  split
  · rfl
  next hport =>
  rw [if_neg hport] at h
  split
  · rfl
  next e he =>
  rw [he] at h
  dsimp only at h
  split
  · rfl
  next hswitch =>
  rw [if_neg hswitch] at h
  exact absurd rfl h

/-- A session that cannot be opened leaves no trace in the table. -/
def FailsCleanly (s : BleDriver) : Prop :=
  ∀ address, (s.openDevice address).1 ≠ .ok → (s.openDevice address).2.devices = s.devices

/-- So it does where the stack registers a client that the driver does not know. -/
theorem failsCleanly_of_fresh (h : s.gatt.register ∉ s.devices) : s.FailsCleanly := by
  intro address hfailed
  have herased : ((s.insertContext s.gatt.register (s.newContext address)).eraseContext
      s.gatt.register).devices = s.devices := by
    apply AList.ext
    have hcons : ∀ es : List ((_ : Int) × DeviceCtx), List.kerase s.gatt.register
        (⟨s.gatt.register, s.newContext address⟩ :: es) = es := fun es => List.kerase_cons_eq rfl
    exact (hcons _).trans (List.kerase_of_notMem_keys h)
  unfold openDevice at hfailed ⊢
  dsimp only at hfailed ⊢
  split_ifs at hfailed ⊢
  · rfl
  · rfl
  · exact herased
  · exact herased
  · exact absurd rfl hfailed

theorem setOpen_setOpen (d : DeviceCtx) (direction : PortDirection) (isOpen isOpen' : Bool) :
    (d.setOpen isOpen direction).setOpen isOpen' direction = d.setOpen isOpen' direction := by
  cases direction <;> rfl

theorem setOpen_isOpen (d : DeviceCtx) (direction : PortDirection) :
    d.setOpen (d.isOpen direction) direction = d := by
  cases direction <;> rfl

/-- A port that was opened is found again by its close, which leaves the device as it was. -/
theorem closePort_openPort {direction : PortDirection} {i : Int} {p : PortIndex}
    (h : (s.switchPort true direction i p).1 = .ok) (j : Int) :
    ((s.switchPort true direction i p).2.switchPort false direction i p).2.devices.lookup j =
      s.devices.lookup j := by
  unfold switchPort at h
  split at h
  · contradiction
  next hport =>
  split at h
  · contradiction
  next e he =>
  split at h
  · contradiction
  next hclosed =>
  have hopened : (s.switchPort true direction i p).2 =
      s.insertContext e.1 (e.2.setOpen true direction) := by
    unfold switchPort
    rw [if_neg hport, he]
    dsimp only
    rw [if_neg hclosed]
  have hid : (e.2.setOpen true direction).id = e.2.id := by
    cases direction <;> rfl
  have hfind : (s.insertContext e.1 (e.2.setOpen true direction)).devices.entries.find?
      (fun e => e.2.id == i) = some ⟨e.1, e.2.setOpen true direction⟩ := by
    have hfound := List.find?_some he
    apply List.find?_cons_of_pos
    dsimp only
    rw [hid]
    exact hfound
  have hisOpen : (e.2.setOpen true direction).isOpen direction = true := by
    cases direction <;> rfl
  have hwas : e.2.setOpen false direction = e.2 := by
    rw [← Bool.eq_false_iff.mpr hclosed]
    exact setOpen_isOpen e.2 direction
  have hlookup := UnorderedMap.mem_entries.mp (List.mem_of_find?_eq_some he)
  rw [hopened]
  unfold switchPort
  rw [if_neg hport, hfind]
  dsimp only
  rw [if_neg (by simp [hisOpen]), setOpen_setOpen, hwas]
  change ((s.devices.insert e.1 _).insert e.1 e.2).lookup j = _
  rw [UnorderedMap.lookup_insert_eq, UnorderedMap.lookup_insert_eq]
  split
  · next hj => rw [hj, hlookup]
  · rfl

end BleDriver

namespace MidiDeviceManager

variable {m : MidiDeviceManager}

theorem switchDriverPort_failed {isOpen : Bool} {direction : PortDirection} {key : DriverKey}
    {p : PortIndex} (h : (m.switchDriverPort isOpen direction key p).1 ≠ .ok) :
    (m.switchDriverPort isOpen direction key p).2 = m := by
  unfold switchDriverPort at h ⊢
  cases hkey : key.2 with
  | usb =>
      rw [hkey] at h
      dsimp only at h ⊢
      rw [UsbDriver.switchPort_failed h]
  | ble =>
      rw [hkey] at h
      dsimp only at h ⊢
      rw [BleDriver.switchPort_failed h]

theorem openDevice_failed {d : DeviceId} (h : (m.openDevice d).1 ≠ .ok) :
    (m.openDevice d).2 = m := by
  unfold openDevice at h ⊢
  dsimp only at h ⊢
  by_cases hlisted : (m.getDeviceForDeviceId d).id = 0
  · rw [if_pos hlisted]
  · rw [if_neg hlisted] at h ⊢
    unfold openDriverDevice at h ⊢
    cases hkey : (m.getDeviceForDeviceId d).key.2 with
    | usb =>
        rw [hkey] at h
        dsimp only at h ⊢
        rw [UsbDriver.openDevice_failed h]
    | ble => rfl

theorem openPort_failed {direction : PortDirection} {d : DeviceId} {p : PortIndex}
    (h : (m.openPort direction d p).1 ≠ .ok) : (m.openPort direction d p).2 = m := by
  unfold openPort at h ⊢
  dsimp only at h ⊢
  by_cases hlisted : (m.getDeviceForDeviceId d).id = 0
  · rw [if_pos hlisted]
  · rw [if_neg hlisted] at h ⊢
    apply switchDriverPort_failed
    intro hok
    exact h (if_pos hok)

theorem getDeviceForDeviceId_congr {m' : MidiDeviceManager} (h : m'.devices = m.devices)
    (d : DeviceId) : m'.getDeviceForDeviceId d = m.getDeviceForDeviceId d := by
  unfold getDeviceForDeviceId find?
  rw [h]

/-- A port that the manager opens can be closed again: the HDI service, if the port is one of its
own, obeys and did not hold the port open already. -/
def CanRollBack (m : MidiDeviceManager) (direction : PortDirection) (d : DeviceId)
    (p : PortIndex) : Prop :=
  (m.getDeviceForDeviceId d).key.2 = .usb →
    m.usb.hdi.closePort = .ok ∧
      ((m.getDeviceForDeviceId d).key.1, direction, p) ∉ m.usb.openPorts

theorem sameOpen_closePort_openPort {direction : PortDirection} {d : DeviceId} {p : PortIndex}
    (hok : (m.openPort direction d p).1 = .ok) (hroll : m.CanRollBack direction d p) :
    m.SameOpen ((m.openPort direction d p).2.closePort direction d p).2 := by
  have hsystem : Status.systemError ≠ Status.ok := by decide
  have hinvalid : Status.invalidPort ≠ Status.ok := by decide
  unfold openPort at hok ⊢
  dsimp only at hok ⊢
  split at hok
  · exact absurd hok hsystem
  next hlisted =>
  have hswitched : (m.switchDriverPort true direction (m.getDeviceForDeviceId d).key p).1 = .ok := by
    by_contra hfailed
    rw [if_neg hfailed] at hok
    exact hinvalid hok
  rw [if_neg hlisted]
  dsimp only
  have hsame : (m.switchDriverPort true direction (m.getDeviceForDeviceId d).key
      p).2.getDeviceForDeviceId d = m.getDeviceForDeviceId d :=
    getDeviceForDeviceId_congr (m.serves_switchDriverPort true direction _ p).devices d
  unfold closePort
  dsimp only
  rw [hsame, if_neg hlisted]
  unfold switchDriverPort at hswitched ⊢
  cases hkey : (m.getDeviceForDeviceId d).key.2 with
  | usb =>
      obtain ⟨hclose, hnew⟩ := hroll hkey
      rw [hkey] at hswitched
      dsimp only at hswitched ⊢
      have hopen : m.usb.hdi.openPort = .ok := by
        by_contra hfailed
        unfold UsbDriver.switchPort at hswitched
        dsimp only at hswitched
        rw [if_neg hfailed] at hswitched
        exact hfailed hswitched
      unfold UsbDriver.switchPort
      dsimp only
      rw [if_pos hopen]
      dsimp only
      rw [if_pos hclose]
      apply SameOpen.of_tables
      · exact fun i => Iff.rfl
      · intro port
        change port ∈ (m.usb.openPorts.add _).erase _ ↔ port ∈ m.usb.openPorts
        rw [AList.mem_erase, UnorderedSet.mem_add]
        constructor
        · rintro ⟨hne, rfl | hold⟩
          · contradiction
          · exact hold
        · intro hold
          refine ⟨?_, Or.inr hold⟩
          rintro rfl
          exact hnew hold
      · exact fun i => rfl
  | ble =>
      rw [hkey] at hswitched
      dsimp only at hswitched ⊢
      apply SameOpen.of_tables
      · exact fun i => Iff.rfl
      · exact fun port => Iff.rfl
      · exact BleDriver.closePort_openPort hswitched

end MidiDeviceManager

namespace MidiServiceController

variable {s t : MidiServiceController MidiDeviceManager}

/-- The same clients, devices, connections and requests, and the same devices and ports open at the
drivers. Empty sets of clients are ignored. -/
structure Untouched (s t : MidiServiceController MidiDeviceManager) : Prop where
  clients : t.clients = s.clients
  clientResourceInfo : t.clientResourceInfo = s.clientResourceInfo
  appClients : ∀ uid, t.appClients uid = s.appClients uid
  deviceClientContexts : t.deviceClientContexts = s.deviceClientContexts
  activeBleDevices : t.activeBleDevices = s.activeBleDevices
  pendingBleConnections : t.pendingBleConnections = s.pendingBleConnections
  drivers : s.deviceManager.SameOpen t.deviceManager

theorem Untouched.refl (s : MidiServiceController MidiDeviceManager) : s.Untouched s :=
  ⟨rfl, rfl, fun _ => rfl, rfl, rfl, rfl, .refl _⟩

theorem untouched_of_sameOpen {m : MidiDeviceManager} (h : s.deviceManager.SameOpen m) :
    s.Untouched { s with deviceManager := m } :=
  ⟨rfl, rfl, fun _ => rfl, rfl, rfl, rfl, h⟩

theorem untouched_createMidiInServer (uid : Uid) (object : RemoteObject) (server : MidiInServer)
    (added : Bool) (s : MidiServiceController MidiDeviceManager) :
    (s.createMidiInServer uid object server added).status = .ok ∨
      s.Untouched (s.createMidiInServer uid object server added).state := by
  have happ : ∀ u, UnorderedMap.getD (s.appClientMap.insert uid (s.appClients uid)) u ∅ =
      s.appClients u := by
    intro u
    rw [UnorderedMap.getD_insert]
    split
    · next h => rw [h]
    · rfl
  unfold createMidiInServer
  dsimp only
  split
  · exact Or.inr ⟨rfl, rfl, fun _ => rfl, rfl, rfl, rfl, .refl _⟩
  split
  · exact Or.inr ⟨rfl, rfl, happ, rfl, rfl, rfl, .refl _⟩
  split
  · exact Or.inr ⟨rfl, rfl, happ, rfl, rfl, rfl, .refl _⟩
  split
  · exact Or.inr ⟨rfl, rfl, happ, rfl, rfl, rfl, .refl _⟩
  · exact Or.inl rfl

theorem untouched_openDevice (permitted : Bool) (c : ClientId) (d : DeviceId)
    (s : MidiServiceController MidiDeviceManager) :
    (s.openDevice MidiDeviceManager.api permitted c d).status = .ok ∨
      s.Untouched (s.openDevice MidiDeviceManager.api permitted c d).state := by
  have hself := Untouched.refl s
  unfold openDevice
  split
  · exact Or.inr hself
  split
  · exact Or.inr hself
  split
  · exact Or.inr hself
  split
  · split
    · exact Or.inr hself
    · exact Or.inl rfl
  · dsimp only
    split
    · next hfailed =>
        have hmanager : (MidiDeviceManager.api.openDevice d s.deviceManager).2 = s.deviceManager :=
          MidiDeviceManager.openDevice_failed hfailed
        rw [hmanager]
        exact Or.inr hself
    · exact Or.inl rfl

theorem untouched_openBleDevice (c : ClientId) (address : Address) (callback : RemoteObject)
    (hclean : s.deviceManager.ble.FailsCleanly) :
    (s.openBleDevice MidiDeviceManager.api c address callback).status = .ok ∨
      s.Untouched (s.openBleDevice MidiDeviceManager.api c address callback).state := by
  have hself := Untouched.refl s
  unfold openBleDevice
  split
  · exact Or.inr hself
  split
  · exact Or.inr hself
  split
  · exact Or.inl rfl
  · unfold enqueueBleConnectionRequest
    split
    · exact Or.inl rfl
    · next hnone =>
        dsimp only
        split
        · next hfailed =>
            right
            have htable : (s.deviceManager.ble.openDevice address).2.devices =
                s.deviceManager.ble.devices := hclean address hfailed
            have hopen : s.deviceManager.SameOpen
                (MidiDeviceManager.api.openBleDevice address s.deviceManager).2 := by
              apply MidiDeviceManager.SameOpen.of_tables
              · exact fun i => Iff.rfl
              · exact fun port => Iff.rfl
              · exact fun i => congrArg _ htable
            have herased := UnorderedMap.erase_of_notMem (AList.lookup_eq_none.mp hnone)
            exact ⟨rfl, rfl, fun _ => rfl, rfl, rfl, herased, hopen⟩
        · exact Or.inl rfl

/-- No client has the port open. -/
def Unconnected (s : MidiServiceController MidiDeviceManager) (direction : PortDirection)
    (d : DeviceId) (p : PortIndex) : Prop :=
  ∀ context, s.deviceClientContexts.lookup d = some context → p ∉ context.connections direction

theorem untouched_openPort (direction : PortDirection) {ready : Status} {env : PortEnv}
    (permitted : Bool) (c : ClientId) {d : DeviceId} {p : PortIndex}
    (hroll : ready ≠ .ok → s.Unconnected direction d p →
      s.deviceManager.CanRollBack direction d p) :
    (s.openPort MidiDeviceManager.api direction ready env permitted c d p).status = .ok ∨
      s.Untouched
        (s.openPort MidiDeviceManager.api direction ready env permitted c d p).state := by
  have hself := Untouched.refl s
  unfold openPort
  split
  · exact Or.inr hself
  split
  · exact Or.inr hself
  next context hcontext =>
  split
  · exact Or.inr hself
  split
  · exact Or.inr hself
  split
  · exact Or.inr hself
  split
  · unfold connectToExistingPort
    dsimp only
    split_ifs
    · exact Or.inr hself
    · exact Or.inr hself
    · exact Or.inl rfl
  · next hnew =>
      unfold createNewPortConnection emplacePortConnection
      dsimp only
      split
      · next hfailed =>
          have hmanager : (MidiDeviceManager.api.openPort direction d p s.deviceManager).2 =
              s.deviceManager := MidiDeviceManager.openPort_failed hfailed
          rw [hmanager]
          exact Or.inr hself
      next hopened =>
      split
      · next hready =>
          right
          apply untouched_of_sameOpen
          apply MidiDeviceManager.sameOpen_closePort_openPort (not_not.mp hopened)
          apply hroll hready
          intro context' hcontext'
          rw [hcontext] at hcontext'
          rw [← Option.some.inj hcontext']
          exact AList.lookup_eq_none.mp hnew
      · exact Or.inl rfl

end MidiServiceController

/-- The calls that open something. The booleans and environments are the answers of the calls that
leave the repository. -/
inductive OpenRequest
  | createMidiInServer (callingUid : Uid) (object : RemoteObject) (server : MidiInServer)
      (added : Bool)
  | openDevice (permitted : Bool) (clientId : ClientId) (deviceId : DeviceId)
  | openBleDevice (clientId : ClientId) (address : Address) (callback : RemoteObject)
  | openInputPort (env : MidiServiceController.PortEnv) (permitted : Bool) (clientId : ClientId)
      (deviceId : DeviceId) (portIndex : PortIndex)
  | openOutputPort (env : MidiServiceController.PortEnv) (permitted : Bool) (clientId : ClientId)
      (deviceId : DeviceId) (portIndex : PortIndex)

namespace OpenRequest

/-- What the call returns, and the state it leaves. -/
def call (s : MidiServiceController MidiDeviceManager) : OpenRequest → Locked MidiDeviceManager
  | createMidiInServer uid object server added => s.createMidiInServer uid object server added
  | openDevice permitted c d => s.openDevice MidiDeviceManager.api permitted c d
  | openBleDevice c address callback => s.openBleDevice MidiDeviceManager.api c address callback
  | openInputPort env permitted c d p => s.openInputPort MidiDeviceManager.api env permitted c d p
  | openOutputPort env permitted c d p => s.openOutputPort MidiDeviceManager.api env permitted c d p

/-- Where the connection to a port that the driver has opened fails, the port can be closed
again. -/
def RollsBack (s : MidiServiceController MidiDeviceManager) : OpenRequest → Prop
  | openInputPort env _ _ d p =>
      env.add ≠ .ok → s.Unconnected .input d p → s.deviceManager.CanRollBack .input d p
  | openOutputPort env _ _ d p =>
      env.start ≠ .ok ∨ env.add ≠ .ok → s.Unconnected .output d p →
        s.deviceManager.CanRollBack .output d p
  | _ => True

/-- A call that returns an error changes nothing: no client, no record, no device or connection, no
address or request, and no device or port of a driver. A failed call of the Bluetooth driver leaves
its table alone, and a port that has to be closed again can be. -/
theorem failed_request_changes_nothing {s : MidiServiceController MidiDeviceManager}
    (request : OpenRequest) (hfailed : (request.call s).status ≠ .ok)
    (hclean : s.deviceManager.ble.FailsCleanly) (hroll : request.RollsBack s) :
    s.Untouched (request.call s).state := by
  cases request with
  | createMidiInServer uid object server added =>
      exact (MidiServiceController.untouched_createMidiInServer uid object server added
        s).resolve_left hfailed
  | openDevice permitted c d =>
      exact (MidiServiceController.untouched_openDevice permitted c d s).resolve_left hfailed
  | openBleDevice c address callback =>
      exact (MidiServiceController.untouched_openBleDevice c address callback
        hclean).resolve_left hfailed
  | openInputPort env permitted c d p =>
      exact (MidiServiceController.untouched_openPort .input permitted c hroll).resolve_left hfailed
  | openOutputPort env permitted c d p =>
      apply (MidiServiceController.untouched_openPort .output permitted c _).resolve_left hfailed
      intro hready
      apply hroll
      split at hready
      · next hstart => exact Or.inl hstart
      · exact Or.inr hready

/-- A client that has opened the one USB device of a manager whose HDI service answers the close
of a port as given. -/
def openedDevice (closePort : Status) : MidiServiceController MidiDeviceManager :=
  MidiServiceController.runAll MidiDeviceManager.api
    { deviceManager :=
        { devices := [{ midiDeviceInfo := { deviceId := 1001, driverDeviceId := 1 } }]
          nextDeviceId := 1001
          usb := { hdi := { closePort := closePort } } } }
    [.createMidiInServer 7 0 {} true, .openDevice true 1 1001]

/-- It opens an output port, and the worker thread of the connection cannot be started. -/
def workerless : OpenRequest := openOutputPort { start := .systemError } true 1 1001 0

theorem reachable_openedDevice (closePort : Status) :
    (controllerMachine MidiDeviceManager.api).Reachable (openedDevice closePort) :=
  MidiServiceController.reachable_runAll MidiDeviceManager.api _ (.init ⟨_, rfl⟩)

theorem failed_request_changes_nothing_workerless :
    (workerless.call (openedDevice .ok)).status = .systemError ∧
      (openedDevice .ok).Untouched (workerless.call (openedDevice .ok)).state := by
  have hstatus : (workerless.call (openedDevice .ok)).status = .systemError := by decide +kernel
  refine ⟨hstatus, ?_⟩
  apply failed_request_changes_nothing workerless
  · rw [hstatus]
    decide
  · exact BleDriver.failsCleanly_of_fresh (by decide +kernel)
  · intro _ _ _
    exact ⟨by decide +kernel, by decide +kernel⟩

/-- When the HDI service does not close the port either, it stays open. -/
theorem failed_request_leaves_port_open :
    ¬∀ s (request : OpenRequest), (controllerMachine MidiDeviceManager.api).Reachable s →
      s.deviceManager.ble.FailsCleanly → (request.call s).status ≠ .ok →
      s.Untouched (request.call s).state := by
  intro h
  have hstatus : (workerless.call (openedDevice (-1))).status ≠ .ok := by decide +kernel
  have hclean : (openedDevice (-1)).deviceManager.ble.FailsCleanly :=
    BleDriver.failsCleanly_of_fresh (by decide +kernel)
  have hports := (h (openedDevice (-1)) workerless (reachable_openedDevice (-1)) hclean
    hstatus).drivers.ports
  have hafter : (1, PortDirection.output, 0) ∈
      (workerless.call (openedDevice (-1))).state.deviceManager.usb.openPorts := by decide +kernel
  have hbefore : (1, PortDirection.output, 0) ∉
      (openedDevice (-1)).deviceManager.usb.openPorts := by decide +kernel
  rw [← MidiDeviceManager.mem_openPorts_usb, hports, MidiDeviceManager.mem_openPorts_usb] at hafter
  exact hbefore hafter

end OpenRequest

end MidiFramework.Server
