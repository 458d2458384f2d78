import MidiFramework.Server.Drivers

/-!
# The device manager

`MidiDeviceManager` guards its device list and its map of driver ids by two
locks. Each definition on a manager below is one section under one of them or
one call of a driver; `CompareDevices` works on the two lists of a refresh. The
operations that the service controller calls while it holds its own lock are
collected at the end.
-/

namespace MidiFramework.Server

open Foundation

/-- A driver's name for a device. -/
abbrev DriverKey := Int × DeviceType

namespace DeviceInformation

def id (e : DeviceInformation) : DeviceId := e.midiDeviceInfo.deviceId

def key (e : DeviceInformation) : DriverKey :=
  (e.midiDeviceInfo.driverDeviceId, e.midiDeviceInfo.deviceType)

def withId (e : DeviceInformation) (d : DeviceId) : DeviceInformation :=
  { e with midiDeviceInfo := { e.midiDeviceInfo with deviceId := d } }

@[simp] theorem id_withId (e : DeviceInformation) (d : DeviceId) : (e.withId d).id = d := rfl

@[simp] theorem key_withId (e : DeviceInformation) (d : DeviceId) : (e.withId d).key = e.key := rfl

@[simp] theorem portInfos_withId (e : DeviceInformation) (d : DeviceId) :
    (e.withId d).portInfos = e.portInfos := rfl

@[simp] theorem withId_withId (e : DeviceInformation) (d d' : DeviceId) :
    (e.withId d).withId d' = e.withId d' := rfl

end DeviceInformation

@[simp] theorem DeviceCtx.key_information (d : DeviceCtx) : d.information.key = (d.id, .ble) := rfl

structure MidiDeviceManager where
  devices : List DeviceInformation := []
  driverIdToMidiId : UnorderedMap DriverKey DeviceId := ∅
  nextDeviceId : DeviceId := 1000
  /-- The order of the loop over `drivers_`. -/
  usbFirst : Bool := true
  usb : UsbDriver := {}
  ble : BleDriver := {}

namespace MidiDeviceManager

/-! ### Ids -/

/-- `GetOrCreateDeviceId`. -/
def getOrCreateDeviceId (key : DriverKey) (m : MidiDeviceManager) : DeviceId × MidiDeviceManager :=
  match m.driverIdToMidiId.lookup key with
  | some d => (d, m)
  | none =>
      let d := m.nextDeviceId + 1
      (d, { m with nextDeviceId := d, driverIdToMidiId := m.driverIdToMidiId.insert key d })

/-- The mapping section of `HandleBleDisconnect`: the id of the driver's device, or 0. -/
def takeDeviceId (key : DriverKey) (m : MidiDeviceManager) : DeviceId × MidiDeviceManager :=
  match m.driverIdToMidiId.lookup key with
  | some d => (d, { m with driverIdToMidiId := m.driverIdToMidiId.erase key })
  | none => (0, m)

/-- The mapping section of `CompareDevices`. -/
def eraseDriverIds (keys : List DriverKey) (m : MidiDeviceManager) : MidiDeviceManager :=
  { m with driverIdToMidiId := keys.foldl (fun ids key => ids.erase key) m.driverIdToMidiId }

/-! ### The device list -/

def find? (d : DeviceId) (m : MidiDeviceManager) : Option DeviceInformation :=
  m.devices.find? fun e => e.id == d

def getDeviceForDeviceId (d : DeviceId) (m : MidiDeviceManager) : DeviceInformation :=
  (m.find? d).getD {}

def getDevicePorts (d : DeviceId) (m : MidiDeviceManager) : Status × List MidiPortInfo :=
  let device := m.getDeviceForDeviceId d
  if device.id = 0 then (.genericInvalidArgument, []) else (.ok, device.portInfos)

/-- The devices of the drivers, as `UpdateDevices` collects them. -/
def snapshot (m : MidiDeviceManager) : List DeviceInformation :=
  if m.usbFirst then m.usb.getRegisteredDevices ++ m.ble.getRegisteredDevices
  else m.ble.getRegisteredDevices ++ m.usb.getRegisteredDevices

def installDevices (devices : List DeviceInformation) (m : MidiDeviceManager) :
    MidiDeviceManager :=
  { m with devices := devices }

/-- The devices of one list whose key is not in the other, as `CompareDevices` collects the added
and the removed ones. -/
def without (devices others : List DeviceInformation) : List DeviceInformation :=
  devices.filter fun e => !others.any fun o => o.key == e.key

/-- The list section of `HandleBleConnect`: the device as it is listed now, and whether it is
new. -/
def listBleDevice (device : DeviceInformation) (d : DeviceId) (m : MidiDeviceManager) :
    (DeviceInformation × Bool) × MidiDeviceManager :=
  match m.find? d with
  | some found => ((found, false), m)
  | none => ((device.withId d, true), { m with devices := m.devices ++ [device.withId d] })

/-- The list section of `HandleBleDisconnect`. -/
def unlistBleDevice (d : DeviceId) (m : MidiDeviceManager) :
    Option DeviceInformation × MidiDeviceManager :=
  (m.find? d, { m with devices := m.devices.eraseP fun e => e.id == d })

/-! ### Calls of the drivers -/

def openDriverDevice (key : DriverKey) (m : MidiDeviceManager) : Status × MidiDeviceManager :=
  match key.2 with
  | .usb =>
      let opened := m.usb.openDevice key.1
      (opened.1, { m with usb := opened.2 })
  | .ble => (-1, m)

def openDevice (d : DeviceId) (m : MidiDeviceManager) : Status × MidiDeviceManager :=
  let device := m.getDeviceForDeviceId d
  if device.id = 0 then (.systemError, m) else m.openDriverDevice device.key

def openBleDevice (address : Address) (m : MidiDeviceManager) : Status × MidiDeviceManager :=
  let opened := m.ble.openDevice address
  (opened.1, { m with ble := opened.2 })

/-- The port calls of the drivers. -/
def switchDriverPort (isOpen : Bool) (direction : PortDirection) (key : DriverKey)
    (portIndex : PortIndex) (m : MidiDeviceManager) : Status × MidiDeviceManager :=
  match key.2 with
  | .usb =>
      let switched := m.usb.switchPort isOpen direction key.1 portIndex
      (switched.1, { m with usb := switched.2 })
  | .ble =>
      let switched := m.ble.switchPort isOpen direction key.1 portIndex
      (switched.1, { m with ble := switched.2 })

/-- `OpenInputPort` and `OpenOutputPort`. -/
def openPort (direction : PortDirection) (d : DeviceId) (portIndex : PortIndex)
    (m : MidiDeviceManager) : Status × MidiDeviceManager :=
  let device := m.getDeviceForDeviceId d
  if device.id = 0 then (.systemError, m)
  else
    let opened := m.switchDriverPort true direction device.key portIndex
    (if opened.1 = .ok then .ok else .invalidPort, opened.2)

/-- `CloseInputPort` and `CloseOutputPort`. -/
def closePort (direction : PortDirection) (d : DeviceId) (portIndex : PortIndex)
    (m : MidiDeviceManager) : Status × MidiDeviceManager :=
  let device := m.getDeviceForDeviceId d
  if device.id = 0 then (.systemError, m)
  else m.switchDriverPort false direction device.key portIndex

/-- The manager as the controller calls it. -/
def api : DeviceManager MidiDeviceManager where
  openDevice := openDevice
  openBleDevice := openBleDevice
  getDeviceForDeviceId := getDeviceForDeviceId
  getDevicePorts := getDevicePorts
  openPort := openPort
  closePort := closePort

/-! ### What a call leaves alone -/

/-- The controller's calls change neither the list nor the ids, nor what the outside answers, and
take the drivers on. -/
structure Serves (m m' : MidiDeviceManager) : Prop where
  devices : m'.devices = m.devices
  ids : m'.driverIdToMidiId = m.driverIdToMidiId
  next : m'.nextDeviceId = m.nextDeviceId
  hdi : m'.usb.hdi = m.usb.hdi
  ble : m.ble.Evolves m'.ble

variable {m m' m'' : MidiDeviceManager}

theorem Serves.refl (m : MidiDeviceManager) : m.Serves m := ⟨rfl, rfl, rfl, rfl, .refl _⟩

theorem Serves.trans (h : m.Serves m') (h' : m'.Serves m'') : m.Serves m'' where
  devices := h'.devices.trans h.devices
  ids := h'.ids.trans h.ids
  next := h'.next.trans h.next
  hdi := h'.hdi.trans h.hdi
  ble := h.ble.trans h'.ble

theorem serves_ble {b : BleDriver} (h : m.ble.Evolves b) : m.Serves { m with ble := b } :=
  ⟨rfl, rfl, rfl, rfl, h⟩

theorem serves_openDevice (d : DeviceId) (m : MidiDeviceManager) : m.Serves (m.openDevice d).2 := by
  unfold openDevice
  dsimp only
  split
  · exact .refl m
  · unfold openDriverDevice
    split
    · have hhdi : (m.usb.openDevice (m.getDeviceForDeviceId d).key.1).2.hdi = m.usb.hdi := by
        unfold UsbDriver.openDevice
        split <;> rfl
      exact ⟨rfl, rfl, rfl, hhdi, .refl _⟩
    · exact .refl m

theorem serves_openBleDevice (address : Address) (m : MidiDeviceManager) :
    m.Serves (m.openBleDevice address).2 :=
  serves_ble (m.ble.evolves_openDevice address)

theorem serves_switchDriverPort (isOpen : Bool) (direction : PortDirection) (key : DriverKey)
    (portIndex : PortIndex) (m : MidiDeviceManager) :
    m.Serves (m.switchDriverPort isOpen direction key portIndex).2 := by
  unfold switchDriverPort
  split
  · exact ⟨rfl, rfl, rfl, (m.usb.hdi_switchPort isOpen direction key.1 portIndex).1, .refl _⟩
  · exact serves_ble (m.ble.evolves_switchPort isOpen direction key.1 portIndex)

theorem serves_openPort (direction : PortDirection) (d : DeviceId) (portIndex : PortIndex)
    (m : MidiDeviceManager) : m.Serves (m.openPort direction d portIndex).2 := by
  unfold openPort
  dsimp only
  split
  · exact .refl m
  · exact m.serves_switchDriverPort true direction _ portIndex

theorem serves_closePort (direction : PortDirection) (d : DeviceId) (portIndex : PortIndex)
    (m : MidiDeviceManager) : m.Serves (m.closePort direction d portIndex).2 := by
  unfold closePort
  dsimp only
  split
  · exact .refl m
  · exact m.serves_switchDriverPort false direction _ portIndex

end MidiDeviceManager

end MidiFramework.Server
