import MidiFramework.Server.Basic

/-!
# The device drivers

The USB driver passes every call on to the HDI service. The Bluetooth driver
keeps one context for each GATT client and is called back by the Bluetooth
stack. What the service and the stack answer is a field of the driver that the
environment may change at any time. A section of the Bluetooth driver also
gives the report it makes to the manager after it has released its lock.
-/

namespace MidiFramework.Server

open Foundation

/-! ### USB -/

structure HdiPort where
  portId : Int
  name : String
  direction : Int
  deriving DecidableEq, Repr

structure HdiDevice where
  deviceId : Int
  deviceName : String := ""
  protocol : Int := 1
  ports : List HdiPort := []
  deriving DecidableEq, Repr

/-- What the HDI service answers. -/
structure Hdi where
  getDeviceList : Status × List HdiDevice := (.ok, [])
  openDevice : Status := .ok
  closeDevice : Status := .ok
  openPort : Status := .ok
  closePort : Status := .ok

/-- The driver, with the sets of devices and of ports the HDI service holds open. -/
structure UsbDriver where
  hdi : Hdi := {}
  opened : UnorderedSet Int := ∅
  openPorts : UnorderedSet (Int × PortDirection × PortIndex) := ∅

namespace UsbDriver

/-- `ConvertToDeviceInformation`. -/
def convertPorts (ports : List HdiPort) : List MidiPortInfo :=
  ports.filterMap fun port =>
    if port.direction = 0 then some ⟨port.portId, port.name, .input⟩
    else if port.direction = 1 then some ⟨port.portId, port.name, .output⟩
    else none

def information (device : HdiDevice) : DeviceInformation where
  midiDeviceInfo :=
    { driverDeviceId := device.deviceId, deviceType := .usb, deviceName := device.deviceName }
  portInfos := convertPorts device.ports

def getRegisteredDevices (s : UsbDriver) : List DeviceInformation :=
  if s.hdi.getDeviceList.1 ≠ .ok then []
  else
    (s.hdi.getDeviceList.2.filter fun device =>
      device.protocol == 1 || device.protocol == 2).map information

def openDevice (deviceId : Int) (s : UsbDriver) : Status × UsbDriver :=
  if s.hdi.openDevice = .ok then (.ok, { s with opened := s.opened.add deviceId })
  else (s.hdi.openDevice, s)

def closeDevice (deviceId : Int) (s : UsbDriver) : Status × UsbDriver :=
  if s.hdi.closeDevice = .ok then (.ok, { s with opened := s.opened.erase deviceId })
  else (s.hdi.closeDevice, s)

/-- `OpenInputPort`, `OpenOutputPort`, `CloseInputPort` and `CloseOutputPort`. -/
def switchPort (isOpen : Bool) (direction : PortDirection) (deviceId : Int) (portIndex : PortIndex)
    (s : UsbDriver) : Status × UsbDriver :=
  match isOpen with
  | true =>
      if s.hdi.openPort = .ok then
        (.ok, { s with openPorts := s.openPorts.add (deviceId, direction, portIndex) })
      else (s.hdi.openPort, s)
  | false =>
      if s.hdi.closePort = .ok then
        (.ok, { s with openPorts := s.openPorts.erase (deviceId, direction, portIndex) })
      else (s.hdi.closePort, s)

theorem hdi_switchPort (isOpen : Bool) (direction : PortDirection) (deviceId : Int)
    (portIndex : PortIndex) (s : UsbDriver) :
    (s.switchPort isOpen direction deviceId portIndex).2.hdi = s.hdi ∧
      (s.switchPort isOpen direction deviceId portIndex).2.opened = s.opened := by
  unfold switchPort
  split <;> split <;> exact ⟨rfl, rfl⟩

end UsbDriver

/-! ### Bluetooth -/

inductive ConnState
  | connecting
  | connected
  | disconnecting
  | disconnected
  deriving DecidableEq, Repr

/-- The context of a GATT client. The callback to the manager is named by the address its
completion is for. The number of the session is not in the source: it tells the sessions that
use one client id apart, and is zero for a context that no `OpenDevice` made. -/
structure DeviceCtx where
  id : Int := 0
  address : Address := ""
  connected : Bool := false
  serviceReady : Bool := false
  notifyEnabled : Bool := false
  inputOpen : Bool := false
  outputOpen : Bool := false
  deviceCallback : Option Address := none
  deviceName : String := ""
  session : Nat := 0
  deriving DecidableEq, Repr

namespace DeviceCtx

def isOpen (d : DeviceCtx) : PortDirection → Bool
  | .input => d.inputOpen
  | .output => d.outputOpen

def setOpen (d : DeviceCtx) (isOpen : Bool) : PortDirection → DeviceCtx
  | .input => { d with inputOpen := isOpen }
  | .output => { d with outputOpen := isOpen }

/-- `GetPortInfo`. -/
def getPortInfo (deviceName : String) : List MidiPortInfo :=
  [⟨0, deviceName ++ " Out", .output⟩, ⟨1, deviceName ++ " In", .input⟩]

/-- What `NotifyManager` and `GetRegisteredDevices` tell of a context. -/
def information (d : DeviceCtx) : DeviceInformation where
  midiDeviceInfo :=
    { driverDeviceId := d.id, deviceType := .ble, address := d.address
      deviceName := d.deviceName }
  portInfos := getPortInfo d.deviceName

end DeviceCtx

/-- What the Bluetooth stack answers. -/
structure Gatt where
  register : Int := 1
  connect : Int := 0
  searchServices : Int := 0
  getService : Bool := true
  registerNotification : Int := 0
  getDeviceName : Address → Option String := fun _ => none

structure BleDriver where
  devices : UnorderedMap Int DeviceCtx := ∅
  gatt : Gatt := {}
  sessions : Nat := 0

/-- What a section of the Bluetooth driver leaves: a report of success or failure to the manager,
and whether it cleans up the device next. -/
structure Reported where
  driver : BleDriver
  report : Option (Bool × DeviceCtx) := none
  cleanup : Bool := false

def isHexDigit (c : Char) : Bool :=
  ('0' ≤ c && c ≤ '9') || ('A' ≤ c && c ≤ 'F') || ('a' ≤ c && c ≤ 'f')

/-- The loop of `ParseMac` with the number of bytes it has read. -/
def parseMacBytes : Nat → List Char → Bool
  | bi, c1 :: c2 :: rest =>
      if isHexDigit c1 && isHexDigit c2 then
        if bi + 1 = 6 then true
        else
          match rest with
          | ':' :: rest => parseMacBytes (bi + 1) rest
          | _ => false
      else false
  | _, _ => false

def parseMac (mac : Address) : Bool := mac.utf8ByteSize == 17 && parseMacBytes 0 mac.toList

namespace BleDriver

def getRegisteredDevices (s : BleDriver) : List DeviceInformation :=
  (s.devices.entries.filter fun e => e.2.connected).map fun e => e.2.information

/-- The context of a new session. -/
def newContext (s : BleDriver) (address : Address) : DeviceCtx where
  id := s.gatt.register
  address := address
  deviceCallback := some address
  session := s.sessions + 1

def insertContext (s : BleDriver) (clientId : Int) (d : DeviceCtx) : BleDriver :=
  { s with devices := s.devices.insert clientId d, sessions := max s.sessions d.session }

def eraseContext (s : BleDriver) (clientId : Int) : BleDriver :=
  { s with devices := s.devices.erase clientId }

/-- `OpenDevice` with an address. -/
def openDevice (address : Address) (s : BleDriver) : Status × BleDriver :=
  if s.devices.entries.any fun e => e.2.address == address then (.deviceAlreadyOpen, s)
  else
    let clientId := s.gatt.register
    if clientId ≤ 0 then (-1, s)
    else
      let opened := s.insertContext clientId (s.newContext address)
      if !parseMac address then (.genericInvalidArgument, opened.eraseContext clientId)
      else if s.gatt.connect ≠ 0 then (-1, opened.eraseContext clientId)
      else (.ok, opened)

/-- The section that takes a context out of the table and reports its failure. -/
def dropContext (clientId : Int) (s : BleDriver) : Reported :=
  match s.devices.lookup clientId with
  | none => { driver := s }
  | some d => { driver := s.eraseContext clientId, report := some (false, d) }

/-- `CloseDevice`. -/
def closeDevice (deviceId : Int) (s : BleDriver) : Status × Reported :=
  (if deviceId ∈ s.devices then .ok else -1, s.dropContext deviceId)

/-- `CleanupDeviceAndNotifyFailure`. -/
def cleanupDeviceAndNotifyFailure (clientId : Int) (s : BleDriver) : Reported :=
  s.dropContext clientId

def onConnectionState (clientId : Int) (connState : ConnState) (status : Int) (s : BleDriver) :
    Reported :=
  if connState = .disconnected ∨ status ≠ 0 ∧ connState ≠ .connected then s.dropContext clientId
  else if connState = .connected then
    let d := s.devices.getD clientId {}
    { driver := s.insertContext clientId { d with connected := true }
      cleanup := s.gatt.searchServices ≠ 0 }
  else { driver := s }

def onServicesComplete (clientId : Int) (status : Int) (s : BleDriver) : Reported :=
  if status ≠ 0 then { driver := s, cleanup := true }
  else
    match s.devices.lookup clientId with
    | none => { driver := s }
    | some d =>
        if s.gatt.getService then
          { driver := s.insertContext clientId { d with serviceReady := true }
            cleanup := s.gatt.registerNotification ≠ 0 }
        else { driver := s, cleanup := true }

/-- The context that `OnRegisterNotify` reports as fully online. -/
def onlineContext (s : BleDriver) (d : DeviceCtx) : DeviceCtx :=
  { d with notifyEnabled := true, deviceName := (s.gatt.getDeviceName d.address).getD d.deviceName }

def onRegisterNotify (clientId : Int) (status : Int) (s : BleDriver) : Reported :=
  match s.devices.lookup clientId with
  | none => { driver := s }
  | some d =>
      if status = 0 then
        { driver := s.insertContext clientId (s.onlineContext d)
          report := some (true, s.onlineContext d) }
      else
        { driver := s.insertContext clientId { d with notifyEnabled := false }
          cleanup := true }

/-- The one port of a direction that a device has. -/
def portOf : PortDirection → PortIndex
  | .input => 1
  | .output => 0

/-- `OpenInputPort`, `OpenOutputPort`, `CloseInputPort` and `CloseOutputPort`: the port must not
be in the state it is set to. -/
def switchPort (isOpen : Bool) (direction : PortDirection) (deviceId : Int) (portIndex : PortIndex)
    (s : BleDriver) : Status × BleDriver :=
  if portIndex ≠ portOf direction then (-1, s)
  else
    match s.devices.entries.find? fun e => e.2.id == deviceId with
    | none => (-1, s)
    | some e =>
        if e.2.isOpen direction = isOpen then (-1, s)
        else (.ok, s.insertContext e.1 (e.2.setOpen isOpen direction))

end BleDriver

/-! ### How the table of the Bluetooth driver changes -/

namespace BleDriver

/-- Where a context comes from: it is one of the earlier table, at most further on; or a
disconnected client's callback made it; or a new session did. -/
inductive Descends (s : BleDriver) (clientId : Int) (d : DeviceCtx) : Prop
  | same (d₀ : DeviceCtx) (found : s.devices.lookup clientId = some d₀)
      (session : d.session = d₀.session) (id : d.id = d₀.id) (address : d.address = d₀.address)
      (callback : d.deviceCallback = d₀.deviceCallback) (connected : d₀.connected → d.connected)
  | unclaimed (session : d.session = 0) (callback : d.deviceCallback = none)
  | opened (later : s.sessions < d.session) (id : d.id = clientId)
      (callback : d.deviceCallback = some d.address)

/-- What every section does to the table. -/
structure Evolves (s s' : BleDriver) : Prop where
  sessions : s.sessions ≤ s'.sessions
  numbered : (∀ i d, s.devices.lookup i = some d → d.session ≤ s.sessions) →
    ∀ i d, s'.devices.lookup i = some d → d.session ≤ s'.sessions
  descends : ∀ i d, s'.devices.lookup i = some d → s.Descends i d

variable {s s' s'' : BleDriver}

theorem Evolves.refl (s : BleDriver) : s.Evolves s where
  sessions := le_rfl
  numbered := fun h => h
  descends := fun _ d h => .same d h rfl rfl rfl rfl id

theorem Evolves.trans (h : s.Evolves s') (h' : s'.Evolves s'') : s.Evolves s'' where
  sessions := h.sessions.trans h'.sessions
  numbered := fun hs => h'.numbered (h.numbered hs)
  descends := by
    intro i d hd
    cases h'.descends i d hd with
    | unclaimed session callback => exact .unclaimed session callback
    | opened later id callback => exact .opened (h.sessions.trans_lt later) id callback
    | same d₀ found session id address callback connected =>
        cases h.descends i d₀ found with
        | same d₁ found₁ session₁ id₁ address₁ callback₁ connected₁ =>
            exact .same d₁ found₁ (session.trans session₁) (id.trans id₁)
              (address.trans address₁) (callback.trans callback₁)
              fun hd => connected (connected₁ hd)
        | unclaimed session₁ callback₁ =>
            exact .unclaimed (session.trans session₁) (callback.trans callback₁)
        | opened later₁ id₁ callback₁ =>
            apply Descends.opened (session ▸ later₁) (id.trans id₁)
            rw [callback, callback₁, address]

theorem evolves_eraseContext (s : BleDriver) (i : Int) : s.Evolves (s.eraseContext i) := by
  have hold : ∀ j d, (s.eraseContext i).devices.lookup j = some d →
      s.devices.lookup j = some d := by
    intro j d hd
    rw [eraseContext, UnorderedMap.lookup_erase_eq] at hd
    split at hd
    · contradiction
    · exact hd
  exact ⟨le_rfl, fun hs j d hd => hs j d (hold j d hd),
    fun j d hd => .same d (hold j d hd) rfl rfl rfl rfl id⟩

/-- A context that descends from the table may be put into it. -/
theorem evolves_insertContext {i : Int} {d : DeviceCtx} (h : s.Descends i d) :
    s.Evolves (s.insertContext i d) where
  sessions := le_max_left _ _
  numbered := by
    intro hs j d' hd
    rw [insertContext, UnorderedMap.lookup_insert_eq] at hd
    split at hd
    · exact Option.some.inj hd ▸ le_max_right _ _
    · exact (hs j d' hd).trans (le_max_left _ _)
  descends := by
    intro j d' hd
    rw [insertContext, UnorderedMap.lookup_insert_eq] at hd
    split at hd
    · next hj => exact hj ▸ Option.some.inj hd ▸ h
    · exact .same d' hd rfl rfl rfl rfl id

theorem evolves_openDevice (address : Address) (s : BleDriver) :
    s.Evolves (s.openDevice address).2 := by
  have hopened : s.Evolves (s.insertContext s.gatt.register (s.newContext address)) :=
    evolves_insertContext (.opened (Nat.lt_succ_self _) rfl rfl)
  have herased := hopened.trans (evolves_eraseContext _ s.gatt.register)
  unfold openDevice
  split
  · exact .refl s
  · dsimp only
    split
    · exact .refl s
    · split
      · exact herased
      · split
        · exact herased
        · exact hopened

theorem evolves_dropContext (i : Int) (s : BleDriver) : s.Evolves (s.dropContext i).driver := by
  unfold dropContext
  split
  · exact .refl s
  · exact evolves_eraseContext s i

theorem evolves_onConnectionState (i : Int) (connState : ConnState) (status : Int)
    (s : BleDriver) : s.Evolves (s.onConnectionState i connState status).driver := by
  unfold onConnectionState
  split
  · exact evolves_dropContext i s
  · split
    · apply evolves_insertContext
      unfold UnorderedMap.getD
      cases hd : s.devices.lookup i with
      | none => exact .unclaimed rfl rfl
      | some d => exact .same d hd rfl rfl rfl rfl fun _ => rfl
    · exact .refl s

theorem evolves_onServicesComplete (i : Int) (status : Int) (s : BleDriver) :
    s.Evolves (s.onServicesComplete i status).driver := by
  unfold onServicesComplete
  split
  · exact .refl s
  · split
    · exact .refl s
    · next d hd =>
        split
        · exact evolves_insertContext (.same d hd rfl rfl rfl rfl id)
        · exact .refl s

theorem evolves_onRegisterNotify (i : Int) (status : Int) (s : BleDriver) :
    s.Evolves (s.onRegisterNotify i status).driver := by
  unfold onRegisterNotify
  split
  · exact .refl s
  · next d hd =>
      split <;> exact evolves_insertContext (.same d hd rfl rfl rfl rfl id)

theorem evolves_switchPort (isOpen : Bool) (direction : PortDirection) (deviceId : Int)
    (portIndex : PortIndex) (s : BleDriver) :
    s.Evolves (s.switchPort isOpen direction deviceId portIndex).2 := by
  unfold switchPort
  split
  · exact .refl s
  · split
    · exact .refl s
    · next e he =>
        have hfound := UnorderedMap.mem_entries.mp (List.mem_of_find?_eq_some he)
        split
        · exact .refl s
        · apply evolves_insertContext
          cases direction <;> exact .same e.2 hfound rfl rfl rfl rfl id

/-- Every listed device is a connected context of the table. -/
theorem mem_getRegisteredDevices {e : DeviceInformation} :
    e ∈ s.getRegisteredDevices ↔
      ∃ i d, s.devices.lookup i = some d ∧ d.connected ∧ d.information = e := by
  unfold getRegisteredDevices
  constructor
  · intro h
    obtain ⟨entry, hentry, rfl⟩ := List.mem_map.mp h
    obtain ⟨hmem, hconnected⟩ := List.mem_filter.mp hentry
    exact ⟨entry.1, entry.2, UnorderedMap.mem_entries.mp hmem, hconnected, rfl⟩
  · rintro ⟨i, d, hd, hconnected, rfl⟩
    apply List.mem_map.mpr
    exact ⟨⟨i, d⟩, List.mem_filter.mpr ⟨UnorderedMap.mem_entries.mpr hd, hconnected⟩, rfl⟩

end BleDriver

end MidiFramework.Server
