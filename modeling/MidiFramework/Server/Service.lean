import MidiFramework.Foundation.Threads
import MidiFramework.Server.Manager
import MidiFramework.Server.ManagerCalls

/-!
# The service as a system of threads

Binder calls, hot-plug events and callbacks of the Bluetooth stack each run in
a thread. A task is one section under one lock: of the controller, of the
manager or of a driver. What the code does after it has released the lock is
the tasks that follow, in the order of the code, so a call made from a callback
comes before the rest of the call around it. The sections of the manager and of
the drivers that the controller calls under its lock belong to its section.

The history is not in the source. It records what the sections did to the
device list, what was announced and answered, and in which order.
-/

namespace MidiFramework.Server

open Foundation

/-- A call of a session's callback: with success or failure, for the completion of an address. -/
structure Report where
  number : Nat
  success : Bool
  address : Address
  device : DeviceCtx
  deriving DecidableEq, Repr

/-- The devices of the drivers as one refresh sees them, with the number of the refresh, how many
refreshes had begun by then and how many Bluetooth reports had reached the list. -/
structure Snapshot where
  refresh : Nat
  begun : Nat
  handled : Nat
  devices : List DeviceInformation
  deriving DecidableEq, Repr

/-- A notification that reached its client, and the permission of the client at that time. -/
structure Delivery where
  clientId : ClientId
  permitted : Bool
  change : DeviceChangeType
  deviceInfo : MidiDeviceInfo
  deriving DecidableEq, Repr

/-- A change of the device list, by its place in the order of all changes. -/
structure Edit where
  index : Nat
  deviceId : DeviceId
  change : DeviceChangeType
  deriving DecidableEq, Repr

/-- A handler of a Bluetooth report that reached the device list: the device of the report, and
whether the handler put it into the list or took it out. -/
structure BleHandling where
  device : DeviceCtx
  listed : Bool
  deriving DecidableEq, Repr

inductive Task
  | createMidiInServer (callingUid : Uid) (object : RemoteObject) (token : TokenId) (added : Bool)
  | getDevices (token : TokenId) (clientId : ClientId)
  | openDevice (token : TokenId) (clientId : ClientId) (deviceId : DeviceId)
  | closeDevice (clientId : ClientId) (deviceId : DeviceId)
  | openBleDevice (token : TokenId) (clientId : ClientId) (address : Address)
  | openPort (direction : PortDirection) (env : MidiServiceController.PortEnv) (token : TokenId)
      (clientId : ClientId) (deviceId : DeviceId) (portIndex : PortIndex)
  | closePort (direction : PortDirection) (clientId : ClientId) (deviceId : DeviceId)
      (portIndex : PortIndex)
  | destroyMidiClient (clientId : ClientId)
  | finishDestroyMidiClient
  | managerCloseDevice (deviceId : DeviceId)
  | driverCloseDevice (key : DriverKey)
  | notifyDeviceOpened (report : Option Nat) (answer : DeviceOpened)
  | notifyDeviceChange (device : DeviceInformation) (edit : Edit)
  | deliver (clientId : ClientId) (server : MidiInServer) (change : DeviceChangeType)
      (deviceInfo : MidiDeviceInfo)
  | updateDevices
  | takeSnapshot (refresh : Nat)
  | assignIds (snapshot : Snapshot) (rest named : List DeviceInformation)
  | installDevices (snapshot : Snapshot) (devices : List DeviceInformation)
  | eraseDriverIds (keys : List DriverKey)
  | handleBleConnect (report : Report)
  | listBleDevice (report : Report) (deviceId : DeviceId)
  | handleBleDisconnect (report : Report)
  | unlistBleDevice (report : Report) (deviceId : DeviceId)
  | handleBleOpenComplete (report : Report) (deviceId : DeviceId) (deviceInfo : MidiDeviceInfo)
  | onConnectionState (clientId : Int) (connState : ConnState) (status : Int)
  | onServicesComplete (clientId : Int) (status : Int)
  | onRegisterNotify (clientId : Int) (status : Int)
  | cleanupDevice (clientId : Int)

/-- Whether a new thread may start with the task. -/
def Task.external : Task → Bool
  | .createMidiInServer .. | .getDevices .. | .openDevice .. | .closeDevice .. | .openBleDevice ..
  | .openPort .. | .closePort .. | .destroyMidiClient .. | .updateDevices
  | .onConnectionState .. | .onServicesComplete .. | .onRegisterNotify .. => true
  | _ => false

/-- What happened to the device list: its edits and their announcements, the refreshes, and the
handlers of Bluetooth reports, in the order in which they reached the list. -/
structure ListHistory where
  edits : List Edit := []
  notified : List Edit := []
  begun : Nat := 0
  snapshots : List Snapshot := []
  installed : List Snapshot := []
  handled : List BleHandling := []

/-- A report when it is made, with the requests that wait for its address and the number of clients
destroyed by then. -/
structure FiledReport where
  report : Report
  waiting : List PendingBleConnection
  destroyed : Nat

/-- What happened to the requests for Bluetooth devices. -/
structure RequestHistory where
  calls : Nat := 0
  reports : List FiledReport := []
  answers : List DeviceOpened := []
  destroyed : List ClientId := []

structure Service where
  controller : MidiServiceController MidiDeviceManager
  granted : TokenId → Bool := fun _ => true
  listing : ListHistory := {}
  requests : RequestHistory := {}
  deliveries : List Delivery := []

namespace Service

def manager (s : Service) : MidiDeviceManager := s.controller.deviceManager

def setManager (s : Service) (m : MidiDeviceManager) : Service :=
  { s with controller := { s.controller with deviceManager := m } }

/-! ### Calls of the clients -/

/-- `UpdateBluetoothPermission` of the client's server object. -/
def updateBluetoothPermission (token : TokenId) (clientId : ClientId) (s : Service) : Service :=
  match s.controller.clients.lookup clientId with
  | none => s
  | some _ =>
      { s with
        controller :=
          { s.controller with
            clients := s.controller.clients.insert clientId
              { callerTokenId := token, hasBluetoothPermission := s.granted token } } }

def createMidiInServer (callingUid : Uid) (object : RemoteObject) (token : TokenId) (added : Bool)
    (s : Service) : Service × List Task :=
  let server : MidiInServer :=
    { callerTokenId := token, hasBluetoothPermission := s.granted token }
  ({ s with controller := (s.controller.createMidiInServer callingUid object server added).state },
    [])

/-- What `MidiInServer::GetDevices` returns to a caller with the token. -/
def visibleDevices (token : TokenId) (s : Service) : List MidiDeviceInfo :=
  let devices := s.manager.devices.map DeviceInformation.midiDeviceInfo
  if s.granted token then devices else devices.filter fun info => info.deviceType ≠ .ble

/-- `MidiServiceController::GetDevicePorts`. -/
def getDevicePorts (token : TokenId) (deviceId : DeviceId) (s : Service) :
    Status × List MidiPortInfo :=
  if s.controller.isBluetoothDevice deviceId && !s.granted token then (.permissionDenied, [])
  else s.manager.getDevicePorts deviceId

def openDevice (token : TokenId) (clientId : ClientId) (deviceId : DeviceId) (s : Service) :
    Locked MidiDeviceManager :=
  s.controller.openDevice MidiDeviceManager.api (s.granted token) clientId deviceId

def openPort (direction : PortDirection) (env : MidiServiceController.PortEnv) (token : TokenId)
    (clientId : ClientId) (deviceId : DeviceId) (portIndex : PortIndex) (s : Service) :
    Locked MidiDeviceManager :=
  match direction with
  | .input =>
      s.controller.openInputPort MidiDeviceManager.api env (s.granted token) clientId deviceId
        portIndex
  | .output =>
      s.controller.openOutputPort MidiDeviceManager.api env (s.granted token) clientId deviceId
        portIndex

def closeDevice (clientId : ClientId) (deviceId : DeviceId) (s : Service) : Service × List Task :=
  let closed := s.controller.closeDevice MidiDeviceManager.api clientId deviceId
  ({ s with controller := closed.state }, closed.devicesToClose.map .managerCloseDevice)

/-- `MidiInServer::OpenBleDevice`. The callback of a request is named by the number of the call. -/
def openBleDevice (token : TokenId) (clientId : ClientId) (address : Address) (s : Service) :
    Service × List Task :=
  let s := s.updateBluetoothPermission token clientId
  if !s.granted token then (s, [])
  else
    let opened := s.controller.openBleDevice MidiDeviceManager.api clientId address
      s.requests.calls
    ({ s with
        controller := opened.state
        requests := { s.requests with calls := s.requests.calls + 1 } },
      opened.answers.map (.notifyDeviceOpened none))

def destroyMidiClient (clientId : ClientId) (s : Service) : Service × List Task :=
  if clientId ∉ s.controller.clients then (s, [])
  else
    let gone := s.controller.destroyMidiClient MidiDeviceManager.api clientId
    ({ s with
        controller := gone.state
        requests := { s.requests with destroyed := s.requests.destroyed ++ [clientId] } },
      gone.devicesToClose.map .managerCloseDevice ++ [.finishDestroyMidiClient])

/-! ### Closing in the manager -/

/-- `MidiDeviceManager::CloseDevice` up to the call of the driver. -/
def managerCloseDevice (deviceId : DeviceId) (s : Service) : Service × List Task :=
  let device := s.manager.getDeviceForDeviceId deviceId
  (s, if device.id = 0 then [] else [.driverCloseDevice device.key])

/-! ### Reports of the Bluetooth driver -/

/-- `NotifyManager`, up to the handler that the callback runs. -/
def notifyManager (report : Option (Bool × DeviceCtx)) (s : Service) : Service × List Task :=
  match report with
  | none => (s, [])
  | some (success, device) =>
      match device.deviceCallback with
      | none => (s, [])
      | some address =>
          let report : Report := ⟨s.requests.reports.length, success, address, device⟩
          let filed : FiledReport :=
            { report := report
              waiting := s.controller.pendingBleConnections.getD address []
              destroyed := s.requests.destroyed.length }
          ({ s with requests := { s.requests with reports := s.requests.reports ++ [filed] } },
            [if success then .handleBleConnect report else .handleBleDisconnect report])

/-- A section of the Bluetooth driver and what it does after releasing the lock. -/
def bleSection (clientId : Int) (reported : Reported) (s : Service) : Service × List Task :=
  let s := s.setManager { s.manager with ble := reported.driver }
  let notified := s.notifyManager reported.report
  (notified.1, notified.2 ++ if reported.cleanup then [.cleanupDevice clientId] else [])

def driverCloseDevice (key : DriverKey) (s : Service) : Service × List Task :=
  match key.2 with
  | .usb => (s.setManager { s.manager with usb := (s.manager.usb.closeDevice key.1).2 }, [])
  | .ble => s.bleSection key.1 (s.manager.ble.closeDevice key.1).2

/-! ### The device list -/

/-- The list changes by the edits, which are announced next. -/
def announce (changes : List (DeviceChangeType × DeviceInformation)) (s : Service) :
    Service × List Task :=
  let edits := (changes.zipIdx s.listing.edits.length).map fun x =>
    (x.1.2, (⟨x.2, x.1.2.id, x.1.1⟩ : Edit))
  ({ s with listing := { s.listing with edits := s.listing.edits ++ edits.map Prod.snd } },
    edits.map fun x => .notifyDeviceChange x.1 x.2)

/-- A report reaches the list. -/
def handle (device : DeviceCtx) (listed : Bool) (s : Service) : Service :=
  { s with listing := { s.listing with handled := s.listing.handled ++ [⟨device, listed⟩] } }

def updateDevices (s : Service) : Service × List Task :=
  let refresh := s.listing.begun + 1
  ({ s with listing := { s.listing with begun := refresh } }, [.takeSnapshot refresh])

def takeSnapshot (refresh : Nat) (s : Service) : Service × List Task :=
  let snapshot : Snapshot :=
    { refresh := refresh
      begun := s.listing.begun
      handled := s.listing.handled.length
      devices := s.manager.snapshot }
  ({ s with listing := { s.listing with snapshots := s.listing.snapshots ++ [snapshot] } },
    [.assignIds snapshot snapshot.devices []])

/-- The loop of `UpdateDevices` that looks up the ids, one device a section. -/
def assignIds (snapshot : Snapshot) (rest named : List DeviceInformation) (s : Service) :
    Service × List Task :=
  match rest with
  | [] => (s, [.installDevices snapshot named])
  | e :: rest =>
      let found := s.manager.getOrCreateDeviceId e.key
      (s.setManager found.2, [.assignIds snapshot rest (named ++ [e.withId found.1])])

/-- The swap of the lists and `CompareDevices`. -/
def installDevices (snapshot : Snapshot) (devices : List DeviceInformation) (s : Service) :
    Service × List Task :=
  let old := s.manager.devices
  let added := MidiDeviceManager.without devices old
  let removed := MidiDeviceManager.without old devices
  let s := s.setManager (s.manager.installDevices devices)
  let s := { s with
    listing := { s.listing with installed := s.listing.installed ++ [snapshot] } }
  let announced := s.announce
    (added.map (fun e => (.add, e)) ++ removed.map fun e => (.removed, e))
  (announced.1,
    (if removed.isEmpty then []
      else [.eraseDriverIds (removed.map DeviceInformation.key)]) ++ announced.2)

/-- `HandleBleConnect`. -/
def handleBleConnect (report : Report) (s : Service) : Service × List Task :=
  let found := s.manager.getOrCreateDeviceId report.device.information.key
  (s.setManager found.2, [.listBleDevice report found.1])

def listBleDevice (report : Report) (deviceId : DeviceId) (s : Service) : Service × List Task :=
  let listed := s.manager.listBleDevice report.device.information deviceId
  let s := (s.setManager listed.2).handle report.device true
  let announced := s.announce (if listed.1.2 then [(.add, listed.1.1)] else [])
  (announced.1,
    .handleBleOpenComplete report deviceId listed.1.1.midiDeviceInfo :: announced.2)

/-- `HandleBleDisconnect`. -/
def handleBleDisconnect (report : Report) (s : Service) : Service × List Task :=
  let taken := s.manager.takeDeviceId report.device.information.key
  (s.setManager taken.2, [.unlistBleDevice report taken.1])

/-- Only where the device is not in the list is the completion called. -/
def unlistBleDevice (report : Report) (deviceId : DeviceId) (s : Service) : Service × List Task :=
  let unlisted := s.manager.unlistBleDevice deviceId
  let s := (s.setManager unlisted.2).handle report.device false
  match unlisted.1 with
  | none =>
      (s, [.handleBleOpenComplete report deviceId report.device.information.midiDeviceInfo])
  | some found => s.announce [(.removed, found)]

def handleBleOpenComplete (report : Report) (deviceId : DeviceId) (deviceInfo : MidiDeviceInfo)
    (s : Service) : Service × List Task :=
  let completed := s.controller.handleBleOpenComplete report.address report.success deviceId
    deviceInfo
  ({ s with controller := completed.state },
    completed.devicesToClose.map .managerCloseDevice ++
      completed.answers.map (.notifyDeviceOpened (some report.number)))

/-! ### Notifications -/

def notifyDeviceOpened (answer : DeviceOpened) (s : Service) : Service :=
  { s with requests := { s.requests with answers := s.requests.answers ++ [answer] } }

/-- `MidiServiceController::NotifyDeviceChange`, up to the calls of the clients. -/
def notifyDeviceChange (device : DeviceInformation) (edit : Edit) (s : Service) :
    Service × List Task :=
  ({ s with
      controller := s.controller.notifyDeviceChange edit.change device.id
      listing := { s.listing with notified := s.listing.notified ++ [edit] } },
    s.controller.collectClientsToNotify.map fun e =>
      .deliver e.1 e.2 edit.change device.midiDeviceInfo)

/-- `MidiInServer::NotifyDeviceChange`. A server object that is no longer registered is as it was
when the clients were collected. -/
def deliver (clientId : ClientId) (server : MidiInServer) (change : DeviceChangeType)
    (deviceInfo : MidiDeviceInfo) (s : Service) : Service :=
  let server := s.controller.clients.getD clientId server
  let s := s.updateBluetoothPermission server.callerTokenId clientId
  let permitted := s.granted server.callerTokenId
  if !permitted && deviceInfo.deviceType == .ble then s
  else { s with deliveries := s.deliveries ++ [⟨clientId, permitted, change, deviceInfo⟩] }

/-! ### The system -/

/-- The section of a task. -/
def run (t : Task) (s : Service) : Service × List Task :=
  match t with
  | .createMidiInServer uid object token added => s.createMidiInServer uid object token added
  | .getDevices token c => (s.updateBluetoothPermission token c, [])
  | .openDevice token c d => ({ s with controller := (s.openDevice token c d).state }, [])
  | .closeDevice c d => s.closeDevice c d
  | .openBleDevice token c address => s.openBleDevice token c address
  | .openPort direction env token c d p =>
      ({ s with controller := (s.openPort direction env token c d p).state }, [])
  | .closePort direction c d p =>
      ({ s with
          controller := (s.controller.closePort MidiDeviceManager.api direction c d p).state }, [])
  | .destroyMidiClient c => s.destroyMidiClient c
  | .finishDestroyMidiClient =>
      ({ s with controller := s.controller.finishDestroyMidiClient }, [])
  | .managerCloseDevice d => s.managerCloseDevice d
  | .driverCloseDevice key => s.driverCloseDevice key
  | .notifyDeviceOpened _ answer => (s.notifyDeviceOpened answer, [])
  | .notifyDeviceChange device edit => s.notifyDeviceChange device edit
  | .deliver c server change info => (s.deliver c server change info, [])
  | .updateDevices => s.updateDevices
  | .takeSnapshot refresh => s.takeSnapshot refresh
  | .assignIds snapshot rest named => s.assignIds snapshot rest named
  | .installDevices snapshot devices => s.installDevices snapshot devices
  | .eraseDriverIds keys => (s.setManager (s.manager.eraseDriverIds keys), [])
  | .handleBleConnect report => s.handleBleConnect report
  | .listBleDevice report d => s.listBleDevice report d
  | .handleBleDisconnect report => s.handleBleDisconnect report
  | .unlistBleDevice report d => s.unlistBleDevice report d
  | .handleBleOpenComplete report d info => s.handleBleOpenComplete report d info
  | .onConnectionState i connState status =>
      s.bleSection i (s.manager.ble.onConnectionState i connState status)
  | .onServicesComplete i status => s.bleSection i (s.manager.ble.onServicesComplete i status)
  | .onRegisterNotify i status => s.bleSection i (s.manager.ble.onRegisterNotify i status)
  | .cleanupDevice i => s.bleSection i (s.manager.ble.cleanupDeviceAndNotifyFailure i)

/-- What the outside answers from now on. -/
def withAnswers (hdi : Hdi) (gatt : Gatt) (granted : TokenId → Bool) (s : Service) : Service :=
  { s.setManager
      { s.manager with
        usb := { s.manager.usb with hdi := hdi }
        ble := { s.manager.ble with gatt := gatt } } with
    granted := granted }

/-- What changes between sections: the answers of the outside, and the order of a map's loop. -/
inductive Environment (s : Service) : Service → Prop
  | answers (hdi : Hdi) (gatt : Gatt) (granted : TokenId → Bool) :
      Environment s (s.withAnswers hdi gatt granted)
  | rehash (c : MidiServiceController MidiDeviceManager) (h : Unlocked s.controller c)
      (hmanager : c.deviceManager = s.manager) : Environment s { s with controller := c }
  | rehashBle (table : UnorderedMap Int DeviceCtx) (h : s.manager.ble.devices.Rehash table) :
      Environment s (s.setManager
        { s.manager with ble := { s.manager.ble with devices := table } })

/-- A manager without devices, and what the outside answers at first. -/
def initial (usbFirst : Bool) (hdi : Hdi) (gatt : Gatt) (granted : TokenId → Bool) : Service where
  controller :=
    { deviceManager := { usbFirst := usbFirst, usb := { hdi := hdi }, ble := { gatt := gatt } } }
  granted := granted

/-- The service with all its callers. -/
def sections : Sections Service Task where
  init := fun s => ∃ usbFirst hdi gatt granted, s = initial usbFirst hdi gatt granted
  starts := fun t => t.external
  environment := Environment
  run := run

/-! ### Runs that are written out -/

instance : DecidablePred sections.starts := fun t => inferInstanceAs (Decidable (t.external = true))

/-- The service before its first thread. -/
def start (hdi : Hdi) (gatt : Gatt) (granted : TokenId → Bool) : Config Service Task where
  shared := initial true hdi gatt granted

/-- The service after a run whose tasks pass the check. -/
theorem reachedWith_after {ok : Service → Multiset Task → Task → Prop}
    {check : Service → Task → Bool} (hcheck : ∀ s ts t, check s t → ok s ts t) {hdi : Hdi}
    {gatt : Gatt} {granted : TokenId → Bool} {turns : List (Turn Service Task)}
    (h : sections.Schedules check (start hdi gatt granted) turns) :
    sections.ReachedWith ok (sections.after (start hdi gatt granted) turns) :=
  Sections.ReachedWith.after (.init ⟨⟨true, hdi, gatt, granted, rfl⟩, rfl⟩)
    (Sections.permits_of_schedules hcheck h)

theorem reached_after {hdi : Hdi} {gatt : Gatt} {granted : TokenId → Bool}
    {turns : List (Turn Service Task)}
    (h : sections.Schedules (fun _ _ => true) (start hdi gatt granted) turns) :
    sections.Reached (sections.after (start hdi gatt granted) turns) :=
  reachedWith_after (fun _ _ _ _ => trivial) h

end Service

end MidiFramework.Server
