import MidiFramework.Server.Basic

/-!
# The service controller

`MidiServiceController` keeps its maps under one lock. Each definition below
is one locked section, together with what the caller does after releasing the
lock: devices to close in the manager and open callbacks to run. The manager
is a state of type `M` with the operations the controller calls while it holds
the lock.
-/

namespace MidiFramework.Server

open Foundation

def maxClients : Nat := 8
def maxClientsPerApp : Nat := 2
def maxDevicesPerClient : Nat := 16
def maxPortsPerClient : Nat := 64
def maxClientId : ClientId := 0xFFFFFFFF

structure ClientResourceInfo where
  uid : Uid := 0
  openDevices : UnorderedSet DeviceId := ∅
  openPortCount : Nat := 0

/-- The record without a device and the ports it had there. -/
def ClientResourceInfo.release (info : ClientResourceInfo) (deviceId : DeviceId)
    (portCount : Nat) : ClientResourceInfo :=
  { info with
    openDevices := info.openDevices.erase deviceId
    openPortCount := info.openPortCount - portCount }

/-- The clients of a port connection. -/
structure DeviceConnection where
  clients : List ClientId := []
  deriving DecidableEq, Repr

namespace DeviceConnection

def hasClientConnection (conn : DeviceConnection) (clientId : ClientId) : Bool :=
  conn.clients.any (· == clientId)

def addClientConnection (conn : DeviceConnection) (clientId : ClientId) : DeviceConnection where
  clients := conn.clients ++ [clientId]

def removeClientConnection (conn : DeviceConnection) (clientId : ClientId) : DeviceConnection where
  clients := conn.clients.filter (· ≠ clientId)

def isEmptyClientConnections (conn : DeviceConnection) : Bool := conn.clients.isEmpty

end DeviceConnection

abbrev PortConnections := UnorderedMap PortIndex DeviceConnection

structure DeviceClientContext where
  clients : UnorderedSet ClientId
  inputDeviceconnections : PortConnections := ∅
  outputDeviceconnections : PortConnections := ∅

namespace DeviceClientContext

def connections (context : DeviceClientContext) : PortDirection → PortConnections
  | .input => context.inputDeviceconnections
  | .output => context.outputDeviceconnections

def setConnections (context : DeviceClientContext) (connections : PortConnections) :
    PortDirection → DeviceClientContext
  | .input => { context with inputDeviceconnections := connections }
  | .output => { context with outputDeviceconnections := connections }

end DeviceClientContext

structure PendingBleConnection where
  clientId : ClientId
  callback : RemoteObject
  deriving DecidableEq, Repr

/-- The part of `MidiInServer` that decides what its client is shown. -/
structure MidiInServer where
  callerTokenId : TokenId := 0
  hasBluetoothPermission : Bool := false
  deriving DecidableEq, Repr

/-- The unload timer: its thread either waits or has ended. -/
structure UnloadTask where
  isUnloadPending : Bool := false
  unloadCancelled : Bool := false
  waiting : Bool := false
  unloads : Nat := 0
  deriving DecidableEq, Repr

namespace UnloadTask

/-- `CancelUnloadTask`; the join ends a waiting thread. -/
def cancelUnloadTask (u : UnloadTask) : UnloadTask :=
  if u.isUnloadPending then
    { u with unloadCancelled := true, waiting := false, isUnloadPending := false }
  else u

def scheduleUnloadTask (u : UnloadTask) : UnloadTask :=
  { u with unloadCancelled := false, isUnloadPending := true, waiting := true }

/-- The end of the wait in the timer's thread. -/
def expire (u : UnloadTask) : UnloadTask :=
  if u.waiting then { u with waiting := false, unloads := u.unloads + 1 } else u

end UnloadTask

/-- A call of `NotifyDeviceOpened` on the callback of a request. -/
structure DeviceOpened where
  request : PendingBleConnection
  opened : Bool
  deviceInfo : MidiDeviceInfo
  deriving DecidableEq, Repr

structure MidiServiceController (M : Type) where
  deviceClientContexts : UnorderedMap DeviceId DeviceClientContext := ∅
  clients : UnorderedMap ClientId MidiInServer := ∅
  activeBleDevices : UnorderedMap Address DeviceId := ∅
  pendingBleConnections : UnorderedMap Address (List PendingBleConnection) := ∅
  clientResourceInfo : UnorderedMap ClientId ClientResourceInfo := ∅
  appClientMap : UnorderedMap Uid (UnorderedSet ClientId) := ∅
  clientCallbackObjects : UnorderedMap ClientId RemoteObject := ∅
  deathRecipients : UnorderedSet ClientId := ∅
  currentClientId : ClientId := 0
  unload : UnloadTask := {}
  deviceManager : M

/-- A locked section: its result, and what is left to do without the lock. -/
structure Locked (M : Type) where
  status : Status
  state : MidiServiceController M
  devicesToClose : List DeviceId := []
  answers : List DeviceOpened := []

namespace MidiServiceController

variable {M : Type} (api : DeviceManager M)

/-! ### Access to the maps -/

/-- `clientResourceInfo_[clientId]`. -/
def resourceInfo (s : MidiServiceController M) (clientId : ClientId) : ClientResourceInfo :=
  s.clientResourceInfo.getD clientId {}

def setResourceInfo (s : MidiServiceController M) (clientId : ClientId)
    (info : ClientResourceInfo) : MidiServiceController M :=
  { s with clientResourceInfo := s.clientResourceInfo.insert clientId info }

def setContext (s : MidiServiceController M) (deviceId : DeviceId)
    (context : DeviceClientContext) : MidiServiceController M :=
  { s with deviceClientContexts := s.deviceClientContexts.insert deviceId context }

def eraseContext (s : MidiServiceController M) (deviceId : DeviceId) : MidiServiceController M :=
  { s with deviceClientContexts := s.deviceClientContexts.erase deviceId }

/-- `resourceInfo.openDevices.insert(deviceId)`. -/
def addOpenDevice (s : MidiServiceController M) (clientId : ClientId) (deviceId : DeviceId) :
    MidiServiceController M :=
  let info := s.resourceInfo clientId
  s.setResourceInfo clientId { info with openDevices := info.openDevices.add deviceId }

/-- `resourceInfo.openPortCount++`. -/
def addOpenPort (s : MidiServiceController M) (clientId : ClientId) : MidiServiceController M :=
  let info := s.resourceInfo clientId
  s.setResourceInfo clientId { info with openPortCount := info.openPortCount + 1 }

def isBluetoothDevice (s : MidiServiceController M) (deviceId : DeviceId) : Bool :=
  s.activeBleDevices.entries.any fun e => e.2 == deviceId

def removeFromActiveBleDevices (s : MidiServiceController M) (deviceId : DeviceId) :
    MidiServiceController M :=
  { s with activeBleDevices := s.activeBleDevices.eraseFirst fun _ d => d == deviceId }

/-! ### Clients -/

def nextClientId (current : ClientId) : ClientId :=
  (if current ≥ maxClientId then 0 else current) + 1

/-- The loop that looks for an id that is not in use, with a bound on its rounds. -/
def searchClientId (clients : UnorderedMap ClientId MidiInServer) : Nat → ClientId → Option ClientId
  | 0, _ => none
  | rounds + 1, current =>
      let clientId := nextClientId current
      if clientId ∈ clients then searchClientId clients rounds clientId else some clientId

/-- `CreateMidiInServer`. The flag says whether the new objects are created and the death
recipient is added. -/
def createMidiInServer (callingUid : Uid) (object : RemoteObject) (server : MidiInServer)
    (added : Bool) (s : MidiServiceController M) : Locked M :=
  let s := { s with unload := s.unload.cancelUnloadTask }
  if s.clients.keys.length ≥ maxClients then { status := .tooManyClients, state := s }
  else
    let appClients := s.appClientMap.getD callingUid ∅
    let s := { s with appClientMap := s.appClientMap.insert callingUid appClients }
    if appClients.size ≥ maxClientsPerApp then { status := .tooManyClients, state := s }
    else
      match searchClientId s.clients (s.clients.keys.length + 1) s.currentClientId with
      | none => { status := .systemError, state := s }
      | some clientId =>
          let s := { s with currentClientId := clientId }
          if !added then { status := .systemError, state := s }
          else
            let info := s.resourceInfo clientId
            { status := .ok
              state :=
                { s with
                  clientCallbackObjects := s.clientCallbackObjects.emplace clientId object
                  deathRecipients := s.deathRecipients.emplace clientId ()
                  clients := s.clients.emplace clientId server
                  clientResourceInfo :=
                    s.clientResourceInfo.insert clientId { info with uid := callingUid }
                  appClientMap := s.appClientMap.insert callingUid (appClients.add clientId) } }

/-! ### Opening devices -/

def openDevice (permitted : Bool) (clientId : ClientId) (deviceId : DeviceId)
    (s : MidiServiceController M) : Locked M :=
  if clientId ∉ s.clients then { status := .invalidClient, state := s }
  else if s.isBluetoothDevice deviceId && !permitted then
    { status := .permissionDenied, state := s }
  else if (s.resourceInfo clientId).openDevices.size ≥ maxDevicesPerClient then
    { status := .tooManyOpenDevices, state := s }
  else
    match s.deviceClientContexts.lookup deviceId with
    | some context =>
        if clientId ∈ context.clients then { status := .deviceAlreadyOpen, state := s }
        else
          { status := .ok
            state := (s.setContext deviceId { context with clients := context.clients.add clientId }
              ).addOpenDevice clientId deviceId }
    | none =>
        let opened := api.openDevice deviceId s.deviceManager
        let s := { s with deviceManager := opened.2 }
        if opened.1 ≠ .ok then { status := .genericInvalidArgument, state := s }
        else
          { status := .ok
            state := (s.setContext deviceId { clients := UnorderedSet.add ∅ clientId }
              ).addOpenDevice clientId deviceId }

/-- `TryAttachToActiveBleDevice`, with the state and the device's information when it attaches. -/
def tryAttachToActiveBleDevice (clientId : ClientId) (address : Address)
    (s : MidiServiceController M) : Option (MidiServiceController M × MidiDeviceInfo) :=
  match s.activeBleDevices.lookup address with
  | none => none
  | some deviceId =>
      match s.deviceClientContexts.lookup deviceId with
      | none => none
      | some context =>
          some ((s.setContext deviceId { context with clients := context.clients.add clientId }
              ).addOpenDevice clientId deviceId,
            (api.getDeviceForDeviceId deviceId s.deviceManager).midiDeviceInfo)

/-- `EnqueueBleConnectionRequest`. Only the first request for an address reaches the manager. -/
def enqueueBleConnectionRequest (address : Address) (request : PendingBleConnection)
    (s : MidiServiceController M) : Locked M :=
  match s.pendingBleConnections.lookup address with
  | some requests =>
      { status := .ok
        state :=
          { s with
            pendingBleConnections :=
              s.pendingBleConnections.insert address (requests ++ [request]) } }
  | none =>
      let opened := api.openBleDevice address s.deviceManager
      let s := { s with deviceManager := opened.2 }
      if opened.1 ≠ .ok then
        { status := opened.1
          state := { s with pendingBleConnections := s.pendingBleConnections.erase address } }
      else
        { status := .ok
          state :=
            { s with pendingBleConnections := s.pendingBleConnections.insert address [request] } }

def openBleDevice (clientId : ClientId) (address : Address) (callback : RemoteObject)
    (s : MidiServiceController M) : Locked M :=
  if clientId ∉ s.clients then { status := .invalidClient, state := s }
  else if (s.resourceInfo clientId).openDevices.size ≥ maxDevicesPerClient then
    { status := .tooManyOpenDevices, state := s }
  else
    match s.tryAttachToActiveBleDevice api clientId address with
    | some (s, deviceInfo) =>
        { status := .ok, state := s, answers := [⟨⟨clientId, callback⟩, true, deviceInfo⟩] }
    | none => s.enqueueBleConnectionRequest api address ⟨clientId, callback⟩

/-- `RegisterBleDeviceForPendingClientsLocked`, which is false when no waiting client is alive. -/
def registerBleDeviceForPendingClientsLocked (address : Address) (deviceId : DeviceId)
    (waitingClients : List PendingBleConnection) (s : MidiServiceController M) :
    Bool × MidiServiceController M :=
  let s := { s with activeBleDevices := s.activeBleDevices.insert address deviceId }
  let initialClients :=
    (waitingClients.map PendingBleConnection.clientId).filter fun clientId => clientId ∈ s.clients
  let s := initialClients.foldl (fun s clientId => s.addOpenDevice clientId deviceId) s
  if initialClients.isEmpty then (false, s)
  else
    match s.deviceClientContexts.lookup deviceId with
    | some context =>
        (true, s.setContext deviceId
          { context with clients := context.clients.addAll initialClients })
    | none => (true, s.setContext deviceId { clients := UnorderedSet.addAll ∅ initialClients })

def handleBleOpenComplete (address : Address) (success : Bool) (deviceId : DeviceId)
    (deviceInfo : MidiDeviceInfo) (s : MidiServiceController M) : Locked M :=
  let waitingClients := s.pendingBleConnections.getD address []
  let s := { s with pendingBleConnections := s.pendingBleConnections.erase address }
  let answers := waitingClients.map fun request => ⟨request, success, deviceInfo⟩
  if success then
    let registered := s.registerBleDeviceForPendingClientsLocked address deviceId waitingClients
    { status := .ok
      state := registered.2
      devicesToClose := if registered.1 then [] else [deviceId]
      answers := answers }
  else { status := .ok, state := s, answers := answers }

/-! ### Ports -/

/-- The results of `Start` and `AddClientConnection` of the connection that is opened. -/
structure PortEnv where
  start : Status := .ok
  add : Status := .ok

/-- `ConnectToExistingInputPort` and `ConnectToExistingOutputPort`. -/
def connectToExistingPort (direction : PortDirection) (env : PortEnv) (clientId : ClientId)
    (deviceId : DeviceId) (portIndex : PortIndex) (context : DeviceClientContext)
    (portConn : DeviceConnection) (s : MidiServiceController M) : Locked M :=
  if portConn.hasClientConnection clientId then { status := .portAlreadyOpen, state := s }
  else if (s.resourceInfo clientId).openPortCount ≥ maxPortsPerClient then
    { status := .tooManyOpenPorts, state := s }
  else if env.add ≠ .ok then { status := env.add, state := s }
  else
    let connections := (context.connections direction).insert portIndex
      (portConn.addClientConnection clientId)
    { status := .ok
      state := (s.setContext deviceId (context.setConnections connections direction)).addOpenPort
        clientId }

/-- What `CreateNewInputPortConnection` and `CreateNewOutputPortConnection` do once the manager
has opened the port. `ready` is the result of the calls on the new connection. -/
def emplacePortConnection (direction : PortDirection) (ready : Status) (clientId : ClientId)
    (deviceId : DeviceId) (portIndex : PortIndex) (context : DeviceClientContext)
    (s : MidiServiceController M) : Locked M :=
  if ready ≠ .ok then
    let closed := api.closePort direction deviceId portIndex s.deviceManager
    { status := ready, state := { s with deviceManager := closed.2 } }
  else
    let connections := (context.connections direction).emplace portIndex
      (DeviceConnection.addClientConnection {} clientId)
    { status := .ok
      state := (s.addOpenPort clientId).setContext deviceId
        (context.setConnections connections direction) }

/-- `CreateNewInputPortConnection` and `CreateNewOutputPortConnection`. -/
def createNewPortConnection (direction : PortDirection) (ready : Status) (clientId : ClientId)
    (deviceId : DeviceId) (portIndex : PortIndex) (context : DeviceClientContext)
    (s : MidiServiceController M) : Locked M :=
  let opened := api.openPort direction deviceId portIndex s.deviceManager
  let s := { s with deviceManager := opened.2 }
  if opened.1 ≠ .ok then { status := opened.1, state := s }
  else s.emplacePortConnection api direction ready clientId deviceId portIndex context

/-- `OpenInputPort` and `OpenOutputPort`. -/
def openPort (direction : PortDirection) (ready : Status) (env : PortEnv) (permitted : Bool)
    (clientId : ClientId) (deviceId : DeviceId) (portIndex : PortIndex)
    (s : MidiServiceController M) : Locked M :=
  if clientId ∉ s.clients then { status := .invalidClient, state := s }
  else
    match s.deviceClientContexts.lookup deviceId with
    | none => { status := .invalidDeviceHandle, state := s }
    | some context =>
        if clientId ∉ context.clients then { status := .systemError, state := s }
        else if s.isBluetoothDevice deviceId && !permitted then
          { status := .permissionDenied, state := s }
        else if (s.resourceInfo clientId).openPortCount ≥ maxPortsPerClient then
          { status := .tooManyOpenPorts, state := s }
        else
          match (context.connections direction).lookup portIndex with
          | some portConn =>
              s.connectToExistingPort direction env clientId deviceId portIndex context portConn
          | none =>
              s.createNewPortConnection api direction ready clientId deviceId portIndex context

def openInputPort (env : PortEnv) : Bool → ClientId → DeviceId → PortIndex →
    MidiServiceController M → Locked M :=
  openPort api .input env.add env

/-- A new output connection is started before the client is added to it. -/
def openOutputPort (env : PortEnv) : Bool → ClientId → DeviceId → PortIndex →
    MidiServiceController M → Locked M :=
  openPort api .output (if env.start ≠ .ok then env.start else env.add) env

/-- `CloseInputPortInner` and `CloseOutputPortInner`. -/
def closePortInner (direction : PortDirection) (clientId : ClientId) (deviceId : DeviceId)
    (portIndex : PortIndex) (s : MidiServiceController M) : Status × MidiServiceController M :=
  match s.deviceClientContexts.lookup deviceId with
  | none => (.invalidDeviceHandle, s)
  | some context =>
      if clientId ∉ context.clients then (.genericInvalidArgument, s)
      else
        match (context.connections direction).lookup portIndex with
        | none => (.invalidPort, s)
        | some portConn =>
            if !portConn.hasClientConnection clientId then (.invalidPort, s)
            else
              let info := s.resourceInfo clientId
              let s := s.setResourceInfo clientId
                { info with openPortCount := info.openPortCount - 1 }
              let portConn := portConn.removeClientConnection clientId
              if portConn.isEmptyClientConnections then
                let closed := api.closePort direction deviceId portIndex s.deviceManager
                let connections := (context.connections direction).erase portIndex
                (closed.1, { s with deviceManager := closed.2 }.setContext deviceId
                  (context.setConnections connections direction))
              else
                let connections := (context.connections direction).insert portIndex portConn
                (.ok, s.setContext deviceId (context.setConnections connections direction))

def closePort (direction : PortDirection) (clientId : ClientId) (deviceId : DeviceId)
    (portIndex : PortIndex) (s : MidiServiceController M) : Locked M :=
  if clientId ∉ s.clients then { status := .invalidClient, state := s }
  else
    let closed := s.closePortInner api direction clientId deviceId portIndex
    { status := closed.1, state := closed.2 }

def closeInputPort : ClientId → DeviceId → PortIndex → MidiServiceController M → Locked M :=
  closePort api .input

def closeOutputPort : ClientId → DeviceId → PortIndex → MidiServiceController M → Locked M :=
  closePort api .output

/-- The loop of `ClosePortforDevice` over the ports of one direction. -/
def closePorts (direction : PortDirection) (clientId : ClientId) (deviceId : DeviceId)
    (portIndexes : List PortIndex) (s : MidiServiceController M) : MidiServiceController M :=
  portIndexes.foldl
    (fun s portIndex => (s.closePortInner api direction clientId deviceId portIndex).2) s

def portIndexes (s : MidiServiceController M) (direction : PortDirection) (deviceId : DeviceId) :
    List PortIndex :=
  (s.deviceClientContexts.lookup deviceId).elim [] fun context =>
    (context.connections direction).keys

def closePortforDevice (clientId : ClientId) (deviceId : DeviceId)
    (s : MidiServiceController M) : MidiServiceController M :=
  let s := s.closePorts api .input clientId deviceId (s.portIndexes .input deviceId)
  s.closePorts api .output clientId deviceId (s.portIndexes .output deviceId)

/-! ### Closing devices -/

/-- The client leaves the context; the last one takes the context and the address with it. -/
def leaveContext (clientId : ClientId) (deviceId : DeviceId) (s : MidiServiceController M) :
    MidiServiceController M :=
  match s.deviceClientContexts.lookup deviceId with
  | none => s
  | some context =>
      let clients := context.clients.erase clientId
      if clients.keys.isEmpty then (s.eraseContext deviceId).removeFromActiveBleDevices deviceId
      else s.setContext deviceId { context with clients := clients }

/-- `CloseDevice` up to the release of the lock. The status is that of a close that leaves the
device open or whose later close in the manager succeeds. -/
def closeDevice (clientId : ClientId) (deviceId : DeviceId) (s : MidiServiceController M) :
    Locked M :=
  if clientId ∉ s.clients then { status := .invalidClient, state := s }
  else
    match s.deviceClientContexts.lookup deviceId with
    | none => { status := .invalidDeviceHandle, state := s }
    | some context =>
        if clientId ∉ context.clients then { status := .invalidDeviceHandle, state := s }
        else
          let s := s.closePortforDevice api clientId deviceId
          let info := s.resourceInfo clientId
          let s := s.setResourceInfo clientId
            { info with openDevices := info.openDevices.erase deviceId }
          { status := .ok
            state := s.leaveContext clientId deviceId
            devicesToClose :=
              if (context.clients.erase clientId).keys.isEmpty then [deviceId] else [] }

def cleanupDeviceForClient (clientId : ClientId) (deviceId : DeviceId)
    (s : MidiServiceController M) : MidiServiceController M :=
  if deviceId ∉ s.deviceClientContexts then s
  else (s.closePortforDevice api clientId deviceId).leaveContext clientId deviceId

def cleanupClientResources (clientId : ClientId) (clientUid : Uid) (s : MidiServiceController M) :
    MidiServiceController M :=
  let appClientMap :=
    match s.appClientMap.lookup clientUid with
    | none => s.appClientMap
    | some appClients =>
        let appClients := appClients.erase clientId
        if appClients.keys.isEmpty then s.appClientMap.erase clientUid
        else s.appClientMap.insert clientUid appClients
  { s with
    appClientMap := appClientMap
    clientResourceInfo := s.clientResourceInfo.erase clientId }

def removePendingBleConnectionsForClient (clientId : ClientId) (s : MidiServiceController M) :
    MidiServiceController M :=
  { s with
    pendingBleConnections := s.pendingBleConnections.filterMap fun _ requests =>
      let requests := requests.filter fun request => request.clientId ≠ clientId
      if requests.isEmpty then none else some requests }

/-- The devices of `CollectDevicesForClientDestruction`: those to clean, and of these the ones
that the client alone has open. -/
def collectDevicesForClientDestruction (clientId : ClientId) (s : MidiServiceController M) :
    List DeviceId × List DeviceId :=
  let entries := s.deviceClientContexts.entries.filter fun e => clientId ∈ e.2.clients
  (entries.map Sigma.fst, (entries.filter fun e => e.2.clients.size == 1).map Sigma.fst)

/-- The death recipient goes, and with it the callback object it was added to. -/
def removeDeathRecipient (clientId : ClientId) (s : MidiServiceController M) :
    MidiServiceController M :=
  if clientId ∉ s.deathRecipients then s
  else
    { s with
      clientCallbackObjects := s.clientCallbackObjects.erase clientId
      deathRecipients := s.deathRecipients.erase clientId }

def eraseClient (clientId : ClientId) (s : MidiServiceController M) : MidiServiceController M :=
  { s with clients := s.clients.erase clientId }

/-- `DestroyMidiClient` up to the release of the lock. -/
def destroyMidiClient (clientId : ClientId) (s : MidiServiceController M) : Locked M :=
  if clientId ∉ s.clients then { status := .invalidClient, state := s }
  else
    let devices := s.collectDevicesForClientDestruction clientId
    let clientUid := (s.resourceInfo clientId).uid
    let s := s.removeDeathRecipient clientId
    let s := devices.1.foldl (fun s deviceId => s.cleanupDeviceForClient api clientId deviceId) s
    let s := s.cleanupClientResources clientId clientUid
    let s := s.removePendingBleConnectionsForClient clientId
    { status := .ok
      state := s.eraseClient clientId
      devicesToClose := devices.2 }

/-- The last section of `DestroyMidiClient`. -/
def finishDestroyMidiClient (s : MidiServiceController M) : MidiServiceController M :=
  if s.clients.keys.isEmpty then { s with unload := s.unload.scheduleUnloadTask } else s

/-! ### Device changes -/

/-- `CalculateClientPortCountAndStopWorkers`, the count. -/
def calculateClientPortCount (clientId : ClientId) (context : DeviceClientContext) : Nat :=
  let count := UnorderedMap.total fun _ (conn : DeviceConnection) =>
    if conn.hasClientConnection clientId then 1 else 0
  count context.inputDeviceconnections + count context.outputDeviceconnections

def cleanupClientResourceForDevice (clientId : ClientId) (deviceId : DeviceId) (portCount : Nat)
    (s : MidiServiceController M) : MidiServiceController M :=
  match s.clientResourceInfo.lookup clientId with
  | none => s
  | some info => s.setResourceInfo clientId (info.release deviceId portCount)

def cleanupDeviceContext (deviceId : DeviceId) (s : MidiServiceController M) :
    MidiServiceController M :=
  match s.deviceClientContexts.lookup deviceId with
  | none => s
  | some context =>
      let s := context.clients.keys.foldl (fun s clientId =>
        s.cleanupClientResourceForDevice clientId deviceId
          (calculateClientPortCount clientId context)) s
      s.eraseContext deviceId

/-- The locked part of `NotifyDeviceChange`. -/
def notifyDeviceChange (change : DeviceChangeType) (deviceId : DeviceId)
    (s : MidiServiceController M) : MidiServiceController M :=
  match change with
  | .add => s
  | .removed => (s.removeFromActiveBleDevices deviceId).cleanupDeviceContext deviceId

/-- `CollectClientsToNotify`: the server objects, with the ids they are registered under. -/
def collectClientsToNotify (s : MidiServiceController M) : List ((_ : ClientId) × MidiInServer) :=
  s.clients.entries

end MidiServiceController

end MidiFramework.Server
