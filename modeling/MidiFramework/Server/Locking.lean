import MidiFramework.Foundation.LockOrder

/-!
# The mutexes of the service

The controller, the device manager, the Bluetooth driver, every connection and every
client's callback slot have mutexes of their own, and the calls of clients, the callbacks
of the drivers, the worker threads and the dump take them one inside the other. Here is
what each function does with them. They can be ranked, with the mutex of `Init` first and
that of the controller second, so the service has no deadlock.

## Implementation notes

A running thread counts as a mutex that it holds until it ends and that a join takes; that
a worker ends when it is joined is `OutputThread.stop_returns`. `wait_for` gives up its
mutex and takes it again, and ends by itself. The system's calls (GATT, HDI, the ability
manager) take no mutex of the service. A call of a client's callback may call the service
again before it returns. A virtual call of a driver is one of the Bluetooth driver or one
of the USB driver, which has no mutex.
-/

namespace MidiFramework.Server

namespace Locking

open Foundation LockCode

/-- `initMutex_`, `lock_` of the controller, and so on. A connection has a worker and the mutex of
its clients, and a client has a callback slot. -/
inductive Mutex
  | init
  | controller
  | unloadThread
  | unload
  | drivers
  | devices
  | mapping
  | worker (connection : Nat)
  | clients (connection : Nat)
  | slot (client : Nat)
  | ble
  | gInstance
  deriving DecidableEq

def Mutex.rank : Mutex → Nat
  | init => 0
  | controller => 1
  | unloadThread => 2
  | unload => 3
  | drivers => 4
  | devices => 5
  | mapping => 6
  | worker _ => 7
  | clients _ => 8
  | slot _ => 9
  | ble => 10
  | gInstance => 11

abbrev Code := LockCode Mutex

/-! ### A connection -/

namespace DeviceConnection

def addClientConnection (c : Nat) : Code := touch (.clients c)
def removeClientConnection (c : Nat) : Code := touch (.clients c)
def hasClientConnection (c : Nat) : Code := touch (.clients c)
def isEmptyClientConnections (c : Nat) : Code := touch (.clients c)
def getConnectedClientIds (c : Nat) : Code := touch (.clients c)
def snapshotClients (c : Nat) : Code := touch (.clients c)
def flushClientCache (c : Nat) : Code := touch (.clients c)
def updateNextTimer (c : Nat) : Code := touch (.clients c)

/-- The events of a batch one by one. -/
def handleDeviceUmpInput (c : Nat) : Code := loop (snapshotClients c)

/-- Also what the end of an output connection does. -/
def stop (c : Nat) : Code := maybe (touch (.worker c))

end DeviceConnection

/-! ### What the Bluetooth driver does under its mutex only -/

namespace BleMidiTransportDeviceDriver

/-- The check of the port index, and then the table. -/
def checkedCall : Code := maybe (touch .ble)

def openInputPort : Code := checkedCall
def closeInputPort : Code := checkedCall
def openOutputPort : Code := checkedCall
def closeOutputPort : Code := checkedCall
def handleUmpInput : Code := checkedCall
def openDevice : Code := touch .ble
def getRegisteredDevices : Code := touch .ble
def acquireInstance : Code := touch .gInstance

end BleMidiTransportDeviceDriver

namespace DeviceConnection

def flushSendCacheToDriver : Code := maybe (maybe BleMidiTransportDeviceDriver.handleUmpInput)

def drainAllClientsRings (c : Nat) : Code := within (.clients c) (loop flushSendCacheToDriver)

def collectDueEventsFromClientHeaps (c : Nat) : Code :=
  within (.clients c) (loop flushSendCacheToDriver)

def handleWakeupOnce (c : Nat) : Code :=
  block [drainAllClientsRings c, collectDueEventsFromClientHeaps c, flushSendCacheToDriver,
    updateNextTimer c]

def threadMain (c : Nat) : Code :=
  within (.worker c) (block [updateNextTimer c, loop (handleWakeupOnce c)])

end DeviceConnection

/-! ### Notifications -/

namespace MidiInServer

def acquire (client : Nat) : Code := touch (.slot client)
def onGuardReleased (client : Nat) : Code := touch (.slot client)

def closeAndDrain (client : Nat) : Code :=
  block [touch (.slot client), loop (touch (.slot client))]

/-- What a guard is taken for, if there is one. -/
def guarded (client : Nat) (call : Code) : Code :=
  block [acquire client, maybe (block [call, maybe (onGuardReleased client)])]

/-- A client without the permission is not told of Bluetooth devices. -/
def notifyDeviceChange (client : Nat) : Code := guarded client (maybe outside)

def notifyError (client : Nat) : Code := guarded client outside

end MidiInServer

/-! ### The device manager on behalf of a call -/

namespace MidiDeviceManager

def getDevices : Code := touch .devices
def getDeviceForDeviceId : Code := touch .devices
def getDevicePorts : Code := getDeviceForDeviceId
def getDriverForDeviceType : Code := touch .drivers
def getOrCreateDeviceId : Code := touch .mapping

/-- Finds the device and its driver, and calls the driver. -/
def onDevice (ble : Code) : Code :=
  block [getDeviceForDeviceId, maybe (block [getDriverForDeviceType, maybe (maybe ble)])]

/-- The Bluetooth driver refuses to open a device by its id. -/
def openDevice : Code := onDevice skip

def openInputPort : Code := onDevice BleMidiTransportDeviceDriver.openInputPort
def openOutputPort : Code := onDevice BleMidiTransportDeviceDriver.openOutputPort
def closeInputPort : Code := onDevice BleMidiTransportDeviceDriver.closeInputPort
def closeOutputPort : Code := onDevice BleMidiTransportDeviceDriver.closeOutputPort

def openBleDevice : Code :=
  block [getDriverForDeviceType, maybe BleMidiTransportDeviceDriver.openDevice]

end MidiDeviceManager

namespace MidiServiceController

open Locking.DeviceConnection

/-! ### Unloading -/

/-- Cancels a pending task, and joins its thread. -/
def endPendingTask : Code := maybe (block [touch .unload, maybe (touch .unloadThread)])

def cancelUnloadTask : Code := endPendingTask

def scheduleUnloadTask : Code := block [endPendingTask, touch .unload]

/-- The thread that `ScheduleUnloadTask` makes. -/
def unloadTask : Code := within .unloadThread (block [touch .unload, loop (touch .unload)])

/-! ### Calls that stay in the lock of the controller -/

def createMidiInServer : Code := maybe (within .controller cancelUnloadTask)

def openDevice : Code := within .controller (maybe MidiDeviceManager.openDevice)

def connectToExistingPort (c : Nat) : Code :=
  block [hasClientConnection c, maybe (addClientConnection c)]

def connectToExistingInputPort (c : Nat) : Code := connectToExistingPort c
def connectToExistingOutputPort (c : Nat) : Code := connectToExistingPort c

def createNewInputPortConnection : Code :=
  block [MidiDeviceManager.openInputPort,
    maybe (oneOf fun c => block [addClientConnection c, maybe MidiDeviceManager.closeInputPort])]

/-- A connection that is not kept stops at its end. -/
def createNewOutputPortConnection : Code :=
  oneOf fun c => block [MidiDeviceManager.openOutputPort,
    maybe (either MidiDeviceManager.closeOutputPort
      (block [addClientConnection c, maybe (block [stop c, MidiDeviceManager.closeOutputPort])])),
    stop c]

def openInputPort : Code :=
  within .controller
    (maybe (either (oneOf connectToExistingInputPort) createNewInputPortConnection))

def openOutputPort : Code :=
  within .controller
    (maybe (either (oneOf connectToExistingOutputPort) createNewOutputPortConnection))

def flushOutputPort : Code := within .controller (maybe (oneOf flushClientCache))

/-- The last client of a port closes it, and an output connection stops at its end. -/
def closePortInner (closePort : Code) (finish : Nat → Code) : Code :=
  maybe (oneOf fun c => block [hasClientConnection c, maybe (block [removeClientConnection c,
    isEmptyClientConnections c, maybe (block [closePort, finish c])])])

def closeInputPortInner : Code := closePortInner MidiDeviceManager.closeInputPort fun _ => skip
def closeOutputPortInner : Code := closePortInner MidiDeviceManager.closeOutputPort stop

def closeInputPort : Code := within .controller (maybe closeInputPortInner)
def closeOutputPort : Code := within .controller (maybe closeOutputPortInner)

def closePortforDevice : Code := block [loop closeInputPortInner, loop closeOutputPortInner]

/-- The end of a `DeviceClientContext`, whose output connections stop. -/
def dropContext : Code := loop (oneOf stop)

def cleanupDeviceForClient : Code := maybe (block [closePortforDevice, maybe dropContext])

def calculateClientPortCountAndStopWorkers : Code :=
  block [loop (oneOf hasClientConnection),
    loop (oneOf fun c => block [hasClientConnection c, maybe (stop c)])]

def cleanupDeviceContext : Code :=
  maybe (block [loop calculateClientPortCountAndStopWorkers, dropContext])

/-! ### Calls that leave it -/

def tryAttachToActiveBleDevice : Code := maybe MidiDeviceManager.getDeviceForDeviceId

def enqueueBleConnectionRequest : Code := maybe MidiDeviceManager.openBleDevice

def openBleDevice : Code :=
  maybe (either
    (within .controller (maybe (block [tryAttachToActiveBleDevice, enqueueBleConnectionRequest])))
    (block [within .controller tryAttachToActiveBleDevice, outside]))

def notifyDeviceChange : Code :=
  block [within .controller (maybe cleanupDeviceContext),
    loop (oneOf MidiInServer.notifyDeviceChange)]

def notifyError : Code := block [touch .controller, loop (oneOf MidiInServer.notifyError)]

/-- Without a client that waits, the device of a session that succeeded is closed. -/
def handleBleOpenComplete (closeDevice : Code) : Code :=
  block [touch .controller, closeDevice, loop (maybe outside)]

end MidiServiceController

/-! ### The way of a device that comes or goes -/

def MidiDeviceManager.handleBleDisconnect : Code :=
  block [touch .mapping, touch .devices,
    either (maybe (MidiServiceController.handleBleOpenComplete skip))
      MidiServiceController.notifyDeviceChange]

namespace BleMidiTransportDeviceDriver

def notifyManager (call : Code) : Code := block [acquireInstance, maybe call]

/-- Erases the device, and then says that it has gone. -/
def eraseAndNotify : Code :=
  block [touch .ble, maybe (notifyManager MidiDeviceManager.handleBleDisconnect)]

def closeDevice : Code := eraseAndNotify

def cleanupDeviceAndNotifyFailure : Code := block [acquireInstance, maybe eraseAndNotify]

end BleMidiTransportDeviceDriver

namespace MidiDeviceManager

def closeDevice : Code := onDevice BleMidiTransportDeviceDriver.closeDevice

def handleBleConnect : Code :=
  block [getOrCreateDeviceId, touch .devices,
    maybe (MidiServiceController.handleBleOpenComplete (maybe closeDevice)),
    maybe MidiServiceController.notifyDeviceChange]

def compareDevices : Code :=
  block [maybe (touch .mapping), loop MidiServiceController.notifyDeviceChange]

def updateDevices : Code :=
  block [within .drivers (loop (maybe BleMidiTransportDeviceDriver.getRegisteredDevices)),
    loop getOrCreateDeviceId, touch .devices, compareDevices]

def init : Code := within .init (maybe updateDevices)

end MidiDeviceManager

namespace BleMidiTransportDeviceDriver

def onConnectionState : Code :=
  block [acquireInstance,
    maybe (either eraseAndNotify (block [touch .ble, maybe cleanupDeviceAndNotifyFailure]))]

def onSearvicesComplete : Code :=
  block [acquireInstance, maybe (either cleanupDeviceAndNotifyFailure
    (block [touch .ble, maybe cleanupDeviceAndNotifyFailure]))]

def onRegisterNotify : Code :=
  block [acquireInstance, maybe (block [touch .ble, maybe (either
    (notifyManager MidiDeviceManager.handleBleConnect) cleanupDeviceAndNotifyFailure)])]

def onNotification : Code :=
  block [acquireInstance,
    maybe (block [touch .ble, maybe (oneOf DeviceConnection.handleDeviceUmpInput)])]

end BleMidiTransportDeviceDriver

def UsbDriverCallback.onMidiDataReceived : Code :=
  maybe (oneOf DeviceConnection.handleDeviceUmpInput)

namespace MidiServiceController

def closeDevice : Code :=
  either (within .controller (maybe (block [closePortforDevice, maybe dropContext])))
    (block [within .controller (block [closePortforDevice, dropContext]),
      MidiDeviceManager.closeDevice])

/-- The drain and the driver's calls come when the lock of the controller has been released. -/
def destroyMidiClient : Code :=
  either (touch .controller)
    (block [within .controller (loop cleanupDeviceForClient),
      maybe (oneOf MidiInServer.closeAndDrain), loop MidiDeviceManager.closeDevice,
      within .controller (maybe scheduleUnloadTask)])

/-! ### The dump -/

def dumpClientInfo : Code := touch .controller
def dumpDeviceOpenStatus : Code := touch .controller

def dumpPortList : Code :=
  maybe (block [MidiDeviceManager.getDevicePorts,
    loop (maybe (oneOf DeviceConnection.getConnectedClientIds))])

def dumpDevicePortMapping : Code :=
  block [MidiDeviceManager.getDeviceForDeviceId, dumpPortList, dumpPortList]

def dumpPortMapping : Code := within .controller (loop dumpDevicePortMapping)

def dumpStatistics : Code := within .controller (loop MidiDeviceManager.getDeviceForDeviceId)

end MidiServiceController

def MidiServerDump.deviceListDump : Code :=
  block [MidiDeviceManager.getDevices,
    loop (block [MidiServiceController.dumpDeviceOpenStatus,
      maybe MidiDeviceManager.getDevicePorts])]

def MidiInServer.openDevice : Code :=
  block [MidiDeviceManager.getDeviceForDeviceId, MidiServiceController.openDevice]

/-! ### What the threads do -/

/-- The calls of clients. A client that dies has `DestroyMidiClient` called for it. -/
inductive FromClient : Code → Prop
  | createMidiInServer : FromClient MidiServiceController.createMidiInServer
  | getDevices : FromClient MidiDeviceManager.getDevices
  | getDevicePorts : FromClient (maybe MidiDeviceManager.getDevicePorts)
  | openDevice : FromClient MidiInServer.openDevice
  | openBleDevice : FromClient (maybe MidiServiceController.openBleDevice)
  | openInputPort : FromClient MidiServiceController.openInputPort
  | openOutputPort : FromClient MidiServiceController.openOutputPort
  | flushOutputPort : FromClient MidiServiceController.flushOutputPort
  | closeInputPort : FromClient MidiServiceController.closeInputPort
  | closeOutputPort : FromClient MidiServiceController.closeOutputPort
  | closeDevice : FromClient MidiServiceController.closeDevice
  | destroyMidiClient : FromClient MidiServiceController.destroyMidiClient

/-- What the threads of the service begin with: the start of the service, the events of the system,
the drivers' callbacks, the worker threads, the unload thread, the dump, and the calls of
clients. -/
inductive Started : Code → Prop
  | init : Started MidiDeviceManager.init
  | updateDevices : Started MidiDeviceManager.updateDevices
  | onConnectionState : Started BleMidiTransportDeviceDriver.onConnectionState
  | onSearvicesComplete : Started BleMidiTransportDeviceDriver.onSearvicesComplete
  | onRegisterNotify : Started BleMidiTransportDeviceDriver.onRegisterNotify
  | onNotification : Started BleMidiTransportDeviceDriver.onNotification
  | onMidiDataReceived : Started UsbDriverCallback.onMidiDataReceived
  | threadMain (c : Nat) : Started (DeviceConnection.threadMain c)
  | unloadTask : Started MidiServiceController.unloadTask
  | notifyError : Started MidiServiceController.notifyError
  | deviceListDump : Started MidiServerDump.deviceListDump
  | dumpClientInfo : Started MidiServiceController.dumpClientInfo
  | dumpPortMapping : Started MidiServiceController.dumpPortMapping
  | dumpStatistics : Started MidiServiceController.dumpStatistics
  | fromClient {a : Code} (h : FromClient a) : Started a

/-! ### The order -/

/-- Clients are called where at most the mutex of `Init` is held. -/
def entry : Nat := Mutex.rank .controller

/-- The code takes its mutexes in the order of their ranks, from a rank on. -/
abbrev Safe (floor : Nat) (a : Code) : Prop := a.Ascends Mutex.rank entry floor

variable {floor : Nat}

theorem safe_threadMain (h : floor ≤ 7) (c : Nat) : Safe floor (DeviceConnection.threadMain c) := by
  simp [DeviceConnection.threadMain, DeviceConnection.handleWakeupOnce,
    DeviceConnection.drainAllClientsRings, DeviceConnection.collectDueEventsFromClientHeaps,
    DeviceConnection.flushSendCacheToDriver, DeviceConnection.updateNextTimer,
    BleMidiTransportDeviceDriver.handleUmpInput, BleMidiTransportDeviceDriver.checkedCall, Ascends,
    Mutex.rank, h]

theorem safe_handleDeviceUmpInput (h : floor ≤ 8) (c : Nat) :
    Safe floor (DeviceConnection.handleDeviceUmpInput c) :=
  ascends_touch.mpr h

theorem safe_stop (h : floor ≤ 7) (c : Nat) : Safe floor (DeviceConnection.stop c) := by
  simp [DeviceConnection.stop, Mutex.rank, h]

theorem safe_guarded (h : floor ≤ 9) (client : Nat) {call : Code} (hcall : Safe floor call) :
    Safe floor (MidiInServer.guarded client call) := by
  simp [MidiInServer.guarded, MidiInServer.acquire, MidiInServer.onGuardReleased, Mutex.rank, h,
    hcall]

/-! ### The calls of the manager that a call of the controller may make -/

theorem safe_onDevice (h : floor ≤ 4) {ble : Code} (hble : Safe floor ble) :
    Safe floor (MidiDeviceManager.onDevice ble) := by
  simp [MidiDeviceManager.onDevice, MidiDeviceManager.getDeviceForDeviceId,
    MidiDeviceManager.getDriverForDeviceType, Mutex.rank, hble]
  omega

theorem safe_checkedCall (h : floor ≤ 10) :
    Safe floor BleMidiTransportDeviceDriver.checkedCall :=
  ascends_maybe.mpr (ascends_touch.mpr h)

/-- Opening and closing a port in its driver. -/
theorem safe_portCall (h : floor ≤ 4) :
    Safe floor (MidiDeviceManager.onDevice BleMidiTransportDeviceDriver.checkedCall) :=
  safe_onDevice h (safe_checkedCall (by omega))

/-! ### The calls in the lock of the controller -/

theorem safe_endPendingTask (h : floor ≤ 2) :
    Safe floor MidiServiceController.endPendingTask := by
  simp [MidiServiceController.endPendingTask, Mutex.rank]
  omega

theorem safe_connectToExistingPort (h : floor ≤ 8) (c : Nat) :
    Safe floor (MidiServiceController.connectToExistingPort c) := by
  simp [MidiServiceController.connectToExistingPort, DeviceConnection.hasClientConnection,
    DeviceConnection.addClientConnection, Mutex.rank, h]

theorem safe_createNewInputPortConnection (h : floor ≤ 4) :
    Safe floor MidiServiceController.createNewInputPortConnection := by
  have hport := safe_portCall h
  refine ⟨hport, ascends_maybe.mpr fun c => ⟨?_, ascends_maybe.mpr hport, trivial⟩, trivial⟩
  exact ascends_touch.mpr (show floor ≤ 8 by omega)

theorem safe_createNewOutputPortConnection (h : floor ≤ 4) :
    Safe floor MidiServiceController.createNewOutputPortConnection := by
  intro c
  have hport := safe_portCall h
  have hstop : Safe floor (DeviceConnection.stop c) := safe_stop (by omega) c
  have hadd : Safe floor (DeviceConnection.addClientConnection c) :=
    ascends_touch.mpr (show floor ≤ 8 by omega)
  refine ⟨hport, ascends_maybe.mpr ⟨hport, hadd, ?_, trivial⟩, hstop, trivial⟩
  exact ascends_maybe.mpr ⟨hstop, hport, trivial⟩

theorem safe_closePortInner (h : floor ≤ 4) {closePort : Code} {finish : Nat → Code}
    (hclose : Safe floor closePort) (hfinish : ∀ c, Safe floor (finish c)) :
    Safe floor (MidiServiceController.closePortInner closePort finish) := by
  have hclients : floor ≤ 8 := by omega
  simp [MidiServiceController.closePortInner, DeviceConnection.hasClientConnection,
    DeviceConnection.removeClientConnection, DeviceConnection.isEmptyClientConnections, Ascends,
    Mutex.rank, hclients, hclose, hfinish]

theorem safe_closeInputPortInner (h : floor ≤ 4) :
    Safe floor MidiServiceController.closeInputPortInner :=
  safe_closePortInner h (safe_portCall h) fun _ => trivial

theorem safe_closeOutputPortInner (h : floor ≤ 4) :
    Safe floor MidiServiceController.closeOutputPortInner :=
  safe_closePortInner h (safe_portCall h) (safe_stop (by omega))

theorem safe_closePortforDevice (h : floor ≤ 4) :
    Safe floor MidiServiceController.closePortforDevice :=
  ⟨safe_closeInputPortInner h, safe_closeOutputPortInner h, trivial⟩

theorem safe_dropContext (h : floor ≤ 7) : Safe floor MidiServiceController.dropContext :=
  safe_stop h

theorem safe_cleanupDeviceForClient (h : floor ≤ 4) :
    Safe floor MidiServiceController.cleanupDeviceForClient :=
  ascends_maybe.mpr
    ⟨safe_closePortforDevice h, ascends_maybe.mpr (safe_dropContext (by omega)), trivial⟩

theorem safe_cleanupDeviceContext (h : floor ≤ 7) :
    Safe floor MidiServiceController.cleanupDeviceContext := by
  have hclients : floor ≤ 8 := by omega
  simp [MidiServiceController.cleanupDeviceContext,
    MidiServiceController.calculateClientPortCountAndStopWorkers,
    DeviceConnection.hasClientConnection, Ascends, Mutex.rank, hclients, safe_stop h,
    safe_dropContext h]

/-! ### The calls that clients are called from -/

theorem safe_notifyDeviceChange (h : floor ≤ 1) :
    Safe floor MidiServiceController.notifyDeviceChange := by
  refine ⟨⟨h, ascends_maybe.mpr (safe_cleanupDeviceContext (by decide))⟩, fun client => ?_, trivial⟩
  exact safe_guarded (by omega) client (ascends_maybe.mpr h)

theorem safe_handleBleOpenComplete (h : floor ≤ 1) {closeDevice : Code}
    (hclose : Safe floor closeDevice) :
    Safe floor (MidiServiceController.handleBleOpenComplete closeDevice) :=
  ⟨ascends_touch.mpr h, hclose, ascends_maybe.mpr h, trivial⟩

theorem safe_handleBleDisconnect (h : floor ≤ 1) :
    Safe floor MidiDeviceManager.handleBleDisconnect := by
  have hcomplete : Safe floor (MidiServiceController.handleBleOpenComplete skip) :=
    safe_handleBleOpenComplete h trivial
  simp [MidiDeviceManager.handleBleDisconnect, Ascends, Mutex.rank, hcomplete,
    safe_notifyDeviceChange h]
  omega

theorem safe_notifyManager (h : floor ≤ 11) {call : Code} (hcall : Safe floor call) :
    Safe floor (BleMidiTransportDeviceDriver.notifyManager call) :=
  ⟨ascends_touch.mpr h, ascends_maybe.mpr hcall, trivial⟩

theorem safe_eraseAndNotify (h : floor ≤ 1) :
    Safe floor BleMidiTransportDeviceDriver.eraseAndNotify := by
  have hnotify := safe_notifyManager (by omega) (safe_handleBleDisconnect h)
  exact ⟨ascends_touch.mpr (show floor ≤ 10 by omega), ascends_maybe.mpr hnotify, trivial⟩

theorem safe_cleanupDeviceAndNotifyFailure (h : floor ≤ 1) :
    Safe floor BleMidiTransportDeviceDriver.cleanupDeviceAndNotifyFailure :=
  safe_notifyManager (by omega) (safe_eraseAndNotify h)

theorem safe_closeDevice (h : floor ≤ 1) : Safe floor MidiDeviceManager.closeDevice :=
  safe_onDevice (by omega) (safe_eraseAndNotify h)

theorem safe_handleBleConnect (h : floor ≤ 1) :
    Safe floor MidiDeviceManager.handleBleConnect := by
  have hcomplete := safe_handleBleOpenComplete h (ascends_maybe.mpr (safe_closeDevice h))
  simp [MidiDeviceManager.handleBleConnect, MidiDeviceManager.getOrCreateDeviceId, Mutex.rank,
    hcomplete, safe_notifyDeviceChange h]
  omega

theorem safe_updateDevices (h : floor ≤ 1) : Safe floor MidiDeviceManager.updateDevices := by
  simp [MidiDeviceManager.updateDevices, MidiDeviceManager.getOrCreateDeviceId,
    MidiDeviceManager.compareDevices, BleMidiTransportDeviceDriver.getRegisteredDevices, Ascends,
    Mutex.rank, safe_notifyDeviceChange h]
  omega

/-! ### All threads -/

theorem safe_openBleDevice : Safe entry MidiServiceController.openBleDevice := by
  simp [MidiServiceController.openBleDevice, MidiServiceController.tryAttachToActiveBleDevice,
    MidiServiceController.enqueueBleConnectionRequest, MidiDeviceManager.getDeviceForDeviceId,
    MidiDeviceManager.openBleDevice, MidiDeviceManager.getDriverForDeviceType,
    BleMidiTransportDeviceDriver.openDevice, Ascends, Mutex.rank, entry]

theorem safe_destroyMidiClient : Safe entry MidiServiceController.destroyMidiClient := by
  have hcleanup : Safe 2 (loop MidiServiceController.cleanupDeviceForClient) :=
    safe_cleanupDeviceForClient (by decide)
  have hdrain : ∀ client, Safe entry (MidiInServer.closeAndDrain client) := by
    simp [MidiInServer.closeAndDrain, Ascends, Mutex.rank, entry]
  have hschedule : Safe 2 MidiServiceController.scheduleUnloadTask :=
    ⟨safe_endPendingTask (by decide), ascends_touch.mpr (by decide), trivial⟩
  refine ⟨ascends_touch.mpr (by decide), ⟨Nat.le_refl 1, hcleanup⟩, ascends_maybe.mpr hdrain, ?_⟩
  exact ⟨safe_closeDevice (by decide), ⟨Nat.le_refl 1, ascends_maybe.mpr hschedule⟩, trivial⟩

theorem safe_fromClient {a : Code} (h : FromClient a) : Safe entry a := by
  cases h with
  | createMidiInServer => exact ascends_maybe.mpr ⟨Nat.le_refl 1, safe_endPendingTask (by decide)⟩
  | getDevices => exact ascends_touch.mpr (by decide)
  | getDevicePorts => exact ascends_maybe.mpr (ascends_touch.mpr (by decide))
  | openDevice =>
      refine ⟨ascends_touch.mpr (by decide), ⟨Nat.le_refl 1, ?_⟩, trivial⟩
      exact ascends_maybe.mpr (safe_onDevice (by decide) trivial)
  | openBleDevice => exact ascends_maybe.mpr safe_openBleDevice
  | openInputPort =>
      refine ⟨Nat.le_refl 1, ascends_maybe.mpr ⟨safe_connectToExistingPort (by decide), ?_⟩⟩
      exact safe_createNewInputPortConnection (by decide)
  | openOutputPort =>
      refine ⟨Nat.le_refl 1, ascends_maybe.mpr ⟨safe_connectToExistingPort (by decide), ?_⟩⟩
      exact safe_createNewOutputPortConnection (by decide)
  | flushOutputPort =>
      refine ⟨Nat.le_refl 1, ascends_maybe.mpr fun c => ?_⟩
      exact ascends_touch.mpr (show 2 ≤ 8 by decide)
  | closeInputPort =>
      exact ⟨Nat.le_refl 1, ascends_maybe.mpr (safe_closeInputPortInner (by decide))⟩
  | closeOutputPort =>
      exact ⟨Nat.le_refl 1, ascends_maybe.mpr (safe_closeOutputPortInner (by decide))⟩
  | closeDevice =>
      have hports : Safe 2 MidiServiceController.closePortforDevice :=
        safe_closePortforDevice (by decide)
      have hdrop : Safe 2 MidiServiceController.dropContext := safe_dropContext (by decide)
      refine ⟨⟨Nat.le_refl 1, ascends_maybe.mpr ⟨hports, ascends_maybe.mpr hdrop, trivial⟩⟩, ?_⟩
      exact ⟨⟨Nat.le_refl 1, hports, hdrop, trivial⟩, safe_closeDevice (by decide), trivial⟩
  | destroyMidiClient => exact safe_destroyMidiClient

theorem safe_onRegisterNotify : Safe 0 BleMidiTransportDeviceDriver.onRegisterNotify := by
  have hcleanup : Safe 0 BleMidiTransportDeviceDriver.cleanupDeviceAndNotifyFailure :=
    safe_cleanupDeviceAndNotifyFailure (by decide)
  have honline := safe_notifyManager (by decide) (safe_handleBleConnect (Nat.zero_le 1))
  refine safe_notifyManager (by decide) ⟨ascends_touch.mpr (by decide), ?_, trivial⟩
  exact ascends_maybe.mpr ⟨honline, hcleanup⟩

theorem safe_started {a : Code} (h : Started a) : Safe 0 a := by
  have hble : Safe 0 (touch .ble) := ascends_touch.mpr (by decide)
  have hcleanup : Safe 0 BleMidiTransportDeviceDriver.cleanupDeviceAndNotifyFailure :=
    safe_cleanupDeviceAndNotifyFailure (by decide)
  have hfailed : Safe 0 (block [touch .ble,
      maybe BleMidiTransportDeviceDriver.cleanupDeviceAndNotifyFailure]) :=
    ⟨hble, ascends_maybe.mpr hcleanup, trivial⟩
  cases h with
  | init => exact ⟨Nat.le_refl 0, ascends_maybe.mpr (safe_updateDevices (by decide))⟩
  | updateDevices => exact safe_updateDevices (by decide)
  | onConnectionState =>
      exact safe_notifyManager (by decide) ⟨safe_eraseAndNotify (by decide), hfailed⟩
  | onSearvicesComplete => exact safe_notifyManager (by decide) ⟨hcleanup, hfailed⟩
  | onRegisterNotify => exact safe_onRegisterNotify
  | onNotification =>
      refine safe_notifyManager (by decide) ⟨hble, ascends_maybe.mpr ?_, trivial⟩
      exact safe_handleDeviceUmpInput (by decide)
  | onMidiDataReceived => exact ascends_maybe.mpr (safe_handleDeviceUmpInput (by decide))
  | threadMain c => exact safe_threadMain (by decide) c
  | unloadTask =>
      have hunload : Safe 3 (touch .unload) := ascends_touch.mpr (by decide)
      exact ⟨Nat.zero_le 2, hunload, hunload, trivial⟩
  | notifyError =>
      refine ⟨ascends_touch.mpr (by decide), fun client => ?_, trivial⟩
      exact safe_guarded (by decide) client (Nat.zero_le entry)
  | deviceListDump =>
      have hdevices : Safe 0 (touch .devices) := ascends_touch.mpr (by decide)
      refine ⟨hdevices, ⟨ascends_touch.mpr (by decide), ?_, trivial⟩, trivial⟩
      exact ascends_maybe.mpr hdevices
  | dumpClientInfo => exact ascends_touch.mpr (by decide)
  | dumpPortMapping =>
      have hdevices : Safe 2 (touch .devices) := ascends_touch.mpr (by decide)
      have hclients : ∀ c, Safe 2 (touch (.clients c)) := by
        simp [Mutex.rank]
      have hports : Safe 2 MidiServiceController.dumpPortList :=
        ascends_maybe.mpr ⟨hdevices, ascends_maybe.mpr hclients, trivial⟩
      exact ⟨Nat.zero_le 1, hdevices, hports, hports, trivial⟩
  | dumpStatistics =>
      have hdevices : Safe 2 (touch .devices) := ascends_touch.mpr (by decide)
      exact ⟨Nat.zero_le 1, hdevices⟩
  | fromClient h => exact (safe_fromClient h).mono (by decide)

theorem eq_init_of_rank_lt {m : Mutex} (h : m.rank < entry) : m = .init := by
  cases m <;> simp [Mutex.rank, entry] at h ⊢

/-- The threads of the service, with what they are started with and clients may call. -/
def service : LockDiscipline Mutex where
  rank := Mutex.rank
  bound := 12
  entry := entry
  started := Started
  called := FromClient
  rank_lt := by
    intro m
    cases m <;> simp [Mutex.rank]
  started_ascends := fun _ h => safe_started h
  called_ascends := fun _ h => safe_fromClient h

open LockDiscipline Frame Relation

variable {ι : Type} [DecidableEq ι] {s : ι → List (Frame Mutex)}

/-- Whatever the threads of the service do and however many there are, none waits for itself, not
even through others; as long as one is in a call it can go on, or one that it waits for can; and
while a client is called, at most the mutex of `Init` is held. -/
theorem no_deadlock (reach : (service.machine ι).Reachable s) (i : ι) :
    ¬TransGen (WaitsFor s) i i ∧
      (s i ≠ [] → ∃ j t, ReflTransGen (WaitsFor s) i j ∧ (service.machine ι).step s j t) ∧
      ∀ k m, s i = .run .outside :: k → Holds (s i) m → m = .init := by
  refine ⟨not_waits_self reach, exists_step reach, fun k m hcalls hholds => ?_⟩
  exact eq_init_of_rank_lt (rank_lt_entry reach hcalls hholds)

/-- Two clients close a port, and one of them has the lock of the controller. -/
def closing : Bool → List (Frame Mutex)
  | true => [.run (maybe MidiServiceController.closeInputPortInner), .unlock .controller]
  | false => [.run MidiServiceController.closeInputPort]

theorem closing_reachable : (service.machine Bool).Reachable closing := by
  have hfree : Free (fun _ : Bool => [Frame.run MidiServiceController.closeInputPort])
      Mutex.controller := by
    intro b
    simp [Holds]
  have hidle : (service.machine Bool).Reachable fun _ => [] := .init fun _ => rfl
  have hcalled : ∃ a, Started a ∧
      [Frame.run MidiServiceController.closeInputPort] = [Frame.run a] :=
    ⟨_, .fromClient .closeInputPort, rfl⟩
  have hfirst := hidle.step (l := true) trivial ⟨_, rfl, Or.inl ⟨rfl, hcalled⟩⟩
  have hsecond : (service.machine Bool).Reachable
      fun _ => [Frame.run MidiServiceController.closeInputPort] := by
    refine hfirst.step (l := false) trivial ⟨_, ?_, Or.inl ⟨rfl, hcalled⟩⟩
    ext b : 1
    cases b <;> rfl
  refine hsecond.step (l := true) trivial ⟨_, ?_, Or.inr (.lock hfree)⟩
  ext b : 1
  cases b <;> rfl

theorem no_deadlock_closing :
    ¬TransGen (WaitsFor closing) false false ∧
      (closing false ≠ [] →
        ∃ j t, ReflTransGen (WaitsFor closing) false j ∧ (service.machine Bool).step closing j t) ∧
      ∀ k m, closing false = .run .outside :: k → Holds (closing false) m → m = .init :=
  no_deadlock closing_reachable false

end Locking

end MidiFramework.Server
