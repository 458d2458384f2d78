import MidiFramework.Foundation.UnorderedMap

/-!
# Names and records of the MIDI service

The service names clients by 32-bit ids, devices by ids of its own and the
devices of a driver by the driver's ids. A device is listed with the driver
that reports it and the ports it has.
-/

namespace MidiFramework.Server

open Foundation

abbrev ClientId := UInt32

abbrev Uid := UInt32

abbrev TokenId := UInt32

abbrev DeviceId := Int

abbrev PortIndex := UInt32

/-- A Bluetooth address. -/
abbrev Address := String

/-- The address of an `IRemoteObject`. -/
abbrev RemoteObject := Nat

/-- `int32_t` results. A driver may return any value; those of the service are named below. -/
abbrev Status := Int

namespace Status

def ok : Status := 0
def genericInvalidArgument : Status := 35500001
def invalidClient : Status := 35500003
def invalidDeviceHandle : Status := 35500004
def invalidPort : Status := 35500005
def tooManyOpenDevices : Status := 35500008
def tooManyOpenPorts : Status := 35500009
def deviceAlreadyOpen : Status := 35500010
def portAlreadyOpen : Status := 35500011
def tooManyClients : Status := 35500012
def permissionDenied : Status := 35500013
def systemError : Status := 35500100

end Status

/-- `PortDirection`, and the direction of a port connection. -/
inductive PortDirection
  | input
  | output
  deriving DecidableEq, Repr

inductive DeviceType
  | usb
  | ble
  deriving DecidableEq, Repr

inductive DeviceChangeType
  | add
  | removed
  deriving DecidableEq, Repr

structure MidiPortInfo where
  portId : Int
  name : String
  direction : PortDirection
  deriving DecidableEq, Repr

structure MidiDeviceInfo where
  deviceId : DeviceId := 0
  driverDeviceId : Int := 0
  deviceType : DeviceType := .usb
  address : Address := ""
  deviceName : String := ""
  deriving DecidableEq, Repr

structure DeviceInformation where
  midiDeviceInfo : MidiDeviceInfo := {}
  portInfos : List MidiPortInfo := []
  deriving DecidableEq, Repr

/-- What the controller calls of the device manager, as operations on a manager of type `M`. -/
structure DeviceManager (M : Type) where
  openDevice : DeviceId → M → Status × M
  openBleDevice : Address → M → Status × M
  getDeviceForDeviceId : DeviceId → M → DeviceInformation
  getDevicePorts : DeviceId → M → Status × List MidiPortInfo
  openPort : PortDirection → DeviceId → PortIndex → M → Status × M
  closePort : PortDirection → DeviceId → PortIndex → M → Status × M

end MidiFramework.Server
