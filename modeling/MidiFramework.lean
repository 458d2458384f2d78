import MidiFramework.Foundation.Transition
import MidiFramework.Foundation.ByteMemory
import MidiFramework.Foundation.Program
import MidiFramework.Foundation.Interference
import MidiFramework.Foundation.BitFields
import MidiFramework.Foundation.Transducer
import MidiFramework.Foundation.Pairing
import MidiFramework.SharedRing.Basic
import MidiFramework.SharedRing.Code
import MidiFramework.SharedRing.Confinement
import MidiFramework.SharedRing.Layout
import MidiFramework.SharedRing.Roles
import MidiFramework.SharedRing.Writer
import MidiFramework.SharedRing.Reader
import MidiFramework.SharedRing.Concurrent
import MidiFramework.SharedRing.Fifo
import MidiFramework.SharedRing.Attach
import MidiFramework.Ump.Processor
import MidiFramework.Ump.Packets
import MidiFramework.Client.SysExPacking
import MidiFramework.Client.SysExWire
import MidiFramework.Ump.Stream
import MidiFramework.Ble.Encoder
import MidiFramework.Ble.Session
import MidiFramework.Ble.Loopback
import MidiFramework.Ump.Converter
import MidiFramework.Ump.Lossless
import MidiFramework.Ump.WellFormed
import MidiFramework.Ump.Chunking
import MidiFramework.Ump.Downscaling
import MidiFramework.SharedRing.Progress
import MidiFramework.Foundation.UnorderedMap
import MidiFramework.Server.Basic
import MidiFramework.Server.Controller
import MidiFramework.Foundation.Mirror
import MidiFramework.Server.Registry
import MidiFramework.Server.PortAccounting
import MidiFramework.Foundation.Threads
import MidiFramework.Server.Drivers
import MidiFramework.Server.Manager
import MidiFramework.Server.ManagerCalls
import MidiFramework.Server.Service
import MidiFramework.Server.DeviceIds
import MidiFramework.Server.BluetoothGate
import MidiFramework.Server.ListAgreement
import MidiFramework.Foundation.ChangeLog
import MidiFramework.Server.Announcements
import MidiFramework.Server.DriverOpen
import MidiFramework.Server.DeviceQuota
import MidiFramework.Server.ClientRegistry
import MidiFramework.Server.Unloading
import MidiFramework.Server.Naming
import MidiFramework.Server.FailedRequests
import MidiFramework.Server.BleTable
import MidiFramework.Server.BleReports
import MidiFramework.Server.CallbackSlot
import MidiFramework.Common.FutexTool
import MidiFramework.Client.DeviceHandle
import MidiFramework.Client.Disconnection
import MidiFramework.Client.PortConversion
import MidiFramework.Client.SysExSending
import MidiFramework.SharedRing.Space
import MidiFramework.SharedRing.DrainTermination
import MidiFramework.Client.WaitingForSpace
import MidiFramework.Server.BleRequests
import MidiFramework.Server.BleSessions
import MidiFramework.Server.BleAnswers
import MidiFramework.Ble.Notification
import MidiFramework.Foundation.PriorityQueue
import MidiFramework.Server.SendCache
import MidiFramework.Foundation.BinaryHeap
import MidiFramework.Server.ScheduledOutput
import MidiFramework.Server.ClientDrain
import MidiFramework.Server.OutputConnection
import MidiFramework.Server.OutputConservation
import MidiFramework.Server.OutputRuns
import MidiFramework.Server.OutputOrder
import MidiFramework.Server.OutputWakeup
import MidiFramework.Server.OutputStuck
import MidiFramework.SharedRing.Notifying
import MidiFramework.Client.InputPort
import MidiFramework.Client.InputDelivery
import MidiFramework.Client.InputStopping
import MidiFramework.SharedRing.Acceptance
import MidiFramework.Server.InputConnection
import MidiFramework.Server.InputFanOut
import MidiFramework.Server.OutputFlush
import MidiFramework.Server.OutputEpochs
import MidiFramework.Server.ClientIsolation
import MidiFramework.Server.PortCalls
import MidiFramework.Foundation.Ownership
import MidiFramework.Common.UniqueFd
import MidiFramework.SharedRing.Descriptors
import MidiFramework.Server.Descriptors
import MidiFramework.Server.PortHolders
import MidiFramework.Client.PortAgreement
import MidiFramework.Foundation.Countdown
import MidiFramework.Client.TimedWait
import MidiFramework.Client.SysExDeadline
import MidiFramework.Server.OutputStopping
import MidiFramework.Foundation.LockOrder
import MidiFramework.Server.Locking
