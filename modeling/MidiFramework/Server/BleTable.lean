import MidiFramework.Foundation.Transition
import MidiFramework.Server.Drivers

/-!
# The table of the Bluetooth driver

The table should hold the sessions that were opened and have neither been closed
nor failed. All callbacks but one look their client id up; the one that reports a
connection makes an entry where there is none.

## Implementation notes

The calls of `CleanupDeviceAndNotifyFailure` that a callback still has to make
are kept apart, since the lock is free before them. The history records, newest
first, what each client id was opened for and that it was closed or failed.
-/

namespace MidiFramework.Server

open Foundation

inductive ClientEvent
  | opened (address : Address)
  | closed
  | failed
  deriving DecidableEq

structure BleTable where
  driver : BleDriver := {}
  cleanups : List Int := []
  history : List (Int × ClientEvent) := []

/-- The calls of the driver, the callbacks of the Bluetooth stack, and what changes around them. -/
inductive BleCall
  | answers (gatt : Gatt)
  | rehash (devices : UnorderedMap Int DeviceCtx)
  | openDevice (address : Address)
  | closeDevice (deviceId : Int64)
  | onConnectionState (clientId : Int) (connState : ConnState) (status : Int)
  | onServicesComplete (clientId : Int) (status : Int)
  | onRegisterNotify (clientId : Int) (status : Int)
  | cleanup (clientId : Int)
  | switchPort (isOpen : Bool) (direction : PortDirection) (deviceId : Int) (portIndex : PortIndex)

namespace BleTable

variable (t : BleTable)

/-- The event that a callback on the connection state is for its client. -/
def connectionEvent (clientId : Int) (connState : ConnState) (status : Int) :
    List (Int × ClientEvent) :=
  if connState = .disconnected ∨ status ≠ 0 ∧ connState ≠ .connected then [(clientId, .failed)]
  else []

/-- After a section of a callback. -/
def afterCallback (clientId : Int) (reported : Reported) (events : List (Int × ClientEvent)) :
    BleTable where
  driver := reported.driver
  cleanups := if reported.cleanup then clientId :: t.cleanups else t.cleanups
  history := events ++ t.history

def after : BleCall → BleTable
  | .answers gatt => { t with driver := { t.driver with gatt } }
  | .rehash devices => { t with driver := { t.driver with devices } }
  | .openDevice address =>
      let out := t.driver.openDevice address
      { t with
        driver := out.2
        history := if out.1 = .ok then (t.driver.gatt.register, .opened address) :: t.history
          else t.history }
  | .closeDevice deviceId =>
      -- the table is searched with the key type, a 32-bit integer
      let clientId := deviceId.toInt32.toInt
      { t with
        driver := (t.driver.closeDevice clientId).2.driver
        history := (clientId, .closed) :: t.history }
  | .onConnectionState clientId connState status =>
      t.afterCallback clientId (t.driver.onConnectionState clientId connState status)
        (connectionEvent clientId connState status)
  | .onServicesComplete clientId status =>
      t.afterCallback clientId (t.driver.onServicesComplete clientId status) []
  | .onRegisterNotify clientId status =>
      t.afterCallback clientId (t.driver.onRegisterNotify clientId status) []
  | .cleanup clientId =>
      { driver := (t.driver.cleanupDeviceAndNotifyFailure clientId).driver
        cleanups := t.cleanups.erase clientId
        history := (clientId, .failed) :: t.history }
  | .switchPort isOpen direction deviceId portIndex =>
      { t with driver := (t.driver.switchPort isOpen direction deviceId portIndex).2 }

/-- A rehash keeps the entries, and a cleanup is one that is due. -/
def Possible : BleCall → Prop
  | .rehash devices => UnorderedMap.Rehash t.driver.devices devices
  | .cleanup clientId => clientId ∈ t.cleanups
  | _ => True

/-- A client that the stack reports as connected has an entry. -/
def KnowsConnected (call : BleCall) : Prop :=
  ∀ clientId status, call = .onConnectionState clientId .connected status →
    clientId ∈ t.driver.devices

/-- Every entry is of a session that was opened and not closed or failed since, under its own id and
with its own address. -/
structure OnlyOpened : Prop where
  registered : ∀ i d, t.driver.devices.lookup i = some d →
    t.history.lookup i = some (.opened d.address)
  id : ∀ i d, t.driver.devices.lookup i = some d → d.id = i
  distinct : ∀ i j d e, t.driver.devices.lookup i = some d → t.driver.devices.lookup j = some e →
    d.address = e.address → i = j

/-- The list that the manager gets has such sessions only, each under its own id. -/
structure ListsOpened : Prop where
  listed : ∀ info ∈ t.driver.getRegisteredDevices,
    t.history.lookup info.midiDeviceInfo.driverDeviceId =
      some (.opened info.midiDeviceInfo.address)
  distinct : (t.driver.getRegisteredDevices.map fun info =>
    info.midiDeviceInfo.driverDeviceId).Nodup

end BleTable

/-- Runs of the driver from the start of the service. -/
def bleTableMachine : Machine BleTable BleCall where
  init t := t.driver.devices = ∅ ∧ t.cleanups = [] ∧ t.history = []
  step t call t' := t.Possible call ∧ t' = t.after call

namespace BleTable

variable {t t' : BleTable} {i : Int} {d d' : DeviceCtx}

/-! ### What a section keeps -/

/-- Every entry was there before, with the same id and address. -/
def Updates (s s' : BleDriver) : Prop :=
  ∀ i d', s'.devices.lookup i = some d' →
    ∃ d, s.devices.lookup i = some d ∧ d'.id = d.id ∧ d'.address = d.address

theorem Updates.refl (s : BleDriver) : Updates s s := fun _ d hd => ⟨d, hd, rfl, rfl⟩

/-- Entries that stay as they are and events for other ids keep the sessions. -/
theorem OnlyOpened.mono (h : t.OnlyOpened) (hkept : Updates t.driver t'.driver)
    (hhistory : ∀ i d', t'.driver.devices.lookup i = some d' →
      t'.history.lookup i = t.history.lookup i) : t'.OnlyOpened where
  registered := by
    intro i d' hd'
    obtain ⟨d, hd, -, haddress⟩ := hkept i d' hd'
    rw [hhistory i d' hd', haddress]
    exact h.registered i d hd
  id := by
    intro i d' hd'
    obtain ⟨d, hd, hid, -⟩ := hkept i d' hd'
    exact hid.trans (h.id i d hd)
  distinct := by
    intro i j d' e' hd' he' heq
    obtain ⟨d, hd, -, haddress⟩ := hkept i d' hd'
    obtain ⟨e, he, -, haddress'⟩ := hkept j e' he'
    exact h.distinct i j d e hd he (haddress.symm.trans (heq.trans haddress'))

theorem lookup_insertContext (s : BleDriver) (i j : Int) (d : DeviceCtx) :
    (s.insertContext i d).devices.lookup j = if j = i then some d else s.devices.lookup j :=
  UnorderedMap.lookup_insert_eq s.devices i j d

theorem lookup_eraseContext (s : BleDriver) (i j : Int) :
    (s.eraseContext i).devices.lookup j = if j = i then none else s.devices.lookup j :=
  UnorderedMap.lookup_erase_eq s.devices i j

/-- A context may be put back in its place. -/
theorem updates_insertContext {s : BleDriver} (hd : s.devices.lookup i = some d)
    (hid : d'.id = d.id) (haddress : d'.address = d.address) :
    Updates s (s.insertContext i d') := by
  intro j e' he'
  rw [lookup_insertContext] at he'
  split at he'
  · next hj =>
      obtain rfl : d' = e' := Option.some.inj he'
      exact ⟨d, hj ▸ hd, hid, haddress⟩
  · exact ⟨e', he', rfl, rfl⟩

theorem lookup_dropContext (s : BleDriver) (i j : Int) :
    (s.dropContext i).driver.devices.lookup j = if j = i then none else s.devices.lookup j := by
  unfold BleDriver.dropContext
  cases hd : s.devices.lookup i with
  | none =>
      change s.devices.lookup j = _
      split
      · next hj => exact hj ▸ hd
      · rfl
  | some d => exact lookup_eraseContext s i j

/-- A section that takes a context out of the table, with the event for its id. -/
theorem OnlyOpened.drop (h : t.OnlyOpened) (event : ClientEvent) (cleanups : List Int) :
    OnlyOpened ⟨(t.driver.dropContext i).driver, cleanups, (i, event) :: t.history⟩ := by
  apply h.mono
  · intro j d' hd'
    rw [lookup_dropContext] at hd'
    split at hd'
    · contradiction
    · exact ⟨d', hd', rfl, rfl⟩
  · intro j d' hd'
    rw [lookup_dropContext] at hd'
    split at hd'
    · contradiction
    · next hj => rw [List.lookup_cons, beq_false_of_ne hj]

/-- `OpenDevice` fails and makes no entry, or it makes the entry of a new address. -/
theorem openDevice_cases (s : BleDriver) (address : Address) :
    ((s.openDevice address).1 ≠ .ok ∧ ∀ j d, (s.openDevice address).2.devices.lookup j = some d →
      s.devices.lookup j = some d) ∨
    ((s.openDevice address).1 = .ok ∧
      (s.openDevice address).2 = s.insertContext s.gatt.register (s.newContext address) ∧
      ∀ j d, s.devices.lookup j = some d → d.address ≠ address) := by
  have herased : ∀ j d, ((s.insertContext s.gatt.register (s.newContext address)).eraseContext
      s.gatt.register).devices.lookup j = some d → s.devices.lookup j = some d := by
    intro j d hd
    rw [lookup_eraseContext, lookup_insertContext] at hd
    split at hd
    · contradiction
    · exact hd
  have halready : Status.deviceAlreadyOpen ≠ .ok := by decide
  have hargument : Status.genericInvalidArgument ≠ .ok := by decide
  have hfailed : (-1 : Status) ≠ .ok := by decide
  unfold BleDriver.openDevice
  split
  · exact .inl ⟨halready, fun _ _ hd => hd⟩
  next hnew =>
  dsimp only
  split
  · exact .inl ⟨hfailed, fun _ _ hd => hd⟩
  split
  · exact .inl ⟨hargument, herased⟩
  split
  · exact .inl ⟨hfailed, herased⟩
  · refine .inr ⟨rfl, rfl, fun j d hd heq => hnew ?_⟩
    exact List.any_eq_true.mpr ⟨⟨j, d⟩, UnorderedMap.mem_entries.mpr hd, beq_iff_eq.mpr heq⟩

theorem OnlyOpened.openDevice (h : t.OnlyOpened) (address : Address) :
    (t.after (.openDevice address)).OnlyOpened := by
  rcases openDevice_cases t.driver address with ⟨hfailed, hold⟩ | ⟨hopened, hdriver, hnew⟩
  · apply h.mono
    · exact fun j d hd => ⟨d, hold j d hd, rfl, rfl⟩
    · intro j d hd
      change (if _ then _ else _ : List (Int × ClientEvent)).lookup j = _
      rw [if_neg hfailed]
  · have hlookup : ∀ j, (t.after (.openDevice address)).driver.devices.lookup j =
        if j = t.driver.gatt.register then some (t.driver.newContext address)
          else t.driver.devices.lookup j := by
      intro j
      change (t.driver.openDevice address).2.devices.lookup j = _
      rw [hdriver, lookup_insertContext]
    have hhistory : (t.after (.openDevice address)).history =
        (t.driver.gatt.register, .opened address) :: t.history := if_pos hopened
    constructor
    · intro j d hd
      rw [hlookup] at hd
      rw [hhistory, List.lookup_cons]
      split at hd
      · next hj =>
          rw [hj, beq_self_eq_true, ← Option.some.inj hd]
          rfl
      · next hj =>
          rw [beq_false_of_ne hj]
          exact h.registered j d hd
    · intro j d hd
      rw [hlookup] at hd
      split at hd
      · next hj =>
          rw [hj, ← Option.some.inj hd]
          rfl
      · exact h.id j d hd
    · intro j k d e hd he heq
      rw [hlookup] at hd he
      split at hd
      · next hj =>
          have hd' : address = d.address := congrArg DeviceCtx.address (Option.some.inj hd)
          split at he
          · next hk => exact hj.trans hk.symm
          · exact absurd (heq.symm.trans hd'.symm) (hnew k e he)
      · split at he
        · have he' : address = e.address := congrArg DeviceCtx.address (Option.some.inj he)
          exact absurd (heq.trans he'.symm) (hnew j d hd)
        · exact h.distinct j k d e hd he heq

/-- A section that only updates contexts keeps the sessions. -/
theorem OnlyOpened.update (h : t.OnlyOpened) {driver : BleDriver} (cleanups : List Int)
    (hkept : Updates t.driver driver) : OnlyOpened ⟨driver, cleanups, t.history⟩ :=
  h.mono hkept fun _ _ _ => rfl

theorem updates_onServicesComplete (s : BleDriver) (i status : Int) :
    Updates s (s.onServicesComplete i status).driver := by
  unfold BleDriver.onServicesComplete
  split
  · exact .refl s
  split
  · exact .refl s
  · next d hd =>
      split
      · exact updates_insertContext hd rfl rfl
      · exact .refl s

theorem updates_onRegisterNotify (s : BleDriver) (i status : Int) :
    Updates s (s.onRegisterNotify i status).driver := by
  unfold BleDriver.onRegisterNotify
  split
  · exact .refl s
  · next d hd => split <;> exact updates_insertContext hd rfl rfl

theorem updates_switchPort (s : BleDriver) (isOpen : Bool) (direction : PortDirection)
    (deviceId : Int) (portIndex : PortIndex) :
    Updates s (s.switchPort isOpen direction deviceId portIndex).2 := by
  unfold BleDriver.switchPort
  split
  · exact .refl s
  split
  · exact .refl s
  · next e he =>
      have hfound := UnorderedMap.mem_entries.mp (List.mem_of_find?_eq_some he)
      split
      · exact .refl s
      · cases direction <;> exact updates_insertContext hfound rfl rfl

/-- A report of a connection for a known client updates its context. -/
theorem OnlyOpened.onConnectionState (h : t.OnlyOpened) (connState : ConnState) (status : Int)
    (hknown : connState = .connected → i ∈ t.driver.devices) :
    (t.after (.onConnectionState i connState status)).OnlyOpened := by
  unfold after connectionEvent BleDriver.onConnectionState
  dsimp only
  split
  · exact h.drop .failed _
  split
  · next hconnected =>
      obtain ⟨d, hd⟩ := UnorderedMap.mem_iff_lookup.mp (hknown hconnected)
      have hcontext : t.driver.devices.getD i {} = d := by
        rw [UnorderedMap.getD, hd, Option.getD_some]
      rw [hcontext]
      exact h.update _ (updates_insertContext hd rfl rfl)
  · exact h.update _ (.refl t.driver)

/-- Every call keeps the sessions when the clients that are reported as connected are known. -/
theorem OnlyOpened.after {call : BleCall} (h : t.OnlyOpened) (hpossible : t.Possible call)
    (hknown : t.KnowsConnected call) : (t.after call).OnlyOpened := by
  cases call with
  | answers gatt => exact h.update _ (Updates.refl t.driver)
  | rehash devices =>
      apply h.update
      intro j d hd
      exact ⟨d, (UnorderedMap.Rehash.lookup hpossible j).symm.trans hd, rfl, rfl⟩
  | openDevice address => exact h.openDevice address
  | closeDevice deviceId => exact h.drop .closed _
  | onConnectionState clientId connState status =>
      exact h.onConnectionState connState status fun hconnected =>
        hknown clientId status (hconnected ▸ rfl)
  | onServicesComplete clientId status =>
      exact h.update _ (updates_onServicesComplete t.driver clientId status)
  | onRegisterNotify clientId status =>
      exact h.update _ (updates_onRegisterNotify t.driver clientId status)
  | cleanup clientId => exact h.drop .failed _
  | switchPort isOpen direction deviceId portIndex =>
      exact h.update _ (updates_switchPort t.driver isOpen direction deviceId portIndex)

/-- The driver's list follows from the table. -/
theorem OnlyOpened.listsOpened (h : t.OnlyOpened) : t.ListsOpened where
  listed := by
    intro info hinfo
    obtain ⟨i, d, hd, -, rfl⟩ := BleDriver.mem_getRegisteredDevices.mp hinfo
    change t.history.lookup d.id = some (.opened d.address)
    rw [h.id i d hd]
    exact h.registered i d hd
  distinct := by
    have hids : (t.driver.getRegisteredDevices.map fun info => info.midiDeviceInfo.driverDeviceId) =
        (t.driver.devices.entries.filter fun e => e.2.connected).map Sigma.fst := by
      rw [BleDriver.getRegisteredDevices, List.map_map]
      apply List.map_congr_left
      intro e he
      exact h.id e.1 e.2 (UnorderedMap.mem_entries.mp (List.mem_of_mem_filter he))
    rw [hids]
    exact t.driver.devices.nodupKeys.sublist List.filter_sublist

/-- As long as the stack reports only known clients as connected, the table and the list that is
made of it hold opened sessions only. -/
theorem table_only_opened
    (reach : bleTableMachine.ReachableWith (fun t call => t.KnowsConnected call) t) :
    t.OnlyOpened ∧ t.ListsOpened := by
  have honly : t.OnlyOpened := by
    refine reach.invariant OnlyOpened ?_ ?_
    · rintro t ⟨hempty, -, -⟩
      have hnone : ∀ i d, t.driver.devices.lookup i ≠ some d := by
        intro i d hd
        rw [hempty] at hd
        contradiction
      exact ⟨fun i d hd => absurd hd (hnone i d), fun i d hd => absurd hd (hnone i d),
        fun i _ d _ hd => absurd hd (hnone i d)⟩
    · rintro t call _ - honly hknown ⟨hpossible, rfl⟩
      exact honly.after hpossible hknown
  exact ⟨honly, honly.listsOpened⟩

/-- One device that was opened and connected. -/
def openedTable : BleTable :=
  (({} : BleTable).after (.openDevice "AA:BB:CC:DD:EE:FF")).after (.onConnectionState 1 .connected 0)

theorem openedTable_only_opened : openedTable.OnlyOpened ∧ openedTable.ListsOpened := by
  apply table_only_opened
  have hstart : bleTableMachine.ReachableWith (fun t call => t.KnowsConnected call) {} :=
    .init ⟨rfl, rfl, rfl⟩
  have hopen : bleTableMachine.step {} (.openDevice "AA:BB:CC:DD:EE:FF")
      (({} : BleTable).after (.openDevice "AA:BB:CC:DD:EE:FF")) := ⟨trivial, rfl⟩
  have hconnect : bleTableMachine.step (({} : BleTable).after (.openDevice "AA:BB:CC:DD:EE:FF"))
      (.onConnectionState 1 .connected 0) openedTable := ⟨trivial, rfl⟩
  refine .step (.step hstart (fun _ _ hcall => BleCall.noConfusion hcall) hopen) ?_ hconnect
  rintro clientId status hcall
  obtain ⟨rfl, -, -⟩ := BleCall.onConnectionState.inj hcall
  decide +kernel

/-- A connection that is reported for no session makes an entry. -/
theorem late_connection_entry : ¬∀ t : BleTable, bleTableMachine.Reachable t →
    t.OnlyOpened ∧ t.ListsOpened := by
  intro h
  have hstart : bleTableMachine.Reachable {} := .init ⟨rfl, rfl, rfl⟩
  have hlate : bleTableMachine.step {} (.onConnectionState 5 .connected 0)
      (({} : BleTable).after (.onConnectionState 5 .connected 0)) := ⟨trivial, rfl⟩
  have hregistered := (h _ (.step hstart trivial hlate)).1.registered 5 { connected := true } (by decide +kernel)
  exact absurd hregistered (by decide +kernel)

end BleTable

end MidiFramework.Server
