import MidiFramework.Server.BleReports
import MidiFramework.Server.BleRequests

/-!
# Sessions behind one client id

The driver, the manager and the controller know a Bluetooth session by its
client id only. The driver gives the id back before it sends the report of the
session's end, so a new session can have the id while the list, the id map and
the reports on the way still are of the old one.
-/

namespace MidiFramework.Server

open Foundation

/-- A session, and the address that it was opened for. -/
structure BleSession where
  id : Int × Nat
  address : Address
  deriving DecidableEq, Repr

def DeviceCtx.bleSession (d : DeviceCtx) : BleSession := ⟨d.sessionId, d.address⟩

/-- The report that a handler of the manager starts with. -/
def Task.unhandled : Task → Option Report
  | .handleBleConnect report | .handleBleDisconnect report => some report
  | _ => none

/-- The service, the address of every request by the number of its call, the session whose success
gave a device id out or found it last, the session whose failure made an edit of the list, and
for all that failures removed the session they are of and the session it was of. -/
structure BleSessions where
  service : Service
  asked : List Address := []
  owner : DeviceId → Option BleSession := fun _ => none
  unlister : Nat → Option BleSession := fun _ => none
  removals : List (Option BleSession × Option BleSession) := []

namespace BleSessions

def manager (s : BleSessions) : MidiDeviceManager := s.service.manager

/-- A failure of the session removes what the device id names. -/
def removes (session : Option BleSession) (d : DeviceId) (s : BleSessions) : BleSessions :=
  { s with removals := s.removals ++ [(session, s.owner d)] }

/-- `HandleBleConnect` finds the id of the device or gives it one. -/
def owns (report : Report) (s : BleSessions) : BleSessions :=
  let d := (s.manager.getOrCreateDeviceId report.device.information.key).1
  { s with owner := Function.update s.owner d (some report.device.bleSession) }

/-- `HandleBleDisconnect` takes the id out of the map. -/
def unmaps (report : Report) (s : BleSessions) : BleSessions :=
  match s.manager.driverIdToMidiId.lookup report.device.information.key with
  | some d => s.removes (some report.device.bleSession) d
  | none => s

/-- `HandleBleDisconnect` takes the device out of the list. -/
def unlists (report : Report) (d : DeviceId) (s : BleSessions) : BleSessions :=
  match s.manager.find? d with
  | some found =>
      { s.removes (some report.device.bleSession) found.id with
        unlister := Function.update s.unlister s.service.listing.edits.length
          (some report.device.bleSession) }
  | none => s

/-- `NotifyDeviceChange` takes the client context out. -/
def forgets (device : DeviceInformation) (edit : Edit) (s : BleSessions) : BleSessions :=
  if edit.change = .removed ∧ device.id ∈ s.service.controller.deviceClientContexts then
    s.removes (s.unlister edit.index) device.id
  else s

/-- What a section adds to the record. -/
def record (t : Task) (s : BleSessions) : BleSessions :=
  match t with
  | .openBleDevice token _ address =>
      if s.service.granted token then { s with asked := s.asked ++ [address] } else s
  | .handleBleConnect report => s.owns report
  | .handleBleDisconnect report => s.unmaps report
  | .unlistBleDevice report d => s.unlists report d
  | .notifyDeviceChange device edit => s.forgets device edit
  | _ => s

def run (t : Task) (s : BleSessions) : BleSessions × List Task :=
  ({ s.record t with service := (s.service.run t).1 }, (s.service.run t).2)

/-- The threads that open and close Bluetooth devices. -/
def starts : Task → Bool
  | .createMidiInServer .. | .openBleDevice .. | .closeDevice .. | .onConnectionState ..
  | .onServicesComplete .. | .onRegisterNotify .. => true
  | _ => false

inductive Environment (s : BleSessions) : BleSessions → Prop
  | service (service : Service) (h : Service.Environment s.service service) :
      Environment s { s with service := service }

/-- The service with the clients that open and close Bluetooth devices and the callbacks of the
Bluetooth stack. -/
def sections : Sections BleSessions Task where
  init := fun s => ∃ service, Service.sections.init service ∧ s = { service := service }
  starts := fun t => starts t
  environment := Environment
  run := run

/-! ### What is assumed and what holds -/

/-- An `OpenBleDevice` of the address comes as far as `BleGattcRegister`, which answers with an
id. -/
structure Registers (token : TokenId) (address : Address) (s : BleSessions) : Prop where
  granted : s.service.granted token
  first : address ∉ s.service.controller.pendingBleConnections
  unused : ∀ e ∈ s.manager.ble.devices.entries, e.2.address ≠ address
  positive : 0 < s.manager.ble.gatt.register

/-- The stack gives out an id that is not registered: a context under the id, if there is one, was
made by a callback that came too late. -/
def Assigns (s : BleSessions) : Task → Prop
  | .openBleDevice token _ address => s.Registers token address →
      ∀ d, s.manager.ble.devices.lookup s.manager.ble.gatt.register = some d →
        d.deviceCallback = none
  | _ => True

/-- Nothing is left of earlier sessions of the id that the stack gives out: no device id, and no
report that is yet to be handled. A client that joins an active device finds it in the list. -/
structure Settles (address : Address) (token : TokenId) (s : BleSessions) (ts : Multiset Task) :
    Prop where
  unmapped : s.Registers token address →
    s.manager.driverIdToMidiId.lookup (s.manager.ble.gatt.register, .ble) = none
  handled : s.Registers token address → ∀ t ∈ ts, ∀ report, t.unhandled = some report →
    report.device.id ≠ s.manager.ble.gatt.register
  listed : s.service.granted token →
    ∀ d, s.service.controller.activeBleDevices.lookup address = some d →
      d ∈ s.service.controller.deviceClientContexts → (s.manager.find? d).isSome

/-- The stack assigns ids as it should, and a new session starts when the last one of its id has
come to its end. -/
def Settled (s : BleSessions) (ts : Multiset Task) (t : Task) : Prop :=
  s.Assigns t ∧
    match t with
    | .openBleDevice token _ address => Settles address token s ts
    | _ => True

/-- Every success goes with the device that the request asked for, and a failure has removed
nothing but what its own session had. -/
structure Delivers (s : BleSessions) : Prop where
  asked : ∀ answer ∈ s.service.requests.answers, answer.opened →
    s.asked[answer.request.callback]? = some answer.deviceInfo.address
  removed : ∀ r ∈ s.removals, ∃ session, r = (some session, some session)

end BleSessions

/-! ### The sessions of the driver's table -/

/-- The two contexts are of one session, or of none. -/
structure DeviceCtx.SameSession (d d' : DeviceCtx) : Prop where
  session : d'.bleSession = d.bleSession
  callback : d'.deviceCallback = d.deviceCallback

namespace BleDriver

variable {s s' s'' : BleDriver} {i : Int} {d : DeviceCtx}

/-- The claimed contexts of a table are of sessions that were in an earlier one. -/
def Keeps (s s' : BleDriver) : Prop :=
  ∀ i d, s'.devices.lookup i = some d → d.deviceCallback.isSome →
    ∃ d₀, s.devices.lookup i = some d₀ ∧ d₀.SameSession d

theorem Keeps.refl (s : BleDriver) : s.Keeps s := fun _ d hd _ => ⟨d, hd, rfl, rfl⟩

theorem Keeps.trans (h : s.Keeps s') (h' : s'.Keeps s'') : s.Keeps s'' := by
  intro i d hd hclaimed
  obtain ⟨d₁, hd₁, hsame₁⟩ := h' i d hd hclaimed
  obtain ⟨d₀, hd₀, hsame₀⟩ := h i d₁ hd₁ (hsame₁.callback ▸ hclaimed)
  exact ⟨d₀, hd₀, hsame₁.session.trans hsame₀.session, hsame₁.callback.trans hsame₀.callback⟩

theorem keeps_eraseContext (s : BleDriver) (i : Int) : s.Keeps (s.eraseContext i) := by
  intro j d hd _
  rw [eraseContext, UnorderedMap.lookup_erase_eq] at hd
  split at hd
  · contradiction
  · exact ⟨d, hd, rfl, rfl⟩

/-- A context goes back into the table with its session, or an unclaimed one goes in. -/
theorem keeps_insertContext
    (h : d.deviceCallback.isSome → ∃ d₀, s.devices.lookup i = some d₀ ∧ d₀.SameSession d) :
    s.Keeps (s.insertContext i d) := by
  intro j e he hclaimed
  rw [insertContext, UnorderedMap.lookup_insert_eq] at he
  split at he
  · next hj =>
      subst hj
      obtain rfl := Option.some.inj he
      exact h hclaimed
  · exact ⟨e, he, rfl, rfl⟩

theorem keeps_switchPort (isOpen : Bool) (direction : PortDirection) (deviceId : Int)
    (portIndex : PortIndex) (s : BleDriver) :
    s.Keeps (s.switchPort isOpen direction deviceId portIndex).2 := by
  unfold switchPort
  split
  · exact .refl s
  · split
    · exact .refl s
    · next e he =>
        split
        · exact .refl s
        · have hfound := UnorderedMap.mem_entries.mp (List.mem_of_find?_eq_some he)
          apply keeps_insertContext
          intro _
          refine ⟨e.2, hfound, ?_⟩
          cases direction <;> exact ⟨rfl, rfl⟩

/-- A section goes on with the sessions of the table, and its report is of the session that the
client id has. -/
structure Continues (s : BleDriver) (i : Int) (r : Reported) : Prop where
  keeps : s.Keeps r.driver
  report : ∀ success d, r.report = some (success, d) →
    ∃ d₀, s.devices.lookup i = some d₀ ∧ d₀.SameSession d

theorem continues_silent {driver : BleDriver} {cleanup : Bool} (h : s.Keeps driver) :
    s.Continues i { driver := driver, cleanup := cleanup } :=
  ⟨h, fun _ _ hreport => nomatch hreport⟩

theorem continues_dropContext (i : Int) (s : BleDriver) : s.Continues i (s.dropContext i) := by
  unfold dropContext
  cases h : s.devices.lookup i with
  | none => exact continues_silent (.refl s)
  | some d =>
      refine ⟨keeps_eraseContext s i, ?_⟩
      rintro success e hreport
      obtain ⟨_, rfl⟩ := Prod.mk.inj (Option.some.inj hreport)
      exact ⟨d, h, rfl, rfl⟩

theorem continues_onConnectionState (i : Int) (connState : ConnState) (status : Int)
    (s : BleDriver) : s.Continues i (s.onConnectionState i connState status) := by
  unfold onConnectionState
  split
  · exact continues_dropContext i s
  · split
    · apply continues_silent
      apply keeps_insertContext
      unfold UnorderedMap.getD
      cases hd : s.devices.lookup i with
      | none =>
          intro hclaimed
          contradiction
      | some d => exact fun _ => ⟨d, rfl, rfl, rfl⟩
    · exact continues_silent (.refl s)

theorem continues_onServicesComplete (i : Int) (status : Int) (s : BleDriver) :
    s.Continues i (s.onServicesComplete i status) := by
  unfold onServicesComplete
  split
  · exact continues_silent (.refl s)
  · split
    · exact continues_silent (.refl s)
    · next d hd =>
        split
        · exact continues_silent (keeps_insertContext fun _ => ⟨d, hd, rfl, rfl⟩)
        · exact continues_silent (.refl s)

theorem continues_onRegisterNotify (i : Int) (status : Int) (s : BleDriver) :
    s.Continues i (s.onRegisterNotify i status) := by
  unfold onRegisterNotify
  split
  · exact continues_silent (.refl s)
  · next d hd =>
      split
      · refine ⟨keeps_insertContext fun _ => ⟨d, hd, rfl, rfl⟩, ?_⟩
        rintro success e hreport
        obtain ⟨_, rfl⟩ := Prod.mk.inj (Option.some.inj hreport)
        exact ⟨d, hd, rfl, rfl⟩
      · exact continues_silent (keeps_insertContext fun _ => ⟨d, hd, rfl, rfl⟩)

/-- An open leaves the sessions of the table, or it comes as far as the stack's id and adds one. -/
theorem openDevice_cases (address : Address) (s : BleDriver) :
    s.Keeps (s.openDevice address).2 ∨
      ((∀ e ∈ s.devices.entries, e.2.address ≠ address) ∧ 0 < s.gatt.register ∧
        (s.openDevice address).2 = s.insertContext s.gatt.register (s.newContext address)) := by
  have herased : s.Keeps
      ((s.insertContext s.gatt.register (s.newContext address)).eraseContext s.gatt.register) := by
    intro j d hd _
    change ((s.devices.insert s.gatt.register (s.newContext address)).erase
      s.gatt.register).lookup j = some d at hd
    rw [UnorderedMap.lookup_erase_eq] at hd
    split at hd
    · contradiction
    · next hne =>
        rw [UnorderedMap.lookup_insert_eq, if_neg hne] at hd
        exact ⟨d, hd, rfl, rfl⟩
  unfold openDevice
  split
  · exact Or.inl (.refl s)
  next hunused =>
  dsimp only
  split
  · exact Or.inl (.refl s)
  next hpositive =>
  split
  · exact Or.inl herased
  split
  · exact Or.inl herased
  · refine Or.inr ⟨?_, Int.lt_of_not_ge hpositive, rfl⟩
    intro e he haddress
    exact hunused (List.any_eq_true.mpr ⟨e, he, beq_iff_eq.mpr haddress⟩)

end BleDriver

namespace MidiDeviceManager

theorem closing_keeps : api.Closing fun m m' => m.ble.Keeps m'.ble where
  refl := fun m => .refl m.ble
  trans := fun h h' => h.trans h'
  closePort := by
    intro direction d p m
    change m.ble.Keeps (m.closePort direction d p).2.ble
    unfold closePort
    dsimp only
    split
    · exact .refl m.ble
    · unfold switchDriverPort
      split
      · exact .refl m.ble
      · exact BleDriver.keeps_switchPort false direction _ p m.ble

/-- A key that has an id keeps it, and the one that is looked up has one. -/
theorem lookup_getOrCreateDeviceId {key key' : DriverKey} {d : DeviceId} {m : MidiDeviceManager}
    (h : (m.getOrCreateDeviceId key).2.driverIdToMidiId.lookup key' = some d) :
    m.driverIdToMidiId.lookup key' = some d ∨ key' = key ∧ d = (m.getOrCreateDeviceId key).1 := by
  unfold getOrCreateDeviceId at h ⊢
  cases hkey : m.driverIdToMidiId.lookup key with
  | some d' =>
      rw [hkey] at h
      exact Or.inl h
  | none =>
      rw [hkey] at h
      dsimp only at h ⊢
      rw [UnorderedMap.lookup_insert_eq] at h
      split at h
      · next heq => exact Or.inr ⟨heq, (Option.some.inj h).symm⟩
      · exact Or.inl h

end MidiDeviceManager

/-! ### Everything under a client id is of one session -/

namespace BleSessions

variable {s s' : BleSessions} {ts : Multiset Task} {current : Int → BleSession} {d : DeviceId}
  {session : BleSession}

/-- The device id was given out, and last to the session. -/
structure Owned (s : BleSessions) (d : DeviceId) (session : BleSession) : Prop where
  positive : 1000 < d
  given : d ≤ s.manager.nextDeviceId
  owner : s.owner d = some session

/-- The device id is one of the address. -/
def Names (s : BleSessions) (d : DeviceId) (address : Address) : Prop :=
  ∃ session, s.Owned d session ∧ session.address = address

/-- The answer to a request is about the device that it asked for. -/
def Answers (s : BleSessions) (answer : DeviceOpened) : Prop :=
  answer.opened → s.asked[answer.request.callback]? = some answer.deviceInfo.address

/-- The context is of the session that the client id has. -/
structure Claimed (current : Int → BleSession) (i : Int) (d : DeviceCtx) : Prop where
  id : d.id = i
  callback : d.deviceCallback = some d.address
  session : current i = d.bleSession

theorem Claimed.same {i : Int} {d d' : DeviceCtx} (h : Claimed current i d)
    (hsame : d.SameSession d') : Claimed current i d' := by
  have hsession := hsame.session
  constructor
  · exact (congrArg (fun session => session.id.1) hsession).trans h.id
  · rw [hsame.callback, h.callback]
    exact congrArg (fun session => some session.address) hsession.symm
  · exact h.session.trans hsession.symm

/-- The report is of the session that its client id has. -/
structure Filed (current : Int → BleSession) (report : Report) : Prop where
  address : report.device.address = report.address
  session : current report.device.id = report.device.bleSession

/-- What a task carries of a session fits the record. -/
def Carries (s : BleSessions) : Task → Prop
  | .createMidiInServer .. | .openBleDevice .. | .closeDevice .. | .managerCloseDevice _
  | .driverCloseDevice _ | .deliver .. | .onConnectionState .. | .onServicesComplete ..
  | .onRegisterNotify .. | .cleanupDevice _ => True
  | .handleBleConnect report => report.success = true
  | .handleBleDisconnect report => report.success = false
  | .listBleDevice report d =>
      s.Owned d report.device.bleSession ∧ report.device.address = report.address
  | .unlistBleDevice report d =>
      report.success = false ∧ (d = 0 ∨ s.Owned d report.device.bleSession)
  | .handleBleOpenComplete report d info =>
      report.success → s.Names d report.address ∧ info.address = report.address
  | .notifyDeviceOpened _ answer => s.Answers answer
  | .notifyDeviceChange device edit => edit.change = .removed →
      edit.index < s.service.listing.edits.length ∧
        ∃ session, s.unlister edit.index = some session ∧ s.Owned device.id session
  | _ => False

/-- The invariant: the context, the device id and the reports under a client id are of one session,
and the list, the active devices and the requests agree on the addresses of the device ids. -/
structure Ordered (current : Int → BleSession) (s : BleSessions) (ts : Multiset Task) : Prop where
  next : 1000 ≤ s.manager.nextDeviceId
  contexts : ∀ i d, s.manager.ble.devices.lookup i = some d → d.deviceCallback.isSome →
    Claimed current i d
  ids : ∀ i d, s.manager.driverIdToMidiId.lookup (i, .ble) = some d → s.Owned d (current i)
  reports : ∀ t ∈ ts, ∀ report, t.unhandled = some report → Filed current report
  devices : ∀ e ∈ s.manager.devices, s.Names e.id e.midiDeviceInfo.address
  active : ∀ a d, s.service.controller.activeBleDevices.lookup a = some d → s.Names d a
  pending : ∀ a requests, s.service.controller.pendingBleConnections.lookup a = some requests →
    ∀ q ∈ requests, s.asked[q.callback]? = some a
  calls : s.asked.length = s.service.requests.calls
  answers : ∀ answer ∈ s.service.requests.answers, s.Answers answer
  removals : ∀ r ∈ s.removals, ∃ session, r = (some session, some session)
  tasks : ∀ t ∈ ts, s.Carries t

/-- What a later state keeps of the record. -/
structure Later (s s' : BleSessions) : Prop where
  next : s.manager.nextDeviceId ≤ s'.manager.nextDeviceId
  owner : ∀ d, d ≤ s.manager.nextDeviceId → s'.owner d = s.owner d
  asked : s.asked <+: s'.asked
  edits : s.service.listing.edits.length ≤ s'.service.listing.edits.length
  unlister : ∀ n, n < s.service.listing.edits.length → s'.unlister n = s.unlister n

theorem Owned.later (h : s.Owned d session) (hlater : s.Later s') : s'.Owned d session :=
  ⟨h.positive, h.given.trans hlater.next, (hlater.owner d h.given).trans h.owner⟩

theorem Names.later {a : Address} (h : s.Names d a) (hlater : s.Later s') : s'.Names d a := by
  obtain ⟨session, howned, haddress⟩ := h
  exact ⟨session, howned.later hlater, haddress⟩

theorem asked_append {n : Nat} {a : Address} {more : List Address} (h : s.asked[n]? = some a) :
    (s.asked ++ more)[n]? = some a := by
  have hlength := (List.getElem?_eq_some_iff.mp h).1
  rw [List.getElem?_append_left hlength]
  exact h

theorem asked_later {n : Nat} {a : Address} (h : s.asked[n]? = some a) (hlater : s.Later s') :
    s'.asked[n]? = some a := by
  obtain ⟨more, hmore⟩ := hlater.asked
  rw [← hmore]
  exact asked_append h

theorem Carries.later {t : Task} (h : s.Carries t) (hlater : s.Later s') : s'.Carries t := by
  cases t with
  | listBleDevice report d => exact ⟨h.1.later hlater, h.2⟩
  | unlistBleDevice report d => exact ⟨h.1, h.2.imp_right fun howned => howned.later hlater⟩
  | handleBleOpenComplete report d info =>
      intro hsuccess
      obtain ⟨hnames, haddress⟩ := h hsuccess
      exact ⟨hnames.later hlater, haddress⟩
  | notifyDeviceOpened report answer => exact fun hopened => asked_later (h hopened) hlater
  | notifyDeviceChange device edit =>
      intro hremoved
      obtain ⟨hindex, session, hunlister, howned⟩ := h hremoved
      refine ⟨hindex.trans_le hlater.edits, session, ?_, howned.later hlater⟩
      rw [hlater.unlister _ hindex]
      exact hunlister
  | _ => exact h

/-- What a section adds while every client id keeps its session. -/
structure Advances (current : Int → BleSession) (s s' : BleSessions) (tasks : List Task) :
    Prop where
  later : s.Later s'
  contexts : ∀ i d, s'.manager.ble.devices.lookup i = some d → d.deviceCallback.isSome →
    (∃ d₀, s.manager.ble.devices.lookup i = some d₀ ∧ d₀.SameSession d) ∨ Claimed current i d
  ids : ∀ i d, s'.manager.driverIdToMidiId.lookup (i, .ble) = some d →
    s.manager.driverIdToMidiId.lookup (i, .ble) = some d ∨ s'.Owned d (current i)
  reports : ∀ t ∈ tasks, ∀ report, t.unhandled = some report → Filed current report
  devices : ∀ e ∈ s'.manager.devices,
    e ∈ s.manager.devices ∨ s'.Names e.id e.midiDeviceInfo.address
  active : ∀ a d, s'.service.controller.activeBleDevices.lookup a = some d →
    s.service.controller.activeBleDevices.lookup a = some d ∨ s'.Names d a
  pending : ∀ a requests, s'.service.controller.pendingBleConnections.lookup a = some requests →
    s.service.controller.pendingBleConnections.lookup a = some requests ∨
      ∀ q ∈ requests, s'.asked[q.callback]? = some a
  calls : s.asked.length = s.service.requests.calls →
    s'.asked.length = s'.service.requests.calls
  answers : ∀ answer ∈ s'.service.requests.answers,
    answer ∈ s.service.requests.answers ∨ s'.Answers answer
  removals : ∀ r ∈ s'.removals, r ∈ s.removals ∨ ∃ session, r = (some session, some session)
  tasks : ∀ t ∈ tasks, s'.Carries t

theorem Ordered.others {t : Task} (h : s.Ordered current (t ::ₘ ts)) : s.Ordered current ts where
  next := h.next
  contexts := h.contexts
  ids := h.ids
  reports := fun t ht => h.reports t (Multiset.mem_cons_of_mem ht)
  devices := h.devices
  active := h.active
  pending := h.pending
  calls := h.calls
  answers := h.answers
  removals := h.removals
  tasks := fun t ht => h.tasks t (Multiset.mem_cons_of_mem ht)

theorem Ordered.advance {tasks : List Task} (h : s.Ordered current ts)
    (hadvances : Advances current s s' tasks) : s'.Ordered current ((tasks : Multiset Task) + ts) := by
  have hlater := hadvances.later
  constructor
  · exact h.next.trans hlater.next
  · intro i d hd hclaimed
    rcases hadvances.contexts i d hd hclaimed with ⟨d₀, hd₀, hsame⟩ | hnew
    · exact (h.contexts i d₀ hd₀ (hsame.callback ▸ hclaimed)).same hsame
    · exact hnew
  · intro i d hd
    exact (hadvances.ids i d hd).elim (fun hold => (h.ids i d hold).later hlater) id
  · intro t' ht'
    rcases Multiset.mem_add.mp ht' with hnew | hold
    · exact hadvances.reports t' (Multiset.mem_coe.mp hnew)
    · exact h.reports t' hold
  · intro e he
    exact (hadvances.devices e he).elim (fun hold => (h.devices e hold).later hlater) id
  · intro a d hd
    exact (hadvances.active a d hd).elim (fun hold => (h.active a d hold).later hlater) id
  · intro a requests hrequests
    rcases hadvances.pending a requests hrequests with hold | hnew
    · exact fun q hq => asked_later (h.pending a requests hold q hq) hlater
    · exact hnew
  · exact hadvances.calls h.calls
  · intro answer hanswer
    rcases hadvances.answers answer hanswer with hold | hnew
    · exact fun hopened => asked_later (h.answers answer hold hopened) hlater
    · exact hnew
  · intro r hr
    exact (hadvances.removals r hr).elim (h.removals r) id
  · intro t' ht'
    rcases Multiset.mem_add.mp ht' with hnew | hold
    · exact hadvances.tasks t' (Multiset.mem_coe.mp hnew)
    · exact (h.tasks t' hold).later hlater

/-- Tasks that are no report have none that must be filed. -/
theorem filed_of_unhandled {tasks : List Task} (h : ∀ t ∈ tasks, t.unhandled = none) :
    ∀ t ∈ tasks, ∀ report, t.unhandled = some report → Filed current report := by
  intro t ht report hreport
  rw [h t ht] at hreport
  contradiction

/-- A section that leaves the table of the driver, the requests and the answers as they are. -/
theorem Later.advances {tasks : List Task} (hlater : s.Later s')
    (hble : s'.manager.ble = s.manager.ble)
    (hrequests : s.service.controller.LeavesRequests s'.service.controller)
    (hrecord : s'.service.requests = s.service.requests) (hasked : s'.asked = s.asked)
    (hreports : ∀ t ∈ tasks, t.unhandled = none)
    (hids : ∀ i d, s'.manager.driverIdToMidiId.lookup (i, .ble) = some d →
      s.manager.driverIdToMidiId.lookup (i, .ble) = some d ∨ s'.Owned d (current i))
    (hdevices : ∀ e ∈ s'.manager.devices,
      e ∈ s.manager.devices ∨ s'.Names e.id e.midiDeviceInfo.address)
    (hremovals : ∀ r ∈ s'.removals, r ∈ s.removals ∨ ∃ session, r = (some session, some session))
    (htasks : ∀ t ∈ tasks, s'.Carries t) : Advances current s s' tasks where
  later := hlater
  contexts := fun i d hd _ => Or.inl ⟨d, hble ▸ hd, rfl, rfl⟩
  ids := hids
  reports := filed_of_unhandled hreports
  devices := hdevices
  active := fun a d hd => Or.inl (hrequests.active a d hd)
  pending := fun _ _ hd => Or.inl (hrequests.pending ▸ hd)
  calls := fun hcalls => by rw [hasked, hrecord, hcalls]
  answers := fun _ hanswer => Or.inl (hrecord ▸ hanswer)
  removals := hremovals
  tasks := htasks

/-! ### Sections that work neither on the list nor on the requests -/

theorem later_service {service : Service}
    (hnext : service.manager.nextDeviceId = s.manager.nextDeviceId)
    (hedits : s.service.listing.edits <+: service.listing.edits) :
    s.Later { s with service := service } where
  next := hnext.ge
  owner := fun _ _ => rfl
  asked := List.prefix_refl _
  edits := hedits.length_le
  unlister := fun _ _ => rfl

/-- Only the tables of the drivers and the clients change. -/
structure Leaves (s : BleSessions) (service : Service) : Prop where
  devices : service.manager.devices = s.manager.devices
  ids : service.manager.driverIdToMidiId = s.manager.driverIdToMidiId
  next : service.manager.nextDeviceId = s.manager.nextDeviceId
  keeps : s.manager.ble.Keeps service.manager.ble
  edits : service.listing.edits = s.service.listing.edits
  requests : s.service.controller.LeavesRequests service.controller
  calls : service.requests.calls = s.service.requests.calls
  answers : service.requests.answers = s.service.requests.answers

theorem Leaves.advances {service : Service} {tasks : List Task} (h : s.Leaves service)
    (hreports : ∀ t ∈ tasks, ∀ report, t.unhandled = some report → Filed current report)
    (htasks : ∀ t ∈ tasks, s.Carries t) :
    Advances current s { s with service := service } tasks where
  later := later_service h.next (h.edits ▸ List.prefix_refl _)
  contexts := fun i d hd hclaimed => Or.inl (h.keeps i d hd hclaimed)
  ids := fun _ _ hd => Or.inl (h.ids ▸ hd)
  reports := hreports
  devices := fun _ he => Or.inl (h.devices ▸ he)
  active := fun a d hd => Or.inl (h.requests.active a d hd)
  pending := fun _ _ hrequests => Or.inl (h.requests.pending ▸ hrequests)
  calls := fun hcalls => hcalls.trans h.calls.symm
  answers := fun _ hanswer => Or.inl (h.answers ▸ hanswer)
  removals := fun _ hr => Or.inl hr
  tasks := fun t ht =>
    (htasks t ht).later (later_service h.next (h.edits ▸ List.prefix_refl _))

theorem Leaves.refl (s : BleSessions) : s.Leaves s.service :=
  ⟨rfl, rfl, rfl, .refl _, rfl, .refl _, rfl, rfl⟩

/-- A section of the driver files the report of a session under its client id. -/
theorem Ordered.bleSection {t : Task} {i : Int} {reported : Reported}
    (h : s.Ordered current (t ::ₘ ts))
    (hcontinues : s.manager.ble.Continues i reported) :
    Advances current s { s with service := (s.service.bleSection i reported).1 }
      (s.service.bleSection i reported).2 := by
  have hleaves : s.Leaves (s.service.bleSection i reported).1 := by
    unfold Service.bleSection Service.notifyManager
    split
    · exact ⟨rfl, rfl, rfl, hcontinues.keeps, rfl, ⟨fun _ _ h => h, rfl⟩, rfl, rfl⟩
    · dsimp only
      split
      · exact ⟨rfl, rfl, rfl, hcontinues.keeps, rfl, ⟨fun _ _ h => h, rfl⟩, rfl, rfl⟩
      · exact ⟨rfl, rfl, rfl, hcontinues.keeps, rfl, ⟨fun _ _ h => h, rfl⟩, rfl, rfl⟩
  have htasks : ∀ t ∈ (s.service.bleSection i reported).2,
      (∃ j, t = .cleanupDevice j) ∨
        ∃ report, Filed current report ∧
          t = if report.success then .handleBleConnect report else .handleBleDisconnect report := by
    intro t ht
    have hcleanup : ∀ t ∈ (if reported.cleanup then [Task.cleanupDevice i] else []),
        ∃ j, t = .cleanupDevice j := by
      intro t ht
      split at ht
      · exact ⟨i, List.mem_singleton.mp ht⟩
      · contradiction
    rcases List.mem_append.mp ht with hreport | hclean
    · right
      unfold Service.notifyManager at hreport
      split at hreport
      · contradiction
      · next success device hsome =>
          dsimp only at hreport
          split at hreport
          · contradiction
          · next address hcallback =>
              obtain ⟨d, hd, hsame⟩ := hcontinues.report success device hsome
              have hsome : device.deviceCallback.isSome := by rw [hcallback, Option.isSome_some]
              have hclaimed := (h.contexts i d hd (hsame.callback ▸ hsome)).same hsame
              refine ⟨⟨s.service.requests.reports.length, success, address, device⟩,
                ⟨?_, ?_⟩, List.mem_singleton.mp hreport⟩
              · exact Option.some.inj (hclaimed.callback.symm.trans hcallback)
              · change current device.id = device.bleSession
                rw [hclaimed.id]
                exact hclaimed.session
    · exact Or.inl (hcleanup t hclean)
  apply hleaves.advances
  · intro t ht report hreport
    rcases htasks t ht with ⟨j, rfl⟩ | ⟨filed, hfiled, rfl⟩
    · contradiction
    · have heq : filed = report := by
        split at hreport
        · exact Option.some.inj hreport
        · exact Option.some.inj hreport
      exact heq ▸ hfiled
  · intro t ht
    rcases htasks t ht with ⟨j, rfl⟩ | ⟨filed, _, rfl⟩
    · trivial
    · split
      · next hsuccess => exact hsuccess
      · next hfailure => exact Bool.eq_false_iff.mpr hfailure

theorem leaves_closeDevice (c : ClientId) (d : DeviceId) (s : BleSessions) :
    s.Leaves (s.service.closeDevice c d).1 := by
  have hserves := MidiServiceController.closing_closeDevice
    MidiDeviceManager.calling_serves.toClosing c d s.service.controller
  have hkeeps := MidiServiceController.closing_closeDevice
    MidiDeviceManager.closing_keeps c d s.service.controller
  exact ⟨hserves.devices, hserves.ids, hserves.next, hkeeps, rfl,
    MidiServiceController.leavesRequests_closeDevice c d s.service.controller, rfl, rfl⟩

theorem leaves_of_manager {service : Service} (hmanager : service.manager = s.manager)
    (hedits : service.listing.edits = s.service.listing.edits)
    (hrequests : s.service.controller.LeavesRequests service.controller)
    (hcalls : service.requests.calls = s.service.requests.calls)
    (hanswers : service.requests.answers = s.service.requests.answers) : s.Leaves service where
  devices := congrArg MidiDeviceManager.devices hmanager
  ids := congrArg MidiDeviceManager.driverIdToMidiId hmanager
  next := congrArg MidiDeviceManager.nextDeviceId hmanager
  keeps := hmanager ▸ .refl s.manager.ble
  edits := hedits
  requests := hrequests
  calls := hcalls
  answers := hanswers

theorem leaves_createMidiInServer (uid : Uid) (object : RemoteObject) (token : TokenId)
    (added : Bool) (s : BleSessions) :
    s.Leaves (s.service.createMidiInServer uid object token added).1 := by
  have hmanager : (s.service.createMidiInServer uid object token added).1.manager = s.manager :=
    MidiServiceController.deviceManager_createMidiInServer uid object _ added s.service.controller
  exact leaves_of_manager hmanager rfl
    (MidiServiceController.leavesRequests_createMidiInServer uid object _ added _) rfl rfl

theorem leaves_driverCloseDevice_usb (i : Int) (s : BleSessions) :
    s.Leaves (s.service.driverCloseDevice (i, .usb)).1 :=
  ⟨rfl, rfl, rfl, .refl _, rfl, ⟨fun _ _ h => h, rfl⟩, rfl, rfl⟩

theorem leaves_updateBluetoothPermission (token : TokenId) (c : ClientId) (s : BleSessions) :
    s.Leaves (s.service.updateBluetoothPermission token c) := by
  unfold Service.updateBluetoothPermission
  split
  · exact .refl s
  · exact ⟨rfl, rfl, rfl, .refl _, rfl, ⟨fun _ _ h => h, rfl⟩, rfl, rfl⟩

theorem leaves_deliver (c : ClientId) (server : MidiInServer) (change : DeviceChangeType)
    (info : MidiDeviceInfo) (s : BleSessions) :
    s.Leaves (s.service.deliver c server change info) := by
  unfold Service.deliver
  have hpermission := leaves_updateBluetoothPermission
    (s.service.controller.clients.getD c server).callerTokenId c s
  dsimp only
  split
  · exact hpermission
  · exact ⟨hpermission.devices, hpermission.ids, hpermission.next, hpermission.keeps,
      hpermission.edits, hpermission.requests, hpermission.calls, hpermission.answers⟩

/-- What the record says of the removals is no part of the rest. -/
theorem Advances.withRemovals {tasks : List Task}
    {removals : List (Option BleSession × Option BleSession)} (h : Advances current s s' tasks)
    (hremovals : ∀ r ∈ removals, r ∈ s.removals ∨ ∃ session, r = (some session, some session)) :
    Advances current s { s' with removals := removals } tasks := by
  have hlater : s'.Later { s' with removals := removals } :=
    ⟨le_rfl, fun _ _ => rfl, List.prefix_refl _, le_rfl, fun _ _ => rfl⟩
  constructor
  · exact ⟨h.later.next, h.later.owner, h.later.asked, h.later.edits, h.later.unlister⟩
  · exact h.contexts
  · exact fun i d hd => (h.ids i d hd).imp_right fun howned => howned.later hlater
  · exact h.reports
  · exact fun e he => (h.devices e he).imp_right fun hnames => hnames.later hlater
  · exact fun a d hd => (h.active a d hd).imp_right fun hnames => hnames.later hlater
  · exact h.pending
  · exact h.calls
  · exact h.answers
  · exact hremovals
  · exact fun t ht => (h.tasks t ht).later hlater

/-! ### Sections of the handlers -/

/-- The id that a session gets is its own from then on, and nobody else's. -/
theorem Ordered.owns {report : Report} (h : s.Ordered current (.handleBleConnect report ::ₘ ts)) :
    s.Later (run (.handleBleConnect report) s).1 ∧
      (run (.handleBleConnect report) s).1.Owned
        (s.manager.getOrCreateDeviceId report.device.information.key).1 report.device.bleSession := by
  have hfiled := h.reports _ (Multiset.mem_cons_self _ ts) report rfl
  have howner : (run (.handleBleConnect report) s).1.owner =
      Function.update s.owner (s.manager.getOrCreateDeviceId report.device.information.key).1
        (some report.device.bleSession) := rfl
  have hmanager : (run (.handleBleConnect report) s).1.manager =
      (s.manager.getOrCreateDeviceId report.device.information.key).2 := rfl
  have hlater : s.manager.nextDeviceId ≤
        (s.manager.getOrCreateDeviceId report.device.information.key).2.nextDeviceId →
      (∀ d, d ≤ s.manager.nextDeviceId →
        (run (.handleBleConnect report) s).1.owner d = s.owner d) →
      s.Later (run (.handleBleConnect report) s).1 :=
    fun hnext howner => ⟨hnext, howner, List.prefix_refl _, le_rfl, fun _ _ => rfl⟩
  unfold MidiDeviceManager.getOrCreateDeviceId at howner hmanager hlater ⊢
  cases hd : s.manager.driverIdToMidiId.lookup report.device.information.key with
  | some d =>
      rw [hd] at howner hmanager hlater
      have howned := h.ids report.device.id d hd
      rw [hfiled.session] at howned
      have hsame : (run (.handleBleConnect report) s).1.owner = s.owner := by
        rw [howner, ← howned.owner]
        exact Function.update_eq_self d s.owner
      have hlater := hlater le_rfl fun d _ => congrFun hsame d
      exact ⟨hlater, howned.later hlater⟩
  | none =>
      rw [hd] at howner hmanager hlater
      dsimp only at howner hmanager hlater ⊢
      constructor
      · apply hlater (Int.le_add_one le_rfl)
        intro d hd
        rw [howner]
        exact Function.update_of_ne (Int.lt_add_one_of_le hd).ne _ _
      · refine ⟨Int.lt_add_one_of_le h.next, ?_, ?_⟩
        · rw [hmanager]
        · rw [howner]
          exact Function.update_self _ _ _

theorem Ordered.handleBleConnect {report : Report}
    (h : s.Ordered current (.handleBleConnect report ::ₘ ts)) :
    Advances current s (run (.handleBleConnect report) s).1
      (run (.handleBleConnect report) s).2 := by
  have hfiled := h.reports _ (Multiset.mem_cons_self _ ts) report rfl
  obtain ⟨hlater, howned⟩ := h.owns
  have hsame := MidiDeviceManager.getOrCreateDeviceId_fst report.device.information.key s.manager
  have hmanager : (run (.handleBleConnect report) s).1.manager =
      (s.manager.getOrCreateDeviceId report.device.information.key).2 := rfl
  apply hlater.advances hsame.2.1 ⟨fun _ _ hd => hd, rfl⟩ rfl rfl
    (List.forall_mem_singleton.mpr rfl)
  · intro i d hd
    rw [hmanager] at hd
    rcases MidiDeviceManager.lookup_getOrCreateDeviceId hd with hold | ⟨hkey, rfl⟩
    · exact Or.inl hold
    · right
      have hi : i = report.device.id := congrArg Prod.fst hkey
      rw [hi, hfiled.session]
      exact howned
  · exact fun e he => Or.inl (hsame.1 ▸ he)
  · exact fun r hr => Or.inl hr
  · intro t ht
    rw [List.mem_singleton.mp ht]
    exact ⟨howned, hfiled.address⟩

theorem Ordered.listBleDevice {report : Report} {d : DeviceId}
    (h : s.Ordered current (.listBleDevice report d ::ₘ ts)) :
    Advances current s (run (.listBleDevice report d) s).1
      (run (.listBleDevice report d) s).2 := by
  obtain ⟨howned, haddress⟩ := h.tasks _ (Multiset.mem_cons_self _ ts)
  have hresult : run (.listBleDevice report d) s =
      ({ s with service := (s.service.listBleDevice report d).1 },
        (s.service.listBleDevice report d).2) := rfl
  have hnames : s.Names d report.address := ⟨_, howned, haddress⟩
  rw [hresult]
  rcases Service.listBleDevice_cases report d s.service with ⟨found, hfound, heq⟩ | ⟨_, heq⟩
  · rw [heq]
    obtain ⟨hmem, hid⟩ := MidiDeviceManager.mem_of_find hfound
    have hleaves : s.Leaves (s.service.handle report.device true) :=
      leaves_of_manager rfl rfl (.refl _) rfl rfl
    apply hleaves.advances (filed_of_unhandled (List.forall_mem_singleton.mpr rfl))
    · intro t ht
      rw [List.mem_singleton.mp ht]
      intro _
      refine ⟨hnames, ?_⟩
      obtain ⟨session, howned', haddress'⟩ := h.devices found hmem
      rw [hid] at howned'
      rw [← haddress', ← haddress]
      have hsession := howned'.owner.symm.trans howned.owner
      rw [Option.some.inj hsession]
      rfl
  · rw [heq]
    have hlater : s.Later { s with
        service := (((s.service.setManager { s.service.manager with
          devices := s.service.manager.devices ++ [report.device.information.withId d] }).handle
            report.device true).announce
              [(.add, report.device.information.withId d)]).1 } :=
      later_service rfl (List.prefix_append _ _)
    apply hlater.advances rfl ⟨fun _ _ hd => hd, rfl⟩ rfl rfl
      (List.forall_mem_cons.mpr ⟨rfl, List.forall_mem_singleton.mpr rfl⟩)
    · exact fun i d hd => Or.inl hd
    · intro e he
      rcases List.mem_append.mp he with hold | hnew
      · exact Or.inl hold
      · rw [List.mem_singleton.mp hnew]
        exact Or.inr ⟨_, howned.later hlater, rfl⟩
    · exact fun r hr => Or.inl hr
    · intro t ht
      rcases List.mem_cons.mp ht with rfl | ht
      · exact fun _ => ⟨hnames.later hlater, haddress⟩
      · rw [List.mem_singleton.mp ht]
        exact fun hremoved => nomatch hremoved

theorem Ordered.handleBleDisconnect {report : Report}
    (h : s.Ordered current (.handleBleDisconnect report ::ₘ ts)) :
    Advances current s (run (.handleBleDisconnect report) s).1
      (run (.handleBleDisconnect report) s).2 := by
  have hfiled := h.reports _ (Multiset.mem_cons_self _ ts) report rfl
  have hfailure := h.tasks _ (Multiset.mem_cons_self _ ts)
  have hsame := MidiDeviceManager.takeDeviceId_snd report.device.information.key s.manager
  have hunmaps : ∃ removals, s.unmaps report = { s with removals := removals } ∧
      ∀ r ∈ removals, r ∈ s.removals ∨ ∃ session, r = (some session, some session) := by
    unfold unmaps
    cases hd : s.manager.driverIdToMidiId.lookup report.device.information.key with
    | none => exact ⟨s.removals, rfl, fun r hr => Or.inl hr⟩
    | some d =>
        refine ⟨_, rfl, ?_⟩
        intro r hr
        rcases List.mem_append.mp hr with hold | hnew
        · exact Or.inl hold
        · right
          have howned := h.ids report.device.id d hd
          refine ⟨report.device.bleSession, ?_⟩
          rw [List.mem_singleton.mp hnew, howned.owner, hfiled.session]
  obtain ⟨removals, hremoved, hremovals⟩ := hunmaps
  have hrun : run (.handleBleDisconnect report) s =
      ({ s.unmaps report with service := (s.service.run (.handleBleDisconnect report)).1 },
        (s.service.run (.handleBleDisconnect report)).2) := rfl
  rw [hrun, hremoved]
  have hlater : s.Later { s with service := (s.service.run (.handleBleDisconnect report)).1 } :=
    later_service hsame.2.1 (List.prefix_refl _)
  have hadvances : Advances current s
      { s with service := (s.service.run (.handleBleDisconnect report)).1 }
      (s.service.run (.handleBleDisconnect report)).2 := by
    apply hlater.advances hsame.2.2.1 ⟨fun _ _ hd => hd, rfl⟩ rfl rfl
      (List.forall_mem_singleton.mpr rfl)
    · exact fun i d hd => Or.inl (MidiDeviceManager.lookup_takeDeviceId hd)
    · exact fun e he => Or.inl (hsame.1 ▸ he)
    · exact fun r hr => Or.inl hr
    · intro t ht
      rw [List.mem_singleton.mp ht]
      refine ⟨hfailure, ?_⟩
      rcases MidiDeviceManager.takeDeviceId_fst report.device.information.key s.manager with
        hfound | hnone
      · right
        have howned := h.ids report.device.id _ hfound
        rw [hfiled.session] at howned
        exact howned.later hlater
      · exact Or.inl hnone
  exact hadvances.withRemovals hremovals

theorem Ordered.unlistBleDevice {report : Report} {d : DeviceId}
    (h : s.Ordered current (.unlistBleDevice report d ::ₘ ts)) :
    Advances current s (run (.unlistBleDevice report d) s).1
      (run (.unlistBleDevice report d) s).2 := by
  obtain ⟨hfailure, hd⟩ := h.tasks _ (Multiset.mem_cons_self _ ts)
  have hrun : run (.unlistBleDevice report d) s =
      ({ s.unlists report d with service := (s.service.unlistBleDevice report d).1 },
        (s.service.unlistBleDevice report d).2) := rfl
  rw [hrun]
  unfold unlists
  rcases Service.unlistBleDevice_cases report d s.service with ⟨hnone, heq⟩ | ⟨found, hfound, heq⟩
  · have hfind : s.manager.find? d = none := hnone
    rw [heq, hfind]
    have hleaves : s.Leaves (s.service.handle report.device false) :=
      leaves_of_manager rfl rfl (.refl _) rfl rfl
    apply hleaves.advances (filed_of_unhandled (List.forall_mem_singleton.mpr rfl))
    · intro t ht
      rw [List.mem_singleton.mp ht]
      intro hsuccess
      rw [hfailure] at hsuccess
      contradiction
  · have hfind : s.manager.find? d = some found := hfound
    rw [heq, hfind]
    obtain ⟨hmem, hid⟩ := MidiDeviceManager.mem_of_find hfound
    have howned : s.Owned found.id report.device.bleSession := by
      rcases hd with rfl | howned
      · obtain ⟨session, howned, _⟩ := h.devices found hmem
        have hpositive := howned.positive
        rw [hid] at hpositive
        exact absurd hpositive (by decide)
      · rw [hid]
        exact howned
    have hlater : s.Later
        { s.removes (some report.device.bleSession) found.id with
          unlister := Function.update s.unlister s.service.listing.edits.length
            (some report.device.bleSession)
          service := (((s.service.setManager { s.service.manager with
            devices := s.service.manager.devices.eraseP fun e => e.id == d }).handle
              report.device false).announce [(.removed, found)]).1 } := by
      refine ⟨le_rfl, fun _ _ => rfl, List.prefix_refl _, ?_, ?_⟩
      · exact (List.prefix_append _ _).length_le
      · exact fun n hn => Function.update_of_ne hn.ne _ _
    apply hlater.advances rfl ⟨fun _ _ hd => hd, rfl⟩ rfl rfl
      (List.forall_mem_singleton.mpr rfl)
    · exact fun i d hd => Or.inl hd
    · exact fun e he => Or.inl (List.mem_of_mem_eraseP he)
    · intro r hr
      rcases List.mem_append.mp hr with hold | hnew
      · exact Or.inl hold
      · right
        refine ⟨report.device.bleSession, ?_⟩
        rw [List.mem_singleton.mp hnew, howned.owner]
    · intro t ht
      rw [List.mem_singleton.mp ht]
      intro _
      refine ⟨?_, _, Function.update_self _ _ _, howned.later hlater⟩
      change s.service.listing.edits.length < (s.service.listing.edits ++ [_]).length
      rw [List.length_append]
      exact Nat.lt_succ_self _

theorem Ordered.notifyDeviceChange {device : DeviceInformation} {edit : Edit}
    (h : s.Ordered current (.notifyDeviceChange device edit ::ₘ ts)) :
    Advances current s (run (.notifyDeviceChange device edit) s).1
      (run (.notifyDeviceChange device edit) s).2 := by
  have hcarries := h.tasks _ (Multiset.mem_cons_self _ ts)
  have hforgets : ∃ removals, s.forgets device edit = { s with removals := removals } ∧
      ∀ r ∈ removals, r ∈ s.removals ∨ ∃ session, r = (some session, some session) := by
    unfold forgets
    split
    · next hremoved =>
        refine ⟨_, rfl, ?_⟩
        intro r hr
        rcases List.mem_append.mp hr with hold | hnew
        · exact Or.inl hold
        · right
          obtain ⟨_, session, hunlister, howned⟩ := hcarries hremoved.1
          refine ⟨session, ?_⟩
          rw [List.mem_singleton.mp hnew, hunlister, howned.owner]
    · exact ⟨s.removals, rfl, fun r hr => Or.inl hr⟩
  obtain ⟨removals, hremoved, hremovals⟩ := hforgets
  have hrun : run (.notifyDeviceChange device edit) s =
      ({ s.forgets device edit with
          service := (s.service.notifyDeviceChange device edit).1 },
        (s.service.notifyDeviceChange device edit).2) := rfl
  rw [hrun, hremoved]
  have hmanager : (s.service.notifyDeviceChange device edit).1.manager = s.manager :=
    MidiServiceController.deviceManager_notifyDeviceChange _ _ _
  have hleaves : s.Leaves (s.service.notifyDeviceChange device edit).1 :=
    leaves_of_manager hmanager rfl
      (MidiServiceController.leavesRequests_notifyDeviceChange edit.change device.id _) rfl rfl
  have htasks : ∀ t ∈ (s.service.notifyDeviceChange device edit).2,
      t.unhandled = none ∧ s.Carries t := by
    intro t ht
    obtain ⟨e, _, rfl⟩ := List.mem_map.mp ht
    exact ⟨rfl, trivial⟩
  have hadvances : Advances current s
      { s with service := (s.service.notifyDeviceChange device edit).1 }
      (s.service.notifyDeviceChange device edit).2 := by
    apply hleaves.advances (filed_of_unhandled fun t ht => (htasks t ht).1)
    exact fun t ht => (htasks t ht).2
  exact hadvances.withRemovals hremovals

theorem Ordered.notifyDeviceOpened {report : Option Nat} {answer : DeviceOpened}
    (h : s.Ordered current (.notifyDeviceOpened report answer ::ₘ ts)) :
    Advances current s (run (.notifyDeviceOpened report answer) s).1
      (run (.notifyDeviceOpened report answer) s).2 := by
  have hanswers := h.tasks _ (Multiset.mem_cons_self _ ts)
  constructor
  · exact later_service rfl (List.prefix_refl _)
  · exact fun i d hd _ => Or.inl ⟨d, hd, rfl, rfl⟩
  · exact fun i d hd => Or.inl hd
  · exact fun t ht => absurd ht List.not_mem_nil
  · exact fun e he => Or.inl he
  · exact fun a d hd => Or.inl hd
  · exact fun a requests hrequests => Or.inl hrequests
  · exact id
  · intro answer' hmem
    rcases List.mem_append.mp hmem with hold | hnew
    · exact Or.inl hold
    · rw [List.mem_singleton.mp hnew]
      exact Or.inr hanswers
  · exact fun r hr => Or.inl hr
  · exact fun t ht => absurd ht List.not_mem_nil

/-- The requests that waited for the address are answered with the device of the address. -/
theorem Ordered.handleBleOpenComplete {report : Report} {d : DeviceId} {info : MidiDeviceInfo}
    (h : s.Ordered current (.handleBleOpenComplete report d info ::ₘ ts)) :
    Advances current s (run (.handleBleOpenComplete report d info) s).1
      (run (.handleBleOpenComplete report d info) s).2 := by
  have hcarries := h.tasks _ (Multiset.mem_cons_self _ ts)
  have hleaves := Service.leavesList_run
    (rfl : (Task.handleBleOpenComplete report d info).ofList = false) s.service
  obtain ⟨hpending, hactive⟩ := MidiServiceController.requests_handleBleOpenComplete report.address
    report.success d info s.service.controller
  have hmanager : (run (.handleBleOpenComplete report d info) s).1.manager = s.manager :=
    MidiServiceController.deviceManager_handleBleOpenComplete report.address report.success d info
      s.service.controller
  have hlater : s.Later (run (.handleBleOpenComplete report d info) s).1 :=
    later_service hleaves.manager.next (List.prefix_refl _)
  have htasks : ∀ t ∈ (run (.handleBleOpenComplete report d info) s).2,
      t.unhandled = none ∧ s.Carries t := by
    intro t ht
    rcases List.mem_append.mp ht with hclose | hanswer
    · obtain ⟨x, _, rfl⟩ := List.mem_map.mp hclose
      exact ⟨rfl, trivial⟩
    · obtain ⟨answer, hmem, rfl⟩ := List.mem_map.mp hanswer
      rw [MidiServiceController.answers_handleBleOpenComplete] at hmem
      obtain ⟨q, hq, rfl⟩ := List.mem_map.mp hmem
      refine ⟨rfl, ?_⟩
      intro hsuccess
      unfold UnorderedMap.getD at hq
      cases hrequests : s.service.controller.pendingBleConnections.lookup report.address with
      | none =>
          rw [hrequests] at hq
          contradiction
      | some requests =>
          rw [hrequests] at hq
          have hasked := h.pending report.address requests hrequests q hq
          rw [hasked]
          exact congrArg some (hcarries hsuccess).2.symm
  constructor
  · exact hlater
  · rw [hmanager]
    exact fun i d hd _ => Or.inl ⟨d, hd, rfl, rfl⟩
  · rw [hmanager]
    exact fun i d hd => Or.inl hd
  · exact filed_of_unhandled fun t ht => (htasks t ht).1
  · rw [hmanager]
    exact fun e he => Or.inl he
  · intro a d' hd'
    have hd' : (s.service.controller.handleBleOpenComplete report.address report.success d
      info).state.activeBleDevices.lookup a = some d' := hd'
    rw [hactive] at hd'
    split at hd'
    · next hsuccess =>
        rw [UnorderedMap.lookup_insert_eq] at hd'
        split at hd'
        · next ha =>
            rw [ha, ← Option.some.inj hd']
            exact Or.inr ((hcarries hsuccess).1.later hlater)
        · exact Or.inl hd'
    · exact Or.inl hd'
  · intro a requests hrequests
    have hrequests : (s.service.controller.handleBleOpenComplete report.address report.success d
      info).state.pendingBleConnections.lookup a = some requests := hrequests
    rw [hpending, UnorderedMap.lookup_erase_eq] at hrequests
    split at hrequests
    · contradiction
    · exact Or.inl hrequests
  · exact id
  · exact fun answer hanswer => Or.inl hanswer
  · exact fun r hr => Or.inl hr
  · exact fun t ht => (htasks t ht).2.later hlater

/-! ### `OpenBleDevice` -/

/-- The state after an `OpenBleDevice` for the address, as far as the controller has gone. -/
def asks (address : Address) (controller : MidiServiceController MidiDeviceManager)
    (s : BleSessions) : BleSessions :=
  { s with
    asked := s.asked ++ [address]
    service :=
      { s.service with
        controller := controller
        requests := { s.service.requests with calls := s.service.requests.calls + 1 } } }

theorem asked_asks {address : Address} {controller : MidiServiceController MidiDeviceManager}
    (hcalls : s.asked.length = s.service.requests.calls) :
    (s.asks address controller).asked[s.service.requests.calls]? = some address := by
  change (s.asked ++ [address])[s.service.requests.calls]? = some address
  rw [← hcalls]
  exact List.getElem?_concat_length

theorem advances_asks {address : Address} {controller : MidiServiceController MidiDeviceManager}
    {answers : List DeviceOpened} (hserves : s.manager.Serves controller.deviceManager)
    (hcontexts : ∀ i d, controller.deviceManager.ble.devices.lookup i = some d →
      d.deviceCallback.isSome →
        (∃ d₀, s.manager.ble.devices.lookup i = some d₀ ∧ d₀.SameSession d) ∨ Claimed current i d)
    (hactive : ∀ a d, controller.activeBleDevices.lookup a = some d →
      s.service.controller.activeBleDevices.lookup a = some d)
    (hpending : ∀ a requests, controller.pendingBleConnections.lookup a = some requests →
      s.service.controller.pendingBleConnections.lookup a = some requests ∨
        ∀ q ∈ requests, (s.asks address controller).asked[q.callback]? = some a)
    (hanswers : ∀ answer ∈ answers, (s.asks address controller).Answers answer) :
    Advances current s (s.asks address controller) (answers.map (.notifyDeviceOpened none)) where
  later := ⟨hserves.next.ge, fun _ _ => rfl, List.prefix_append _ _, le_rfl, fun _ _ => rfl⟩
  contexts := hcontexts
  ids := fun _ _ hd => Or.inl (hserves.ids ▸ hd)
  reports := by
    intro t ht report hreport
    obtain ⟨answer, _, rfl⟩ := List.mem_map.mp ht
    contradiction
  devices := fun _ he => Or.inl (hserves.devices ▸ he)
  active := fun a d hd => Or.inl (hactive a d hd)
  pending := hpending
  calls := by
    intro hcalls
    change (s.asked ++ [address]).length = s.service.requests.calls + 1
    rw [List.length_append, hcalls]
    rfl
  answers := fun _ hanswer => Or.inl hanswer
  removals := fun _ hr => Or.inl hr
  tasks := by
    intro t ht
    obtain ⟨answer, hanswer, rfl⟩ := List.mem_map.mp ht
    exact hanswers answer hanswer

/-- A client id that has nothing left of its last session may go to another one. -/
theorem Ordered.reassign {i : Int} (h : s.Ordered current ts)
    (hunclaimed : ∀ d, s.manager.ble.devices.lookup i = some d → d.deviceCallback = none)
    (hunmapped : s.manager.driverIdToMidiId.lookup (i, .ble) = none)
    (hhandled : ∀ t ∈ ts, ∀ report, t.unhandled = some report → report.device.id ≠ i)
    (session : BleSession) : s.Ordered (Function.update current i session) ts where
  next := h.next
  contexts := by
    intro j d hd hclaimed
    have hj : j ≠ i := by
      rintro rfl
      rw [hunclaimed d hd] at hclaimed
      contradiction
    obtain ⟨hid, hcallback, hsession⟩ := h.contexts j d hd hclaimed
    exact ⟨hid, hcallback, (Function.update_of_ne hj _ _).trans hsession⟩
  ids := by
    intro j d hd
    have hj : j ≠ i := by
      rintro rfl
      rw [hunmapped] at hd
      contradiction
    rw [Function.update_of_ne hj]
    exact h.ids j d hd
  reports := by
    intro t ht report hreport
    obtain ⟨haddress, hsession⟩ := h.reports t ht report hreport
    exact ⟨haddress,
      (Function.update_of_ne (hhandled t ht report hreport) _ _).trans hsession⟩
  devices := h.devices
  active := h.active
  pending := h.pending
  calls := h.calls
  answers := h.answers
  removals := h.removals
  tasks := h.tasks

theorem run_openBleDevice {token : TokenId} (hgranted : s.service.granted token) (c : ClientId)
    (address : Address) :
    ∃ (clients : UnorderedMap ClientId MidiInServer) (r : Locked MidiDeviceManager),
      MidiServiceController.OpensBle MidiDeviceManager.api
        { s.service.controller with clients := clients } address ⟨c, s.service.requests.calls⟩ r ∧
      run (.openBleDevice token c address) s =
        (s.asks address r.state, r.answers.map (.notifyDeviceOpened none)) := by
  obtain ⟨clients, r, hopens, hservice⟩ := Service.openBleDevice_granted hgranted c address
  refine ⟨clients, r, hopens, ?_⟩
  have hrecord : s.record (.openBleDevice token c address) =
      { s with asked := s.asked ++ [address] } := if_pos hgranted
  have hrun : run (.openBleDevice token c address) s =
      ({ s.record (.openBleDevice token c address) with
          service := (s.service.openBleDevice token c address).1 },
        (s.service.openBleDevice token c address).2) := rfl
  rw [hrun, hrecord, hservice]
  rfl

theorem run_openBleDevice_refused {token : TokenId} (hgranted : ¬s.service.granted token)
    (c : ClientId) (address : Address) :
    run (.openBleDevice token c address) s =
      ({ s with service := s.service.updateBluetoothPermission token c }, []) := by
  have hrecord : s.record (.openBleDevice token c address) = s := if_neg hgranted
  have hrun : run (.openBleDevice token c address) s =
      ({ s.record (.openBleDevice token c address) with
          service := (s.service.openBleDevice token c address).1 },
        (s.service.openBleDevice token c address).2) := rfl
  rw [hrun, hrecord, Service.openBleDevice_refused hgranted]

/-- A listed device that an address is active with has this address. -/
theorem Ordered.address_of_active (h : s.Ordered current ts) {address : Address} {d : DeviceId}
    (hactive : s.service.controller.activeBleDevices.lookup address = some d)
    (hlisted : (s.manager.find? d).isSome) :
    (MidiDeviceManager.getDeviceForDeviceId d s.manager).midiDeviceInfo.address = address := by
  obtain ⟨e, he⟩ := Option.isSome_iff_exists.mp hlisted
  obtain ⟨hmem, hid⟩ := MidiDeviceManager.mem_of_find he
  obtain ⟨session, howned, haddress⟩ := h.devices e hmem
  obtain ⟨session', howned', haddress'⟩ := h.active address d hactive
  rw [hid] at howned
  have hsession := Option.some.inj (howned.owner.symm.trans howned'.owner)
  have hdevice : MidiDeviceManager.getDeviceForDeviceId d s.manager = e := by
    unfold MidiDeviceManager.getDeviceForDeviceId
    rw [he]
    rfl
  rw [hdevice, ← haddress, hsession, haddress']

/-- The requests of an address are replaced by some that asked for it. -/
theorem pending_insert {address : Address} {controller : MidiServiceController MidiDeviceManager}
    {pending : UnorderedMap Address (List PendingBleConnection)}
    {requests : List PendingBleConnection}
    (hkept : ∀ a waiting, pending.lookup a = some waiting →
      s.service.controller.pendingBleConnections.lookup a = some waiting)
    (hasked : ∀ q ∈ requests, (s.asks address controller).asked[q.callback]? = some address) :
    ∀ a waiting, (pending.insert address requests).lookup a = some waiting →
      s.service.controller.pendingBleConnections.lookup a = some waiting ∨
        ∀ q ∈ waiting, (s.asks address controller).asked[q.callback]? = some a := by
  intro a waiting hwaiting
  rw [UnorderedMap.lookup_insert_eq] at hwaiting
  split at hwaiting
  · next ha =>
      right
      rw [ha, ← Option.some.inj hwaiting]
      exact hasked
  · exact Or.inl (hkept a waiting hwaiting)

/-- Where the open reaches the stack, the id that it gets goes to the new session. -/
theorem Ordered.openBleDevice {token : TokenId} {c : ClientId} {address : Address}
    (h : s.Ordered current (.openBleDevice token c address ::ₘ ts))
    (hsettled : s.Settled ts (.openBleDevice token c address)) :
    ∃ current', (run (.openBleDevice token c address) s).1.Ordered current'
      (((run (.openBleDevice token c address) s).2 : Multiset Task) + ts) := by
  obtain ⟨hassigns, hsettles⟩ := hsettled
  by_cases hgranted : s.service.granted token
  · obtain ⟨clients, r, hopens, hrun⟩ := run_openBleDevice hgranted c address
    rw [hrun]
    have hold : ∀ i d, s.manager.ble.devices.lookup i = some d → d.deviceCallback.isSome →
        (∃ d₀, s.manager.ble.devices.lookup i = some d₀ ∧ d₀.SameSession d) ∨
          Claimed current i d := fun i d hd _ => Or.inl ⟨d, hd, rfl, rfl⟩
    have hasked : (s.asks address r.state).asked[s.service.requests.calls]? = some address :=
      asked_asks h.calls
    cases hopens with
    | refused state answers =>
        rw [state, answers]
        refine ⟨current, h.others.advance (advances_asks (.refl _) hold (fun _ _ hd => hd)
          (fun _ _ hrequests => Or.inl hrequests) ?_)⟩
        exact fun answer hanswer => absurd hanswer List.not_mem_nil
    | joined d found context requests manager answers =>
        rw [answers]
        refine ⟨current, h.others.advance (advances_asks ?_ ?_ requests.active ?_ ?_)⟩
        · rw [manager]
          exact .refl _
        · rw [manager]
          exact hold
        · rw [requests.pending]
          exact fun _ _ hrequests => Or.inl hrequests
        · intro answer hanswer _
          rw [List.mem_singleton.mp hanswer, hasked]
          have haddress := h.address_of_active found (hsettles.listed hgranted d found context)
          exact congrArg some haddress.symm
    | waits requests found state answers =>
        rw [answers]
        have hmanager : r.state.deviceManager = s.manager := by
          rw [state]
          rfl
        refine ⟨current, h.others.advance (advances_asks ?_ ?_ ?_ ?_ ?_)⟩
        · rw [hmanager]
          exact .refl _
        · rw [hmanager]
          exact hold
        · rw [state]
          exact fun _ _ hd => hd
        · rw [state] at hasked ⊢
          refine pending_insert (fun _ _ hwaiting => hwaiting) fun q hq => ?_
          rcases List.mem_append.mp hq with hearlier | hnew
          · exact asked_append (h.pending address requests found q hearlier)
          · rw [List.mem_singleton.mp hnew]
            exact hasked
        · exact fun answer hanswer => absurd hanswer List.not_mem_nil
    | reached pending first found state answers =>
        rw [answers]
        have hmanager : r.state.deviceManager = (s.manager.openBleDevice address).2 := by
          rw [state]
          rfl
        have hpending : ∀ a requests, r.state.pendingBleConnections.lookup a = some requests →
            s.service.controller.pendingBleConnections.lookup a = some requests ∨
              ∀ q ∈ requests, (s.asks address r.state).asked[q.callback]? = some a := by
          rw [state] at hasked ⊢
          rcases found with rfl | rfl
          · intro a requests hrequests
            change (s.service.controller.pendingBleConnections.erase address).lookup a = some requests
              at hrequests
            rw [UnorderedMap.lookup_erase_eq] at hrequests
            split at hrequests
            · contradiction
            · exact Or.inl hrequests
          · refine pending_insert (fun _ _ hwaiting => hwaiting) fun q hq => ?_
            rw [List.mem_singleton.mp hq]
            exact hasked
        have hactive : ∀ a d, r.state.activeBleDevices.lookup a = some d →
            s.service.controller.activeBleDevices.lookup a = some d := by
          rw [state]
          exact fun _ _ hd => hd
        have hserves : s.manager.Serves r.state.deviceManager := by
          rw [hmanager]
          exact s.manager.serves_openBleDevice address
        have hnone : ∀ answer ∈ ([] : List DeviceOpened),
            (s.asks address r.state).Answers answer :=
          fun answer hanswer => absurd hanswer List.not_mem_nil
        rcases s.manager.ble.openDevice_cases address with hkeeps | ⟨hunused, hpositive, hopened⟩
        · refine ⟨current, h.others.advance (advances_asks hserves ?_ hactive hpending hnone)⟩
          rw [hmanager]
          exact fun i d hd hclaimed => Or.inl (hkeeps i d hd hclaimed)
        · have hregisters : s.Registers token address := ⟨hgranted, first, hunused, hpositive⟩
          have hassigned := h.reassign (hassigns hregisters) (hsettles.unmapped hregisters) ?_
            (s.manager.ble.newContext address).bleSession
          · refine ⟨_, hassigned.others.advance (advances_asks hserves ?_ hactive hpending hnone)⟩
            intro i d hd hclaimed
            have hd' : (s.manager.ble.openDevice address).2.devices.lookup i = some d := by
              rw [hmanager] at hd
              exact hd
            rw [hopened, BleDriver.insertContext, UnorderedMap.lookup_insert_eq] at hd'
            split at hd'
            · next hi =>
                rw [hi, ← Option.some.inj hd']
                exact Or.inr ⟨rfl, rfl, Function.update_self _ _ _⟩
            · exact Or.inl ⟨d, hd', rfl, rfl⟩
          · intro t ht report hreport
            rcases Multiset.mem_cons.mp ht with rfl | ht
            · contradiction
            · exact hsettles.handled hregisters t ht report hreport
  · rw [run_openBleDevice_refused hgranted]
    refine ⟨current, h.others.advance ((leaves_updateBluetoothPermission token c s).advances ?_ ?_)⟩
    · exact fun t ht => absurd ht List.not_mem_nil
    · exact fun t ht => absurd ht List.not_mem_nil

/-! ### All runs -/

theorem Ordered.run {t : Task} (h : s.Ordered current (t ::ₘ ts)) (hsettled : s.Settled ts t) :
    ∃ current', (run t s).1.Ordered current' (((run t s).2 : Multiset Task) + ts) := by
  have hself := h.tasks t (Multiset.mem_cons_self t ts)
  cases t with
  | openBleDevice token c address => exact h.openBleDevice hsettled
  | createMidiInServer uid object token added =>
      refine ⟨current, h.others.advance ((leaves_createMidiInServer uid object token added s).advances
        (filed_of_unhandled ?_) ?_)⟩
      · exact fun t ht => absurd ht List.not_mem_nil
      · exact fun t ht => absurd ht List.not_mem_nil
  | closeDevice c d =>
      refine ⟨current, h.others.advance ((leaves_closeDevice c d s).advances (filed_of_unhandled ?_) ?_)⟩
      · intro t ht
        obtain ⟨x, _, rfl⟩ := List.mem_map.mp ht
        rfl
      · intro t ht
        obtain ⟨x, _, rfl⟩ := List.mem_map.mp ht
        trivial
  | managerCloseDevice d =>
      have htasks : ∀ t ∈ (s.service.managerCloseDevice d).2, ∃ key, t = .driverCloseDevice key := by
        intro t ht
        change t ∈ (if (s.manager.getDeviceForDeviceId d).id = 0 then [] else _) at ht
        split at ht
        · contradiction
        · exact ⟨_, List.mem_singleton.mp ht⟩
      refine ⟨current, h.others.advance ((Leaves.refl s).advances (filed_of_unhandled ?_) ?_)⟩
      · intro t ht
        obtain ⟨key, rfl⟩ := htasks t ht
        rfl
      · intro t ht
        obtain ⟨key, rfl⟩ := htasks t ht
        trivial
  | driverCloseDevice key =>
      obtain ⟨i, deviceType⟩ := key
      cases deviceType with
      | usb =>
          refine ⟨current, h.others.advance ((leaves_driverCloseDevice_usb i s).advances
            (filed_of_unhandled ?_) ?_)⟩
          · exact fun t ht => absurd ht List.not_mem_nil
          · exact fun t ht => absurd ht List.not_mem_nil
      | ble =>
          exact ⟨current, h.others.advance (h.bleSection (BleDriver.continues_dropContext i _))⟩
  | deliver c server change info =>
      refine ⟨current, h.others.advance ((leaves_deliver c server change info s).advances
        (filed_of_unhandled ?_) ?_)⟩
      · exact fun t ht => absurd ht List.not_mem_nil
      · exact fun t ht => absurd ht List.not_mem_nil
  | notifyDeviceOpened report answer => exact ⟨current, h.others.advance h.notifyDeviceOpened⟩
  | notifyDeviceChange device edit => exact ⟨current, h.others.advance h.notifyDeviceChange⟩
  | handleBleConnect report => exact ⟨current, h.others.advance h.handleBleConnect⟩
  | listBleDevice report d => exact ⟨current, h.others.advance h.listBleDevice⟩
  | handleBleDisconnect report => exact ⟨current, h.others.advance h.handleBleDisconnect⟩
  | unlistBleDevice report d => exact ⟨current, h.others.advance h.unlistBleDevice⟩
  | handleBleOpenComplete report d info => exact ⟨current, h.others.advance h.handleBleOpenComplete⟩
  | onConnectionState i connState status =>
      exact ⟨current, h.others.advance (h.bleSection
        (BleDriver.continues_onConnectionState i connState status _))⟩
  | onServicesComplete i status =>
      exact ⟨current, h.others.advance (h.bleSection
        (BleDriver.continues_onServicesComplete i status _))⟩
  | onRegisterNotify i status =>
      exact ⟨current, h.others.advance (h.bleSection
        (BleDriver.continues_onRegisterNotify i status _))⟩
  | cleanupDevice i =>
      exact ⟨current, h.others.advance (h.bleSection (BleDriver.continues_dropContext i _))⟩
  | _ => exact False.elim hself

theorem ordered_initial (h : sections.init s) : s.Ordered current 0 := by
  obtain ⟨service, ⟨usbFirst, hdi, gatt, granted, rfl⟩, rfl⟩ := h
  constructor
  · exact le_rfl
  · exact fun i d hd => absurd hd (by simp [manager, Service.manager, Service.initial])
  · exact fun i d hd => absurd hd (by simp [manager, Service.manager, Service.initial])
  · exact fun t ht => absurd ht (Multiset.notMem_zero t)
  · exact fun e he => absurd he List.not_mem_nil
  · exact fun a d hd => absurd hd (by simp [Service.initial])
  · exact fun a requests hrequests => absurd hrequests (by simp [Service.initial])
  · rfl
  · exact fun answer hanswer => absurd hanswer List.not_mem_nil
  · exact fun r hr => absurd hr List.not_mem_nil
  · exact fun t ht => absurd ht (Multiset.notMem_zero t)

/-- What the environment changes leaves the sessions as they are. -/
theorem Ordered.environment (h : s.Ordered current ts) (henvironment : Environment s s') :
    s'.Ordered current ts := by
  obtain ⟨service, hservice⟩ := henvironment
  have hleaves : s.Leaves service := by
    cases hservice with
    | answers hdi gatt granted => exact ⟨rfl, rfl, rfl, .refl _, rfl, ⟨fun _ _ h => h, rfl⟩, rfl, rfl⟩
    | rehashBle table hrehash =>
        refine ⟨rfl, rfl, rfl, ?_, rfl, ⟨fun _ _ h => h, rfl⟩, rfl, rfl⟩
        exact fun i d hd _ => ⟨d, (hrehash.lookup i).symm.trans hd, rfl, rfl⟩
    | rehash controller hunlocked hmanager =>
        have hsame : ({ s.service with controller := controller } : Service).manager = s.manager :=
          hmanager
        apply leaves_of_manager hsame rfl _ rfl rfl
        cases hunlocked with
        | manager m => exact ⟨fun _ _ h => h, rfl⟩
        | rehash _ hactive =>
            exact ⟨fun a _ hd => (hactive.lookup a).symm.trans hd, rfl⟩
  have hadvances : Advances current s { s with service := service } [] := by
    apply hleaves.advances
    · exact fun t ht => absurd ht List.not_mem_nil
    · exact fun t ht => absurd ht List.not_mem_nil
  have hnothing : (([] : List Task) : Multiset Task) + ts = ts := Multiset.zero_add ts
  rw [← hnothing]
  exact h.advance hadvances

theorem ordered_reached {c : Config BleSessions Task} (reach : sections.ReachedWith Settled c) :
    ∃ current, c.shared.Ordered current c.outstanding := by
  apply reach.invariant fun s ts => ∃ current, s.Ordered current ts
  · exact fun s h => ⟨fun _ => ⟨(0, 0), ""⟩, ordered_initial h⟩
  · rintro s ts t hstarts ⟨current, h⟩
    have hnew : t.unhandled = none ∧ s.Carries t := by
      cases t <;> first | exact ⟨rfl, trivial⟩ | contradiction
    refine ⟨current, h.next, h.contexts, h.ids, ?_, h.devices, h.active, h.pending, h.calls,
      h.answers, h.removals, ?_⟩
    · intro t' ht' report hreport
      rcases Multiset.mem_cons.mp ht' with rfl | hold
      · rw [hnew.1] at hreport
        contradiction
      · exact h.reports t' hold report hreport
    · intro t' ht'
      rcases Multiset.mem_cons.mp ht' with rfl | hold
      · exact hnew.2
      · exact h.tasks t' hold
  · rintro s ts t hsettled ⟨current, h⟩
    exact h.run hsettled
  · rintro s ts s' henvironment ⟨current, h⟩
    exact ⟨current, h.environment henvironment⟩

/-- Where every session starts after the last one of its client id has come to its end, an open
delivers the device that was asked for. -/
theorem ble_open_delivers {c : Config BleSessions Task} (reach : sections.ReachedWith Settled c) :
    c.shared.Delivers := by
  obtain ⟨current, h⟩ := ordered_reached reach
  exact ⟨h.answers, h.removals⟩

/-! ### Two runs -/

instance : DecidablePred sections.starts := fun t => inferInstanceAs (Decidable (starts t = true))

/-- Before the first thread, with a stack that gives out the same id each time. -/
def start : Config BleSessions Task where
  shared := { service := Service.initial true {} {} fun _ => true }

/-- A client opens a device that comes online, and its success is handled. -/
def comesOnline (address : Address) (i sections : Nat) : List (Turn BleSessions Task) :=
  [.start (.openBleDevice 1 1 address), .run i, .start (.onConnectionState 1 .connected 0),
    .run (i + 1), .start (.onServicesComplete 1 0), .run (i + 2),
    .start (.onRegisterNotify 1 0)] ++ List.replicate sections (.run (i + 3))

/-- The first device is lost; of what follows the failure, `handled` sections run before a second
device comes online. -/
def secondDevice (handled sections : Nat) : List (Turn BleSessions Task) :=
  [.start (.createMidiInServer 7 0 1 true), .run 0] ++ comesOnline "11:22:33:44:55:66" 1 7 ++
    [.start (.onConnectionState 1 .disconnected 0), .run 5] ++ List.replicate handled (.run 5) ++
    comesOnline "00:11:22:33:44:55" 6 sections

/-- The client id that the stack gives out has no claimed context. -/
def freshId (s : BleSessions) : Task → Bool
  | .openBleDevice .. =>
      (s.manager.ble.devices.lookup s.manager.ble.gatt.register).all fun d =>
        d.deviceCallback.isNone
  | _ => true

/-- Nothing of an earlier session is left, nor is the address active. -/
def freshSession (s : BleSessions) (ts : Multiset Task) : Task → Bool
  | .openBleDevice token c address =>
      s.freshId (.openBleDevice token c address) &&
        (s.manager.driverIdToMidiId.lookup (s.manager.ble.gatt.register, .ble)).isNone &&
        decide (∀ t ∈ ts, t.unhandled.all fun report =>
          report.device.id != s.manager.ble.gatt.register) &&
        (s.service.controller.activeBleDevices.lookup address).isNone
  | _ => true

theorem assigns_of_freshId {t : Task} (h : s.freshId t) : s.Assigns t := by
  cases t with
  | openBleDevice token c address =>
      intro _ d hd
      change (s.manager.ble.devices.lookup s.manager.ble.gatt.register).all
        (fun d => d.deviceCallback.isNone) = true at h
      rw [hd, Option.all_some] at h
      exact Option.isNone_iff_eq_none.mp h
  | _ => trivial

theorem settled_of_freshSession (s : BleSessions) (ts : Multiset Task) (t : Task)
    (h : s.freshSession ts t) : s.Settled ts t := by
  cases t with
  | openBleDevice token c address =>
      obtain ⟨h, hinactive⟩ := Bool.and_eq_true_iff.mp h
      obtain ⟨h, hhandled⟩ := Bool.and_eq_true_iff.mp h
      obtain ⟨hfresh, hunmapped⟩ := Bool.and_eq_true_iff.mp h
      refine ⟨assigns_of_freshId hfresh, ?_, ?_, ?_⟩
      · exact fun _ => Option.isNone_iff_eq_none.mp hunmapped
      · intro _ t ht report hreport
        have hall := of_decide_eq_true hhandled t ht
        rw [hreport, Option.all_some] at hall
        exact bne_iff_ne.mp hall
      · intro _ d hd
        rw [Option.isNone_iff_eq_none.mp hinactive] at hd
        contradiction
  | _ => exact ⟨trivial, trivial⟩

def reopened : Config BleSessions Task := sections.after start (secondDevice 4 7)

theorem ble_open_delivers_reopened :
    reopened.shared.service.requests.answers.map (fun x => x.deviceInfo.address) =
        ["11:22:33:44:55:66", "00:11:22:33:44:55"] ∧
      reopened.shared.removals.length = 3 ∧ reopened.shared.Delivers := by
  have hreach : sections.ReachedWith Settled reopened :=
    Sections.ReachedWith.after (.init ⟨⟨_, ⟨true, {}, {}, _, rfl⟩, rfl⟩, rfl⟩)
      (Sections.permits_of_follows settled_of_freshSession (by decide +kernel))
  exact ⟨by decide +kernel, by decide +kernel, ble_open_delivers hreach⟩

def overtaken : Config BleSessions Task := sections.after start (secondDevice 0 5)

/-- The failure of the first session is still to be handled when the second one has its client id:
the request for the second address is answered with the first device. -/
theorem ble_open_delivers_other_device :
    ¬∀ c, sections.ReachedWith (fun s _ t => s.Assigns t) c → c.shared.Delivers := by
  intro h
  have hreach : sections.ReachedWith (fun s _ t => s.Assigns t) overtaken :=
    Sections.ReachedWith.after (.init ⟨⟨_, ⟨true, {}, {}, _, rfl⟩, rfl⟩, rfl⟩)
      (Sections.permits_of_schedules (fun _ _ _ => assigns_of_freshId)
        (by decide +kernel : sections.Schedules freshId start (secondDevice 0 5)))
  have hanswer : (overtaken.shared.service.requests.answers[1]?).map
      (fun x => (x.opened, x.request.callback, x.deviceInfo.address)) =
        some (true, 1, "11:22:33:44:55:66") := by
    decide +kernel
  have hasked : overtaken.shared.asked[1]? = some "00:11:22:33:44:55" := by decide +kernel
  obtain ⟨answer, hmem, hanswer⟩ := Option.map_eq_some_iff.mp hanswer
  obtain ⟨hopened, hrest⟩ := Prod.mk.inj hanswer
  obtain ⟨hcallback, haddress⟩ := Prod.mk.inj hrest
  have hdelivered := (h overtaken hreach).asked answer (List.mem_of_getElem? hmem) hopened
  rw [hcallback, hasked, haddress] at hdelivered
  exact absurd (Option.some.inj hdelivered) (by decide)

end BleSessions

end MidiFramework.Server
