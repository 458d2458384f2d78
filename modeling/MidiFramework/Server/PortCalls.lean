import MidiFramework.Server.PortAccounting

/-!
# The ports the controller opens and closes

The controller has a port opened in the manager for the first client of a port and
closed with the last one. A recorder between the two keeps what the manager was told,
and the record follows the connections of the controller through every run: a port is
open there exactly while it has a connection. Only the removal of a device leaves
ports behind, because its connections go without a call.
-/

namespace MidiFramework.Server

open Foundation

/-- A port of a device in one direction. -/
abbrev PortKey := DeviceId × PortDirection × PortIndex

/-- A manager with the ports it was told to open, and the devices of which it was told to open an
open port or to close one that is not. -/
structure Recorded (M : Type) where
  manager : M
  opened : Set PortKey := ∅
  misused : Set DeviceId := ∅

namespace Recorded

variable {M : Type}

def openPort (direction : PortDirection) (d : DeviceId) (p : PortIndex) (opens : Status × M)
    (r : Recorded M) : Status × Recorded M :=
  (opens.1,
    { manager := opens.2
      opened := {key | key ∈ r.opened ∨ opens.1 = .ok ∧ key = (d, direction, p)}
      misused := {d' | d' ∈ r.misused ∨ d' = d ∧ (d, direction, p) ∈ r.opened} })

def closePort (direction : PortDirection) (d : DeviceId) (p : PortIndex) (closes : Status × M)
    (r : Recorded M) : Status × Recorded M :=
  (closes.1,
    { manager := closes.2
      opened := {key | key ∈ r.opened ∧ key ≠ (d, direction, p)}
      misused := {d' | d' ∈ r.misused ∨ d' = d ∧ (d, direction, p) ∉ r.opened} })

end Recorded

/-- The calls of a manager, recorded. -/
def DeviceManager.recorded {M : Type} (api : DeviceManager M) : DeviceManager (Recorded M) where
  openDevice d r := ((api.openDevice d r.manager).1,
    { r with manager := (api.openDevice d r.manager).2 })
  openBleDevice address r := ((api.openBleDevice address r.manager).1,
    { r with manager := (api.openBleDevice address r.manager).2 })
  getDeviceForDeviceId d r := api.getDeviceForDeviceId d r.manager
  getDevicePorts d r := api.getDevicePorts d r.manager
  openPort direction d p r := r.openPort direction d p (api.openPort direction d p r.manager)
  closePort direction d p r := r.closePort direction d p (api.closePort direction d p r.manager)

namespace MidiServiceController

/-- The connection of a port. -/
def connection {M : Type} (s : MidiServiceController M) : PortKey → Option DeviceConnection
  | (d, direction, p) =>
      (s.deviceClientContexts.lookup d).bind fun context =>
        (context.connections direction).lookup p

variable {M : Type} (api : DeviceManager M) {removed : Set DeviceId}
  {s t : MidiServiceController (Recorded M)}

/-- The record agrees with the connections, but for the devices that were removed. -/
structure InStep (removed : Set DeviceId) (s : MidiServiceController (Recorded M)) : Prop where
  opened : ∀ key, s.connection key ≠ none → key ∈ s.deviceManager.opened
  used : ∀ key, key ∈ s.deviceManager.opened → s.connection key ≠ none ∨ key.1 ∈ removed
  proper : s.deviceManager.misused ⊆ removed

/-- The same ports have a connection, and the manager was told nothing about ports. -/
theorem InStep.keep (h : s.InStep removed)
    (hconnection : ∀ key, t.connection key ≠ none ↔ s.connection key ≠ none)
    (hopened : t.deviceManager.opened = s.deviceManager.opened)
    (hmisused : t.deviceManager.misused = s.deviceManager.misused) : t.InStep removed where
  opened key hkey := hopened ▸ h.opened key ((hconnection key).mp hkey)
  used key hkey := (h.used key (hopened ▸ hkey)).imp_left (hconnection key).mpr
  proper := hmisused ▸ h.proper

theorem InStep.same (h : s.InStep removed)
    (hcontexts : t.deviceClientContexts = s.deviceClientContexts)
    (hmanager : t.deviceManager = s.deviceManager) : t.InStep removed := by
  apply h.keep
  · intro key
    rw [connection, connection, hcontexts]
  · rw [hmanager]
  · rw [hmanager]

theorem InStep.mono {removed' : Set DeviceId} (h : s.InStep removed) (hsub : removed ⊆ removed') :
    s.InStep removed' :=
  ⟨h.opened, fun key hkey => (h.used key hkey).imp_right fun hd => hsub hd, h.proper.trans hsub⟩

/-- A port without a connection is opened and gets one. -/
theorem InStep.opens (h : s.InStep removed) {d : DeviceId} {direction : PortDirection}
    {p : PortIndex} {opens : Status × M} (hnone : s.connection (d, direction, p) = none)
    (hok : opens.1 = .ok)
    (hmanager : t.deviceManager = (s.deviceManager.openPort direction d p opens).2)
    (hconnection : ∀ key, t.connection key ≠ none ↔
      s.connection key ≠ none ∨ key = (d, direction, p)) : t.InStep removed where
  opened key hkey := by
    rw [hmanager]
    exact ((hconnection key).mp hkey).imp (h.opened key) fun heq => ⟨hok, heq⟩
  used key hkey := by
    rw [hmanager] at hkey
    rw [hconnection]
    obtain hold | ⟨-, heq⟩ := hkey
    · exact (h.used key hold).imp_left Or.inl
    · exact .inl (.inr heq)
  proper := by
    rw [hmanager]
    rintro d' (hold | ⟨rfl, hopen⟩)
    · exact h.proper hold
    · exact (h.used _ hopen).resolve_left fun hsome => hsome hnone

/-- A port without a connection is opened and closed again, or was not opened. -/
theorem InStep.triedToOpen (h : s.InStep removed) {d : DeviceId} {direction : PortDirection}
    {p : PortIndex} {opens : Status × M} (hnone : s.connection (d, direction, p) = none)
    (hcontexts : t.deviceClientContexts = s.deviceClientContexts)
    (hmanager : opens.1 ≠ .ok ∧
        t.deviceManager = (s.deviceManager.openPort direction d p opens).2 ∨
      opens.1 = .ok ∧ ∃ closes, t.deviceManager =
        ((s.deviceManager.openPort direction d p opens).2.closePort direction d p closes).2) :
    t.InStep removed := by
  have hconnection : t.connection = s.connection := by
    unfold connection
    rw [hcontexts]
  have hmisuse : ∀ d', d' = d ∧ (d, direction, p) ∈ s.deviceManager.opened → d' ∈ removed := by
    rintro d' ⟨rfl, hopen⟩
    exact (h.used _ hopen).resolve_left fun hsome => hsome hnone
  obtain ⟨hfailed, heq⟩ | ⟨hok, closes, heq⟩ := hmanager
  · constructor
    · intro key hkey
      rw [heq]
      exact .inl (h.opened key (hconnection ▸ hkey))
    · intro key hkey
      rw [heq] at hkey
      rw [hconnection]
      obtain hold | ⟨hok, -⟩ := hkey
      · exact h.used key hold
      · exact absurd hok hfailed
    · rw [heq]
      rintro d' (hold | hmisused)
      · exact h.proper hold
      · exact hmisuse d' hmisused
  · constructor
    · intro key hkey
      rw [hconnection] at hkey
      rw [heq]
      refine ⟨.inl (h.opened key hkey), ?_⟩
      rintro rfl
      exact hkey hnone
    · intro key hkey
      rw [heq] at hkey
      rw [hconnection]
      obtain ⟨hold | ⟨-, hself⟩, hother⟩ := hkey
      · exact h.used key hold
      · exact absurd hself hother
    · rw [heq]
      rintro d' ((hold | hmisused) | ⟨-, hclosed⟩)
      · exact h.proper hold
      · exact hmisuse d' hmisused
      · exact absurd (.inr ⟨hok, rfl⟩) hclosed

/-- A port is closed and loses its connection. -/
theorem InStep.closes (h : s.InStep removed) {d : DeviceId} {direction : PortDirection}
    {p : PortIndex} {closes : Status × M} (hsome : s.connection (d, direction, p) ≠ none)
    (hmanager : t.deviceManager = (s.deviceManager.closePort direction d p closes).2)
    (hconnection : ∀ key, t.connection key ≠ none ↔
      s.connection key ≠ none ∧ key ≠ (d, direction, p)) : t.InStep removed where
  opened key hkey := by
    rw [hmanager]
    exact ((hconnection key).mp hkey).imp_left (h.opened key)
  used key hkey := by
    rw [hmanager] at hkey
    exact (h.used key hkey.1).imp_left fun hold => (hconnection key).mpr ⟨hold, hkey.2⟩
  proper := by
    rw [hmanager]
    rintro d' (hold | ⟨-, hclosed⟩)
    · exact h.proper hold
    · exact absurd (h.opened _ hsome) hclosed

/-- A device loses its connections without a call. -/
theorem InStep.removes (h : s.InStep removed) {d : DeviceId}
    (hmanager : t.deviceManager = s.deviceManager)
    (hconnection : ∀ key, t.connection key ≠ none ↔ s.connection key ≠ none ∧ key.1 ≠ d) :
    t.InStep (insert d removed) where
  opened key hkey := hmanager ▸ h.opened key ((hconnection key).mp hkey).1
  used key hkey := by
    rw [hmanager] at hkey
    by_cases hd : key.1 = d
    · exact .inr (.inl hd)
    · exact (h.used key hkey).imp (fun hold => (hconnection key).mpr ⟨hold, hd⟩) Or.inr
  proper := by
    rw [hmanager]
    exact h.proper.trans (Set.subset_insert d removed)

/-! ### The connections after one change -/

section Connections

variable {M : Type} {s : MidiServiceController M} {d : DeviceId} {context : DeviceClientContext}

theorem connection_of_lookup (h : s.deviceClientContexts.lookup d = some context)
    (direction : PortDirection) (p : PortIndex) :
    s.connection (d, direction, p) = (context.connections direction).lookup p := by
  rw [connection, h]
  rfl

theorem connection_setContext (s : MidiServiceController M) (d : DeviceId)
    (context : DeviceClientContext) (key : PortKey) :
    (s.setContext d context).connection key =
      if key.1 = d then (context.connections key.2.1).lookup key.2.2 else s.connection key := by
  obtain ⟨d', direction, p⟩ := key
  rw [connection, setContext, UnorderedMap.lookup_insert_eq]
  by_cases hd : d' = d
  · simp [hd]
  · simp [hd, connection]

theorem connection_eraseContext (s : MidiServiceController M) (d : DeviceId) (key : PortKey) :
    (s.eraseContext d).connection key = if key.1 = d then none else s.connection key := by
  obtain ⟨d', direction, p⟩ := key
  rw [connection, eraseContext, UnorderedMap.lookup_erase_eq]
  by_cases hd : d' = d
  · simp [hd]
  · simp [hd, connection]

/-- A context that keeps its connections keeps those of the controller. -/
theorem connection_keepContext (hcontext : s.deviceClientContexts.lookup d = some context)
    (context' : DeviceClientContext)
    (h : ∀ direction, context'.connections direction = context.connections direction)
    (key : PortKey) : (s.setContext d context').connection key = s.connection key := by
  obtain ⟨d', direction, p⟩ := key
  rw [connection_setContext]
  split
  · next hd =>
      obtain rfl : d' = d := hd
      rw [connection_of_lookup hcontext, h]
  · rfl

/-- A first context has no connections. -/
theorem connection_newContext (hcontext : s.deviceClientContexts.lookup d = none)
    (clients : UnorderedSet ClientId) (key : PortKey) :
    (s.setContext d { clients := clients }).connection key = s.connection key := by
  obtain ⟨d', direction, p⟩ := key
  rw [connection_setContext]
  split
  · next hd =>
      obtain rfl : d' = d := hd
      rw [connection, hcontext]
      cases direction <;> rfl
  · rfl

/-- The connections of one direction of a device are replaced. -/
theorem connection_setConnections (hcontext : s.deviceClientContexts.lookup d = some context)
    (direction : PortDirection) (connections : PortConnections) (key : PortKey) :
    (s.setContext d (context.setConnections connections direction)).connection key =
      if key.1 = d ∧ key.2.1 = direction then connections.lookup key.2.2 else s.connection key := by
  obtain ⟨d', direction', p⟩ := key
  rw [connection_setContext]
  by_cases hd : d' = d
  · subst hd
    rw [if_pos rfl, connection_of_lookup hcontext, DeviceClientContext.connections_setConnections]
    by_cases hdirection : direction' = direction <;> simp [hdirection]
  · simp [hd]

/-- One connection is replaced. -/
theorem connection_insert (hcontext : s.deviceClientContexts.lookup d = some context)
    (direction : PortDirection) (p : PortIndex) (conn : DeviceConnection) (key : PortKey) :
    (s.setContext d (context.setConnections ((context.connections direction).insert p conn)
      direction)).connection key =
        if key = (d, direction, p) then some conn else s.connection key := by
  rw [connection_setConnections hcontext]
  obtain ⟨d', direction', p'⟩ := key
  by_cases hkey : d' = d ∧ direction' = direction
  · obtain ⟨rfl, rfl⟩ := hkey
    rw [if_pos ⟨rfl, rfl⟩, connection_of_lookup hcontext, UnorderedMap.lookup_insert_eq]
    by_cases hp : p' = p <;> simp [hp]
  · rw [if_neg hkey, if_neg]
    intro heq
    cases heq
    exact hkey ⟨rfl, rfl⟩

/-- One connection goes away. -/
theorem connection_erase (hcontext : s.deviceClientContexts.lookup d = some context)
    (direction : PortDirection) (p : PortIndex) (key : PortKey) :
    (s.setContext d (context.setConnections ((context.connections direction).erase p)
      direction)).connection key =
        if key = (d, direction, p) then none else s.connection key := by
  rw [connection_setConnections hcontext]
  obtain ⟨d', direction', p'⟩ := key
  by_cases hkey : d' = d ∧ direction' = direction
  · obtain ⟨rfl, rfl⟩ := hkey
    rw [if_pos ⟨rfl, rfl⟩, connection_of_lookup hcontext, UnorderedMap.lookup_erase_eq]
    by_cases hp : p' = p <;> simp [hp]
  · rw [if_neg hkey, if_neg]
    intro heq
    cases heq
    exact hkey ⟨rfl, rfl⟩

/-- A connection is replaced by another one. -/
theorem connection_replace (hcontext : s.deviceClientContexts.lookup d = some context)
    {direction : PortDirection} {p : PortIndex} {conn : DeviceConnection}
    (hconn : (context.connections direction).lookup p = some conn) (conn' : DeviceConnection)
    (key : PortKey) :
    (s.setContext d (context.setConnections ((context.connections direction).insert p conn')
      direction)).connection key ≠ none ↔ s.connection key ≠ none := by
  rw [connection_insert hcontext]
  split
  · next hkey => simp [hkey, connection_of_lookup hcontext, hconn]
  · rfl

/-- A port gets a connection. -/
theorem connection_new (hcontext : s.deviceClientContexts.lookup d = some context)
    (direction : PortDirection) (p : PortIndex) (conn : DeviceConnection) (key : PortKey) :
    (s.setContext d (context.setConnections ((context.connections direction).insert p conn)
      direction)).connection key ≠ none ↔
        s.connection key ≠ none ∨ key = (d, direction, p) := by
  rw [connection_insert hcontext]
  by_cases hkey : key = (d, direction, p) <;> simp [hkey]

/-- A port loses its connection. -/
theorem connection_drop (hcontext : s.deviceClientContexts.lookup d = some context)
    (direction : PortDirection) (p : PortIndex) (key : PortKey) :
    (s.setContext d (context.setConnections ((context.connections direction).erase p)
      direction)).connection key ≠ none ↔
        s.connection key ≠ none ∧ key ≠ (d, direction, p) := by
  rw [connection_erase hcontext]
  by_cases hkey : key = (d, direction, p) <;> simp [hkey]

end Connections

/-! ### The locked sections -/

section Sections

variable {M : Type} (api : DeviceManager M) {removed : Set DeviceId}
  {s t : MidiServiceController (Recorded M)} {c : ClientId}

/-- A device gets a context, or its context new clients, and the manager is told nothing about
ports. -/
theorem InStep.attach (h : s.InStep removed) {d : DeviceId} {context : DeviceClientContext}
    (hconnection : ∀ key, (s.setContext d context).connection key = s.connection key)
    (hcontexts : t.deviceClientContexts = s.deviceClientContexts.insert d context)
    (hopened : t.deviceManager.opened = s.deviceManager.opened)
    (hmisused : t.deviceManager.misused = s.deviceManager.misused) : t.InStep removed := by
  apply h.keep ?_ hopened hmisused
  intro key
  have hsame : t.connection key = (s.setContext d context).connection key := by
    rw [connection, connection, hcontexts]
    rfl
  rw [hsame, hconnection]

theorem inStep_openDevice (h : s.InStep removed) (permitted : Bool) (d : DeviceId) :
    (s.openDevice api.recorded permitted c d).state.InStep removed := by
  unfold openDevice
  split
  · exact h
  split
  · exact h
  split
  · exact h
  split
  · next context hcontext =>
      split
      · exact h
      · have hkeep := connection_keepContext (s := s) hcontext
          { context with clients := context.clients.add c }
          (fun direction => by cases direction <;> rfl)
        exact h.attach hkeep rfl rfl rfl
  · next hcontext =>
      dsimp only
      split
      · exact h.keep (fun _ => Iff.rfl) rfl rfl
      · exact h.attach (connection_newContext hcontext _) rfl rfl rfl

theorem inStep_openBleDevice (h : s.InStep removed) (address : Address) (callback : RemoteObject) :
    (s.openBleDevice api.recorded c address callback).state.InStep removed := by
  unfold openBleDevice
  split
  · exact h
  split
  · exact h
  split
  · next t info hattach =>
      unfold tryAttachToActiveBleDevice at hattach
      split at hattach
      · contradiction
      split at hattach
      · contradiction
      · next context hcontext =>
          obtain ⟨rfl, _⟩ := Prod.mk.inj (Option.some.inj hattach)
          have hkeep := connection_keepContext (s := s) hcontext
            { context with clients := context.clients.add c }
            (fun direction => by cases direction <;> rfl)
          exact h.attach hkeep rfl rfl rfl
  · unfold enqueueBleConnectionRequest
    split
    · exact h.same rfl rfl
    · dsimp only
      split <;> exact h.keep (fun _ => Iff.rfl) rfl rfl

theorem inStep_handleBleOpenComplete (h : s.InStep removed) (address : Address) (success : Bool)
    (d : DeviceId) (info : MidiDeviceInfo) :
    (s.handleBleOpenComplete address success d info).state.InStep removed := by
  unfold handleBleOpenComplete
  dsimp only
  split
  · unfold registerBleDeviceForPendingClientsLocked
    dsimp only
    set cs := (((s.pendingBleConnections.getD address []).map
      PendingBleConnection.clientId).filter fun c => decide (c ∈ s.clients))
    set t : MidiServiceController (Recorded M) :=
      { s with
        pendingBleConnections := s.pendingBleConnections.erase address
        activeBleDevices := s.activeBleDevices.insert address d }
    obtain ⟨infos, heq, _⟩ := addOpenDevices_spec cs d t
    change (t.addOpenDevices cs d) = _ at heq
    have hcontexts : (t.addOpenDevices cs d).deviceClientContexts = s.deviceClientContexts := by
      rw [heq]
    have hmanager : (t.addOpenDevices cs d).deviceManager = s.deviceManager := by
      rw [heq]
    have hadded : (t.addOpenDevices cs d).InStep removed := h.same hcontexts hmanager
    split
    · exact hadded
    · split
      · next context hcontext =>
          have hkeep := connection_keepContext (s := t.addOpenDevices cs d) hcontext
            { context with clients := context.clients.addAll cs }
            (fun direction => by cases direction <;> rfl)
          exact hadded.attach hkeep rfl rfl rfl
      · next hcontext =>
          exact hadded.attach (connection_newContext hcontext _) rfl rfl rfl
  · exact h.same rfl rfl

theorem inStep_openPort (h : s.InStep removed) (direction : PortDirection) (ready : Status)
    (env : PortEnv) (permitted : Bool) (d : DeviceId) (p : PortIndex) :
    (s.openPort api.recorded direction ready env permitted c d p).state.InStep removed := by
  unfold openPort
  split
  · exact h
  split
  · exact h
  next context hcontext =>
  split
  · exact h
  split
  · exact h
  split
  · exact h
  have hat := connection_of_lookup hcontext direction p
  split
  · next conn hconn =>
      unfold connectToExistingPort
      split
      · exact h
      split
      · exact h
      · exact h.keep (connection_replace hcontext hconn (conn.addClientConnection c)) rfl rfl
  · next hconn =>
      have hnone : s.connection (d, direction, p) = none := hat.trans hconn
      unfold createNewPortConnection
      dsimp only
      split
      · next hfailed => exact h.triedToOpen hnone rfl (.inl ⟨hfailed, rfl⟩)
      next hok =>
      rw [not_not] at hok
      unfold emplacePortConnection
      split
      · exact h.triedToOpen hnone rfl (.inr ⟨hok, _, rfl⟩)
      · refine h.opens hnone hok rfl ?_
        rw [UnorderedMap.emplace_of_notMem (AList.lookup_eq_none.mp hconn)]
        exact connection_new hcontext direction p (DeviceConnection.addClientConnection {} c)

theorem inStep_closePortInner (h : s.InStep removed) (direction : PortDirection) (d : DeviceId)
    (p : PortIndex) : (s.closePortInner api.recorded direction c d p).2.InStep removed := by
  unfold closePortInner
  split
  · exact h
  next context hcontext =>
  split
  · exact h
  split
  · exact h
  next conn hconn =>
  split
  · exact h
  dsimp only
  split
  · have hsome : s.connection (d, direction, p) ≠ none := by
      rw [connection_of_lookup hcontext, hconn]
      exact Option.some_ne_none conn
    exact h.closes hsome rfl (connection_drop hcontext direction p)
  · exact h.keep (connection_replace hcontext hconn (conn.removeClientConnection c)) rfl rfl

theorem inStep_closePort (h : s.InStep removed) (direction : PortDirection) (d : DeviceId)
    (p : PortIndex) : (s.closePort api.recorded direction c d p).state.InStep removed := by
  unfold closePort
  split
  · exact h
  · exact inStep_closePortInner api h direction d p

theorem inStep_closePorts (h : s.InStep removed) (direction : PortDirection) (d : DeviceId)
    (ps : List PortIndex) : (s.closePorts api.recorded direction c d ps).InStep removed := by
  induction ps generalizing s with
  | nil => exact h
  | cons p ps ih => exact ih (inStep_closePortInner api h direction d p)

theorem inStep_closePortforDevice (h : s.InStep removed) (d : DeviceId) :
    (s.closePortforDevice api.recorded c d).InStep removed :=
  inStep_closePorts api (inStep_closePorts api h .input d _) .output d _

/-- A context goes away only when its connections are gone. -/
theorem inStep_leaveContext (h : s.InStep removed) (haccounted : s.Accounted) {d : DeviceId}
    (hclosed : ∀ direction p, s.Closed c d direction p) : (s.leaveContext c d).InStep removed := by
  unfold leaveContext
  split
  · exact h
  next context hcontext =>
  dsimp only
  split
  · next hempty =>
      have hnone : ∀ direction p, (context.connections direction).lookup p = none := by
        intro direction p
        rw [Option.eq_none_iff_forall_ne_some]
        intro conn hconn
        have hsound := haccounted.sound d context hcontext direction p conn hconn
        obtain ⟨x, hx⟩ := List.exists_mem_of_ne_nil _ hsound.inhabited
        have hother : x ≠ c := by
          rintro rfl
          exact hclosed direction p context conn hcontext hconn hx
        have hkept : x ∈ context.clients.erase c :=
          AList.mem_erase.mpr ⟨hother, hsound.members x hx⟩
        rw [UnorderedMap.eq_empty_of_isEmpty_keys hempty] at hkept
        exact AList.notMem_empty x hkept
      refine h.keep (fun key => ?_) rfl rfl
      change (s.eraseContext d).connection key ≠ none ↔ _
      rw [connection_eraseContext]
      split
      · next hkey =>
          obtain ⟨d', direction, p⟩ := key
          obtain rfl : d' = d := hkey
          rw [connection_of_lookup hcontext, hnone]
      · rfl
  · have hkeep := connection_keepContext (s := s) hcontext
      { context with clients := context.clients.erase c }
      (fun direction => by cases direction <;> rfl)
    exact h.attach hkeep rfl rfl rfl

theorem inStep_closeDevice (h : s.InStep removed) (haccounted : s.Accounted) (d : DeviceId)
    (hrecord : c ∈ s.clients → c ∈ s.clientResourceInfo) :
    (s.closeDevice api.recorded c d).state.InStep removed := by
  unfold closeDevice
  split
  · exact h
  next hlive =>
  split
  · exact h
  split
  · exact h
  · dsimp only
    set t := s.closePortforDevice api.recorded c d
    have hports : t.InStep removed := inStep_closePortforDevice api h d
    have ht : t.Accounted := accounted_closePortforDevice api.recorded haccounted c d
    apply inStep_leaveContext
    · exact hports.same rfl rfl
    · apply ht.keep
      · rfl
      · intro x
        rw [resourceInfo_setResourceInfo]
        split
        · next hx => rw [hx]
        · rfl
    · exact closed_of_accounted api.recorded haccounted d (hrecord (not_not.mp hlive))

theorem inStep_cleanupDevices (h : s.InStep removed) (haccounted : s.Accounted)
    (ds : List DeviceId) (hrecord : c ∈ s.clientResourceInfo) :
    (ds.foldl (fun s d => s.cleanupDeviceForClient api.recorded c d) s).InStep removed := by
  induction ds generalizing s with
  | nil => exact h
  | cons d ds ih =>
      have hregistry := registry_cleanupDeviceForClient api.recorded d hrecord
      have hnext := accounted_cleanupDevices api.recorded haccounted [d] hrecord
      rw [List.foldl_cons]
      apply ih ?_ hnext
      · change c ∈ (s.cleanupDeviceForClient api.recorded c d).registry.recorded
        rw [hregistry]
        exact hrecord
      · change (s.cleanupDeviceForClient api.recorded c d).InStep removed
        unfold cleanupDeviceForClient
        split
        · exact h
        · exact inStep_leaveContext (inStep_closePortforDevice api h d)
            (accounted_closePortforDevice api.recorded haccounted c d)
            (closed_of_accounted api.recorded haccounted d hrecord)

theorem inStep_destroyMidiClient (h : s.InStep removed) (haccounted : s.Accounted)
    (hrecord : c ∈ s.clients → c ∈ s.clientResourceInfo) :
    (s.destroyMidiClient api.recorded c).state.InStep removed := by
  unfold destroyMidiClient
  split
  · exact h
  next hlive =>
  have hrecipient : (s.removeDeathRecipient c).InStep removed ∧
      (s.removeDeathRecipient c).Accounted ∧ c ∈ (s.removeDeathRecipient c).clientResourceInfo := by
    have hrecorded := hrecord (not_not.mp hlive)
    unfold removeDeathRecipient
    split
    · exact ⟨h, haccounted, hrecorded⟩
    · exact ⟨h.same rfl rfl, haccounted.keep rfl fun _ => rfl, hrecorded⟩
  obtain ⟨hinStep, hkeep, hrecorded⟩ := hrecipient
  have hcleaned := inStep_cleanupDevices api hinStep hkeep
    (s.collectDevicesForClientDestruction c).1 hrecorded
  exact hcleaned.same rfl rfl

/-- A removed device leaves the ports open that had a connection. -/
theorem inStep_cleanupDeviceContext (h : s.InStep removed) (d : DeviceId) :
    (s.cleanupDeviceContext d).InStep (insert d removed) := by
  unfold cleanupDeviceContext
  split
  · exact h.mono (Set.subset_insert d removed)
  next context hcontext =>
  obtain ⟨infos, heq, _⟩ := cleanupClients_spec d
    (fun c => calculateClientPortCount c context) context.clients.keys_nodup s
  set t := s.cleanupClients d (fun c => calculateClientPortCount c context) context.clients.keys
  change (t.eraseContext d).InStep _
  have hcontexts : t.deviceClientContexts = s.deviceClientContexts := by rw [heq]
  have ht : t.InStep removed := h.same hcontexts (by rw [heq])
  refine ht.removes rfl fun key => ?_
  rw [connection_eraseContext]
  split
  · next hd => simp [hd]
  · next hd => simp [hd]

theorem inStep_createMidiInServer (h : s.InStep removed) (uid : Uid) (object : RemoteObject)
    (server : MidiInServer) (added : Bool) :
    (s.createMidiInServer uid object server added).state.InStep removed := by
  unfold createMidiInServer
  dsimp only
  split
  · exact h.same rfl rfl
  split
  · exact h.same rfl rfl
  split
  · exact h.same rfl rfl
  · split
    · exact h.same rfl rfl
    · exact h.same rfl rfl

theorem inStep_finishDestroyMidiClient (h : s.InStep removed) :
    s.finishDestroyMidiClient.InStep removed := by
  unfold finishDestroyMidiClient
  split
  · exact h.same rfl rfl
  · exact h

end Sections

end MidiServiceController

/-- The devices of which a locked section reports the removal. -/
def ControllerOp.removes {M : Type} : ControllerOp M → Set DeviceId
  | notifyDeviceChange .removed d => {d}
  | _ => ∅

/-- A controller over a recorded manager, with the devices removed so far. -/
structure PortRun (M : Type) where
  controller : MidiServiceController (Recorded M)
  removed : Set DeviceId

/-- The runs of the controller over a recorded manager. What happens to the manager without a
locked section opens and closes no ports. -/
def portMachine {M : Type} (api : DeviceManager M) :
    Machine (PortRun M) (Option (ControllerOp (Recorded M))) where
  init := fun s => ∃ m, s = ⟨{ deviceManager := { manager := m } }, ∅⟩
  step := fun s label t =>
    match label with
    | some op => t = ⟨op.run api.recorded s.controller, s.removed ∪ op.removes⟩
    | none =>
        Unlocked s.controller t.controller ∧ t.removed = s.removed ∧
          t.controller.deviceManager.opened = s.controller.deviceManager.opened ∧
          t.controller.deviceManager.misused = s.controller.deviceManager.misused

namespace MidiServiceController

variable {M : Type} (api : DeviceManager M) {removed : Set DeviceId}
  {s t : MidiServiceController (Recorded M)}

theorem inStep_run (h : s.InStep removed) (hconsistent : s.registry.Consistent)
    (haccounted : s.Accounted) (op : ControllerOp (Recorded M)) :
    (op.run api.recorded s).InStep (removed ∪ op.removes) := by
  have hrecord : ∀ c, c ∈ s.clients → c ∈ s.clientResourceInfo :=
    fun c => (hconsistent.recorded c).mpr
  have hsame : ∀ {t : MidiServiceController (Recorded M)}, t.InStep removed →
      t.InStep (removed ∪ op.removes) := fun ht => ht.mono Set.subset_union_left
  cases op with
  | createMidiInServer uid object server added =>
      exact hsame (inStep_createMidiInServer h uid object server added)
  | openDevice permitted c d => exact hsame (inStep_openDevice api h permitted d)
  | openBleDevice c address callback => exact hsame (inStep_openBleDevice api h address callback)
  | handleBleOpenComplete address success d info =>
      exact hsame (inStep_handleBleOpenComplete h address success d info)
  | openInputPort env permitted c d p =>
      exact hsame (inStep_openPort api h .input _ env permitted d p)
  | openOutputPort env permitted c d p =>
      exact hsame (inStep_openPort api h .output _ env permitted d p)
  | closeInputPort c d p => exact hsame (inStep_closePort api h .input d p)
  | closeOutputPort c d p => exact hsame (inStep_closePort api h .output d p)
  | closeDevice c d => exact hsame (inStep_closeDevice api h haccounted d (hrecord c))
  | destroyMidiClient c => exact hsame (inStep_destroyMidiClient api h haccounted (hrecord c))
  | finishDestroyMidiClient => exact hsame (inStep_finishDestroyMidiClient h)
  | notifyDeviceChange change d =>
      cases change with
      | add => exact hsame h
      | removed =>
          have hactive : (s.removeFromActiveBleDevices d).InStep removed := h.same rfl rfl
          have hremoved := inStep_cleanupDeviceContext hactive d
          rwa [← Set.union_singleton] at hremoved

theorem inStep_unlocked (h : s.InStep removed) (move : Unlocked s t)
    (hopened : t.deviceManager.opened = s.deviceManager.opened)
    (hmisused : t.deviceManager.misused = s.deviceManager.misused) : t.InStep removed := by
  refine h.keep (fun key => ?_) hopened hmisused
  cases move with
  | manager m => rfl
  | @rehash contexts active hcontexts hactive =>
      obtain ⟨d, direction, p⟩ := key
      rw [connection, connection, hcontexts.lookup]

end MidiServiceController

namespace PortRun

open MidiServiceController

variable {M : Type} (api : DeviceManager M) {s : PortRun M}

theorem inStep_reachable (reach : (portMachine api).Reachable s) :
    (controllerMachine api.recorded).Reachable s.controller ∧ s.controller.InStep s.removed := by
  apply reach.invariant fun s =>
    (controllerMachine api.recorded).Reachable s.controller ∧ s.controller.InStep s.removed
  · rintro s ⟨m, rfl⟩
    refine ⟨.init ⟨_, rfl⟩, ?_, ?_, ?_⟩
    · exact fun key hkey => absurd rfl hkey
    · exact fun key hkey => absurd hkey (Set.notMem_empty key)
    · exact Set.empty_subset _
  · rintro s (_ | op) t - ⟨hreach, hinStep⟩ - move
    · obtain ⟨hmove, hremoved, hopened, hmisused⟩ := move
      exact ⟨hreach.step (l := none) trivial hmove,
        hremoved.symm ▸ inStep_unlocked hinStep hmove hopened hmisused⟩
    · obtain rfl := move
      exact ⟨hreach.step (l := some op) trivial rfl, inStep_run api hinStep
        (consistent_reachable _ hreach) (accounted_reachable _ hreach) op⟩

/-- A port with a connection is open in the manager. As long as a device has not been removed, no
other port of it is open there, and the manager was never told to open an open port of it or to
close a closed one. -/
theorem port_calls_match (reach : (portMachine api).Reachable s) :
    (∀ key, s.controller.connection key ≠ none → key ∈ s.controller.deviceManager.opened) ∧
    ∀ d, d ∉ s.removed →
      (∀ direction p, (d, direction, p) ∈ s.controller.deviceManager.opened ↔
        s.controller.connection (d, direction, p) ≠ none) ∧
      d ∉ s.controller.deviceManager.misused := by
  obtain ⟨-, hinStep⟩ := inStep_reachable api reach
  refine ⟨hinStep.opened, fun d hd => ⟨fun direction p => ⟨fun hopen => ?_, hinStep.opened _⟩, ?_⟩⟩
  · exact (hinStep.used _ hopen).resolve_right hd
  · exact fun hmisused => hd (hinStep.proper hmisused)

/-- The run after the sections of a list. -/
def runAll (s : PortRun M) (ops : List (ControllerOp (Recorded M))) : PortRun M :=
  ops.foldl (fun s op => ⟨op.run api.recorded s.controller, s.removed ∪ op.removes⟩) s

theorem reachable_runAll (ops : List (ControllerOp (Recorded M)))
    (reach : (portMachine api).Reachable s) : (portMachine api).Reachable (s.runAll api ops) := by
  induction ops generalizing s with
  | nil => exact reach
  | cons op ops ih => exact ih (reach.step (l := some op) trivial rfl)

/-- Two clients share a port and the first one leaves. -/
def sharedPort : PortRun Unit :=
  runAll openingManager ⟨{ deviceManager := { manager := () } }, ∅⟩
    [.createMidiInServer 7 0 {} true, .createMidiInServer 7 1 {} true, .openDevice true 1 1001,
      .openDevice true 2 1001, .openInputPort {} true 1 1001 0, .openInputPort {} true 2 1001 0,
      .destroyMidiClient 1]

theorem port_calls_match_shared :
    (∀ key, sharedPort.controller.connection key ≠ none →
      key ∈ sharedPort.controller.deviceManager.opened) ∧
    ∀ d, d ∉ sharedPort.removed →
      (∀ direction p, (d, direction, p) ∈ sharedPort.controller.deviceManager.opened ↔
        sharedPort.controller.connection (d, direction, p) ≠ none) ∧
      d ∉ sharedPort.controller.deviceManager.misused :=
  port_calls_match openingManager (reachable_runAll openingManager _ (.init ⟨(), rfl⟩))

end PortRun

end MidiFramework.Server
