import MidiFramework.Server.ClientIsolation
import MidiFramework.Server.PortCalls

/-!
# The ports a client holds at the service

A client holds a port while it is part of the port's connection. Opening a port adds
it to what the client holds, closing one takes it away, and a device that is closed or
removed takes all its ports. Nothing else that the service does changes what a client
holds.
-/

namespace MidiFramework.Server

open Foundation

namespace MidiServiceController

variable {M : Type} (api : DeviceManager M) {s t : MidiServiceController M} {c : ClientId}
  {d : DeviceId} {context : DeviceClientContext} {key : PortKey}

/-- The ports with a connection that the client is part of. -/
def portsOf (s : MidiServiceController M) (c : ClientId) : Set PortKey :=
  {key | ∃ conn, s.connection key = some conn ∧ c ∈ conn.clients}

/-- The ports of a device. -/
def portsAt (d : DeviceId) : Set PortKey := {key | key.1 = d}

/-! ### Ports and connections -/

theorem mem_portsOf_iff (direction : PortDirection) (p : PortIndex) :
    (d, direction, p) ∈ s.portsOf c ↔ ¬s.Closed c d direction p := by
  unfold Closed
  push Not
  constructor
  · rintro ⟨conn, hconn, hc⟩
    obtain ⟨context, hcontext, hlookup⟩ := Option.bind_eq_some_iff.mp hconn
    exact ⟨context, conn, hcontext, hlookup, hc⟩
  · rintro ⟨context, conn, hcontext, hlookup, hc⟩
    exact ⟨conn, (connection_of_lookup hcontext direction p).trans hlookup, hc⟩

theorem portsOf_congr (h : ∀ key, t.connection key = s.connection key) (c : ClientId) :
    t.portsOf c = s.portsOf c := by
  ext key
  simp only [portsOf, Set.mem_ofPred_eq, h]

theorem portsOf_same (h : t.deviceClientContexts = s.deviceClientContexts) (c : ClientId) :
    t.portsOf c = s.portsOf c := by
  apply portsOf_congr
  rintro ⟨d, direction, p⟩
  rw [connection, connection, h]

theorem Spares.portsOf_eq (h : s.Spares c t) : t.portsOf c = s.portsOf c := by
  ext ⟨d, direction, p⟩
  rw [mem_portsOf_iff, mem_portsOf_iff, h.ports]

/-- Who holds a port of a device uses the device. -/
theorem Accounted.mem_users (h : s.Accounted) (hkey : key ∈ s.portsOf c) :
    c ∈ s.registry.users key.1 := by
  obtain ⟨d, direction, p⟩ := key
  obtain ⟨conn, hconn, hc⟩ := hkey
  obtain ⟨context, hcontext, hlookup⟩ := Option.bind_eq_some_iff.mp hconn
  exact ⟨context, hcontext, (h.sound d context hcontext direction p conn hlookup).members c hc⟩

/-- The connection of one port is replaced. -/
theorem portsOf_insert (hcontext : s.deviceClientContexts.lookup d = some context)
    (direction : PortDirection) (p : PortIndex) (conn : DeviceConnection) :
    key ∈ (s.setContext d (context.setConnections ((context.connections direction).insert p conn)
      direction)).portsOf c ↔
        if key = (d, direction, p) then c ∈ conn.clients else key ∈ s.portsOf c := by
  simp only [portsOf, Set.mem_ofPred_eq, connection_insert hcontext]
  split
  · simp
  · rfl

/-- The connection of one port goes away. -/
theorem portsOf_erase (hcontext : s.deviceClientContexts.lookup d = some context)
    (direction : PortDirection) (p : PortIndex) :
    key ∈ (s.setContext d (context.setConnections ((context.connections direction).erase p)
      direction)).portsOf c ↔ key ≠ (d, direction, p) ∧ key ∈ s.portsOf c := by
  simp only [portsOf, Set.mem_ofPred_eq, connection_erase hcontext]
  split
  · next hkey => simp [hkey]
  · next hkey => simp [hkey]

/-! ### Opening a port -/

/-- A call is refused, or a client that uses the device and does not hold the port becomes part of
the connection of the port. -/
theorem openPort_cases (direction : PortDirection) (ready : Status) (env : PortEnv)
    (permitted : Bool) (p : PortIndex) {opened : Locked M}
    (h : s.openPort api direction ready env permitted c d p = opened) :
    (opened.status ≠ .ok ∧ opened.state.deviceClientContexts = s.deviceClientContexts) ∨
      opened.status = .ok ∧ ∃ context conn, s.deviceClientContexts.lookup d = some context ∧
        c ∈ context.clients ∧ context.Closed c direction p ∧ c ∈ conn.clients ∧
          opened.state.deviceClientContexts = (s.setContext d (context.setConnections
            ((context.connections direction).insert p conn) direction)).deviceClientContexts := by
  subst h
  unfold openPort
  split
  · exact .inl ⟨(by decide : Status.invalidClient ≠ .ok), rfl⟩
  split
  · exact .inl ⟨(by decide : Status.invalidDeviceHandle ≠ .ok), rfl⟩
  next context hcontext =>
  split
  · exact .inl ⟨(by decide : Status.systemError ≠ .ok), rfl⟩
  next hc =>
  rw [not_not] at hc
  split
  · exact .inl ⟨(by decide : Status.permissionDenied ≠ .ok), rfl⟩
  split
  · exact .inl ⟨(by decide : Status.tooManyOpenPorts ≠ .ok), rfl⟩
  split
  · next conn hconn =>
      unfold connectToExistingPort
      split
      · exact .inl ⟨(by decide : Status.portAlreadyOpen ≠ .ok), rfl⟩
      next hnew =>
      split
      · next hadd => exact .inl ⟨hadd, rfl⟩
      · refine .inr ⟨rfl, context, conn.addClientConnection c, hcontext, hc, ?_, ?_, rfl⟩
        · rw [closed_iff_of_lookup hconn, ← DeviceConnection.hasClientConnection_iff]
          exact hnew
        · simp [DeviceConnection.addClientConnection]
  · next hconn =>
      unfold createNewPortConnection
      dsimp only
      split
      · next hopened => exact .inl ⟨hopened, rfl⟩
      unfold emplacePortConnection
      split
      · next hready => exact .inl ⟨hready, rfl⟩
      · rw [UnorderedMap.emplace_of_notMem (AList.lookup_eq_none.mp hconn)]
        refine .inr ⟨rfl, context, DeviceConnection.addClientConnection {} c, hcontext, hc,
          closed_of_lookup_none hconn, ?_, rfl⟩
        simp [DeviceConnection.addClientConnection]

/-- A port that is opened is one the client did not hold, of a device that it uses. -/
theorem openPort_ok {direction : PortDirection} {ready : Status} {env : PortEnv} {permitted : Bool}
    {p : PortIndex} (h : (s.openPort api direction ready env permitted c d p).status = .ok) :
    c ∈ s.registry.users d ∧ (d, direction, p) ∉ s.portsOf c := by
  rcases openPort_cases api direction ready env permitted p rfl with
    ⟨hrefused, _⟩ | ⟨_, context, conn, hcontext, hc, hclosed, _⟩
  · exact absurd h hrefused
  · refine ⟨⟨context, hcontext, hc⟩, ?_⟩
    rwa [mem_portsOf_iff, not_not, closed_of_lookup hcontext]

/-- The port is added if the call succeeds. -/
theorem portsOf_openPort (direction : PortDirection) (ready : Status) (env : PortEnv)
    (permitted : Bool) (p : PortIndex) :
    (s.openPort api direction ready env permitted c d p).state.portsOf c =
      {key | key ∈ s.portsOf c ∨
        (s.openPort api direction ready env permitted c d p).status = .ok ∧
          key = (d, direction, p)} := by
  rcases openPort_cases api direction ready env permitted p rfl with
    ⟨hrefused, hcontexts⟩ | ⟨hok, context, conn, hcontext, _, _, hc, hcontexts⟩
  · rw [portsOf_same hcontexts]
    simp [hrefused]
  · ext key
    rw [portsOf_same hcontexts, portsOf_insert hcontext]
    by_cases hkey : key = (d, direction, p) <;> simp [hkey, hc, hok]

/-! ### Closing ports -/

/-- A port is taken away, whether the client held it or not. -/
theorem portsOf_closePortInner (h : s.Accounted) (direction : PortDirection) (c : ClientId)
    (d : DeviceId) (p : PortIndex) :
    (s.closePortInner api direction c d p).2.portsOf c = s.portsOf c \ {(d, direction, p)} := by
  have hnothing : s.Closed c d direction p →
      s.portsOf c = s.portsOf c \ {(d, direction, p)} := by
    intro hclosed
    rw [Set.sdiff_singleton_eq_self]
    rwa [mem_portsOf_iff, not_not]
  unfold closePortInner
  split
  · next hcontext => exact hnothing (closed_of_notMem_contexts hcontext direction p)
  next context hcontext =>
  split
  · next hc =>
      apply hnothing
      intro context' conn hcontext' hconn hmem
      have hmember := (h.sound d context' hcontext' direction p conn hconn).members c hmem
      rw [hcontext] at hcontext'
      exact hc (Option.some.inj hcontext' ▸ hmember)
  split
  · next hconn =>
      exact hnothing ((closed_of_lookup hcontext direction p).mpr (closed_of_lookup_none hconn))
  next conn hconn =>
  split
  · next hc =>
      apply hnothing
      rw [Bool.not_eq_true'] at hc
      rw [closed_of_lookup hcontext, closed_iff_of_lookup hconn,
        ← DeviceConnection.hasClientConnection_iff, hc]
      exact Bool.false_ne_true
  dsimp only
  split
  · ext key
    rw [Set.mem_sdiff, Set.mem_singleton_iff, and_comm]
    exact portsOf_erase hcontext direction p
  · ext key
    rw [Set.mem_sdiff, Set.mem_singleton_iff]
    refine (portsOf_insert hcontext direction p (conn.removeClientConnection c)).trans ?_
    by_cases hkey : key = (d, direction, p)
    · simp [hkey, DeviceConnection.mem_removeClientConnection]
    · simp [hkey]

theorem portsOf_closePort (h : s.Accounted) (hlive : s.portsOf c ≠ ∅ → c ∈ s.clients)
    (direction : PortDirection) (d : DeviceId) (p : PortIndex) :
    (s.closePort api direction c d p).state.portsOf c = s.portsOf c \ {(d, direction, p)} := by
  unfold closePort
  split
  · next hc =>
      have hempty : s.portsOf c = ∅ := not_not.mp (mt hlive hc)
      change s.portsOf c = _
      rw [hempty, Set.empty_sdiff]
  · exact portsOf_closePortInner api h direction c d p

theorem portsOf_closePorts (h : s.Accounted) (direction : PortDirection) (c : ClientId)
    (d : DeviceId) (ps : List PortIndex) :
    (s.closePorts api direction c d ps).portsOf c =
      s.portsOf c \ {key | ∃ p ∈ ps, key = (d, direction, p)} := by
  induction ps generalizing s with
  | nil => simp [closePorts]
  | cons p ps ih =>
      have hone := portsOf_closePortInner api h direction c d p
      change ((s.closePortInner api direction c d p).2.closePorts api direction c d ps).portsOf c = _
      rw [ih (accounted_closePortInner api h direction c d p), hone, sdiff_sdiff_left]
      congr 1
      ext key
      simp

/-- The loop goes over every port that the client can hold. -/
theorem mem_portIndexes_of_mem_portsOf {direction : PortDirection} {p : PortIndex}
    (hkey : (d, direction, p) ∈ s.portsOf c) : p ∈ s.portIndexes direction d := by
  by_contra hp
  exact (mem_portsOf_iff direction p).mp hkey (closed_of_notMem_portIndexes hp)

theorem portsOf_closePortforDevice (h : s.Accounted) (c : ClientId) (d : DeviceId) :
    (s.closePortforDevice api c d).portsOf c = s.portsOf c \ portsAt d := by
  set t := s.closePorts api .input c d (s.portIndexes .input d)
  have hinput : t.portsOf c = _ := portsOf_closePorts api h .input c d (s.portIndexes .input d)
  have haccounted : t.Accounted := accounted_closePorts api h .input c d (s.portIndexes .input d)
  have houtput := portsOf_closePorts api haccounted .output c d (t.portIndexes .output d)
  change (t.closePorts api .output c d (t.portIndexes .output d)).portsOf c = _
  rw [houtput]
  ext ⟨d', direction, p⟩
  simp only [Set.mem_sdiff, Set.mem_ofPred_eq, portsAt]
  constructor
  · rintro ⟨hmem, hnot⟩
    have hold := hmem
    rw [hinput] at hold
    refine ⟨hold.1, ?_⟩
    rintro rfl
    cases direction with
    | input => exact hold.2 ⟨p, mem_portIndexes_of_mem_portsOf hold.1, rfl⟩
    | output => exact hnot ⟨p, mem_portIndexes_of_mem_portsOf hmem, rfl⟩
  · rintro ⟨hmem, hd⟩
    constructor
    · rw [hinput]
      refine ⟨hmem, ?_⟩
      rintro ⟨p', _, heq⟩
      exact hd (congrArg Prod.fst heq)
    · rintro ⟨p', _, heq⟩
      exact hd (congrArg Prod.fst heq)

/-! ### Devices -/

theorem portsOf_eraseContext (s : MidiServiceController M) (d : DeviceId) (c : ClientId) :
    (s.eraseContext d).portsOf c = s.portsOf c \ portsAt d := by
  ext key
  simp only [portsOf, portsAt, Set.mem_sdiff, Set.mem_ofPred_eq, connection_eraseContext]
  split
  · next hd => simp [hd]
  · next hd => simp [hd]

/-- A client that leaves holds no port of the device, and neither does one that stays behind. -/
theorem portsOf_leaveContext (hclosed : ∀ key ∈ s.portsOf c, key ∉ portsAt d) :
    (s.leaveContext c d).portsOf c = s.portsOf c := by
  unfold leaveContext
  split
  · rfl
  next context hcontext =>
  dsimp only
  split
  · apply Eq.trans (portsOf_eraseContext s d c)
    exact (Set.disjoint_left.mpr hclosed).sdiff_eq_left
  · apply portsOf_congr
    exact connection_keepContext hcontext { context with clients := context.clients.erase c }
      (fun direction => by cases direction <;> rfl)

theorem portsOf_closeDevice (h : s.Accounted) (hlive : s.portsOf c ≠ ∅ → c ∈ s.clients)
    (d : DeviceId) : (s.closeDevice api c d).state.portsOf c = s.portsOf c \ portsAt d := by
  have hnothing : (∀ key ∈ s.portsOf c, key.1 ≠ d) → s.portsOf c = s.portsOf c \ portsAt d := by
    intro hnone
    exact (Set.disjoint_left.mpr hnone).sdiff_eq_left.symm
  unfold closeDevice
  split
  · next hc =>
      apply hnothing
      intro key hkey
      exact absurd (hlive (Set.nonempty_of_mem hkey).ne_empty) hc
  split
  · next hcontext =>
      apply hnothing
      rintro key hkey rfl
      obtain ⟨context, hcontext', _⟩ := h.mem_users hkey
      rw [hcontext] at hcontext'
      contradiction
  next context hcontext =>
  split
  · next hc =>
      apply hnothing
      rintro key hkey rfl
      exact hc ((mem_users hcontext).mp (h.mem_users hkey))
  · have hports := portsOf_closePortforDevice api h c d
    dsimp only
    set t := (s.closePortforDevice api c d).setResourceInfo c _
    have ht : t.portsOf c = s.portsOf c \ portsAt d := hports
    apply Eq.trans (portsOf_leaveContext ?_) ht
    rw [ht]
    exact fun key hkey => hkey.2

/-- A device that is removed takes its ports from everybody. -/
theorem portsOf_cleanupDeviceContext (d : DeviceId) (s : MidiServiceController M) (c : ClientId) :
    (s.cleanupDeviceContext d).portsOf c = s.portsOf c \ portsAt d := by
  unfold cleanupDeviceContext
  split
  · next hcontext =>
      have hnone : Disjoint (s.portsOf c) (portsAt d) := by
        rw [Set.disjoint_left]
        rintro ⟨d', direction, p⟩ hkey rfl
        exact (mem_portsOf_iff direction p).mp hkey (closed_of_notMem_contexts hcontext direction p)
      exact hnone.sdiff_eq_left.symm
  · next context hcontext =>
      obtain ⟨infos, heq, _⟩ := cleanupClients_spec d
        (fun x => calculateClientPortCount x context) context.clients.keys_nodup s
      set t := s.cleanupClients d (fun x => calculateClientPortCount x context) context.clients.keys
      change (t.eraseContext d).portsOf c = _
      rw [portsOf_eraseContext, portsOf_same (s := s) (by rw [heq])]

/-- Nobody uses a device that was removed. -/
theorem lookup_cleanupDeviceContext (d : DeviceId) (s : MidiServiceController M) :
    (s.cleanupDeviceContext d).deviceClientContexts.lookup d = none := by
  unfold cleanupDeviceContext
  split
  · assumption
  · exact AList.lookup_erase d _

/-! ### Sections that leave the ports alone -/

/-- The clients of a context change. -/
theorem portsOf_setClients (hcontext : s.deviceClientContexts.lookup d = some context)
    (clients : UnorderedSet ClientId) (c : ClientId) :
    (s.setContext d { context with clients := clients }).portsOf c = s.portsOf c := by
  apply portsOf_congr
  apply connection_keepContext hcontext
  intro direction
  cases direction <;> rfl

/-- A device gets its first context. -/
theorem portsOf_newContext (hcontext : s.deviceClientContexts.lookup d = none)
    (clients : UnorderedSet ClientId) (c : ClientId) :
    (s.setContext d { clients := clients }).portsOf c = s.portsOf c :=
  portsOf_congr (connection_newContext hcontext clients) c

theorem portsOf_openDevice (permitted : Bool) (x : ClientId) (d : DeviceId) :
    (s.openDevice api permitted x d).state.portsOf c = s.portsOf c := by
  unfold openDevice
  split
  · rfl
  split
  · rfl
  split
  · rfl
  split
  · next context hcontext =>
      split
      · rfl
      · exact portsOf_setClients hcontext (context.clients.add x) c
  · next hcontext =>
      dsimp only
      split
      · rfl
      · exact portsOf_newContext hcontext (UnorderedSet.add ∅ x) c

theorem portsOf_openBleDevice (x : ClientId) (address : Address) (callback : RemoteObject) :
    (s.openBleDevice api x address callback).state.portsOf c = s.portsOf c := by
  unfold openBleDevice
  split
  · rfl
  split
  · rfl
  split
  · next t info hattach =>
      unfold tryAttachToActiveBleDevice at hattach
      split at hattach
      · contradiction
      split at hattach
      · contradiction
      · next context hcontext =>
          obtain ⟨rfl, _⟩ := Prod.mk.inj (Option.some.inj hattach)
          exact portsOf_setClients hcontext (context.clients.add x) c
  · unfold enqueueBleConnectionRequest
    split
    · rfl
    · dsimp only
      split <;> rfl

theorem portsOf_handleBleOpenComplete (address : Address) (success : Bool) (d : DeviceId)
    (info : MidiDeviceInfo) :
    (s.handleBleOpenComplete address success d info).state.portsOf c = s.portsOf c := by
  unfold handleBleOpenComplete
  dsimp only
  split
  · unfold registerBleDeviceForPendingClientsLocked
    dsimp only
    set cs := ((s.pendingBleConnections.getD address []).map
      PendingBleConnection.clientId).filter fun c => decide (c ∈ s.clients)
    set t : MidiServiceController M :=
      { s with
        pendingBleConnections := s.pendingBleConnections.erase address
        activeBleDevices := s.activeBleDevices.insert address d }
    obtain ⟨infos, heq, _⟩ := addOpenDevices_spec cs d t
    change (t.addOpenDevices cs d) = _ at heq
    have hsame : (t.addOpenDevices cs d).portsOf c = s.portsOf c :=
      portsOf_same (by rw [heq]) c
    split
    · exact hsame
    · split
      · next context hcontext =>
          exact (portsOf_setClients hcontext (context.clients.addAll cs) c).trans hsame
      · next hcontext =>
          exact (portsOf_newContext hcontext (UnorderedSet.addAll ∅ cs) c).trans hsame
  · rfl

theorem portsOf_createMidiInServer (uid : Uid) (object : RemoteObject) (server : MidiInServer)
    (added : Bool) :
    (s.createMidiInServer uid object server added).state.portsOf c = s.portsOf c := by
  unfold createMidiInServer
  dsimp only
  split
  · rfl
  split
  · rfl
  split
  · rfl
  · split <;> rfl

end MidiServiceController

namespace ControllerOp

variable {M : Type}

/-- The section is one that a client enters through its handles, or that ends the client. -/
def ByHandlesOf (c : ClientId) : ControllerOp M → Prop
  | openDevice _ x _ | openInputPort _ _ x _ _ | openOutputPort _ _ x _ _ | closeInputPort x _ _
  | closeOutputPort x _ _ | closeDevice x _ | destroyMidiClient x => x = c
  | _ => False

end ControllerOp

namespace MidiServiceController

variable {M : Type} (api : DeviceManager M) {s t : MidiServiceController M} {c : ClientId}

/-- What a client holds changes through its own calls and through the removal of devices only. -/
theorem portsOf_run (hconsistent : s.registry.Consistent) (h : s.Accounted) {op : ControllerOp M}
    (hop : ¬op.ByHandlesOf c) :
    (op.run api s).portsOf c = s.portsOf c \ {key | key.1 ∈ op.removes} := by
  have hsame : ∀ {t : MidiServiceController M}, t.portsOf c = s.portsOf c →
      t.portsOf c = s.portsOf c \ {key | key.1 ∈ (∅ : Set DeviceId)} := by
    intro t ht
    simp [ht]
  cases op with
  | createMidiInServer uid object server added =>
      exact hsame (portsOf_createMidiInServer uid object server added)
  | openDevice permitted x d => exact hsame (portsOf_openDevice api permitted x d)
  | openBleDevice x address callback => exact hsame (portsOf_openBleDevice api x address callback)
  | handleBleOpenComplete address success d info =>
      exact hsame (portsOf_handleBleOpenComplete address success d info)
  | openInputPort env permitted x d p =>
      exact hsame (spares_openPort api hop .input _ env permitted d p).portsOf_eq
  | openOutputPort env permitted x d p =>
      exact hsame (spares_openPort api hop .output _ env permitted d p).portsOf_eq
  | closeInputPort x d p => exact hsame (spares_closePort api hop .input d p).portsOf_eq
  | closeOutputPort x d p => exact hsame (spares_closePort api hop .output d p).portsOf_eq
  | closeDevice x d => exact hsame (spares_closeDevice api h hop d).portsOf_eq
  | destroyMidiClient x =>
      exact hsame (spares_destroyMidiClient api h hop (hconsistent.recorded x).mpr).portsOf_eq
  | finishDestroyMidiClient =>
      apply hsame
      change s.finishDestroyMidiClient.portsOf c = _
      unfold finishDestroyMidiClient
      split <;> rfl
  | notifyDeviceChange change d =>
      cases change with
      | add => exact hsame rfl
      | removed => exact portsOf_cleanupDeviceContext d (s.removeFromActiveBleDevices d) c

theorem portsOf_unlocked (move : Unlocked s t) (c : ClientId) : t.portsOf c = s.portsOf c := by
  cases move with
  | manager m => rfl
  | @rehash contexts active hcontexts hactive =>
      apply portsOf_congr
      rintro ⟨d, direction, p⟩
      rw [connection, connection, hcontexts.lookup]

end MidiServiceController

end MidiFramework.Server
