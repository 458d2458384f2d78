import MidiFramework.Server.ClientRegistry
import MidiFramework.Server.PortAccounting

/-!
# One client's requests and the other clients

Every request of the service changes tables that all clients share: a context has
the clients of a device and the connections of its ports, a connection has clients
of its own, a BLE address has a list of waiting requests. What one client asks for
reaches the others' parts of these tables only through the context, the connection
or the address that the two share, and the last one out removes them. This module
follows one client through what the others do.
-/

namespace MidiFramework.Server

open Foundation

/-- The client is part of no connection of the port. -/
def DeviceClientContext.Closed (context : DeviceClientContext) (c : ClientId)
    (direction : PortDirection) (p : PortIndex) : Prop :=
  ∀ conn, (context.connections direction).lookup p = some conn → c ∉ conn.clients

namespace MidiServiceController

variable {M : Type} (api : DeviceManager M) {s t u : MidiServiceController M} {c x : ClientId}

/-- The requests of a client that wait for an address, in their order. -/
def requestsOf (s : MidiServiceController M) (c : ClientId) (address : Address) :
    List PendingBleConnection :=
  (s.pendingBleConnections.getD address []).filter fun request => request.clientId = c

/-- Nothing the controller keeps for a client differs between the two states. -/
structure Spares (c : ClientId) (s t : MidiServiceController M) : Prop where
  server : t.clients.lookup c = s.clients.lookup c
  record : t.clientResourceInfo.lookup c = s.clientResourceInfo.lookup c
  callbackObject : t.clientCallbackObjects.lookup c = s.clientCallbackObjects.lookup c
  deathRecipient : c ∈ t.deathRecipients ↔ c ∈ s.deathRecipients
  app : ∀ uid, c ∈ t.appClients uid ↔ c ∈ s.appClients uid
  devices : ∀ d, c ∈ t.registry.users d ↔ c ∈ s.registry.users d
  ports : ∀ d direction p, t.Closed c d direction p ↔ s.Closed c d direction p
  bluetooth : ∀ address d, c ∈ s.registry.users d →
    (t.activeBleDevices.lookup address = some d ↔ s.activeBleDevices.lookup address = some d)
  requests : ∀ address, t.requestsOf c address = s.requestsOf c address

theorem Spares.refl (c : ClientId) (s : MidiServiceController M) : s.Spares c s where
  server := rfl
  record := rfl
  callbackObject := rfl
  deathRecipient := Iff.rfl
  app := fun _ => Iff.rfl
  devices := fun _ => Iff.rfl
  ports := fun _ _ _ => Iff.rfl
  bluetooth := fun _ _ _ => Iff.rfl
  requests := fun _ => rfl

theorem Spares.trans (h : s.Spares c t) (h' : t.Spares c u) : s.Spares c u where
  server := h'.server.trans h.server
  record := h'.record.trans h.record
  callbackObject := h'.callbackObject.trans h.callbackObject
  deathRecipient := h'.deathRecipient.trans h.deathRecipient
  app := fun uid => (h'.app uid).trans (h.app uid)
  devices := fun d => (h'.devices d).trans (h.devices d)
  ports := fun d direction p => (h'.ports d direction p).trans (h.ports d direction p)
  bluetooth := fun address d hd =>
    (h'.bluetooth address d ((h.devices d).mpr hd)).trans (h.bluetooth address d hd)
  requests := fun address => (h'.requests address).trans (h.requests address)

theorem Spares.live (h : s.Spares c t) (hlive : c ∈ s.clients) : c ∈ t.clients := by
  obtain ⟨server, hserver⟩ := UnorderedMap.mem_iff_lookup.mp hlive
  exact UnorderedMap.mem_iff_lookup.mpr ⟨server, h.server.trans hserver⟩

/-! ### One change of a table -/

theorem closed_of_lookup {d : DeviceId} {context : DeviceClientContext}
    (h : s.deviceClientContexts.lookup d = some context) (direction : PortDirection)
    (p : PortIndex) : s.Closed c d direction p ↔ context.Closed c direction p := by
  constructor
  · exact fun hclosed conn => hclosed context conn h
  · intro hclosed context' conn hcontext'
    obtain rfl := Option.some.inj (h.symm.trans hcontext')
    exact hclosed conn

theorem closed_of_notMem_contexts {d : DeviceId} (h : s.deviceClientContexts.lookup d = none)
    (direction : PortDirection) (p : PortIndex) : s.Closed c d direction p := by
  intro context conn hcontext
  rw [h] at hcontext
  contradiction

theorem closed_congr {d : DeviceId}
    (h : t.deviceClientContexts.lookup d = s.deviceClientContexts.lookup d)
    (direction : PortDirection) (p : PortIndex) :
    t.Closed c d direction p ↔ s.Closed c d direction p := by
  unfold Closed
  rw [h]

/-- A device has its context replaced, and the client has the same part in the new one. -/
theorem spares_setContext {d : DeviceId} {context context' : DeviceClientContext}
    (hcontext : s.deviceClientContexts.lookup d = some context)
    (hclients : c ∈ context'.clients ↔ c ∈ context.clients)
    (hports : ∀ direction p, context'.Closed c direction p ↔ context.Closed c direction p) :
    s.Spares c (s.setContext d context') where
  server := rfl
  record := rfl
  callbackObject := rfl
  deathRecipient := Iff.rfl
  app := fun _ => Iff.rfl
  devices := by
    intro d'
    rw [users_setContext]
    split
    · next h => rw [h, mem_users hcontext, hclients]
    · rfl
  ports := by
    intro d' direction p
    by_cases h : d' = d
    · subst h
      rw [closed_of_lookup hcontext, ← hports, closed_of_lookup (AList.lookup_insert _)]
    · exact closed_congr (AList.lookup_insert_ne h) direction p
  bluetooth := fun _ _ _ => Iff.rfl
  requests := fun _ => rfl

/-- A device gets its first context, and the client has no part in it. -/
theorem spares_newContext {d : DeviceId} {clients : UnorderedSet ClientId}
    (hcontext : s.deviceClientContexts.lookup d = none) (hc : c ∉ clients) :
    s.Spares c (s.setContext d { clients := clients }) where
  server := rfl
  record := rfl
  callbackObject := rfl
  deathRecipient := Iff.rfl
  app := fun _ => Iff.rfl
  devices := by
    intro d'
    rw [users_setContext]
    split
    · next h =>
        rw [h, ← mem_empty_iff_users hcontext]
        exact iff_of_false hc (AList.notMem_empty c)
    · rfl
  ports := by
    intro d' direction p
    by_cases h : d' = d
    · subst h
      apply iff_of_true ?_ (closed_of_notMem_contexts hcontext direction p)
      rw [closed_of_lookup (AList.lookup_insert _)]
      intro conn hconn
      cases direction <;> exact absurd (UnorderedMap.mem_of_lookup hconn) (AList.notMem_empty p)
    · exact closed_congr (AList.lookup_insert_ne h) direction p
  bluetooth := fun _ _ _ => Iff.rfl
  requests := fun _ => rfl

theorem spares_setResourceInfo (hx : x ≠ c) (info : ClientResourceInfo) :
    s.Spares c (s.setResourceInfo x info) :=
  { Spares.refl c s with record := AList.lookup_insert_ne hx.symm }

theorem spares_manager (m : M) : s.Spares c { s with deviceManager := m } :=
  { Spares.refl c s with }

/-- Requests of others come and go. -/
theorem spares_pending {pending : UnorderedMap Address (List PendingBleConnection)}
    (h : ∀ address, (pending.getD address []).filter (fun request => request.clientId = c) =
      s.requestsOf c address) :
    s.Spares c { s with pendingBleConnections := pending } :=
  { Spares.refl c s with requests := h }

/-! ### The requests of another client -/

theorem spares_addOpenDevice (hx : x ≠ c) (d : DeviceId) : s.Spares c (s.addOpenDevice x d) :=
  spares_setResourceInfo hx _

/-- Another client joins the context of a device. -/
theorem spares_attach (hx : x ≠ c) {d : DeviceId} {context : DeviceClientContext}
    (hcontext : s.deviceClientContexts.lookup d = some context) :
    s.Spares c ((s.setContext d { context with clients := context.clients.add x }).addOpenDevice
      x d) := by
  have hjoins : s.Spares c (s.setContext d { context with clients := context.clients.add x }) := by
    apply spares_setContext hcontext
    · simp [hx.symm]
    · intro direction p
      cases direction <;> rfl
  exact hjoins.trans (spares_addOpenDevice hx d)

theorem spares_openDevice (hx : x ≠ c) (permitted : Bool) (d : DeviceId) :
    s.Spares c (s.openDevice api permitted x d).state := by
  unfold openDevice
  split
  · exact .refl c s
  split
  · exact .refl c s
  split
  · exact .refl c s
  split
  · next context hcontext =>
      split
      · exact .refl c s
      · exact spares_attach hx hcontext
  · next hcontext =>
      dsimp only
      split
      · exact spares_manager _
      · have hnew : c ∉ UnorderedSet.add (∅ : UnorderedSet ClientId) x := by
          rw [UnorderedSet.mem_add, not_or]
          exact ⟨hx.symm, AList.notMem_empty c⟩
        have hopened := spares_newContext
          (s := { s with deviceManager := (api.openDevice d s.deviceManager).2 }) hcontext hnew
        exact ((spares_manager _).trans hopened).trans (spares_addOpenDevice hx d)

theorem spares_openBleDevice (hx : x ≠ c) (address : Address) (callback : RemoteObject) :
    s.Spares c (s.openBleDevice api x address callback).state := by
  have hself : ∀ requests, (requests ++ [⟨x, callback⟩] : List PendingBleConnection).filter
      (fun request => request.clientId = c) =
        requests.filter fun request => request.clientId = c := by
    intro requests
    simp [hx]
  unfold openBleDevice
  split
  · exact .refl c s
  split
  · exact .refl c s
  split
  · next t info hattach =>
      unfold tryAttachToActiveBleDevice at hattach
      split at hattach
      · contradiction
      split at hattach
      · contradiction
      · next context hcontext =>
          obtain ⟨rfl, _⟩ := Prod.mk.inj (Option.some.inj hattach)
          exact spares_attach hx hcontext
  · unfold enqueueBleConnectionRequest
    split
    · next requests hrequests =>
        apply spares_pending
        intro a
        rw [UnorderedMap.getD_insert]
        split
        · next h =>
            have hold : s.pendingBleConnections.getD address [] = requests := by
              rw [UnorderedMap.getD, hrequests]
              rfl
            rw [hself, requestsOf, h, hold]
        · rfl
    · next hnone =>
        have hold : s.pendingBleConnections.getD address [] = [] := by
          rw [UnorderedMap.getD, hnone]
          rfl
        dsimp only
        split
        · apply (spares_manager (api.openBleDevice address s.deviceManager).2).trans
          apply spares_pending
          intro a
          rw [UnorderedMap.getD_erase]
          split
          · next h => simp [requestsOf, h, hold]
          · rfl
        · apply (spares_manager (api.openBleDevice address s.deviceManager).2).trans
          apply spares_pending
          intro a
          rw [UnorderedMap.getD_insert]
          split
          · next h => simp [requestsOf, h, hold, hx]
          · rfl

/-- The connections of one direction change, and the client has the same part in them. -/
theorem spares_setConnections {d : DeviceId} {context : DeviceClientContext}
    (hcontext : s.deviceClientContexts.lookup d = some context) (direction : PortDirection)
    {connections : PortConnections}
    (hports : ∀ p, (∀ conn, connections.lookup p = some conn → c ∉ conn.clients) ↔
      context.Closed c direction p) :
    s.Spares c (s.setContext d (context.setConnections connections direction)) := by
  apply spares_setContext hcontext
  · rw [clients_setConnections]
  · intro direction' p
    by_cases h : direction' = direction
    · subst h
      rw [← hports, DeviceClientContext.Closed, DeviceClientContext.connections_setConnections,
        if_pos rfl]
    · rw [DeviceClientContext.Closed, DeviceClientContext.Closed,
        DeviceClientContext.connections_setConnections, if_neg h]

/-- One connection changes, and the client is in the new one if it was in the old one. -/
theorem spares_insertConnection {d : DeviceId} {context : DeviceClientContext}
    (hcontext : s.deviceClientContexts.lookup d = some context) (direction : PortDirection)
    {p : PortIndex} {conn : DeviceConnection}
    (hconn : c ∉ conn.clients ↔ context.Closed c direction p) :
    s.Spares c (s.setContext d
      (context.setConnections ((context.connections direction).insert p conn) direction)) := by
  apply spares_setConnections hcontext
  intro p'
  by_cases h : p' = p
  · subst h
    rw [← hconn, AList.lookup_insert]
    simp
  · rw [AList.lookup_insert_ne h]
    rfl

/-- A connection goes away that the client is not part of. -/
theorem spares_eraseConnection {d : DeviceId} {context : DeviceClientContext}
    (hcontext : s.deviceClientContexts.lookup d = some context) (direction : PortDirection)
    {p : PortIndex} (hclosed : context.Closed c direction p) :
    s.Spares c (s.setContext d
      (context.setConnections ((context.connections direction).erase p) direction)) := by
  apply spares_setConnections hcontext
  intro p'
  by_cases h : p' = p
  · subst h
    rw [AList.lookup_erase]
    simpa using hclosed
  · rw [AList.lookup_erase_ne h]
    rfl

theorem closed_iff_of_lookup {context : DeviceClientContext} {direction : PortDirection}
    {p : PortIndex} {conn : DeviceConnection}
    (h : (context.connections direction).lookup p = some conn) :
    context.Closed c direction p ↔ c ∉ conn.clients := by
  rw [DeviceClientContext.Closed, h]
  simp

theorem closed_of_lookup_none {context : DeviceClientContext} {direction : PortDirection}
    {p : PortIndex} (h : (context.connections direction).lookup p = none) :
    context.Closed c direction p := by
  rw [DeviceClientContext.Closed, h]
  simp

theorem spares_openPort (hx : x ≠ c) (direction : PortDirection) (ready : Status) (env : PortEnv)
    (permitted : Bool) (d : DeviceId) (p : PortIndex) :
    s.Spares c (s.openPort api direction ready env permitted x d p).state := by
  unfold openPort
  split
  · exact .refl c s
  split
  · exact .refl c s
  next context hcontext =>
  split
  · exact .refl c s
  split
  · exact .refl c s
  split
  · exact .refl c s
  split
  · next conn hconn =>
      unfold connectToExistingPort
      split
      · exact .refl c s
      split
      · exact .refl c s
      · have hjoins : c ∉ (conn.addClientConnection x).clients ↔ context.Closed c direction p := by
          rw [closed_iff_of_lookup hconn]
          simp [DeviceConnection.addClientConnection, hx.symm]
        exact (spares_insertConnection hcontext direction hjoins).trans
          (spares_setResourceInfo hx _)
  · next hconn =>
      unfold createNewPortConnection
      dsimp only
      split
      · exact spares_manager _
      unfold emplacePortConnection
      apply (spares_manager (api.openPort direction d p s.deviceManager).2).trans
      split
      · exact spares_manager _
      · rw [UnorderedMap.emplace_of_notMem (AList.lookup_eq_none.mp hconn)]
        have hjoins : c ∉ (DeviceConnection.addClientConnection {} x).clients ↔
            context.Closed c direction p := by
          apply iff_of_true
          · simpa [DeviceConnection.addClientConnection] using hx.symm
          · exact closed_of_lookup_none hconn
        apply Spares.trans (spares_setResourceInfo hx _)
        exact spares_insertConnection
          (s := MidiServiceController.addOpenPort
            { s with deviceManager := (api.openPort direction d p s.deviceManager).2 } x)
          hcontext direction hjoins

theorem spares_closePortInner (hx : x ≠ c) (direction : PortDirection) (d : DeviceId)
    (p : PortIndex) : s.Spares c (s.closePortInner api direction x d p).2 := by
  unfold closePortInner
  split
  · exact .refl c s
  next context hcontext =>
  split
  · exact .refl c s
  split
  · exact .refl c s
  next conn hconn =>
  split
  · exact .refl c s
  have hleaves : c ∉ (conn.removeClientConnection x).clients ↔ context.Closed c direction p := by
    rw [closed_iff_of_lookup hconn, DeviceConnection.mem_removeClientConnection]
    simp [hx.symm]
  dsimp only
  split
  · next hempty =>
      -- The connection goes away only when no other client is part of it.
      have hclosed : context.Closed c direction p := by
        rw [← hleaves, List.isEmpty_iff.mp hempty]
        exact List.not_mem_nil
      apply Spares.trans (spares_setResourceInfo hx _)
      apply Spares.trans (spares_manager (api.closePort direction d p s.deviceManager).2)
      exact spares_eraseConnection
        (s := { s.setResourceInfo x _ with
          deviceManager := (api.closePort direction d p s.deviceManager).2 })
        hcontext direction hclosed
  · apply Spares.trans (spares_setResourceInfo hx _)
    exact spares_insertConnection (s := s.setResourceInfo x _) hcontext direction hleaves

theorem spares_closePort (hx : x ≠ c) (direction : PortDirection) (d : DeviceId) (p : PortIndex) :
    s.Spares c (s.closePort api direction x d p).state := by
  unfold closePort
  split
  · exact .refl c s
  · exact spares_closePortInner api hx direction d p

theorem spares_closePorts (hx : x ≠ c) (direction : PortDirection) (d : DeviceId)
    (ps : List PortIndex) : s.Spares c (s.closePorts api direction x d ps) := by
  induction ps generalizing s with
  | nil => exact .refl c s
  | cons p ps ih => exact (spares_closePortInner api hx direction d p).trans ih

theorem spares_closePortforDevice (hx : x ≠ c) (d : DeviceId) :
    s.Spares c (s.closePortforDevice api x d) :=
  (spares_closePorts api hx .input d _).trans (spares_closePorts api hx .output d _)

/-- The last client out of a context takes it along, with the address of the device. -/
theorem spares_leaveContext (h : s.Accounted) (hx : x ≠ c) (d : DeviceId) :
    s.Spares c (s.leaveContext x d) := by
  unfold leaveContext
  split
  · exact .refl c s
  next context hcontext =>
  dsimp only
  split
  · next hempty =>
      have hnot : c ∉ context.clients := by
        intro hc
        have hkept : c ∈ context.clients.erase x := AList.mem_erase.mpr ⟨hx.symm, hc⟩
        rw [UnorderedMap.eq_empty_of_isEmpty_keys hempty] at hkept
        exact AList.notMem_empty c hkept
      have hnotUser : c ∉ s.registry.users d := fun hc => hnot ((mem_users hcontext).mp hc)
      refine { Spares.refl c s with devices := ?_, ports := ?_, bluetooth := ?_ }
      · intro d'
        change c ∈ (s.eraseContext d).registry.users d' ↔ _
        rw [users_eraseContext]
        constructor
        · exact fun hc => hc.2
        · intro hc
          refine ⟨?_, hc⟩
          rintro rfl
          exact hnotUser hc
      · intro d' direction p
        by_cases hd : d' = d
        · subst hd
          apply iff_of_true
          · exact closed_of_notMem_contexts (AList.lookup_erase _ _) direction p
          · rw [closed_of_lookup hcontext]
            exact fun conn hconn hc =>
              hnot ((h.sound d' context hcontext direction p conn hconn).members c hc)
        · exact closed_congr (AList.lookup_erase_ne hd) direction p
      · intro address d' hd'
        apply UnorderedMap.lookup_eraseFirst_of_not
        have hd : d' ≠ d := by
          rintro rfl
          exact hnotUser hd'
        simpa using hd
  · apply spares_setContext hcontext
    · exact AList.mem_erase.trans (and_iff_right hx.symm)
    · intro direction p
      cases direction <;> rfl

theorem spares_closeDevice (h : s.Accounted) (hx : x ≠ c) (d : DeviceId) :
    s.Spares c (s.closeDevice api x d).state := by
  unfold closeDevice
  split
  · exact .refl c s
  split
  · exact .refl c s
  split
  · exact .refl c s
  · have hports := accounted_closePortforDevice api h x d
    apply (spares_closePortforDevice api hx d).trans
    apply (spares_setResourceInfo hx _).trans
    set t := s.closePortforDevice api x d
    have hrecorded : (t.setResourceInfo x
        { t.resourceInfo x with openDevices := (t.resourceInfo x).openDevices.erase d }).Accounted := by
      apply hports.keep
      · rfl
      · intro y
        rw [resourceInfo_setResourceInfo]
        split
        · next hy => rw [hy]
        · rfl
    exact spares_leaveContext hrecorded hx d

theorem spares_cleanupDevices (h : s.Accounted) (hx : x ≠ c) (ds : List DeviceId)
    (hrecord : x ∈ s.clientResourceInfo) :
    s.Spares c (ds.foldl (fun s d => s.cleanupDeviceForClient api x d) s) := by
  induction ds generalizing s with
  | nil => exact .refl c s
  | cons d ds ih =>
      have hone : s.Spares c (s.cleanupDeviceForClient api x d) := by
        unfold cleanupDeviceForClient
        split
        · exact .refl c s
        · exact (spares_closePortforDevice api hx d).trans
            (spares_leaveContext (accounted_closePortforDevice api h x d) hx d)
      have hregistry := registry_cleanupDeviceForClient api d hrecord
      have haccounted := accounted_cleanupDevices api h [d] hrecord
      apply hone.trans
      apply ih haccounted
      change x ∈ (s.cleanupDeviceForClient api x d).registry.recorded
      rw [hregistry]
      exact hrecord

theorem spares_removeDeathRecipient (hx : x ≠ c) : s.Spares c (s.removeDeathRecipient x) := by
  unfold removeDeathRecipient
  split
  · exact .refl c s
  · exact { Spares.refl c s with
      callbackObject := AList.lookup_erase_ne hx.symm
      deathRecipient := AList.mem_erase.trans (and_iff_right hx.symm) }

theorem spares_cleanupClientResources (hx : x ≠ c) (uid : Uid) :
    s.Spares c (s.cleanupClientResources x uid) := by
  refine { Spares.refl c s with record := AList.lookup_erase_ne hx.symm, app := ?_ }
  intro uid'
  rw [appClients_cleanupClientResources]
  split
  · exact AList.mem_erase.trans (and_iff_right hx.symm)
  · rfl

theorem spares_removePendingBleConnections (hx : x ≠ c) :
    s.Spares c (s.removePendingBleConnectionsForClient x) := by
  apply spares_pending
  intro address
  rw [UnorderedMap.getD, UnorderedMap.lookup_filterMap, requestsOf, UnorderedMap.getD]
  cases s.pendingBleConnections.lookup address with
  | none => rfl
  | some requests =>
      have hkept : (requests.filter fun request => request.clientId ≠ x).filter
          (fun request => request.clientId = c) =
            requests.filter fun request => request.clientId = c := by
        rw [List.filter_filter]
        apply List.filter_congr
        intro request _
        by_cases hc : request.clientId = c <;> simp [hc, hx.symm]
      rw [Option.bind_some]
      dsimp only
      split
      · next hempty =>
          rw [List.isEmpty_iff.mp hempty] at hkept
          exact hkept
      · exact hkept

theorem spares_destroyMidiClient (h : s.Accounted) (hx : x ≠ c)
    (hrecord : x ∈ s.clients → x ∈ s.clientResourceInfo) :
    s.Spares c (s.destroyMidiClient api x).state := by
  unfold destroyMidiClient
  split
  · exact .refl c s
  next hlive =>
  have hremoved : (s.removeDeathRecipient x).Accounted := by
    unfold removeDeathRecipient
    split
    · exact h
    · exact h.keep rfl fun _ => rfl
  have hrecord' : x ∈ (s.removeDeathRecipient x).clientResourceInfo := by
    unfold removeDeathRecipient
    split <;> exact hrecord (not_not.mp hlive)
  apply (spares_removeDeathRecipient hx).trans
  apply (spares_cleanupDevices api hremoved hx _ hrecord').trans
  apply (spares_cleanupClientResources hx _).trans
  apply (spares_removePendingBleConnections hx).trans
  exact { Spares.refl c _ with server := AList.lookup_erase_ne hx.symm }

/-- A new client gets an id that no client has. -/
theorem spares_createMidiInServer (hlive : c ∈ s.clients) (uid : Uid) (object : RemoteObject)
    (server : MidiInServer) (added : Bool) :
    s.Spares c (s.createMidiInServer uid object server added).state := by
  unfold createMidiInServer
  dsimp only
  split
  · exact { Spares.refl c s with }
  have happ : ∀ uid', c ∈ UnorderedMap.getD (s.appClientMap.insert uid (s.appClients uid)) uid' ∅ ↔
      c ∈ s.appClients uid' := by
    intro uid'
    rw [UnorderedMap.getD_insert]
    split
    · next h => rw [h]
    · rfl
  split
  · exact { Spares.refl c s with app := happ }
  split
  · exact { Spares.refl c s with app := happ }
  next x hsearch =>
  have hx : c ≠ x := by
    rintro rfl
    exact searchClientId_notMem _ _ hsearch hlive
  split
  · exact { Spares.refl c s with app := happ }
  · refine { Spares.refl c s with
      server := UnorderedMap.lookup_emplace_of_ne hx server
      record := AList.lookup_insert_ne hx
      callbackObject := UnorderedMap.lookup_emplace_of_ne hx object
      deathRecipient := UnorderedMap.mem_emplace.trans (or_iff_right hx)
      app := ?_ }
    intro uid'
    change c ∈ UnorderedMap.getD ((s.appClientMap.insert uid (s.appClients uid)).insert uid
      ((s.appClients uid).add x)) uid' ∅ ↔ _
    rw [UnorderedMap.getD_insert]
    split
    · next h => rw [h, UnorderedSet.mem_add, or_iff_right hx]
    · exact happ uid'

theorem spares_unlocked (h : Unlocked s t) : s.Spares c t := by
  cases h with
  | manager m => exact spares_manager m
  | @rehash contexts active hcontexts hactive =>
      refine { Spares.refl c s with devices := ?_, ports := ?_, bluetooth := ?_ }
      · intro d
        change (∃ context, contexts.lookup d = some context ∧ c ∈ context.clients) ↔ _
        rw [hcontexts.lookup]
        rfl
      · exact fun d direction p => closed_congr (hcontexts.lookup d) direction p
      · intro address d _
        rw [hactive.lookup]

end MidiServiceController

namespace ControllerOp

variable {M : Type} (api : DeviceManager M)

/-- The section serves a client other than this one. -/
def ForOthers (c : ClientId) : ControllerOp M → Prop
  | createMidiInServer .. | finishDestroyMidiClient => True
  | openDevice _ x _ | openBleDevice x _ _ | openInputPort _ _ x _ _ | openOutputPort _ _ x _ _
  | closeInputPort x _ _ | closeOutputPort x _ _ | closeDevice x _ | destroyMidiClient x => x ≠ c
  | handleBleOpenComplete .. | notifyDeviceChange .. => False

/-- The devices the manager is told to close once the lock is released. -/
def devicesToClose (s : MidiServiceController M) : ControllerOp M → List DeviceId
  | handleBleOpenComplete address success d info =>
      (s.handleBleOpenComplete address success d info).devicesToClose
  | closeDevice x d => (s.closeDevice api x d).devicesToClose
  | destroyMidiClient x => (s.destroyMidiClient api x).devicesToClose
  | _ => []

end ControllerOp

namespace MidiServiceController

variable {M : Type} (api : DeviceManager M) {s t : MidiServiceController M} {c : ClientId}

theorem spares_run (hconsistent : s.registry.Consistent) (h : s.Accounted) (hlive : c ∈ s.clients)
    {op : ControllerOp M} (hop : op.ForOthers c) : s.Spares c (op.run api s) := by
  have hrecord : ∀ x, x ∈ s.clients → x ∈ s.clientResourceInfo :=
    fun x => (hconsistent.recorded x).mpr
  cases op with
  | createMidiInServer uid object server added =>
      exact spares_createMidiInServer hlive uid object server added
  | openDevice permitted x d => exact spares_openDevice api hop permitted d
  | openBleDevice x address callback => exact spares_openBleDevice api hop address callback
  | openInputPort env permitted x d p => exact spares_openPort api hop .input _ env permitted d p
  | openOutputPort env permitted x d p => exact spares_openPort api hop .output _ env permitted d p
  | closeInputPort x d p => exact spares_closePort api hop .input d p
  | closeOutputPort x d p => exact spares_closePort api hop .output d p
  | closeDevice x d => exact spares_closeDevice api h hop d
  | destroyMidiClient x => exact spares_destroyMidiClient api h hop (hrecord x)
  | finishDestroyMidiClient =>
      change s.Spares c s.finishDestroyMidiClient
      unfold finishDestroyMidiClient
      split
      · exact { Spares.refl c s with }
      · exact .refl c s
  | handleBleOpenComplete address success d info => exact hop.elim
  | notifyDeviceChange change d => exact hop.elim

/-- A device is closed when its last client leaves. -/
theorem notMem_users_of_devicesToClose {op : ControllerOp M} (hop : op.ForOthers c) {d : DeviceId}
    (hd : d ∈ op.devicesToClose api s) : c ∉ s.registry.users d := by
  cases op with
  | closeDevice x d' =>
      change d ∈ (s.closeDevice api x d').devicesToClose at hd
      unfold closeDevice at hd
      split at hd
      · contradiction
      split at hd
      · contradiction
      next context hcontext =>
      split at hd
      · contradiction
      dsimp only at hd
      split at hd
      · next hempty =>
          obtain rfl := List.mem_singleton.mp hd
          intro hc
          have hkept : c ∈ context.clients.erase x :=
            AList.mem_erase.mpr ⟨Ne.symm hop, (mem_users hcontext).mp hc⟩
          rw [UnorderedMap.eq_empty_of_isEmpty_keys hempty] at hkept
          exact AList.notMem_empty c hkept
      · contradiction
  | destroyMidiClient x =>
      change d ∈ (s.destroyMidiClient api x).devicesToClose at hd
      unfold destroyMidiClient at hd
      split at hd
      · contradiction
      obtain ⟨e, he, rfl⟩ := List.mem_map.mp hd
      obtain ⟨hentry, hsize⟩ := List.mem_filter.mp he
      obtain ⟨hmem, hx⟩ := List.mem_filter.mp hentry
      have hcontext := UnorderedMap.mem_entries.mp hmem
      intro hc
      have hall := (UnorderedSet.size_eq_one (of_decide_eq_true hx)).mp (beq_iff_eq.mp hsize)
      exact hop (hall c ((mem_users hcontext).mp hc)).symm
  | handleBleOpenComplete address success d info => exact hop.elim
  | notifyDeviceChange change d => exact hop.elim
  | _ => contradiction

/-- However many requests of other clients are served, a client finds all that is kept for it as it
left it: its devices and ports, its record, its waiting requests, its callback. None of these
requests has a device closed that the client has open. -/
theorem client_isolation (reach : (controllerMachine api).Reachable s) (hlive : c ∈ s.clients)
    (others : ((controllerMachine api).startingAt s).ReachableWith
      (fun _ label => ∀ op ∈ label, op.ForOthers c) t) :
    s.Spares c t ∧
      ∀ (op : ControllerOp M) (d : DeviceId), op.ForOthers c → d ∈ op.devicesToClose api t →
        c ∉ t.registry.users d := by
  refine ⟨?_, fun op d hop hd => notMem_users_of_devicesToClose api hop hd⟩
  induction others with
  | init h => exact h ▸ .refl c s
  | @step t label u run meets move ih =>
      have hreach : (controllerMachine api).Reachable t := reach.append run.reachable
      cases label with
      | none => exact ih.trans (spares_unlocked move)
      | some op =>
          have hrun := spares_run api (consistent_reachable api hreach)
            (accounted_reachable api hreach) (ih.live hlive) (meets op rfl)
          exact ih.trans (move.symm ▸ hrun)

/-- The second client of a shared device closes it and leaves. -/
def leftDevice : MidiServiceController Unit :=
  sharedDevice.runAll openingManager [.closeDevice 2 1001, .destroyMidiClient 2]

theorem client_isolation_left :
    sharedDevice.Spares 1 leftDevice ∧
      ∀ (op : ControllerOp Unit) (d : DeviceId), op.ForOthers 1 →
        d ∈ op.devicesToClose openingManager leftDevice → 1 ∉ leftDevice.registry.users d := by
  have hother : ∀ op : ControllerOp Unit, op.ForOthers 1 → ∀ op' ∈ some op, op'.ForOthers 1 := by
    intro op hop op' hop'
    exact Option.some.inj hop' ▸ hop
  have hclose := hother (.closeDevice 2 1001) (by simp [ControllerOp.ForOthers])
  have hdestroy := hother (.destroyMidiClient 2) (by simp [ControllerOp.ForOthers])
  exact client_isolation openingManager reachable_sharedDevice (by decide)
    (((Machine.ReachableWith.init rfl).step hclose rfl).step hdestroy rfl)

end MidiServiceController

end MidiFramework.Server
