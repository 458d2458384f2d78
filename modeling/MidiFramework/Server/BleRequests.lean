import MidiFramework.Server.Service

/-!
# Requests for Bluetooth devices

The controller keeps a list of requests for every address it has asked the
manager to open, and the device id of every address that is open. Few of its
sections touch the two maps: an `OpenBleDevice`, a completion and the end of a
client.
-/

namespace MidiFramework.Server

open Foundation

/-! ### Sections that leave the Bluetooth requests alone -/

namespace MidiServiceController

variable {M : Type} {api : DeviceManager M} {s t u : MidiServiceController M}

/-- No address becomes active, and the requests that wait stay as they are. -/
structure LeavesRequests (s t : MidiServiceController M) : Prop where
  active : ∀ address d, t.activeBleDevices.lookup address = some d →
    s.activeBleDevices.lookup address = some d
  pending : t.pendingBleConnections = s.pendingBleConnections

theorem LeavesRequests.refl (s : MidiServiceController M) : s.LeavesRequests s :=
  ⟨fun _ _ h => h, rfl⟩

theorem LeavesRequests.trans (h : s.LeavesRequests t) (h' : t.LeavesRequests u) :
    s.LeavesRequests u :=
  ⟨fun address d hd => h.active address d (h'.active address d hd),
    h'.pending.trans h.pending⟩

theorem LeavesRequests.foldl {A : Type} {f : MidiServiceController M → A → MidiServiceController M}
    (hf : ∀ (s : MidiServiceController M) a, s.LeavesRequests (f s a)) (as : List A)
    (s : MidiServiceController M) : s.LeavesRequests (as.foldl f s) := by
  induction as generalizing s with
  | nil => exact refl s
  | cons a as ih => exact (hf s a).trans (ih (f s a))

theorem leavesRequests_removeFromActiveBleDevices (d : DeviceId) (s : MidiServiceController M) :
    s.LeavesRequests (s.removeFromActiveBleDevices d) :=
  ⟨fun _ _ h => UnorderedMap.lookup_eraseFirst h, rfl⟩

theorem leavesRequests_createMidiInServer (uid : Uid) (object : RemoteObject)
    (server : MidiInServer) (added : Bool) (s : MidiServiceController M) :
    s.LeavesRequests (s.createMidiInServer uid object server added).state := by
  unfold createMidiInServer
  dsimp only
  split
  · exact ⟨fun _ _ h => h, rfl⟩
  split
  · exact ⟨fun _ _ h => h, rfl⟩
  split
  · exact ⟨fun _ _ h => h, rfl⟩
  split
  · exact ⟨fun _ _ h => h, rfl⟩
  · exact ⟨fun _ _ h => h, rfl⟩

theorem leavesRequests_closePortInner (direction : PortDirection) (c : ClientId) (d : DeviceId)
    (p : PortIndex) (s : MidiServiceController M) :
    s.LeavesRequests (s.closePortInner api direction c d p).2 := by
  unfold closePortInner
  split
  · exact .refl s
  split
  · exact .refl s
  split
  · exact .refl s
  split
  · exact .refl s
  · dsimp only
    split
    · exact ⟨fun _ _ h => h, rfl⟩
    · exact ⟨fun _ _ h => h, rfl⟩

theorem leavesRequests_leaveContext (c : ClientId) (d : DeviceId) (s : MidiServiceController M) :
    s.LeavesRequests (s.leaveContext c d) := by
  unfold leaveContext
  split
  · exact .refl s
  · dsimp only
    split
    · exact ⟨fun _ _ h => UnorderedMap.lookup_eraseFirst h, rfl⟩
    · exact ⟨fun _ _ h => h, rfl⟩

theorem leavesRequests_closePortforDevice (c : ClientId) (d : DeviceId)
    (s : MidiServiceController M) : s.LeavesRequests (s.closePortforDevice api c d) := by
  have hports : ∀ direction ps (s : MidiServiceController M),
      s.LeavesRequests (s.closePorts api direction c d ps) := fun direction ps s =>
    LeavesRequests.foldl (fun s p => leavesRequests_closePortInner direction c d p s) ps s
  exact (hports .input _ s).trans (hports .output _ _)

theorem leavesRequests_closeDevice (c : ClientId) (d : DeviceId) (s : MidiServiceController M) :
    s.LeavesRequests (s.closeDevice api c d).state := by
  have hclosed : s.LeavesRequests (s.closePortforDevice api c d) :=
    leavesRequests_closePortforDevice c d s
  unfold closeDevice
  split
  · exact .refl s
  split
  · exact .refl s
  split
  · exact .refl s
  · have hleft := leavesRequests_leaveContext c d
      ((s.closePortforDevice api c d).setResourceInfo c
        { (s.closePortforDevice api c d).resourceInfo c with
          openDevices := ((s.closePortforDevice api c d).resourceInfo c).openDevices.erase d })
    exact hclosed.trans ⟨hleft.active, hleft.pending⟩

theorem leavesRequests_notifyDeviceChange (change : DeviceChangeType) (d : DeviceId)
    (s : MidiServiceController M) : s.LeavesRequests (s.notifyDeviceChange change d) := by
  have hclient : ∀ c count (s : MidiServiceController M),
      s.LeavesRequests (s.cleanupClientResourceForDevice c d count) := by
    intro c count s
    unfold cleanupClientResourceForDevice
    split
    · exact .refl s
    · exact ⟨fun _ _ h => h, rfl⟩
  cases change with
  | add => exact .refl s
  | removed =>
      apply (leavesRequests_removeFromActiveBleDevices d s).trans
      change LeavesRequests _ ((s.removeFromActiveBleDevices d).cleanupDeviceContext d)
      unfold cleanupDeviceContext
      split
      · exact .refl _
      · next context hcontext =>
          have hfold := LeavesRequests.foldl
            (fun s c => hclient c (calculateClientPortCount c context) s) context.clients.keys
            (s.removeFromActiveBleDevices d)
          exact ⟨hfold.active, hfold.pending⟩

theorem leavesRequests_openDevice (permitted : Bool) (c : ClientId) (d : DeviceId)
    (s : MidiServiceController M) : s.LeavesRequests (s.openDevice api permitted c d).state := by
  unfold openDevice
  split
  · exact .refl s
  split
  · exact .refl s
  split
  · exact .refl s
  split
  · split
    · exact .refl s
    · exact ⟨fun _ _ h => h, rfl⟩
  · dsimp only
    split
    · exact ⟨fun _ _ h => h, rfl⟩
    · exact ⟨fun _ _ h => h, rfl⟩

theorem leavesRequests_openPort (direction : PortDirection) (ready : Status) (env : PortEnv)
    (permitted : Bool) (c : ClientId) (d : DeviceId) (p : PortIndex)
    (s : MidiServiceController M) :
    s.LeavesRequests (s.openPort api direction ready env permitted c d p).state := by
  unfold openPort
  split
  · exact .refl s
  split
  · exact .refl s
  split
  · exact .refl s
  split
  · exact .refl s
  split
  · exact .refl s
  split
  · unfold connectToExistingPort
    split
    · exact .refl s
    split
    · exact .refl s
    · exact ⟨fun _ _ h => h, rfl⟩
  · unfold createNewPortConnection
    dsimp only
    split
    · exact ⟨fun _ _ h => h, rfl⟩
    · unfold emplacePortConnection
      split
      · exact ⟨fun _ _ h => h, rfl⟩
      · exact ⟨fun _ _ h => h, rfl⟩

theorem leavesRequests_closePort (direction : PortDirection) (c : ClientId) (d : DeviceId)
    (p : PortIndex) (s : MidiServiceController M) :
    s.LeavesRequests (s.closePort api direction c d p).state := by
  unfold closePort
  split
  · exact .refl s
  · exact leavesRequests_closePortInner direction c d p s

theorem leavesRequests_finishDestroyMidiClient (s : MidiServiceController M) :
    s.LeavesRequests s.finishDestroyMidiClient := by
  unfold finishDestroyMidiClient
  split
  · exact ⟨fun _ _ h => h, rfl⟩
  · exact .refl s

/-! ### Sections that change the requests -/

/-- A client that is destroyed leaves no request behind. -/
theorem pending_destroyMidiClient {c : ClientId} {s : MidiServiceController M}
    (h : c ∈ s.clients) :
    (s.destroyMidiClient api c).state.pendingBleConnections =
      (s.removePendingBleConnectionsForClient c).pendingBleConnections := by
  have hcleanup : ∀ (s : MidiServiceController M) d,
      s.LeavesRequests (s.cleanupDeviceForClient api c d) := by
    intro s d
    unfold cleanupDeviceForClient
    split
    · exact .refl s
    · exact (leavesRequests_closePortforDevice c d s).trans (leavesRequests_leaveContext c d _)
  have hrecipient : (s.removeDeathRecipient c).pendingBleConnections = s.pendingBleConnections := by
    unfold removeDeathRecipient
    split <;> rfl
  have hfold := LeavesRequests.foldl hcleanup (s.collectDevicesForClientDestruction c).1
    (s.removeDeathRecipient c)
  have hpending := hfold.pending.trans hrecipient
  unfold destroyMidiClient
  rw [if_neg (not_not.mpr h)]
  dsimp only [removePendingBleConnectionsForClient, eraseClient, cleanupClientResources]
  rw [hpending]

/-- What an `OpenBleDevice` does to the requests: it is refused, it joins an active device, it waits
for an earlier one, or it goes to the manager. -/
inductive OpensBle (api : DeviceManager M) (s : MidiServiceController M) (address : Address)
    (request : PendingBleConnection) (r : Locked M) : Prop
  | refused (state : r.state = s) (answers : r.answers = [])
  | joined (d : DeviceId) (found : s.activeBleDevices.lookup address = some d)
      (context : d ∈ s.deviceClientContexts)
      (requests : s.LeavesRequests r.state) (manager : r.state.deviceManager = s.deviceManager)
      (answers : r.answers =
        [⟨request, true, (api.getDeviceForDeviceId d s.deviceManager).midiDeviceInfo⟩])
  | waits (requests : List PendingBleConnection)
      (found : s.pendingBleConnections.lookup address = some requests)
      (state : r.state =
        { s with
          pendingBleConnections := s.pendingBleConnections.insert address (requests ++ [request]) })
      (answers : r.answers = [])
  | reached (pending : UnorderedMap Address (List PendingBleConnection))
      (first : address ∉ s.pendingBleConnections)
      (found : pending = s.pendingBleConnections.erase address ∨
        pending = s.pendingBleConnections.insert address [request])
      (state : r.state =
        { s with
          deviceManager := (api.openBleDevice address s.deviceManager).2
          pendingBleConnections := pending })
      (answers : r.answers = [])

theorem opensBle_openBleDevice (c : ClientId) (address : Address) (callback : RemoteObject)
    (s : MidiServiceController M) :
    OpensBle api s address ⟨c, callback⟩ (s.openBleDevice api c address callback) := by
  unfold openBleDevice
  split
  · exact .refused rfl rfl
  split
  · exact .refused rfl rfl
  split
  · next attached info hattached =>
      unfold tryAttachToActiveBleDevice at hattached
      split at hattached
      · contradiction
      · next d hd =>
          split at hattached
          · contradiction
          · next context hcontext =>
              cases hattached
              exact .joined d hd (UnorderedMap.mem_of_lookup hcontext) ⟨fun _ _ h => h, rfl⟩ rfl rfl
  · unfold enqueueBleConnectionRequest
    split
    · next requests hrequests => exact .waits requests hrequests rfl rfl
    · next hnone =>
        have hfirst : address ∉ s.pendingBleConnections := AList.lookup_eq_none.mp hnone
        dsimp only
        split
        · exact .reached _ hfirst (Or.inl rfl) rfl rfl
        · exact .reached _ hfirst (Or.inr rfl) rfl rfl

/-- An `OpenBleDevice` leaves the requests as they are and answers its own at most, or its own
request waits behind the others. -/
theorem OpensBle.pending {s : MidiServiceController M} {address : Address}
    {request : PendingBleConnection} {r : Locked M} (h : OpensBle api s address request r) :
    (r.state.pendingBleConnections = s.pendingBleConnections ∧
        (r.answers = [] ∨ ∃ info, r.answers = [⟨request, true, info⟩])) ∨
      (r.state.pendingBleConnections = s.pendingBleConnections.insert address
          (s.pendingBleConnections.getD address [] ++ [request]) ∧ r.answers = []) := by
  cases h with
  | refused state answers => exact Or.inl ⟨congrArg _ state, Or.inl answers⟩
  | joined d _ _ requests _ answers => exact Or.inl ⟨requests.pending, Or.inr ⟨_, answers⟩⟩
  | waits requests found state answers =>
      refine Or.inr ⟨?_, answers⟩
      rw [state, UnorderedMap.getD, found]
      rfl
  | reached pending first found state answers =>
      have hnone : s.pendingBleConnections.lookup address = none := AList.lookup_eq_none.mpr first
      rcases found with rfl | rfl
      · refine Or.inl ⟨?_, Or.inl answers⟩
        rw [state]
        exact AList.ext (List.kerase_of_notMem_keys first)
      · refine Or.inr ⟨?_, answers⟩
        rw [state, UnorderedMap.getD, hnone]
        rfl

/-- The maps that a completion leaves. -/
theorem requests_handleBleOpenComplete (address : Address) (success : Bool) (d : DeviceId)
    (info : MidiDeviceInfo) (s : MidiServiceController M) :
    (s.handleBleOpenComplete address success d info).state.pendingBleConnections =
        s.pendingBleConnections.erase address ∧
      (s.handleBleOpenComplete address success d info).state.activeBleDevices =
        if success then s.activeBleDevices.insert address d else s.activeBleDevices := by
  unfold handleBleOpenComplete
  cases success with
  | false => exact ⟨rfl, rfl⟩
  | true =>
      have hregister : ∀ (cs : List ClientId) (s : MidiServiceController M),
          (s.addOpenDevices cs d).pendingBleConnections = s.pendingBleConnections ∧
            (s.addOpenDevices cs d).activeBleDevices = s.activeBleDevices := by
        intro cs s
        obtain ⟨infos, heq, _⟩ := addOpenDevices_spec cs d s
        rw [heq]
        exact ⟨rfl, rfl⟩
      change (registerBleDeviceForPendingClientsLocked _ _ _ _).2.pendingBleConnections = _ ∧
        (registerBleDeviceForPendingClientsLocked _ _ _ _).2.activeBleDevices = _
      unfold registerBleDeviceForPendingClientsLocked
      dsimp only
      split
      · exact hregister _ _
      · split
        · exact hregister _ _
        · exact hregister _ _

theorem answers_handleBleOpenComplete (address : Address) (success : Bool) (d : DeviceId)
    (info : MidiDeviceInfo) (s : MidiServiceController M) :
    (s.handleBleOpenComplete address success d info).answers =
      (s.pendingBleConnections.getD address []).map fun request => ⟨request, success, info⟩ := by
  cases success with
  | true => rfl
  | false => rfl

end MidiServiceController

namespace Service

theorem updateBluetoothPermission_eq (token : TokenId) (c : ClientId) (s : Service) :
    ∃ clients, s.updateBluetoothPermission token c =
      { s with controller := { s.controller with clients := clients } } := by
  unfold updateBluetoothPermission
  split
  · exact ⟨s.controller.clients, rfl⟩
  · exact ⟨_, rfl⟩

/-- An `OpenBleDevice` of a client that may use Bluetooth reaches the controller. -/
theorem openBleDevice_granted {token : TokenId} {s : Service} (hgranted : s.granted token)
    (c : ClientId) (address : Address) :
    ∃ (clients : UnorderedMap ClientId MidiInServer) (r : Locked MidiDeviceManager),
      MidiServiceController.OpensBle MidiDeviceManager.api
        { s.controller with clients := clients } address ⟨c, s.requests.calls⟩ r ∧
      s.openBleDevice token c address =
        ({ s with
            controller := r.state
            requests := { s.requests with calls := s.requests.calls + 1 } },
          r.answers.map (.notifyDeviceOpened none)) := by
  obtain ⟨clients, hclients⟩ := updateBluetoothPermission_eq token c s
  refine ⟨clients, _, MidiServiceController.opensBle_openBleDevice c address _ _, ?_⟩
  unfold openBleDevice
  dsimp only
  rw [hclients, if_neg (by simpa using hgranted)]

theorem openBleDevice_refused {token : TokenId} {s : Service} (hgranted : ¬s.granted token)
    (c : ClientId) (address : Address) :
    s.openBleDevice token c address = (s.updateBluetoothPermission token c, []) := by
  obtain ⟨clients, hclients⟩ := updateBluetoothPermission_eq token c s
  unfold openBleDevice
  dsimp only
  rw [hclients, if_pos (by simpa using hgranted)]

end Service

end MidiFramework.Server
