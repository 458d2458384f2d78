import MidiFramework.Server.Registry

/-!
# The manager under the controller

What a locked section of the controller does to the manager is a sequence of
calls. A relation of managers that every such call keeps relates the manager
before a section to the one after it. The sections that close devices call
nothing but the manager's port closes.
-/

namespace MidiFramework.Server

open Foundation

/-- A preorder on managers that the port closes follow. -/
structure DeviceManager.Closing {M : Type} (api : DeviceManager M) (R : M → M → Prop) : Prop where
  refl : ∀ m, R m m
  trans : ∀ {m m' m''}, R m m' → R m' m'' → R m m''
  closePort : ∀ direction d p m, R m (api.closePort direction d p m).2

/-- A preorder on managers that all calls follow. -/
structure DeviceManager.Calling {M : Type} (api : DeviceManager M) (R : M → M → Prop) : Prop
    extends api.Closing R where
  openDevice : ∀ d m, R m (api.openDevice d m).2
  openBleDevice : ∀ address m, R m (api.openBleDevice address m).2
  openPort : ∀ direction d p m, R m (api.openPort direction d p m).2

namespace MidiServiceController

variable {M : Type} {api : DeviceManager M} {R : M → M → Prop} {s : MidiServiceController M}

/-! ### Steps that do not call the manager -/

@[simp] theorem deviceManager_addOpenDevices (cs : List ClientId) (d : DeviceId)
    (s : MidiServiceController M) : (s.addOpenDevices cs d).deviceManager = s.deviceManager := by
  unfold addOpenDevices
  induction cs generalizing s with
  | nil => rfl
  | cons c cs ih =>
      rw [List.foldl_cons, ih]
      rfl

@[simp] theorem deviceManager_leaveContext (c : ClientId) (d : DeviceId)
    (s : MidiServiceController M) : (s.leaveContext c d).deviceManager = s.deviceManager := by
  unfold leaveContext
  split
  · rfl
  · dsimp only
    split <;> rfl

@[simp] theorem deviceManager_cleanupDeviceContext (d : DeviceId) (s : MidiServiceController M) :
    (s.cleanupDeviceContext d).deviceManager = s.deviceManager := by
  have hfold : ∀ (count : ClientId → Nat) (cs : List ClientId) (s : MidiServiceController M),
      (s.cleanupClients d count cs).deviceManager = s.deviceManager := by
    intro count cs
    unfold cleanupClients
    induction cs with
    | nil => exact fun _ => rfl
    | cons c cs ih =>
        intro s
        rw [List.foldl_cons, ih]
        unfold cleanupClientResourceForDevice
        split <;> rfl
  unfold cleanupDeviceContext
  split
  · rfl
  · exact hfold _ _ s

@[simp] theorem deviceManager_notifyDeviceChange (change : DeviceChangeType) (d : DeviceId)
    (s : MidiServiceController M) :
    (s.notifyDeviceChange change d).deviceManager = s.deviceManager := by
  cases change with
  | add => rfl
  | removed => exact deviceManager_cleanupDeviceContext d (s.removeFromActiveBleDevices d)

@[simp] theorem deviceManager_handleBleOpenComplete (address : Address) (success : Bool)
    (d : DeviceId) (info : MidiDeviceInfo) (s : MidiServiceController M) :
    (s.handleBleOpenComplete address success d info).state.deviceManager = s.deviceManager := by
  have hregister : ∀ (requests : List PendingBleConnection) (s : MidiServiceController M),
      (s.registerBleDeviceForPendingClientsLocked address d requests).2.deviceManager =
        s.deviceManager := by
    intro requests s
    unfold registerBleDeviceForPendingClientsLocked
    dsimp only
    split
    · exact deviceManager_addOpenDevices _ d _
    · split <;> exact deviceManager_addOpenDevices _ d _
  unfold handleBleOpenComplete
  cases success with
  | false => rfl
  | true => exact hregister _ _

@[simp] theorem deviceManager_createMidiInServer (uid : Uid) (object : RemoteObject)
    (server : MidiInServer) (added : Bool) (s : MidiServiceController M) :
    (s.createMidiInServer uid object server added).state.deviceManager = s.deviceManager := by
  unfold createMidiInServer
  dsimp only
  split
  · rfl
  · split
    · rfl
    · split
      · rfl
      · split <;> rfl

@[simp] theorem deviceManager_finishDestroyMidiClient (s : MidiServiceController M) :
    s.finishDestroyMidiClient.deviceManager = s.deviceManager := by
  unfold finishDestroyMidiClient
  split <;> rfl

/-! ### Sections that close ports -/

theorem closing_closePortInner (h : api.Closing R) (direction : PortDirection) (c : ClientId)
    (d : DeviceId) (p : PortIndex) (s : MidiServiceController M) :
    R s.deviceManager (s.closePortInner api direction c d p).2.deviceManager := by
  unfold closePortInner
  split
  · exact h.refl _
  · split
    · exact h.refl _
    · split
      · exact h.refl _
      · split
        · exact h.refl _
        · dsimp only
          split
          · exact h.closePort direction d p _
          · exact h.refl _

theorem closing_closePort (h : api.Closing R) (direction : PortDirection) (c : ClientId)
    (d : DeviceId) (p : PortIndex) (s : MidiServiceController M) :
    R s.deviceManager (s.closePort api direction c d p).state.deviceManager := by
  unfold closePort
  split
  · exact h.refl _
  · exact closing_closePortInner h direction c d p s

theorem closing_closePorts (h : api.Closing R) (direction : PortDirection) (c : ClientId)
    (d : DeviceId) (ps : List PortIndex) (s : MidiServiceController M) :
    R s.deviceManager (s.closePorts api direction c d ps).deviceManager := by
  unfold closePorts
  induction ps generalizing s with
  | nil => exact h.refl _
  | cons p ps ih =>
      rw [List.foldl_cons]
      exact h.trans (closing_closePortInner h direction c d p s) (ih _)

theorem closing_closePortforDevice (h : api.Closing R) (c : ClientId) (d : DeviceId)
    (s : MidiServiceController M) :
    R s.deviceManager (s.closePortforDevice api c d).deviceManager :=
  h.trans (closing_closePorts h .input c d _ s) (closing_closePorts h .output c d _ _)

theorem closing_closeDevice (h : api.Closing R) (c : ClientId) (d : DeviceId)
    (s : MidiServiceController M) :
    R s.deviceManager (s.closeDevice api c d).state.deviceManager := by
  unfold closeDevice
  split
  · exact h.refl _
  · split
    · exact h.refl _
    · split
      · exact h.refl _
      · rw [deviceManager_leaveContext]
        exact closing_closePortforDevice h c d s

theorem closing_cleanupDeviceForClient (h : api.Closing R) (c : ClientId) (d : DeviceId)
    (s : MidiServiceController M) :
    R s.deviceManager (s.cleanupDeviceForClient api c d).deviceManager := by
  unfold cleanupDeviceForClient
  split
  · exact h.refl _
  · rw [deviceManager_leaveContext]
    exact closing_closePortforDevice h c d s

theorem closing_destroyMidiClient (h : api.Closing R) (c : ClientId)
    (s : MidiServiceController M) :
    R s.deviceManager (s.destroyMidiClient api c).state.deviceManager := by
  have hfold : ∀ (ds : List DeviceId) (s : MidiServiceController M), R s.deviceManager
      (ds.foldl (fun s d => s.cleanupDeviceForClient api c d) s).deviceManager := by
    intro ds
    induction ds with
    | nil => exact fun s => h.refl _
    | cons d ds ih =>
        intro s
        rw [List.foldl_cons]
        exact h.trans (closing_cleanupDeviceForClient h c d s) (ih _)
  have hrecipient : (s.removeDeathRecipient c).deviceManager = s.deviceManager := by
    unfold removeDeathRecipient
    split <;> rfl
  unfold destroyMidiClient
  split
  · exact h.refl _
  · have hcleanup := hfold (s.collectDevicesForClientDestruction c).1 (s.removeDeathRecipient c)
    rw [hrecipient] at hcleanup
    exact hcleanup

/-! ### All sections -/

theorem calling_openDevice (h : api.Calling R) (permitted : Bool) (c : ClientId) (d : DeviceId)
    (s : MidiServiceController M) :
    R s.deviceManager (s.openDevice api permitted c d).state.deviceManager := by
  unfold openDevice
  split
  · exact h.refl _
  · split
    · exact h.refl _
    · split
      · exact h.refl _
      · split
        · split <;> exact h.refl _
        · dsimp only
          split <;> exact h.openDevice d _

theorem calling_openBleDevice (h : api.Calling R) (c : ClientId) (address : Address)
    (callback : RemoteObject) (s : MidiServiceController M) :
    R s.deviceManager (s.openBleDevice api c address callback).state.deviceManager := by
  unfold openBleDevice
  split
  · exact h.refl _
  · split
    · exact h.refl _
    · split
      · next attached hattached =>
          unfold tryAttachToActiveBleDevice at hattached
          split at hattached
          · contradiction
          · split at hattached
            · contradiction
            · cases hattached
              exact h.refl _
      · unfold enqueueBleConnectionRequest
        split
        · exact h.refl _
        · dsimp only
          split <;> exact h.openBleDevice address _

theorem calling_openPort (h : api.Calling R) (direction : PortDirection) (ready : Status)
    (env : PortEnv) (permitted : Bool) (c : ClientId) (d : DeviceId) (p : PortIndex)
    (s : MidiServiceController M) :
    R s.deviceManager (s.openPort api direction ready env permitted c d p).state.deviceManager := by
  unfold openPort
  split
  · exact h.refl _
  · split
    · exact h.refl _
    · split
      · exact h.refl _
      · split
        · exact h.refl _
        · split
          · exact h.refl _
          · split
            · unfold connectToExistingPort
              split
              · exact h.refl _
              · split <;> exact h.refl _
            · unfold createNewPortConnection
              dsimp only
              split
              · exact h.openPort direction d p _
              · unfold emplacePortConnection
                split
                · exact h.trans (h.openPort direction d p _) (h.closePort direction d p _)
                · exact h.openPort direction d p _

/-- Every section leads from its manager by calls. -/
theorem calling_run (h : api.Calling R) (op : ControllerOp M) :
    R s.deviceManager (op.run api s).deviceManager := by
  have hsame : ∀ {t : MidiServiceController M}, t.deviceManager = s.deviceManager →
      R s.deviceManager t.deviceManager := by
    intro t ht
    rw [ht]
    exact h.refl _
  cases op with
  | createMidiInServer uid object server added =>
      exact hsame (deviceManager_createMidiInServer uid object server added s)
  | openDevice permitted c d => exact calling_openDevice h permitted c d s
  | openBleDevice c address callback => exact calling_openBleDevice h c address callback s
  | handleBleOpenComplete address success d info =>
      exact hsame (deviceManager_handleBleOpenComplete address success d info s)
  | openInputPort env permitted c d p => exact calling_openPort h .input _ env permitted c d p s
  | openOutputPort env permitted c d p => exact calling_openPort h .output _ env permitted c d p s
  | closeInputPort c d p => exact closing_closePort h.toClosing .input c d p s
  | closeOutputPort c d p => exact closing_closePort h.toClosing .output c d p s
  | closeDevice c d => exact closing_closeDevice h.toClosing c d s
  | destroyMidiClient c => exact closing_destroyMidiClient h.toClosing c s
  | finishDestroyMidiClient => exact hsame (deviceManager_finishDestroyMidiClient s)
  | notifyDeviceChange change d => exact hsame (deviceManager_notifyDeviceChange change d s)

end MidiServiceController

end MidiFramework.Server
