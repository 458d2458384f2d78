import MidiFramework.Client.DeviceHandle
import MidiFramework.Server.Registry

/-!
# Disconnected devices at the client

A client keeps its handles in a list. `HandleDeviceDisconnect` stops at the
first handle of the device. The service refuses a second `OpenDevice` of one
client, but a second `OpenBleDevice` is answered like the first, and each
answer makes a handle.
-/

namespace MidiFramework.Client

open Foundation MidiFramework.Server

/-- A handle with its address. -/
abbrev Handle := Nat × MidiDevicePrivate

/-- The client, with the address of its next handle. -/
structure MidiClientPrivate where
  clientId : ClientId
  deviceHandlers : List Handle := []
  next : Nat := 0

namespace MidiClientPrivate

def addDeviceHandler (deviceId : DeviceId) (client : MidiClientPrivate) : MidiClientPrivate :=
  { client with
    deviceHandlers := client.deviceHandlers ++ [(client.next, { deviceId := deviceId })]
    next := client.next + 1 }

def find (handle : Nat) (client : MidiClientPrivate) : Option MidiDevicePrivate :=
  (client.deviceHandlers.find? fun h => h.1 == handle).map Prod.snd

/-- A call changes the object of a handle. -/
def update (handle : Nat) (f : MidiDevicePrivate → MidiDevicePrivate)
    (client : MidiClientPrivate) : MidiClientPrivate :=
  { client with
    deviceHandlers :=
      client.deviceHandlers.map fun h => if h.1 = handle then (h.1, f h.2) else h }

def removeDeviceHandler (handle : Nat) (client : MidiClientPrivate) : MidiClientPrivate :=
  { client with deviceHandlers := client.deviceHandlers.filter fun h => h.1 ≠ handle }

def markDeviceInValid (client : MidiClientPrivate) : MidiClientPrivate :=
  { client with deviceHandlers := client.deviceHandlers.map fun h => (h.1, h.2.setInValid) }

/-- The loop of `HandleDeviceDisconnect`. -/
def disconnectFirst (deviceId : DeviceId) : List Handle → List Handle
  | [] => []
  | h :: handlers =>
      if h.2.deviceId = deviceId then (h.1, h.2.setInValid.tombstoneAllPorts) :: handlers
      else h :: disconnectFirst deviceId handlers

def handleDeviceDisconnect (deviceId : DeviceId) (client : MidiClientPrivate) :
    MidiClientPrivate :=
  { client with deviceHandlers := disconnectFirst deviceId client.deviceHandlers }

/-- The client holds a handle of the device. -/
def Holds (client : MidiClientPrivate) (deviceId : DeviceId) : Prop :=
  ∃ h ∈ client.deviceHandlers, h.2.deviceId = deviceId

end MidiClientPrivate

/-- A client and the service, with the answers and the removals on their way to the client, the
removals that did not get to its handles, and whether the client has an `onDeviceChange` callback. -/
structure ClientOfService (M : Type) where
  server : MidiServiceController M
  client : MidiClientPrivate
  answers : List DeviceOpened := []
  removals : List DeviceId := []
  ignored : List DeviceId := []
  onDeviceChange : Bool := true

/-- A section of the service, a change it does not lock, a call of the application or a call of the
service. -/
inductive ClientStep (M : Type)
  | server (op : ControllerOp M)
  | unlocked
  | openDevice (permitted : Bool) (deviceId : DeviceId)
  | openPort (direction : PortDirection) (env : MidiServiceController.PortEnv) (permitted : Bool)
      (handle : Nat) (portIndex : PortIndex) (started : Bool)
  | closePort (direction : PortDirection) (handle : Nat) (portIndex : PortIndex)
  | closeAndRemoveDevice (handle : Nat)
  | notifyDeviceOpened (answer : DeviceOpened)
  | notifyDeviceRemoved (deviceId : DeviceId)
  | filterDeviceRemoved (deviceId : DeviceId)
  | notifyError

namespace ClientOfService

variable {M : Type} (api : DeviceManager M)

/-- The calls of `NotifyDeviceOpened` that a section of the service leaves to do. -/
def answersOf (s : MidiServiceController M) : ControllerOp M → List DeviceOpened
  | .openBleDevice c address callback => (s.openBleDevice api c address callback).answers
  | .handleBleOpenComplete address success d info =>
      (s.handleBleOpenComplete address success d info).answers
  | _ => []

/-- The removal that a section of the service tells the client. -/
def removalsOf (clientId : ClientId) (s : MidiServiceController M) :
    ControllerOp M → List DeviceId
  | .notifyDeviceChange .removed d => if clientId ∈ s.clients then [d] else []
  | _ => []

def serverStep (op : ControllerOp M) (s : ClientOfService M) : ClientOfService M :=
  let own := (answersOf api s.server op).filter fun answer =>
    answer.request.clientId = s.client.clientId
  { s with
    server := op.run api s.server
    answers := s.answers ++ own
    removals := s.removals ++ removalsOf s.client.clientId s.server op }

/-- The handle names the device by the information that `GetDevice` gave. -/
def openDevice (permitted : Bool) (deviceId : DeviceId) (s : ClientOfService M) :
    ClientOfService M :=
  let info := (api.getDeviceForDeviceId deviceId s.server.deviceManager).midiDeviceInfo
  let opened := s.server.openDevice api permitted s.client.clientId deviceId
  { s with
    server := opened.state
    client := if opened.status = .ok then s.client.addDeviceHandler info.deviceId else s.client }

/-- The call of the service in `OpenInputPort` and `OpenOutputPort`. -/
def openServerPort (direction : PortDirection) (env : MidiServiceController.PortEnv)
    (permitted : Bool) (deviceId : DeviceId) (portIndex : PortIndex) (s : ClientOfService M) :
    Locked M :=
  match direction with
  | .input => s.server.openInputPort api env permitted s.client.clientId deviceId portIndex
  | .output => s.server.openOutputPort api env permitted s.client.clientId deviceId portIndex

/-- `OpenInputPort` and `OpenOutputPort` of a handle. An input port whose receiver thread does not
start is closed again. -/
def openPort (direction : PortDirection) (env : MidiServiceController.PortEnv) (permitted : Bool)
    (handle : Nat) (portIndex : PortIndex) (started : Bool) (s : ClientOfService M) :
    ClientOfService M :=
  match s.client.find handle with
  | none => s
  | some device =>
      if portIndex ∈ device.ports direction then s
      else
        let opened := s.openServerPort api direction env permitted device.deviceId portIndex
        if opened.status ≠ .ok then { s with server := opened.state }
        else if direction = .input ∧ !started then
          { s with
            server := (opened.state.closeInputPort api s.client.clientId device.deviceId
              portIndex).state }
        else
          { s with
            server := opened.state
            client := s.client.update handle (·.emplacePort direction portIndex) }

/-- `CloseInputPort` and `CloseOutputPort` of a handle. -/
def closePort (direction : PortDirection) (handle : Nat) (portIndex : PortIndex)
    (s : ClientOfService M) : ClientOfService M :=
  match s.client.find handle with
  | none => s
  | some device =>
      let client := s.client.update handle (·.erasePort direction portIndex)
      if (device.ports direction).lookup portIndex = some .port ∧ device.isValid then
        { s with
          server := (s.server.closePort api direction s.client.clientId device.deviceId
            portIndex).state
          client := client }
      else { s with client := client }

def closeAndRemoveDevice (handle : Nat) (s : ClientOfService M) : ClientOfService M :=
  match s.client.find handle with
  | none => s
  | some device =>
      { s with
        server :=
          if device.isValid then
            (s.server.closeDevice api s.client.clientId device.deviceId).state
          else s.server
        client := s.client.removeDeviceHandler handle }

def notifyDeviceOpened (answer : DeviceOpened) (s : ClientOfService M) : ClientOfService M :=
  { s with
    answers := s.answers.erase answer
    client :=
      if answer.opened then s.client.addDeviceHandler answer.deviceInfo.deviceId else s.client }

/-- The removal gets to `HandleDeviceDisconnect`. -/
def notifyDeviceRemoved (deviceId : DeviceId) (s : ClientOfService M) : ClientOfService M :=
  { s with
    removals := s.removals.erase deviceId
    client := s.client.handleDeviceDisconnect deviceId }

/-- The removal ends before `HandleDeviceDisconnect`. -/
def ignoreDeviceRemoved (deviceId : DeviceId) (s : ClientOfService M) : ClientOfService M :=
  { s with
    removals := s.removals.erase deviceId
    ignored := s.ignored ++ [deviceId] }

/-- `NotifyDeviceChange` of the client's callback, for a removal. -/
def notifyDeviceChange (deviceId : DeviceId) (s : ClientOfService M) : ClientOfService M :=
  if s.onDeviceChange then s.notifyDeviceRemoved deviceId else s.ignoreDeviceRemoved deviceId

/-- What the step does, where it is not a change that the service does not lock. -/
def run : ClientStep M → ClientOfService M → ClientOfService M
  | .server op, s => s.serverStep api op
  | .unlocked, s => s
  | .openDevice permitted d, s => s.openDevice api permitted d
  | .openPort direction env permitted handle p started, s =>
      s.openPort api direction env permitted handle p started
  | .closePort direction handle p, s => s.closePort api direction handle p
  | .closeAndRemoveDevice handle, s => s.closeAndRemoveDevice api handle
  | .notifyDeviceOpened answer, s => s.notifyDeviceOpened answer
  | .notifyDeviceRemoved d, s => s.notifyDeviceChange d
  -- `MidiInServer::NotifyDeviceChange` of a client without the permission for Bluetooth
  | .filterDeviceRemoved d, s => s.ignoreDeviceRemoved d
  | .notifyError, s => { s with client := s.client.markDeviceInValid }

/-- The service calls the client with what is on its way. -/
def Enabled (s : ClientOfService M) : ClientStep M → Prop
  | .notifyDeviceOpened answer => answer ∈ s.answers
  | .notifyDeviceRemoved d | .filterDeviceRemoved d => d ∈ s.removals
  | _ => True

/-- A client of a service, from the construction of both on. -/
def machine : Machine (ClientOfService M) (ClientStep M) where
  init := fun s => ∃ m clientId onDeviceChange,
    s =
      { server := { deviceManager := m }
        client := { clientId := clientId }
        onDeviceChange := onDeviceChange }
  step := fun s l t => s.Enabled l ∧
    match l with
    | .unlocked => ∃ c, Unlocked s.server c ∧ t = { s with server := c }
    | _ => t = run api l s

/-- The service counts the client among the users of the device. -/
def Uses (s : ClientOfService M) (deviceId : DeviceId) : Prop :=
  ∃ context, s.server.deviceClientContexts.lookup deviceId = some context ∧
    s.client.clientId ∈ context.clients

/-- A device of which the client holds a handle is not opened while the service does not count the
client among its users, and no success is answered for it. -/
def SingleHandles (s : ClientOfService M) : ClientStep M → Prop
  | .openDevice _ d =>
      s.client.Holds (api.getDeviceForDeviceId d s.server.deviceManager).midiDeviceInfo.deviceId →
        s.Uses d
  | .notifyDeviceOpened answer =>
      answer.opened = true → ¬s.client.Holds answer.deviceInfo.deviceId
  | _ => True

/-! ### What a step makes of the handles -/

end ClientOfService

namespace MidiClientPrivate

variable {client next : MidiClientPrivate} {handle : Nat} {d : DeviceId} {device : MidiDevicePrivate}

/-- What a handle keeps for good. -/
def key (h : Handle) : Nat × DeviceId := (h.1, h.2.deviceId)

/-- Every handle has an address of its own and is sound. -/
structure Tracked (client : MidiClientPrivate) : Prop where
  addresses : (client.deviceHandlers.map Prod.fst).Nodup
  below : ∀ h ∈ client.deviceHandlers, h.1 < client.next
  sound : ∀ h ∈ client.deviceHandlers, h.2.Sound

/-- Every handle is one of those before. It is not valid again, and it is sound if it was. -/
structure Follows (client client' : MidiClientPrivate) : Prop where
  next : client'.next = client.next
  keys : (client'.deviceHandlers.map key).Sublist (client.deviceHandlers.map key)
  descends : ∀ h' ∈ client'.deviceHandlers, ∃ h ∈ client.deviceHandlers, h.1 = h'.1 ∧
    (h.2.isValid = false → h'.2.isValid = false) ∧ (h.2.Sound → h'.2.Sound)

theorem Follows.refl (client : MidiClientPrivate) : client.Follows client where
  next := rfl
  keys := List.Sublist.refl _
  descends := fun h hh => ⟨h, hh, rfl, id, id⟩

/-- The handles change one by one. -/
theorem follows_map {f : Handle → Handle}
    (hkey : ∀ h ∈ client.deviceHandlers, key (f h) = key h)
    (hvalid : ∀ h ∈ client.deviceHandlers, h.2.isValid = false → (f h).2.isValid = false)
    (hsound : ∀ h ∈ client.deviceHandlers, h.2.Sound → (f h).2.Sound) :
    client.Follows { client with deviceHandlers := client.deviceHandlers.map f } where
  next := rfl
  keys := by
    have hkeys : (client.deviceHandlers.map f).map key = client.deviceHandlers.map key := by
      rw [List.map_map]
      exact List.map_congr_left hkey
    rw [hkeys]
  descends := by
    intro h' hh'
    obtain ⟨h, hh, rfl⟩ := List.mem_map.mp hh'
    exact ⟨h, hh, (congrArg Prod.fst (hkey h hh)).symm, hvalid h hh, hsound h hh⟩

theorem follows_removeDeviceHandler (handle : Nat) (client : MidiClientPrivate) :
    client.Follows (client.removeDeviceHandler handle) where
  next := rfl
  keys := List.filter_sublist.map key
  descends := fun h hh => ⟨h, (List.mem_filter.mp hh).1, rfl, id, id⟩

theorem follows_markDeviceInValid (client : MidiClientPrivate) :
    client.Follows client.markDeviceInValid :=
  follows_map (fun _ _ => rfl) (fun _ _ _ => rfl) fun _ _ h => h.setInValid

theorem Tracked.find (h : client.Tracked) (hfind : client.find handle = some device) :
    ∀ x ∈ client.deviceHandlers, x.1 = handle → x.2 = device := by
  obtain ⟨y, hy, rfl⟩ := Option.map_eq_some_iff.mp hfind
  have haddress : y.1 = handle := by simpa using List.find?_some hy
  intro x hx hxhandle
  have hsame : x = y := List.inj_on_of_nodup_map h.addresses hx (List.mem_of_find?_eq_some hy)
    (hxhandle.trans haddress.symm)
  rw [hsame]

/-- A call on a handle keeps it sound if it does so with the object that was found. -/
theorem Tracked.follows_update (h : client.Tracked) (hfind : client.find handle = some device)
    {f : MidiDevicePrivate → MidiDevicePrivate} (hid : ∀ x, (f x).deviceId = x.deviceId)
    (hvalid : ∀ x, (f x).isValid = x.isValid) (hsound : device.Sound → (f device).Sound) :
    client.Follows (client.update handle f) := by
  apply follows_map
  · intro x _
    split
    · exact Prod.ext rfl (hid x.2)
    · rfl
  · intro x _ hinvalid
    split
    · exact (hvalid x.2).trans hinvalid
    · exact hinvalid
  · intro x hx hx'
    split
    · next hhandle =>
        have hdevice := h.find hfind x hx hhandle
        rw [hdevice] at hx' ⊢
        exact hsound hx'
    · exact hx'

theorem disconnectFirst_follows (d : DeviceId) (handlers : List Handle) :
    (disconnectFirst d handlers).map key = handlers.map key ∧
      ∀ h' ∈ disconnectFirst d handlers, ∃ h ∈ handlers, h.1 = h'.1 ∧
        (h.2.isValid = false → h'.2.isValid = false) ∧ (h.2.Sound → h'.2.Sound) := by
  induction handlers with
  | nil => exact ⟨rfl, fun h' hh' => absurd hh' List.not_mem_nil⟩
  | cons h handlers ih =>
      unfold disconnectFirst
      split
      · refine ⟨rfl, ?_⟩
        intro h' hh'
        rcases List.mem_cons.mp hh' with rfl | hh'
        · exact ⟨h, List.mem_cons_self, rfl, fun _ => rfl, fun hsound => hsound.disconnect.1⟩
        · exact ⟨h', List.mem_cons_of_mem _ hh', rfl, id, id⟩
      · refine ⟨congrArg (key h :: ·) ih.1, ?_⟩
        intro h' hh'
        rcases List.mem_cons.mp hh' with rfl | hh'
        · exact ⟨h', List.mem_cons_self, rfl, id, id⟩
        · obtain ⟨x, hx, hrest⟩ := ih.2 h' hh'
          exact ⟨x, List.mem_cons_of_mem _ hx, hrest⟩

theorem follows_handleDeviceDisconnect (d : DeviceId) (client : MidiClientPrivate) :
    client.Follows (client.handleDeviceDisconnect d) where
  next := rfl
  keys := by
    rw [handleDeviceDisconnect, (disconnectFirst_follows d client.deviceHandlers).1]
  descends := (disconnectFirst_follows d client.deviceHandlers).2

/-- Where no two handles are of one device, the loop reaches the handle of the device. -/
theorem disconnected_disconnectFirst {handlers : List Handle}
    (hsound : ∀ h ∈ handlers, h.2.Sound) (hsingle : (handlers.map fun h => h.2.deviceId).Nodup) :
    ∀ h ∈ disconnectFirst d handlers, h.2.deviceId = d → h.2.Disconnected := by
  induction handlers with
  | nil => exact fun h hh => absurd hh List.not_mem_nil
  | cons x handlers ih =>
      obtain ⟨hnew, hrest⟩ := List.nodup_cons.mp hsingle
      unfold disconnectFirst
      split
      · next hx =>
          intro h hh hd
          rcases List.mem_cons.mp hh with rfl | hh
          · exact (hsound x List.mem_cons_self).disconnect.2
          · exact absurd (List.mem_map.mpr ⟨h, hh, hd.trans hx.symm⟩) hnew
      · next hx =>
          intro h hh hd
          rcases List.mem_cons.mp hh with rfl | hh
          · contradiction
          · exact ih (fun y hy => hsound y (List.mem_cons_of_mem _ hy)) hrest h hh hd

theorem Follows.tracked (h : client.Follows next) (htracked : client.Tracked) : next.Tracked where
  addresses := by
    have hsub := h.keys.map Prod.fst
    rw [List.map_map, List.map_map] at hsub
    exact htracked.addresses.sublist hsub
  below := by
    intro h' hh'
    obtain ⟨x, hx, haddress, _⟩ := h.descends h' hh'
    rw [h.next, ← haddress]
    exact htracked.below x hx
  sound := by
    intro h' hh'
    obtain ⟨x, hx, _, _, hsound⟩ := h.descends h' hh'
    exact hsound (htracked.sound x hx)

theorem Tracked.addDeviceHandler (h : client.Tracked) (d : DeviceId) :
    (client.addDeviceHandler d).Tracked where
  addresses := by
    change ((client.deviceHandlers ++ [(client.next, _)]).map Prod.fst).Nodup
    rw [List.map_append, List.nodup_append]
    refine ⟨h.addresses, List.nodup_singleton _, ?_⟩
    intro a ha b hb hab
    obtain ⟨x, hx, rfl⟩ := List.mem_map.mp ha
    rw [List.mem_singleton.mp hb] at hab
    exact absurd hab (Nat.ne_of_lt (h.below x hx))
  below := by
    intro x hx
    rcases List.mem_append.mp hx with hx | hx
    · exact (h.below x hx).trans (Nat.lt_succ_self _)
    · rw [List.mem_singleton.mp hx]
      exact Nat.lt_succ_self _
  sound := by
    intro x hx
    rcases List.mem_append.mp hx with hx | hx
    · exact h.sound x hx
    · rw [List.mem_singleton.mp hx]
      exact MidiDevicePrivate.sound_new d

/-- The handle with the address, if it is still there, is not valid. -/
structure Dead (client : MidiClientPrivate) (handle : Nat) : Prop where
  old : handle < client.next
  invalid : ∀ h ∈ client.deviceHandlers, h.1 = handle → h.2.isValid = false

theorem Follows.dead (h : client.Follows next) (hdead : client.Dead handle) : next.Dead handle where
  old := by
    rw [h.next]
    exact hdead.old
  invalid := by
    intro h' hh' hhandle
    obtain ⟨x, hx, haddress, hinvalid, _⟩ := h.descends h' hh'
    exact hinvalid (hdead.invalid x hx (haddress.trans hhandle))

theorem Dead.addDeviceHandler (h : client.Dead handle) (d : DeviceId) :
    (client.addDeviceHandler d).Dead handle where
  old := h.old.trans (Nat.lt_succ_self _)
  invalid := by
    intro x hx hhandle
    rcases List.mem_append.mp hx with hx | hx
    · exact h.invalid x hx hhandle
    · rw [List.mem_singleton.mp hx] at hhandle
      exact absurd hhandle.symm (Nat.ne_of_lt h.old)

/-- No two handles are of one device. -/
def Single (client : MidiClientPrivate) : Prop :=
  (client.deviceHandlers.map fun h => h.2.deviceId).Nodup

theorem Follows.single (h : client.Follows next) (hsingle : client.Single) : next.Single := by
  have hsub := h.keys.map Prod.snd
  rw [List.map_map, List.map_map] at hsub
  exact hsingle.sublist hsub

theorem Single.addDeviceHandler (h : client.Single) (hnew : ¬client.Holds d) :
    (client.addDeviceHandler d).Single := by
  unfold Single MidiClientPrivate.addDeviceHandler
  rw [List.map_append, List.nodup_append]
  refine ⟨h, List.nodup_singleton _, ?_⟩
  intro a ha b hb hab
  obtain ⟨x, hx, rfl⟩ := List.mem_map.mp ha
  rw [List.mem_singleton.mp hb] at hab
  exact hnew ⟨x, hx, hab⟩

end MidiClientPrivate

namespace ClientOfService

open MidiClientPrivate

variable {api} {s t : ClientOfService M} {l : ClientStep M}

/-- The service refuses to open a device for a client that uses it. -/
theorem openDevice_of_uses {permitted : Bool} {d : DeviceId} (h : s.Uses d) :
    (s.server.openDevice api permitted s.client.clientId d).status ≠ .ok := by
  obtain ⟨context, hcontext, hmem⟩ := h
  unfold MidiServiceController.openDevice
  rw [hcontext]
  split
  · exact (by decide : Status.invalidClient ≠ Status.ok)
  · split
    · exact (by decide : Status.permissionDenied ≠ Status.ok)
    · split
      · exact (by decide : Status.tooManyOpenDevices ≠ Status.ok)
      · simp only [hmem, if_true]
        exact (by decide : Status.deviceAlreadyOpen ≠ Status.ok)

/-- A call changes one handle after the service has had its turn. -/
theorem openPort_client (htracked : s.client.Tracked) (direction : PortDirection)
    (env : MidiServiceController.PortEnv) (permitted : Bool) (handle : Nat) (p : PortIndex)
    (started : Bool) :
    s.client.Follows (s.openPort api direction env permitted handle p started).client := by
  unfold openPort
  split
  · exact .refl _
  · next device hfind =>
      split
      · exact .refl _
      · next hnew =>
          dsimp only
          split
          · exact .refl _
          · split
            · exact .refl _
            · apply htracked.follows_update hfind
              · cases direction <;> exact fun _ => rfl
              · cases direction <;> exact fun _ => rfl
              · exact fun hsound => hsound.emplacePort direction hnew

theorem closePort_client (htracked : s.client.Tracked) (direction : PortDirection) (handle : Nat)
    (p : PortIndex) : s.client.Follows (s.closePort api direction handle p).client := by
  unfold closePort
  split
  · exact .refl _
  · next device hfind =>
      have hfollows : s.client.Follows (s.client.update handle (·.erasePort direction p)) := by
        apply htracked.follows_update hfind
        · cases direction <;> exact fun _ => rfl
        · cases direction <;> exact fun _ => rfl
        · exact fun hsound => hsound.erasePort direction p
      dsimp only
      split
      · exact hfollows
      · exact hfollows

/-- A step keeps the handles there are, or makes one for a device. -/
theorem step_client (htracked : s.client.Tracked) (hstep : (machine api).step s l t) :
    s.client.Follows t.client ∨
      ∃ d, t.client = s.client.addDeviceHandler d ∧ (s.SingleHandles api l → ¬s.client.Holds d) := by
  cases l with
  | unlocked =>
      obtain ⟨_, c, _, rfl⟩ := hstep
      exact Or.inl (.refl _)
  | server op =>
      obtain ⟨_, rfl⟩ := hstep
      exact Or.inl (.refl _)
  | openDevice permitted d =>
      obtain ⟨_, rfl⟩ := hstep
      by_cases hopened : (s.server.openDevice api permitted s.client.clientId d).status = .ok
      · refine Or.inr ⟨_, if_pos hopened, ?_⟩
        intro hsingle hholds
        exact openDevice_of_uses (hsingle hholds) hopened
      · have hsame : (run api (.openDevice permitted d) s).client = s.client := if_neg hopened
        rw [hsame]
        exact Or.inl (.refl _)
  | openPort direction env permitted handle p started =>
      obtain ⟨_, rfl⟩ := hstep
      exact Or.inl (openPort_client htracked direction env permitted handle p started)
  | closePort direction handle p =>
      obtain ⟨_, rfl⟩ := hstep
      exact Or.inl (closePort_client htracked direction handle p)
  | closeAndRemoveDevice handle =>
      obtain ⟨_, rfl⟩ := hstep
      change s.client.Follows (s.closeAndRemoveDevice api handle).client ∨ _
      unfold closeAndRemoveDevice
      split
      · exact Or.inl (.refl _)
      · exact Or.inl (follows_removeDeviceHandler handle s.client)
  | notifyDeviceOpened answer =>
      obtain ⟨_, rfl⟩ := hstep
      by_cases hopened : answer.opened = true
      · exact Or.inr ⟨_, if_pos hopened, fun hsingle => hsingle hopened⟩
      · have hsame : (run api (.notifyDeviceOpened answer) s).client = s.client := if_neg hopened
        rw [hsame]
        exact Or.inl (.refl _)
  | notifyDeviceRemoved d =>
      obtain ⟨_, rfl⟩ := hstep
      change s.client.Follows (s.notifyDeviceChange d).client ∨ _
      unfold notifyDeviceChange
      split
      · exact Or.inl (follows_handleDeviceDisconnect d s.client)
      · exact Or.inl (.refl _)
  | filterDeviceRemoved d =>
      obtain ⟨_, rfl⟩ := hstep
      exact Or.inl (.refl _)
  | notifyError =>
      obtain ⟨_, rfl⟩ := hstep
      exact Or.inl (follows_markDeviceInValid s.client)

theorem tracked_step (htracked : s.client.Tracked) (hstep : (machine api).step s l t) :
    t.client.Tracked := by
  rcases step_client htracked hstep with hfollows | ⟨d, hadd, _⟩
  · exact hfollows.tracked htracked
  · rw [hadd]
    exact htracked.addDeviceHandler d

theorem tracked_reachable (reach : (machine api).Reachable s) : s.client.Tracked := by
  apply reach.invariant fun s => s.client.Tracked
  · rintro _ ⟨m, clientId, onDeviceChange, rfl⟩
    exact ⟨List.nodup_nil, fun h hh => absurd hh List.not_mem_nil,
      fun h hh => absurd hh List.not_mem_nil⟩
  · exact fun s l t _ htracked _ hstep => tracked_step htracked hstep

theorem single_reachable (reach : (machine api).ReachableWith (SingleHandles api) s) :
    s.client.Single := by
  apply reach.invariant fun s => s.client.Single
  · rintro _ ⟨m, clientId, onDeviceChange, rfl⟩
    exact List.nodup_nil
  · intro s l t hreach hsingle hcond hstep
    rcases step_client (tracked_reachable hreach.reachable) hstep with hfollows | ⟨d, hadd, hnew⟩
    · exact hfollows.single hsingle
    · rw [hadd]
      exact hsingle.addDeviceHandler (hnew hcond)

/-- A handle that is not valid stays so as long as it is there. -/
theorem dead_reachable {handle : Nat} (htracked : s.client.Tracked) (hdead : s.client.Dead handle)
    (reach : ((machine api).startingAt s).Reachable t) :
    t.client.Tracked ∧ t.client.Dead handle := by
  apply reach.invariant fun t => t.client.Tracked ∧ t.client.Dead handle
  · rintro _ rfl
    exact ⟨htracked, hdead⟩
  · rintro u l v _ ⟨hu, hudead⟩ _ hstep
    refine ⟨tracked_step hu hstep, ?_⟩
    rcases step_client hu hstep with hfollows | ⟨d, hadd, _⟩
    · exact hfollows.dead hudead
    · rw [hadd]
      exact hudead.addDeviceHandler d

variable (api) in
/-- When the client has been told that a device is gone, each of its handles is disconnected, and
whatever happens next `Send` and `SendSysEx` on it fail. A call on a handle goes through no null
pointer. -/
structure HandlesFollow (s : ClientOfService M) : Prop where
  disconnected : ∀ d, ∀ h ∈ (s.notifyDeviceRemoved d).client.deviceHandlers, h.2.deviceId = d →
    h.2.Disconnected
  fails : ∀ d, ∀ h ∈ (s.notifyDeviceRemoved d).client.deviceHandlers, h.2.deviceId = d →
    ∀ t, ((machine api).startingAt (s.notifyDeviceRemoved d)).Reachable t →
      ∀ h' ∈ t.client.deviceHandlers, h'.1 = h.1 → ∀ p answer,
        (∃ status ≠ Status.ok, h'.2.send p answer = some status) ∧
          ∃ status ≠ Status.ok, h'.2.sendSysEx p answer = some status
  defined : ∀ h ∈ s.client.deviceHandlers, ∀ p answer,
    (h.2.send p answer).isSome ∧ (h.2.sendSysEx p answer).isSome

theorem handles_follow_disconnection
    (reach : (machine api).ReachableWith (SingleHandles api) s) : s.HandlesFollow api := by
  have htracked := tracked_reachable reach.reachable
  have hdisconnected : ∀ d, ∀ h ∈ (s.notifyDeviceRemoved d).client.deviceHandlers,
      h.2.deviceId = d → h.2.Disconnected :=
    fun d => disconnected_disconnectFirst htracked.sound (single_reachable reach)
  constructor
  · exact hdisconnected
  · intro d h hh hd t ht h' hh' haddress p answer
    have htold : (s.notifyDeviceRemoved d).client.Tracked :=
      (follows_handleDeviceDisconnect d s.client).tracked htracked
    have hdead : (s.notifyDeviceRemoved d).client.Dead h.1 := by
      refine ⟨htold.below h hh, ?_⟩
      intro x hx hsame
      rw [List.inj_on_of_nodup_map htold.addresses hx hh hsame]
      exact (hdisconnected d h hh hd).invalid
    have hinvalid := (dead_reachable htold hdead ht).2.invalid h' hh' haddress
    have hfails : ∃ status ≠ Status.ok, h'.2.callOutputPort p answer = some status := by
      rcases MidiDevicePrivate.callOutputPort_of_invalid hinvalid with hfail | hfail
      · exact ⟨_, by decide, hfail⟩
      · exact ⟨_, by decide, hfail⟩
    exact ⟨hfails, hfails⟩
  · intro h hh p answer
    have hsome : (h.2.callOutputPort p answer).isSome :=
      (htracked.sound h hh).callOutputPort_isSome
    exact ⟨hsome, hsome⟩

/-! ### Two answers for one device -/

open MidiServiceController (openingManager)

/-- The steps are possible one after the other, and each passes the check. -/
def schedules (check : ClientOfService Unit → ClientStep Unit → Bool)
    (s : ClientOfService Unit) : List (ClientStep Unit) → Bool
  | [] => true
  | l :: steps =>
      (match l with
        | .notifyDeviceOpened answer => decide (answer ∈ s.answers)
        | .notifyDeviceRemoved d | .filterDeviceRemoved d => decide (d ∈ s.removals)
        | .unlocked => false
        | _ => true) &&
      check s l && schedules check (run openingManager l s) steps

def after (s : ClientOfService Unit) (steps : List (ClientStep Unit)) : ClientOfService Unit :=
  steps.foldl (fun s l => run openingManager l s) s

theorem reachable_after {cond : ClientOfService Unit → ClientStep Unit → Prop}
    {check : ClientOfService Unit → ClientStep Unit → Bool}
    (hcheck : ∀ s l, check s l = true → cond s l) {s : ClientOfService Unit}
    (reach : (machine openingManager).ReachableWith cond s) {steps : List (ClientStep Unit)}
    (h : schedules check s steps = true) :
    (machine openingManager).ReachableWith cond (after s steps) := by
  induction steps generalizing s with
  | nil => exact reach
  | cons l steps ih =>
      unfold schedules at h
      rw [Bool.and_eq_true, Bool.and_eq_true] at h
      obtain ⟨⟨henabled, hpasses⟩, hrest⟩ := h
      apply ih (reach.step (hcheck s l hpasses) _) hrest
      cases l with
      | unlocked => contradiction
      | notifyDeviceOpened answer =>
          have hsent : answer ∈ s.answers := of_decide_eq_true henabled
          exact ⟨hsent, rfl⟩
      | notifyDeviceRemoved d | filterDeviceRemoved d =>
          have hsent : d ∈ s.removals := of_decide_eq_true henabled
          exact ⟨hsent, rfl⟩
      | _ => exact ⟨trivial, rfl⟩

/-- A client with its service. -/
def beginning : ClientOfService Unit where
  server := { deviceManager := () }
  client := { clientId := 1 }

def keyboard : MidiDeviceInfo :=
  { deviceId := 1001, driverDeviceId := 1, deviceType := .ble, address := "A0" }

/-- The client asks for a device, and the open completes. -/
def openedOnce : List (ClientStep Unit) :=
  [.server (.createMidiInServer 7 0 {} true), .server (.openBleDevice 1 "A0" 0),
    .server (.handleBleOpenComplete "A0" true 1001 keyboard),
    .notifyDeviceOpened ⟨⟨1, 0⟩, true, keyboard⟩]

/-- The client asks again before the open completes, and the device goes. -/
def openedTwice : List (ClientStep Unit) :=
  [.server (.createMidiInServer 7 0 {} true), .server (.openBleDevice 1 "A0" 0),
    .server (.openBleDevice 1 "A0" 1), .server (.handleBleOpenComplete "A0" true 1001 keyboard),
    .notifyDeviceOpened ⟨⟨1, 0⟩, true, keyboard⟩, .notifyDeviceOpened ⟨⟨1, 1⟩, true, keyboard⟩,
    .server (.notifyDeviceChange .removed 1001)]

/-- A check that is enough for single handles. -/
def singleHandles (s : ClientOfService Unit) : ClientStep Unit → Bool
  | .openDevice .. => false
  | .notifyDeviceOpened answer =>
      s.client.deviceHandlers.all fun h => h.2.deviceId != answer.deviceInfo.deviceId
  | _ => true

theorem singleHandles_of_singleHandles (s : ClientOfService Unit) (l : ClientStep Unit)
    (h : s.singleHandles l = true) : s.SingleHandles openingManager l := by
  cases l with
  | openDevice permitted d => contradiction
  | notifyDeviceOpened answer =>
      rintro _ ⟨x, hx, hid⟩
      have hother := List.all_eq_true.mp h x hx
      rw [bne_iff_ne] at hother
      exact hother hid
  | _ => trivial

/-- The client opens a port of each direction. -/
def portsOpened : List (ClientStep Unit) :=
  openedOnce ++ [.openPort .input {} true 0 3 true, .openPort .output {} true 0 4 true]

theorem handles_follow_disconnection_opened :
    (after beginning portsOpened).client.deviceHandlers.map
        (fun h => ((h.2.ports .input).keys, (h.2.ports .output).keys)) = [([3], [4])] ∧
      (after beginning portsOpened).HandlesFollow openingManager := by
  refine ⟨by decide +kernel, ?_⟩
  exact handles_follow_disconnection
    (reachable_after singleHandles_of_singleHandles (.init ⟨(), 1, true, rfl⟩) (by decide +kernel))

/-- The second handle stays valid when the device is gone. -/
theorem handle_left_valid :
    ¬∀ s : ClientOfService Unit, (machine openingManager).Reachable s →
      s.HandlesFollow openingManager := by
  intro h
  have hreach : (machine openingManager).Reachable (after beginning openedTwice) :=
    reachable_after (fun _ _ _ => trivial) (.init ⟨(), 1, true, rfl⟩)
      (by decide +kernel : schedules (fun _ _ => true) beginning openedTwice = true)
  have hhandles : ((after beginning openedTwice).notifyDeviceRemoved
      1001).client.deviceHandlers.map (fun h => (h.2.deviceId, h.2.isValid)) =
        [(1001, false), (1001, true)] := by
    decide +kernel
  have hsecond : (1001, true) ∈ ((after beginning openedTwice).notifyDeviceRemoved
      1001).client.deviceHandlers.map (fun h => (h.2.deviceId, h.2.isValid)) := by
    rw [hhandles]
    decide
  obtain ⟨x, hx, hvalid⟩ := List.mem_map.mp hsecond
  obtain ⟨hid, hisValid⟩ := Prod.mk.inj hvalid
  have hinvalid := ((h _ hreach).disconnected 1001 x hx hid).invalid
  rw [hisValid] at hinvalid
  contradiction

end ClientOfService

end MidiFramework.Client
