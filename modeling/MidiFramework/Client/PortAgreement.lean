import MidiFramework.Client.Disconnection
import MidiFramework.Server.PortHolders

/-!
# The ports of a client on both sides

A client keeps its open ports in its handles, and the service keeps a connection for
each of them. Calls change both sides, and a device that goes takes its ports at the
service first and at the client when the client is told. Between the two the handles
have ports that the service does not know. At all other times both sides have the same
ports.
-/

namespace MidiFramework.Client

open Foundation MidiFramework.Server
open MidiServiceController (portsAt portsOf portsOf_openDevice portsOf_openPort portsOf_closePort
  portsOf_closeDevice portsOf_run portsOf_unlocked openPort_ok)

namespace MidiDevicePrivate

variable {device : MidiDevicePrivate} {direction : PortDirection} {p : PortIndex}

theorem lookup_emplacePort (hnew : p ∉ device.ports direction) (direction' : PortDirection)
    (p' : PortIndex) :
    ((device.emplacePort direction p).ports direction').lookup p' =
      if direction' = direction ∧ p' = p then some .port
      else (device.ports direction').lookup p' := by
  cases direction <;> cases direction' <;>
    simp_all [emplacePort, ports, UnorderedMap.emplace_of_notMem, UnorderedMap.lookup_insert_eq]

theorem lookup_erasePort (device : MidiDevicePrivate) (direction : PortDirection) (p : PortIndex)
    (direction' : PortDirection) (p' : PortIndex) :
    ((device.erasePort direction p).ports direction').lookup p' =
      if direction' = direction ∧ p' = p then none
      else (device.ports direction').lookup p' := by
  cases direction <;> cases direction' <;>
    simp [erasePort, ports, UnorderedMap.lookup_erase_eq]

end MidiDevicePrivate

namespace MidiClientPrivate

variable {client : MidiClientPrivate} {handle : Nat} {device : MidiDevicePrivate} {d : DeviceId}

/-- The ports that are open in a valid handle. -/
def openPorts (client : MidiClientPrivate) : Set PortKey :=
  {key | ∃ h ∈ client.deviceHandlers, h.2.isValid = true ∧ h.2.deviceId = key.1 ∧
    (h.2.ports key.2.1).lookup key.2.2 = some .port}

/-! ### What the calls make of the open ports -/

theorem openPorts_addDeviceHandler (d : DeviceId) (client : MidiClientPrivate) :
    (client.addDeviceHandler d).openPorts = client.openPorts := by
  ext key
  constructor
  · rintro ⟨h, hh, hvalid, hd, hlookup⟩
    rcases List.mem_append.mp hh with hh | hh
    · exact ⟨h, hh, hvalid, hd, hlookup⟩
    · -- A new handle has no ports.
      obtain rfl := List.mem_singleton.mp hh
      obtain ⟨d', direction, p⟩ := key
      cases direction <;> exact absurd (UnorderedMap.mem_of_lookup hlookup) (AList.notMem_empty p)
  · rintro ⟨h, hh, hvalid, hd, hlookup⟩
    exact ⟨h, List.mem_append_left _ hh, hvalid, hd, hlookup⟩

theorem openPorts_markDeviceInValid (client : MidiClientPrivate) :
    client.markDeviceInValid.openPorts = ∅ := by
  rw [Set.eq_empty_iff_forall_notMem]
  rintro key ⟨h, hh, hvalid, _⟩
  obtain ⟨x, _, rfl⟩ := List.mem_map.mp hh
  contradiction

theorem exists_of_find (hfind : client.find handle = some device) :
    (handle, device) ∈ client.deviceHandlers := by
  obtain ⟨⟨address, device'⟩, hsome, rfl⟩ := Option.map_eq_some_iff.mp hfind
  obtain rfl : address = handle := by simpa using List.find?_some hsome
  exact List.mem_of_find?_eq_some hsome

/-- No two handles of one device. -/
theorem Single.eq (h : client.Single) {x y : Handle} (hx : x ∈ client.deviceHandlers)
    (hy : y ∈ client.deviceHandlers) (hd : x.2.deviceId = y.2.deviceId) : x = y :=
  List.inj_on_of_nodup_map h hx hy hd

/-- The ports of a device are those of its only handle. -/
theorem Single.mem_openPorts (h : client.Single) (hfind : client.find handle = some device)
    (direction : PortDirection) (p : PortIndex) :
    (device.deviceId, direction, p) ∈ client.openPorts ↔
      device.isValid = true ∧ (device.ports direction).lookup p = some .port := by
  have hmem := exists_of_find hfind
  constructor
  · rintro ⟨x, hx, hvalid, hd, hlookup⟩
    obtain rfl := h.eq hx hmem hd
    exact ⟨hvalid, hlookup⟩
  · rintro ⟨hvalid, hlookup⟩
    exact ⟨_, hmem, hvalid, rfl, hlookup⟩

/-- A call changes the ports of one handle, which is the only one of its device. -/
theorem openPorts_update (htracked : client.Tracked) (hsingle : client.Single)
    (hfind : client.find handle = some device) {f : MidiDevicePrivate → MidiDevicePrivate}
    (hid : ∀ x, (f x).deviceId = x.deviceId) (key : PortKey) :
    key ∈ (client.update handle f).openPorts ↔
      if key.1 = device.deviceId then
        (f device).isValid = true ∧ ((f device).ports key.2.1).lookup key.2.2 = some .port
      else key ∈ client.openPorts := by
  have hmem := exists_of_find hfind
  have hmap : ∀ {x : Handle}, x ∈ (client.update handle f).deviceHandlers ↔
      ∃ y ∈ client.deviceHandlers, (if y.1 = handle then (y.1, f y.2) else y) = x := List.mem_map
  split
  · next hd =>
      constructor
      · rintro ⟨x, hx, hvalid, hkey, hlookup⟩
        obtain ⟨y, hy, rfl⟩ := hmap.mp hx
        have hyd : y.2.deviceId = device.deviceId := by
          rw [← hd, ← hkey]
          split
          · exact (hid y.2).symm
          · rfl
        obtain rfl := hsingle.eq hy hmem hyd
        rw [if_pos rfl] at hvalid hlookup
        exact ⟨hvalid, hlookup⟩
      · rintro ⟨hvalid, hlookup⟩
        exact ⟨(handle, f device), hmap.mpr ⟨_, hmem, if_pos rfl⟩, hvalid,
          (hid device).trans hd.symm, hlookup⟩
  · next hd =>
      constructor
      · rintro ⟨x, hx, hvalid, hkey, hlookup⟩
        obtain ⟨y, hy, rfl⟩ := hmap.mp hx
        split at hkey
        · next haddress =>
            have hdevice := htracked.find hfind y hy haddress
            exact absurd (hkey.symm.trans ((hid y.2).trans (congrArg _ hdevice))) hd
        · next haddress =>
            rw [if_neg haddress] at hvalid hlookup
            exact ⟨y, hy, hvalid, hkey, hlookup⟩
      · rintro ⟨y, hy, hvalid, hkey, hlookup⟩
        have haddress : y.1 ≠ handle := fun haddress =>
          hd (hkey.symm.trans (congrArg _ (htracked.find hfind y hy haddress)))
        exact ⟨y, hmap.mpr ⟨y, hy, if_neg haddress⟩, hvalid, hkey, hlookup⟩

theorem openPorts_emplacePort (htracked : client.Tracked) (hsingle : client.Single)
    (hfind : client.find handle = some device) {direction : PortDirection} {p : PortIndex}
    (hnew : p ∉ device.ports direction) :
    (client.update handle (·.emplacePort direction p)).openPorts =
      {key | key ∈ client.openPorts ∨
        device.isValid = true ∧ key = (device.deviceId, direction, p)} := by
  ext ⟨d', direction', p'⟩
  rw [openPorts_update htracked hsingle hfind
    (fun x => by cases direction <;> rfl), Set.mem_ofPred_eq]
  dsimp only
  split
  · next hd =>
      subst hd
      rw [hsingle.mem_openPorts hfind]
      have hvalid : (device.emplacePort direction p).isValid = device.isValid := by
        cases direction <;> rfl
      rw [hvalid, MidiDevicePrivate.lookup_emplacePort hnew]
      by_cases hkey : direction' = direction ∧ p' = p
      · simp +contextual [hkey]
      · rw [if_neg hkey]
        simp only [Prod.mk.injEq, hkey, and_false, or_false]
  · next hd =>
      simp [hd]

theorem openPorts_erasePort (htracked : client.Tracked) (hsingle : client.Single)
    (hfind : client.find handle = some device) (direction : PortDirection) (p : PortIndex) :
    (client.update handle (·.erasePort direction p)).openPorts =
      client.openPorts \ {(device.deviceId, direction, p)} := by
  ext ⟨d', direction', p'⟩
  rw [openPorts_update htracked hsingle hfind
    (fun x => by cases direction <;> rfl), Set.mem_sdiff, Set.mem_singleton_iff]
  dsimp only
  split
  · next hd =>
      subst hd
      rw [hsingle.mem_openPorts hfind]
      have hvalid : (device.erasePort direction p).isValid = device.isValid := by
        cases direction <;> rfl
      rw [hvalid, MidiDevicePrivate.lookup_erasePort]
      by_cases hkey : direction' = direction ∧ p' = p
      · simp [hkey]
      · rw [if_neg hkey]
        simp only [Prod.mk.injEq, true_and, hkey, not_false_eq_true, and_true]
  · next hd =>
      simp [hd]

theorem openPorts_removeDeviceHandler (htracked : client.Tracked) (hsingle : client.Single)
    (hfind : client.find handle = some device) :
    (client.removeDeviceHandler handle).openPorts = client.openPorts \ portsAt device.deviceId := by
  have hmem := exists_of_find hfind
  ext key
  constructor
  · rintro ⟨x, hx, hvalid, hkey, hlookup⟩
    obtain ⟨hold, hother⟩ := List.mem_filter.mp hx
    refine ⟨⟨x, hold, hvalid, hkey, hlookup⟩, ?_⟩
    intro hd
    obtain rfl := hsingle.eq hold hmem (hkey.trans hd)
    simp at hother
  · rintro ⟨⟨x, hx, hvalid, hkey, hlookup⟩, hd⟩
    refine ⟨x, List.mem_filter.mpr ⟨hx, ?_⟩, hvalid, hkey, hlookup⟩
    simp only [decide_eq_true_eq]
    intro haddress
    exact hd (hkey.symm.trans (congrArg _ (htracked.find hfind x hx haddress)))

/-- The handles of the other devices stay as they are. -/
theorem mem_disconnectFirst_iff {handlers : List Handle} {x : Handle} (hd : x.2.deviceId ≠ d) :
    x ∈ disconnectFirst d handlers ↔ x ∈ handlers := by
  induction handlers with
  | nil => rfl
  | cons h handlers ih =>
      unfold disconnectFirst
      split
      · next hh =>
          have hx : x ≠ h := fun heq => hd (heq ▸ hh)
          have hx' : x ≠ (h.1, h.2.setInValid.tombstoneAllPorts) := fun heq => hd (heq ▸ hh)
          simp [hx, hx']
      · simp [ih]

theorem openPorts_handleDeviceDisconnect (htracked : client.Tracked) (hsingle : client.Single)
    (d : DeviceId) :
    (client.handleDeviceDisconnect d).openPorts = client.openPorts \ portsAt d := by
  have hgone := disconnected_disconnectFirst (d := d) htracked.sound hsingle
  ext key
  constructor
  · rintro ⟨x, hx, hvalid, hkey, hlookup⟩
    have hd : x.2.deviceId ≠ d := by
      intro hd
      rw [(hgone x hx hd).invalid] at hvalid
      contradiction
    exact ⟨⟨x, (mem_disconnectFirst_iff hd).mp hx, hvalid, hkey, hlookup⟩, fun h => hd (hkey.trans h)⟩
  · rintro ⟨⟨x, hx, hvalid, hkey, hlookup⟩, hd⟩
    have hother : x.2.deviceId ≠ d := fun h => hd (hkey.symm.trans h)
    exact ⟨x, (mem_disconnectFirst_iff hother).mpr hx, hvalid, hkey, hlookup⟩

end MidiClientPrivate

namespace ClientOfService

open MidiClientPrivate

variable {M : Type} {api : DeviceManager M} {s t : ClientOfService M} {l : ClientStep M}

/-- The ports the service keeps for the client. -/
def servedPorts (s : ClientOfService M) : Set PortKey := s.server.portsOf s.client.clientId

/-- The client calls the service about devices and ports through its handles only, and does not end. -/
def OwnCalls (s : ClientOfService M) : ClientStep M → Prop
  | .server op => ¬op.ByHandlesOf s.client.clientId
  | _ => True

variable (api) in
/-- The client does not become a user of a device of which it has a handle left, or of which it has
still to be told that it is gone. -/
def NoReturn (s : ClientOfService M) (l : ClientStep M) : Prop :=
  ∀ d, s.client.Holds d ∨ d ∈ s.removals → (run api l s).Uses d → s.Uses d

/-! ### The service of a client -/

theorem server_run {server : MidiServiceController M}
    (reach : (controllerMachine api).Reachable server) (op : ControllerOp M) :
    (controllerMachine api).Reachable (op.run api server) :=
  reach.step (l := some op) trivial rfl

/-- The state that a call of the service leaves is one of the service's own. -/
theorem server_openServerPort (reach : (controllerMachine api).Reachable s.server)
    (direction : PortDirection) (env : MidiServiceController.PortEnv) (permitted : Bool)
    (d : DeviceId) (p : PortIndex) :
    (controllerMachine api).Reachable (s.openServerPort api direction env permitted d p).state := by
  cases direction with
  | input =>
      exact server_run reach (.openInputPort env permitted s.client.clientId d p)
  | output =>
      exact server_run reach (.openOutputPort env permitted s.client.clientId d p)

theorem server_closePort {server : MidiServiceController M}
    (reach : (controllerMachine api).Reachable server) (direction : PortDirection) (c : ClientId)
    (d : DeviceId) (p : PortIndex) :
    (controllerMachine api).Reachable (server.closePort api direction c d p).state := by
  cases direction with
  | input => exact server_run reach (.closeInputPort c d p)
  | output => exact server_run reach (.closeOutputPort c d p)

theorem server_step (reach : (controllerMachine api).Reachable s.server)
    (hstep : (machine api).step s l t) : (controllerMachine api).Reachable t.server := by
  cases l with
  | unlocked =>
      obtain ⟨_, c, hunlocked, rfl⟩ := hstep
      exact reach.step (l := none) trivial hunlocked
  | server op =>
      obtain ⟨_, rfl⟩ := hstep
      exact server_run reach op
  | openDevice permitted d =>
      obtain ⟨_, rfl⟩ := hstep
      exact server_run reach (.openDevice permitted s.client.clientId d)
  | openPort direction env permitted handle p started =>
      obtain ⟨_, rfl⟩ := hstep
      change (controllerMachine api).Reachable
        (s.openPort api direction env permitted handle p started).server
      unfold openPort
      split
      · exact reach
      next device hfind =>
      split
      · exact reach
      have hopened := server_openServerPort reach direction env permitted device.deviceId p
      dsimp only
      split
      · exact hopened
      split
      · exact server_closePort hopened .input s.client.clientId device.deviceId p
      · exact hopened
  | closePort direction handle p =>
      obtain ⟨_, rfl⟩ := hstep
      change (controllerMachine api).Reachable (s.closePort api direction handle p).server
      unfold closePort
      split
      · exact reach
      next device hfind =>
      dsimp only
      split
      · exact server_closePort reach direction s.client.clientId device.deviceId p
      · exact reach
  | closeAndRemoveDevice handle =>
      obtain ⟨_, rfl⟩ := hstep
      change (controllerMachine api).Reachable (s.closeAndRemoveDevice api handle).server
      unfold closeAndRemoveDevice
      split
      · exact reach
      next device hfind =>
      dsimp only
      split
      · exact server_run reach (.closeDevice s.client.clientId device.deviceId)
      · exact reach
  | notifyDeviceOpened answer =>
      obtain ⟨_, rfl⟩ := hstep
      exact reach
  | notifyDeviceRemoved d =>
      obtain ⟨_, rfl⟩ := hstep
      change (controllerMachine api).Reachable (s.notifyDeviceChange d).server
      unfold notifyDeviceChange
      split <;> exact reach
  | filterDeviceRemoved d =>
      obtain ⟨_, rfl⟩ := hstep
      exact reach
  | notifyError =>
      obtain ⟨_, rfl⟩ := hstep
      exact reach

theorem server_reachable (reach : (machine api).Reachable s) :
    (controllerMachine api).Reachable s.server := by
  apply reach.invariant fun s => (controllerMachine api).Reachable s.server
  · rintro _ ⟨m, clientId, onDeviceChange, rfl⟩
    exact .init ⟨m, rfl⟩
  · exact fun s l t _ hserver _ hstep => server_step hserver hstep

/-- What every step needs to know about the state before. -/
structure Settled (api : DeviceManager M) (s : ClientOfService M) : Prop where
  server : (controllerMachine api).Reachable s.server
  tracked : s.client.Tracked
  single : s.client.Single

namespace Settled

theorem accounted (h : s.Settled api) : s.server.Accounted :=
  MidiServiceController.accounted_reachable api h.server

theorem consistent (h : s.Settled api) : s.server.registry.Consistent :=
  MidiServiceController.consistent_reachable api h.server

theorem mem_clients (h : s.Settled api) {key : PortKey} (hkey : key ∈ s.servedPorts) :
    s.client.clientId ∈ s.server.clients := by
  have huser := h.accounted.mem_users hkey
  exact h.consistent.registered key.1 (MidiServiceController.kept_of_mem_users huser) _ huser

theorem live (h : s.Settled api) (hne : s.servedPorts ≠ ∅) : s.client.clientId ∈ s.server.clients := by
  obtain ⟨key, hkey⟩ := Set.nonempty_iff_ne_empty.mpr hne
  exact h.mem_clients hkey

end Settled

theorem settled_reachable (reach : (machine api).ReachableWith (SingleHandles api) s) :
    s.Settled api where
  server := server_reachable reach.reachable
  tracked := tracked_reachable reach.reachable
  single := single_reachable reach

/-! ### What a step does to the ports -/

/-- The client still has a handle of the device that is not valid, or it has still to be told that
the device is gone. -/
def Gone (s : ClientOfService M) (d : DeviceId) : Prop :=
  d ∈ s.removals ∨ ∃ h ∈ s.client.deviceHandlers, h.2.deviceId = d ∧ h.2.isValid = false

/-- What a step does to the ports of the two sides and to the removals on their way. -/
inductive PortMove (s t : ClientOfService M) : ClientStep M → Prop
  | keep {l : ClientStep M} (hopen : t.client.openPorts = s.client.openPorts)
      (hserved : t.servedPorts = s.servedPorts) (hremovals : t.removals = s.removals) :
      PortMove s t l
  | opens {l : ClientStep M} (key : PortKey) (valid : Prop)
      (hopen : t.client.openPorts = {k | k ∈ s.client.openPorts ∨ valid ∧ k = key})
      (hserved : t.servedPorts = insert key s.servedPorts) (hremovals : t.removals = s.removals)
      (husers : s.Uses key.1) (hinvalid : ¬valid → s.Gone key.1) : PortMove s t l
  | closes {l : ClientStep M} (keys : Set PortKey)
      (hopen : t.client.openPorts = s.client.openPorts \ keys)
      (hserved : t.servedPorts = s.servedPorts \ keys) (hremovals : t.removals = s.removals) :
      PortMove s t l
  | removed {l : ClientStep M} (d : DeviceId) (hopen : t.client.openPorts = s.client.openPorts)
      (hserved : t.servedPorts = s.servedPorts \ portsAt d)
      (hremovals : ∀ d' ∈ s.removals, d' ∈ t.removals)
      (htold : ∀ key ∈ s.servedPorts, key.1 = d → d ∈ t.removals) : PortMove s t l
  | told {l : ClientStep M} (d : DeviceId) (hd : d ∈ s.removals)
      (hopen : t.client.openPorts = s.client.openPorts \ portsAt d)
      (hserved : t.servedPorts = s.servedPorts) (hremovals : t.removals = s.removals.erase d) :
      PortMove s t l
  | ignored {l : ClientStep M} (d : DeviceId) (hopen : t.client.openPorts = s.client.openPorts)
      (hserved : t.servedPorts = s.servedPorts) (hremovals : t.removals = s.removals.erase d)
      (hignored : d ∈ t.ignored) : PortMove s t l
  | failed (hopen : t.client.openPorts = ∅) : PortMove s t .notifyError

theorem portMove_server (h : s.Settled api) {op : ControllerOp M}
    (hop : ¬op.ByHandlesOf s.client.clientId) :
    PortMove s (s.serverStep api op) (.server op) := by
  have hrun := portsOf_run api h.consistent h.accounted hop
  have hkeep : op.removes = ∅ → removalsOf s.client.clientId s.server op = [] →
      PortMove s (s.serverStep api op) (.server op) := by
    intro hremoves hremovals
    refine .keep rfl ?_ ?_
    · apply Eq.trans hrun
      simp [hremoves, servedPorts]
    · change s.removals ++ removalsOf s.client.clientId s.server op = s.removals
      rw [hremovals, List.append_nil]
  cases op with
  | notifyDeviceChange change d =>
      cases change with
      | add => exact hkeep rfl rfl
      | removed =>
          refine .removed d rfl hrun ?_ ?_
          · exact fun d' hd' => List.mem_append_left _ hd'
          · intro key hkey _
            apply List.mem_append_right
            change d ∈ if s.client.clientId ∈ s.server.clients then [d] else []
            rw [if_pos (h.mem_clients hkey)]
            exact List.mem_singleton_self d
  | _ => exact hkeep rfl rfl

theorem openServerPort_ok {direction : PortDirection} {env : MidiServiceController.PortEnv}
    {permitted : Bool} {d : DeviceId} {p : PortIndex}
    (hok : (s.openServerPort api direction env permitted d p).status = .ok) :
    s.Uses d ∧ (d, direction, p) ∉ s.servedPorts := by
  cases direction with
  | input => exact openPort_ok api hok
  | output => exact openPort_ok api hok

theorem portsOf_openServerPort (api : DeviceManager M) (s : ClientOfService M)
    (direction : PortDirection) (env : MidiServiceController.PortEnv) (permitted : Bool)
    (d : DeviceId) (p : PortIndex) :
    (s.openServerPort api direction env permitted d p).state.portsOf s.client.clientId =
      {key | key ∈ s.servedPorts ∨
        (s.openServerPort api direction env permitted d p).status = .ok ∧
          key = (d, direction, p)} := by
  cases direction with
  | input => exact portsOf_openPort api .input _ env permitted p
  | output => exact portsOf_openPort api .output _ env permitted p

theorem portMove_openPort (h : s.Settled api) (direction : PortDirection)
    (env : MidiServiceController.PortEnv) (permitted : Bool) (handle : Nat) (p : PortIndex)
    (started : Bool) :
    PortMove s (s.openPort api direction env permitted handle p started)
      (.openPort direction env permitted handle p started) := by
  unfold openPort
  split
  · exact .keep rfl rfl rfl
  next device hfind =>
  split
  · exact .keep rfl rfl rfl
  next hnew =>
  have hports := portsOf_openServerPort api s direction env permitted device.deviceId p
  have hreach := server_openServerPort h.server direction env permitted device.deviceId p
  dsimp only
  split
  · next hrefused =>
      refine .keep rfl ?_ rfl
      apply Eq.trans hports
      simp [hrefused]
  next hok =>
  rw [not_not] at hok
  obtain ⟨husers, hnotServed⟩ := openServerPort_ok hok
  have hopened : (s.openServerPort api direction env permitted device.deviceId p).state.portsOf
      s.client.clientId = insert (device.deviceId, direction, p) s.servedPorts := by
    rw [hports, Set.insert_def]
    ext key
    simp [hok, or_comm]
  split
  · next hrollback =>
      -- The port is closed again, and the service keeps what it kept.
      obtain rfl := hrollback.1
      have hlive : s.client.clientId ∈ (s.openServerPort api .input env permitted device.deviceId
          p).state.clients := by
        have haccounted := MidiServiceController.accounted_reachable api hreach
        have hconsistent := MidiServiceController.consistent_reachable api hreach
        have hkey : (device.deviceId, PortDirection.input, p) ∈
            (s.openServerPort api .input env permitted device.deviceId p).state.portsOf
              s.client.clientId := hopened ▸ Set.mem_insert _ _
        have huser := haccounted.mem_users hkey
        exact hconsistent.registered _ (MidiServiceController.kept_of_mem_users huser) _ huser
      refine .keep rfl ?_ rfl
      have hclosed := portsOf_closePort api (MidiServiceController.accounted_reachable api hreach)
        (fun _ => hlive) .input device.deviceId p
      apply Eq.trans hclosed
      rw [hopened, Set.insert_sdiff_of_mem _ (Set.mem_singleton _),
        Set.sdiff_singleton_eq_self hnotServed]
  · have hopen := openPorts_emplacePort h.tracked h.single hfind hnew
    refine .opens (device.deviceId, direction, p) (device.isValid = true) hopen hopened rfl husers ?_
    intro hinvalid
    exact Or.inr ⟨_, exists_of_find hfind, rfl, Bool.eq_false_iff.mpr hinvalid⟩

theorem portMove_closePort (h : s.Settled api) (direction : PortDirection) (handle : Nat)
    (p : PortIndex) :
    PortMove s (s.closePort api direction handle p) (.closePort direction handle p) := by
  unfold closePort
  split
  · exact .keep rfl rfl rfl
  next device hfind =>
  have hopen := openPorts_erasePort h.tracked h.single hfind direction p
  dsimp only
  split
  · exact .closes {(device.deviceId, direction, p)} hopen
      (portsOf_closePort api h.accounted h.live direction device.deviceId p) rfl
  · next hnot =>
      refine .keep (hopen.trans (Set.sdiff_singleton_eq_self ?_)) rfl rfl
      rw [h.single.mem_openPorts hfind, and_comm]
      exact hnot

theorem portMove_closeAndRemoveDevice (h : s.Settled api) (handle : Nat) :
    PortMove s (s.closeAndRemoveDevice api handle) (.closeAndRemoveDevice handle) := by
  unfold closeAndRemoveDevice
  split
  · exact .keep rfl rfl rfl
  next device hfind =>
  have hopen := openPorts_removeDeviceHandler h.tracked h.single hfind
  by_cases hvalid : device.isValid = true
  · refine .closes (portsAt device.deviceId) hopen ?_ rfl
    rw [if_pos hvalid]
    exact portsOf_closeDevice api h.accounted h.live device.deviceId
  · refine .keep (hopen.trans ?_) ?_ rfl
    · -- A handle that is not valid has no open ports to lose.
      apply Disjoint.sdiff_eq_left
      rw [Set.disjoint_left]
      rintro ⟨d, direction, p⟩ hkey rfl
      exact hvalid ((h.single.mem_openPorts hfind direction p).mp hkey).1
    · rw [if_neg hvalid]
      rfl

theorem portMove_step (h : s.Settled api) (hown : s.OwnCalls l) (hstep : (machine api).step s l t) :
    PortMove s t l := by
  cases l with
  | unlocked =>
      obtain ⟨_, c, hunlocked, rfl⟩ := hstep
      exact .keep rfl (portsOf_unlocked hunlocked _) rfl
  | server op =>
      obtain ⟨_, rfl⟩ := hstep
      exact portMove_server h hown
  | openDevice permitted d =>
      obtain ⟨_, rfl⟩ := hstep
      refine .keep ?_ ?_ rfl
      · change MidiClientPrivate.openPorts (if _ then _ else _) = _
        split
        · exact openPorts_addDeviceHandler _ _
        · rfl
      · have hclient : (run api (.openDevice permitted d) s).client.clientId = s.client.clientId := by
          change MidiClientPrivate.clientId (if _ then _ else _) = _
          split <;> rfl
        rw [servedPorts, hclient]
        exact portsOf_openDevice api permitted s.client.clientId d
  | openPort direction env permitted handle p started =>
      obtain ⟨_, rfl⟩ := hstep
      exact portMove_openPort h direction env permitted handle p started
  | closePort direction handle p =>
      obtain ⟨_, rfl⟩ := hstep
      exact portMove_closePort h direction handle p
  | closeAndRemoveDevice handle =>
      obtain ⟨_, rfl⟩ := hstep
      exact portMove_closeAndRemoveDevice h handle
  | notifyDeviceOpened answer =>
      obtain ⟨_, rfl⟩ := hstep
      refine .keep ?_ ?_ rfl
      · change MidiClientPrivate.openPorts (if _ then _ else _) = _
        split
        · exact openPorts_addDeviceHandler _ _
        · rfl
      · have hclient : (run api (.notifyDeviceOpened answer) s).client.clientId =
            s.client.clientId := by
          change MidiClientPrivate.clientId (if _ then _ else _) = _
          split <;> rfl
        rw [servedPorts, hclient]
        rfl
  | notifyDeviceRemoved d =>
      obtain ⟨hd, rfl⟩ := hstep
      change PortMove s (s.notifyDeviceChange d) _
      unfold notifyDeviceChange
      split
      · exact .told d hd (openPorts_handleDeviceDisconnect h.tracked h.single d) rfl rfl
      · exact .ignored d rfl rfl rfl (List.mem_append_right _ (List.mem_singleton_self d))
  | filterDeviceRemoved d =>
      obtain ⟨_, rfl⟩ := hstep
      exact .ignored d rfl rfl rfl (List.mem_append_right _ (List.mem_singleton_self d))
  | notifyError =>
      obtain ⟨_, rfl⟩ := hstep
      exact .failed (openPorts_markDeviceInValid s.client)

/-! ### Devices that are gone -/

/-- A call that leaves the validity of the handles alone makes no handle invalid. -/
theorem gone_update {handle : Nat} {f : MidiDevicePrivate → MidiDevicePrivate} {d : DeviceId}
    (hgone : t.Gone d) (hclient : t.client = s.client.update handle f)
    (hremovals : t.removals = s.removals) (hid : ∀ x, (f x).deviceId = x.deviceId)
    (hvalid : ∀ x, (f x).isValid = x.isValid) : s.Gone d := by
  unfold Gone at hgone
  rw [hclient, hremovals] at hgone
  apply hgone.imp_right
  rintro ⟨x, hx, hd, hinvalid⟩
  obtain ⟨y, hy, rfl⟩ := List.mem_map.mp hx
  refine ⟨y, hy, ?_⟩
  split at hd
  · next haddress =>
      rw [if_pos haddress] at hinvalid
      exact ⟨(hid y.2).symm.trans hd, (hvalid y.2).symm.trans hinvalid⟩
  · next haddress =>
      rw [if_neg haddress] at hinvalid
      exact ⟨hd, hinvalid⟩

theorem gone_addDeviceHandler {d d' : DeviceId} (hgone : t.Gone d)
    (hclient : t.client = s.client.addDeviceHandler d') (hremovals : t.removals = s.removals) :
    s.Gone d := by
  unfold Gone at hgone
  rw [hclient, hremovals] at hgone
  apply hgone.imp_right
  rintro ⟨x, hx, hd, hinvalid⟩
  rcases List.mem_append.mp hx with hx | hx
  · exact ⟨x, hx, hd, hinvalid⟩
  · obtain rfl := List.mem_singleton.mp hx
    contradiction

theorem gone_serverStep {op : ControllerOp M} {d : DeviceId}
    (hgone : (s.serverStep api op).Gone d) : s.Gone d ∨ ¬(s.serverStep api op).Uses d := by
  rcases hgone with hremoval | hhandle
  · rcases List.mem_append.mp hremoval with hold | hnew
    · exact Or.inl (Or.inl hold)
    · right
      cases op with
      | notifyDeviceChange change d' =>
          cases change with
          | add => contradiction
          | removed =>
              have hd : d = d' := by
                change d ∈ (if _ then _ else _) at hnew
                split at hnew
                · exact List.mem_singleton.mp hnew
                · contradiction
              subst hd
              rintro ⟨context, hcontext, _⟩
              have hnone := MidiServiceController.lookup_cleanupDeviceContext d
                (s.server.removeFromActiveBleDevices d)
              exact absurd (hnone.symm.trans hcontext) (by simp)
      | _ => contradiction
  · exact Or.inl (Or.inr hhandle)

theorem gone_openPort {direction : PortDirection} {env : MidiServiceController.PortEnv}
    {permitted : Bool} {handle : Nat} {p : PortIndex} {started : Bool} {d : DeviceId}
    (hgone : (s.openPort api direction env permitted handle p started).Gone d) : s.Gone d := by
  unfold openPort at hgone
  split at hgone
  · exact hgone
  split at hgone
  · exact hgone
  dsimp only at hgone
  split at hgone
  · exact hgone
  split at hgone
  · exact hgone
  · apply gone_update hgone rfl rfl
    · cases direction <;> exact fun _ => rfl
    · cases direction <;> exact fun _ => rfl

theorem gone_closePort {direction : PortDirection} {handle : Nat} {p : PortIndex} {d : DeviceId}
    (hgone : (s.closePort api direction handle p).Gone d) : s.Gone d := by
  have hid : ∀ x : MidiDevicePrivate, (x.erasePort direction p).deviceId = x.deviceId := by
    cases direction <;> exact fun _ => rfl
  have hvalid : ∀ x : MidiDevicePrivate, (x.erasePort direction p).isValid = x.isValid := by
    cases direction <;> exact fun _ => rfl
  unfold closePort at hgone
  split at hgone
  · exact hgone
  dsimp only at hgone
  split at hgone
  · exact gone_update hgone rfl rfl hid hvalid
  · exact gone_update hgone rfl rfl hid hvalid

/-- A removal makes its own handle invalid at most, and its device was gone already. -/
theorem gone_notifyDeviceChange {d d' : DeviceId} (hremoved : d' ∈ s.removals)
    (hgone : (s.notifyDeviceChange d').Gone d) : s.Gone d := by
  unfold notifyDeviceChange at hgone
  split at hgone
  · rcases hgone with hremoval | ⟨x, hx, hd, hinvalid⟩
    · exact Or.inl (List.mem_of_mem_erase hremoval)
    · by_cases hsame : d = d'
      · exact Or.inl (hsame ▸ hremoved)
      · have hother : x.2.deviceId ≠ d' := fun h => hsame (hd.symm.trans h)
        exact Or.inr ⟨x, (mem_disconnectFirst_iff hother).mp hx, hd, hinvalid⟩
  · exact hgone.imp_left List.mem_of_mem_erase

/-- Only the service makes a device go, and it has no users then. -/
theorem gone_step (hstep : (machine api).step s l t) (hl : l ≠ .notifyError) {d : DeviceId}
    (hgone : t.Gone d) : s.Gone d ∨ ¬t.Uses d := by
  cases l with
  | unlocked =>
      obtain ⟨_, c, _, rfl⟩ := hstep
      exact Or.inl hgone
  | server op =>
      obtain ⟨_, rfl⟩ := hstep
      exact gone_serverStep hgone
  | openDevice permitted d' =>
      obtain ⟨_, rfl⟩ := hstep
      left
      by_cases hopened : (s.server.openDevice api permitted s.client.clientId d').status = .ok
      · exact gone_addDeviceHandler hgone (if_pos hopened) rfl
      · have hsame : (run api (.openDevice permitted d') s).client = s.client := if_neg hopened
        rw [Gone, hsame] at hgone
        exact hgone
  | openPort direction env permitted handle p started =>
      obtain ⟨_, rfl⟩ := hstep
      exact Or.inl (gone_openPort hgone)
  | closePort direction handle p =>
      obtain ⟨_, rfl⟩ := hstep
      exact Or.inl (gone_closePort hgone)
  | closeAndRemoveDevice handle =>
      obtain ⟨_, rfl⟩ := hstep
      left
      change (s.closeAndRemoveDevice api handle).Gone d at hgone
      unfold closeAndRemoveDevice at hgone
      split at hgone
      · exact hgone
      · apply hgone.imp_right
        rintro ⟨x, hx, hd⟩
        exact ⟨x, (List.mem_filter.mp hx).1, hd⟩
  | notifyDeviceOpened answer =>
      obtain ⟨_, rfl⟩ := hstep
      left
      by_cases hopened : answer.opened = true
      · exact gone_addDeviceHandler hgone (if_pos hopened) rfl
      · have hsame : (run api (.notifyDeviceOpened answer) s).client = s.client := if_neg hopened
        rw [Gone, hsame] at hgone
        exact hgone
  | notifyDeviceRemoved d' =>
      obtain ⟨hd', rfl⟩ := hstep
      exact Or.inl (gone_notifyDeviceChange hd' hgone)
  | filterDeviceRemoved d' =>
      obtain ⟨_, rfl⟩ := hstep
      left
      exact hgone.imp_left List.mem_of_mem_erase
  | notifyError => exact absurd rfl hl

/-- The users of a device after a step, where the step is not one that the service does not lock. -/
theorem uses_step (hstep : (machine api).step s l t) (hreturn : s.NoReturn api l) {d : DeviceId}
    (hgone : s.Gone d) (huses : t.Uses d) : s.Uses d := by
  have hold : s.client.Holds d ∨ d ∈ s.removals := by
    rcases hgone with hremoval | ⟨x, hx, hd, _⟩
    · exact Or.inr hremoval
    · exact Or.inl ⟨x, hx, hd⟩
  cases l with
  | unlocked =>
      obtain ⟨_, c, hunlocked, rfl⟩ := hstep
      have hsame := MidiServiceController.registry_unlocked hunlocked
      change s.client.clientId ∈ c.registry.users d at huses
      rwa [hsame] at huses
  | _ =>
      obtain ⟨_, rfl⟩ := hstep
      exact hreturn d hold huses

/-! ### Both sides -/

/-- A removal that was ignored stays so. -/
theorem ignored_step (hstep : (machine api).step s l t) : s.ignored ⊆ t.ignored := by
  cases l with
  | unlocked =>
      obtain ⟨_, c, _, rfl⟩ := hstep
      exact List.Subset.refl _
  | openPort direction env permitted handle p started =>
      obtain ⟨_, rfl⟩ := hstep
      change s.ignored ⊆ (s.openPort api direction env permitted handle p started).ignored
      unfold openPort
      split
      · exact List.Subset.refl _
      split
      · exact List.Subset.refl _
      dsimp only
      split
      · exact List.Subset.refl _
      split <;> exact List.Subset.refl _
  | closePort direction handle p =>
      obtain ⟨_, rfl⟩ := hstep
      change s.ignored ⊆ (s.closePort api direction handle p).ignored
      unfold closePort
      split
      · exact List.Subset.refl _
      dsimp only
      split <;> exact List.Subset.refl _
  | closeAndRemoveDevice handle =>
      obtain ⟨_, rfl⟩ := hstep
      change s.ignored ⊆ (s.closeAndRemoveDevice api handle).ignored
      unfold closeAndRemoveDevice
      split <;> exact List.Subset.refl _
  | notifyDeviceRemoved d =>
      obtain ⟨_, rfl⟩ := hstep
      change s.ignored ⊆ (s.notifyDeviceChange d).ignored
      unfold notifyDeviceChange
      split
      · exact List.Subset.refl _
      · exact List.subset_append_left _ _
  | filterDeviceRemoved d =>
      obtain ⟨_, rfl⟩ := hstep
      exact List.subset_append_left _ _
  | _ =>
      obtain ⟨_, rfl⟩ := hstep
      exact List.Subset.refl _

/-- The device is gone and its handles have not been told, and perhaps will not be. -/
def Untold (s : ClientOfService M) (d : DeviceId) : Prop := d ∈ s.removals ∨ d ∈ s.ignored

instance (s : ClientOfService M) (d : DeviceId) : Decidable (s.Uses d) :=
  decidable_of_iff ((s.server.deviceClientContexts.lookup d).any fun context =>
    decide (s.client.clientId ∈ context.clients)) (by simp [Uses, Option.any_eq_true])

/-- A check that is enough for calls through handles. -/
def ownCalls (_ : ClientOfService Unit) : ClientStep Unit → Bool
  | .server (.createMidiInServer ..) | .server (.openBleDevice ..)
  | .server (.handleBleOpenComplete ..) | .server (.notifyDeviceChange ..) => true
  | .server _ | .notifyError => false
  | _ => true

theorem ownCalls_of_ownCalls {s : ClientOfService Unit} {l : ClientStep Unit}
    (h : s.ownCalls l = true) : s.OwnCalls l ∧ l ≠ .notifyError := by
  cases l with
  | server op =>
      constructor
      · cases op with
        | createMidiInServer | openBleDevice | handleBleOpenComplete | notifyDeviceChange => exact id
        | _ => contradiction
      · simp
  | notifyError => contradiction
  | _ => exact ⟨trivial, by simp⟩

/-- A check that is enough for devices that do not come back. -/
def noReturn (s : ClientOfService Unit) (l : ClientStep Unit) : Bool :=
  (s.client.deviceHandlers.map (fun h => h.2.deviceId) ++ s.removals).all fun d =>
    !decide ((run MidiServiceController.openingManager l s).Uses d) || decide (s.Uses d)

theorem noReturn_of_noReturn {s : ClientOfService Unit} {l : ClientStep Unit}
    (h : s.noReturn l = true) : s.NoReturn MidiServiceController.openingManager l := by
  intro d hd huses
  have hmem : d ∈ s.client.deviceHandlers.map (fun h => h.2.deviceId) ++ s.removals := by
    rcases hd with ⟨x, hx, hid⟩ | hremoval
    · exact List.mem_append_left _ (List.mem_map.mpr ⟨x, hx, hid⟩)
    · exact List.mem_append_right _ hremoval
  have hone := List.all_eq_true.mp h d hmem
  simpa [huses] using hone

/-- The client opens a port of the device. -/
def portOpened : List (ClientStep Unit) := openedOnce ++ [.openPort .input {} true 0 3 true]

/-- The device goes, and the client has not been told. -/
def portLeft : List (ClientStep Unit) :=
  portOpened ++ [.server (.notifyDeviceChange .removed 1001)]

end ClientOfService

end MidiFramework.Client
