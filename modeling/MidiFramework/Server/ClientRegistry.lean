import MidiFramework.Server.Registry

/-!
# The client registry

A client is registered in five maps: the clients, their resource records, the
death recipients, the callback objects and the clients of each application.
The ids of the clients go round a cycle of `MAX_CLIENTID` values, and the
search for a new one passes over those in use.
-/

namespace MidiFramework.Server

open Foundation

/-- Whether a locked section belongs to neither `CreateMidiInServer` nor `DestroyMidiClient`. -/
def ControllerOp.keepsClients {M : Type} : ControllerOp M → Bool
  | .createMidiInServer .. | .destroyMidiClient .. | .finishDestroyMidiClient => false
  | _ => true

namespace MidiServiceController

variable {M : Type} (api : DeviceManager M) {s t u : MidiServiceController M}

/-! ### The search for an id -/

section Search

variable {clients : UnorderedMap ClientId MidiInServer}

theorem toNat_nextClientId (current : ClientId) :
    (nextClientId current).toNat = current.toNat % maxClientId.toNat + 1 := by
  have hmax : maxClientId.toNat = 4294967295 := rfl
  have hlt := current.toNat_lt
  unfold nextClientId
  split
  · next hge =>
      have htop : current.toNat = 4294967295 := by
        have := UInt32.le_iff_toNat_le.mp hge
        omega
      rw [hmax, htop]
      rfl
  · next hlow =>
      have hsmall : current.toNat < 4294967295 := by
        have := UInt32.lt_iff_toNat_lt.mp (UInt32.not_le.mp hlow)
        omega
      have hone : (1 : ClientId).toNat = 1 := rfl
      rw [UInt32.toNat_add, hone, hmax, Nat.mod_eq_of_lt hsmall]
      omega

theorem nextClientId_ne_zero (current : ClientId) : nextClientId current ≠ 0 := by
  intro h
  have hnat := toNat_nextClientId current
  rw [h] at hnat
  contradiction

theorem toNat_iterate_nextClientId (i : Nat) (current : ClientId) :
    (nextClientId^[i + 1] current).toNat = (current.toNat + i) % maxClientId.toNat + 1 := by
  induction i with
  | zero => exact toNat_nextClientId current
  | succ i ih =>
      rw [Function.iterate_succ_apply', toNat_nextClientId, ih, Nat.mod_add_mod, Nat.add_assoc]

/-- The ids of one round of the cycle are distinct. -/
theorem iterate_nextClientId_injective {i j : Nat} (current : ClientId)
    (hi : i < maxClientId.toNat) (hj : j < maxClientId.toNat)
    (h : nextClientId^[i + 1] current = nextClientId^[j + 1] current) : i = j := by
  have hnat := congrArg UInt32.toNat h
  rw [toNat_iterate_nextClientId, toNat_iterate_nextClientId, Nat.add_right_cancel_iff] at hnat
  have hmod : i ≡ j [MOD maxClientId.toNat] := Nat.ModEq.add_left_cancel' current.toNat hnat
  exact hmod.eq_of_lt_of_lt hi hj

theorem searchClientId_eq_none {rounds : Nat} {current : ClientId}
    (h : searchClientId clients rounds current = none) :
    ∀ i < rounds, nextClientId^[i + 1] current ∈ clients := by
  induction rounds generalizing current with
  | zero => exact fun i hi => absurd hi (Nat.not_lt_zero i)
  | succ rounds ih =>
      unfold searchClientId at h
      dsimp only at h
      split at h
      · next hused =>
          intro i hi
          cases i with
          | zero => exact hused
          | succ i => exact ih h i (Nat.lt_of_succ_lt_succ hi)
      · contradiction

/-- With fewer ids in use than the cycle has, one round more than there are ids in use finds one
that is free. -/
theorem searchClientId_ne_none {rounds : Nat} (current : ClientId)
    (hrounds : clients.keys.length < rounds) (hmax : rounds ≤ maxClientId.toNat) :
    searchClientId clients rounds current ≠ none := by
  intro hnone
  have hused := searchClientId_eq_none hnone
  have hnodup : ((List.range rounds).map fun i => nextClientId^[i + 1] current).Nodup := by
    apply List.Nodup.map_on _ List.nodup_range
    intro i hi j hj
    exact iterate_nextClientId_injective current ((List.mem_range.mp hi).trans_le hmax)
      ((List.mem_range.mp hj).trans_le hmax)
  have hsub : ((List.range rounds).map fun i => nextClientId^[i + 1] current) ⊆ clients.keys := by
    intro c hc
    obtain ⟨i, hi, rfl⟩ := List.mem_map.mp hc
    exact AList.mem_keys.mp (hused i (List.mem_range.mp hi))
  have hle := (List.subperm_of_subset hnodup hsub).length_le
  rw [List.length_map, List.length_range] at hle
  exact Nat.not_lt.mpr hle hrounds

/-- More rounds find the same id. -/
theorem searchClientId_mono {rounds rounds' : Nat} {current c : ClientId} (hle : rounds ≤ rounds')
    (h : searchClientId clients rounds current = some c) :
    searchClientId clients rounds' current = some c := by
  induction rounds generalizing current rounds' with
  | zero => contradiction
  | succ rounds ih =>
      cases rounds' with
      | zero => exact absurd hle (Nat.not_succ_le_zero rounds)
      | succ rounds' =>
          unfold searchClientId at h ⊢
          dsimp only at h ⊢
          split
          · next hused =>
              rw [if_pos hused] at h
              exact ih (Nat.le_of_succ_le_succ hle) h
          · next hfree =>
              rw [if_neg hfree] at h
              exact h

theorem searchClientId_ne_zero {rounds : Nat} {current c : ClientId}
    (h : searchClientId clients rounds current = some c) : c ≠ 0 := by
  induction rounds generalizing current with
  | zero => contradiction
  | succ rounds ih =>
      unfold searchClientId at h
      dsimp only at h
      split at h
      · exact ih h
      · exact Option.some.inj h ▸ nextClientId_ne_zero current

end Search

/-! ### What leaves the clients alone -/

/-- `appClientMap_[uid]`, empty where there is no entry. -/
def appClients (s : MidiServiceController M) (uid : Uid) : UnorderedSet ClientId :=
  s.appClientMap.getD uid ∅

/-- The same clients under the same applications, and the same unload timer. -/
structure SameClients (s t : MidiServiceController M) : Prop where
  unload : t.unload = s.unload
  clients : t.clients = s.clients
  deathRecipients : t.deathRecipients = s.deathRecipients
  clientCallbackObjects : t.clientCallbackObjects = s.clientCallbackObjects
  appClients : ∀ uid, t.appClients uid = s.appClients uid
  uid : ∀ c, (t.resourceInfo c).uid = (s.resourceInfo c).uid

namespace SameClients

theorem refl (s : MidiServiceController M) : s.SameClients s where
  unload := rfl
  clients := rfl
  deathRecipients := rfl
  clientCallbackObjects := rfl
  appClients := fun _ => rfl
  uid := fun _ => rfl

theorem trans (h : s.SameClients t) (h' : t.SameClients u) : s.SameClients u where
  unload := h'.unload.trans h.unload
  clients := h'.clients.trans h.clients
  deathRecipients := h'.deathRecipients.trans h.deathRecipients
  clientCallbackObjects := h'.clientCallbackObjects.trans h.clientCallbackObjects
  appClients := fun uid => (h'.appClients uid).trans (h.appClients uid)
  uid := fun c => (h'.uid c).trans (h.uid c)

/-- A new record that keeps the application of its client. -/
theorem setResourceInfo (h : s.SameClients t) {c : ClientId} {info : ClientResourceInfo}
    (huid : info.uid = (t.resourceInfo c).uid) : s.SameClients (t.setResourceInfo c info) where
  unload := h.unload
  clients := h.clients
  deathRecipients := h.deathRecipients
  clientCallbackObjects := h.clientCallbackObjects
  appClients := h.appClients
  uid := by
    intro x
    rw [resourceInfo_setResourceInfo, ← h.uid]
    split
    · next heq => rw [heq, huid]
    · rfl

/-- Contexts, addresses, requests and the manager are no part of the registry. -/
theorem withContexts (h : s.SameClients t) (contexts : UnorderedMap DeviceId DeviceClientContext)
    (active : UnorderedMap Address DeviceId)
    (pending : UnorderedMap Address (List PendingBleConnection)) (m : M) :
    s.SameClients { t with
      deviceClientContexts := contexts
      activeBleDevices := active
      pendingBleConnections := pending
      deviceManager := m } where
  unload := h.unload
  clients := h.clients
  deathRecipients := h.deathRecipients
  clientCallbackObjects := h.clientCallbackObjects
  appClients := h.appClients
  uid := h.uid

theorem setContext (h : s.SameClients t) (d : DeviceId) (context : DeviceClientContext) :
    s.SameClients (t.setContext d context) :=
  h.withContexts (t.deviceClientContexts.insert d context) _ _ _

theorem foldl {A : Type} {f : MidiServiceController M → A → MidiServiceController M}
    (hf : ∀ (s : MidiServiceController M) a, s.SameClients (f s a)) (as : List A) : s.SameClients (as.foldl f s) := by
  induction as generalizing s with
  | nil => exact refl s
  | cons a as ih => exact (hf s a).trans ih

end SameClients

theorem sameClients_addOpenDevice (s : MidiServiceController M) (c : ClientId) (d : DeviceId) :
    s.SameClients (s.addOpenDevice c d) := by
  apply (SameClients.refl s).setResourceInfo
  rfl

theorem sameClients_addOpenPort (s : MidiServiceController M) (c : ClientId) :
    s.SameClients (s.addOpenPort c) := by
  apply (SameClients.refl s).setResourceInfo
  rfl

theorem sameClients_openDevice (permitted : Bool) (c : ClientId) (d : DeviceId)
    (s : MidiServiceController M) :
    s.SameClients (s.openDevice api permitted c d).state := by
  have hself := SameClients.refl s
  unfold openDevice
  split
  · exact hself
  split
  · exact hself
  split
  · exact hself
  split
  · next context _ =>
      split
      · exact hself
      · exact (hself.setContext d _).trans (sameClients_addOpenDevice _ c d)
  · have hopened := hself.withContexts s.deviceClientContexts s.activeBleDevices
      s.pendingBleConnections (api.openDevice d s.deviceManager).2
    dsimp only
    split
    · exact hopened
    · exact (hopened.setContext d _).trans (sameClients_addOpenDevice _ c d)

theorem sameClients_openBleDevice (c : ClientId) (address : Address) (callback : RemoteObject)
    (s : MidiServiceController M) :
    s.SameClients (s.openBleDevice api c address callback).state := by
  have hself := SameClients.refl s
  unfold openBleDevice
  split
  · exact hself
  split
  · exact hself
  split
  · next t info hattach =>
      unfold tryAttachToActiveBleDevice at hattach
      split at hattach
      · contradiction
      next d _ =>
      split at hattach
      · contradiction
      · next context _ =>
            obtain ⟨rfl, _⟩ := Prod.mk.inj (Option.some.inj hattach)
            exact (hself.setContext d _).trans (sameClients_addOpenDevice _ c d)
  · unfold enqueueBleConnectionRequest
    split
    · exact hself.withContexts _ _ (s.pendingBleConnections.insert address _) _
    · dsimp only
      split
      · exact hself.withContexts _ _ (s.pendingBleConnections.erase address) _
      · exact hself.withContexts _ _ (s.pendingBleConnections.insert address _) _

theorem sameClients_handleBleOpenComplete (address : Address) (success : Bool) (d : DeviceId)
    (info : MidiDeviceInfo) (s : MidiServiceController M) :
    s.SameClients (s.handleBleOpenComplete address success d info).state := by
  have hanswered := (SameClients.refl s).withContexts s.deviceClientContexts
    s.activeBleDevices (s.pendingBleConnections.erase address) s.deviceManager
  unfold handleBleOpenComplete
  dsimp only
  split
  · have hactive := (SameClients.refl s).withContexts s.deviceClientContexts
      (s.activeBleDevices.insert address d) (s.pendingBleConnections.erase address)
      s.deviceManager
    have hopen : ∀ cs : List ClientId, s.SameClients (cs.foldl (fun s c => s.addOpenDevice c d) _) :=
      fun cs => hactive.trans (SameClients.foldl (fun s c => sameClients_addOpenDevice s c d) cs)
    unfold registerBleDeviceForPendingClientsLocked
    dsimp only
    split
    · exact hopen _
    · split
      · exact (hopen _).setContext d _
      · exact (hopen _).setContext d _
  · exact hanswered

theorem sameClients_openPort (direction : PortDirection) (ready : Status) (env : PortEnv)
    (permitted : Bool) (c : ClientId) (d : DeviceId) (p : PortIndex) (s : MidiServiceController M) :
    s.SameClients (s.openPort api direction ready env permitted c d p).state := by
  have hself := SameClients.refl s
  have hmanager := fun m => hself.withContexts s.deviceClientContexts s.activeBleDevices
    s.pendingBleConnections m
  unfold openPort
  split
  · exact hself
  split
  · exact hself
  next context _ =>
  split
  · exact hself
  split
  · exact hself
  split
  · exact hself
  split
  · unfold connectToExistingPort
    dsimp only
    split_ifs
    · exact hself
    · exact hself
    · exact (hself.setContext d _).trans (sameClients_addOpenPort _ c)
  · unfold createNewPortConnection emplacePortConnection
    dsimp only
    split
    · exact hmanager _
    split
    · exact hmanager _
    · exact ((hmanager _).trans (sameClients_addOpenPort _ c)).setContext d _

theorem sameClients_closePortInner (direction : PortDirection) (c : ClientId) (d : DeviceId)
    (p : PortIndex) (s : MidiServiceController M) :
    s.SameClients (s.closePortInner api direction c d p).2 := by
  have hself := SameClients.refl s
  unfold closePortInner
  split
  · exact hself
  split
  · exact hself
  split
  · exact hself
  dsimp only
  split
  · exact hself
  have hrecord : s.SameClients (s.setResourceInfo c
      { s.resourceInfo c with openPortCount := (s.resourceInfo c).openPortCount - 1 }) := by
    apply hself.setResourceInfo
    rfl
  split
  · exact (hrecord.withContexts _ _ _ _).setContext d _
  · exact hrecord.setContext d _

theorem sameClients_closePort (direction : PortDirection) (c : ClientId) (d : DeviceId)
    (p : PortIndex) (s : MidiServiceController M) :
    s.SameClients (s.closePort api direction c d p).state := by
  unfold closePort
  split
  · exact SameClients.refl s
  · exact sameClients_closePortInner api direction c d p s

theorem sameClients_closePortforDevice (c : ClientId) (d : DeviceId)
    (s : MidiServiceController M) : s.SameClients (s.closePortforDevice api c d) := by
  have hports : ∀ (direction : PortDirection) (ps : List PortIndex) (s : MidiServiceController M),
      s.SameClients (s.closePorts api direction c d ps) := by
    intro direction ps s
    exact SameClients.foldl (fun s p => sameClients_closePortInner api direction c d p s) ps
  unfold closePortforDevice
  exact (hports _ _ _).trans (hports _ _ _)

theorem sameClients_leaveContext (c : ClientId) (d : DeviceId) (s : MidiServiceController M) :
    s.SameClients (s.leaveContext c d) := by
  have hself := SameClients.refl s
  unfold leaveContext
  split
  · exact hself
  dsimp only
  split
  · exact hself.withContexts (s.deviceClientContexts.erase d) _ _ _
  · exact hself.setContext d _

theorem sameClients_closeDevice (c : ClientId) (d : DeviceId) (s : MidiServiceController M) :
    s.SameClients (s.closeDevice api c d).state := by
  have hself := SameClients.refl s
  unfold closeDevice
  split
  · exact hself
  split
  · exact hself
  split
  · exact hself
  have hports := sameClients_closePortforDevice api c d s
  have hrecord : s.SameClients ((s.closePortforDevice api c d).setResourceInfo c
      { (s.closePortforDevice api c d).resourceInfo c with
        openDevices := ((s.closePortforDevice api c d).resourceInfo c).openDevices.erase d }) := by
    apply hports.setResourceInfo
    rfl
  exact hrecord.trans (sameClients_leaveContext c d _)

theorem sameClients_cleanupDeviceForClient (c : ClientId) (d : DeviceId)
    (s : MidiServiceController M) : s.SameClients (s.cleanupDeviceForClient api c d) := by
  unfold cleanupDeviceForClient
  split
  · exact SameClients.refl s
  · exact (sameClients_closePortforDevice api c d s).trans (sameClients_leaveContext c d _)

theorem sameClients_notifyDeviceChange (change : DeviceChangeType) (d : DeviceId)
    (s : MidiServiceController M) : s.SameClients (s.notifyDeviceChange change d) := by
  have hrelease : ∀ (count : ClientId → Nat) (s : MidiServiceController M) (c : ClientId),
      s.SameClients (s.cleanupClientResourceForDevice c d (count c)) := by
    intro count s c
    unfold cleanupClientResourceForDevice
    split
    · exact SameClients.refl s
    · next info hinfo =>
        apply (SameClients.refl s).setResourceInfo
        unfold resourceInfo UnorderedMap.getD
        rw [hinfo]
        rfl
  cases change with
  | add => exact SameClients.refl s
  | removed =>
      have hactive := (SameClients.refl s).withContexts s.deviceClientContexts
        (s.activeBleDevices.eraseFirst fun _ x => x == d) s.pendingBleConnections s.deviceManager
      apply hactive.trans
      change SameClients _ ((s.removeFromActiveBleDevices d).cleanupDeviceContext d)
      unfold cleanupDeviceContext
      split
      · exact SameClients.refl _
      · exact (SameClients.foldl (hrelease _) _).withContexts _ _ _ _

/-! ### A client comes and goes -/

/-- `t` is `s` with one more client. -/
structure Enrols (s t : MidiServiceController M) (c : ClientId) (uid : Uid) (server : MidiInServer) :
    Prop where
  unload : t.unload = s.unload.cancelUnloadTask
  clients : t.clients = s.clients.insert c server
  deathRecipients : ∀ x, x ∈ t.deathRecipients ↔ x = c ∨ x ∈ s.deathRecipients
  clientCallbackObjects : ∀ x, x ∈ t.clientCallbackObjects ↔ x = c ∨ x ∈ s.clientCallbackObjects
  appClients : ∀ u, t.appClients u =
    if u = uid then (s.appClients uid).add c else s.appClients u
  uid : ∀ x, (t.resourceInfo x).uid = if x = c then uid else (s.resourceInfo x).uid

/-- `t` is `s` without a client, whose callback object goes with its death recipient. -/
structure Dismisses (s t : MidiServiceController M) (c : ClientId) : Prop where
  unload : t.unload = s.unload
  clients : t.clients = s.clients.erase c
  deathRecipients : ∀ x, x ∈ t.deathRecipients ↔ x ≠ c ∧ x ∈ s.deathRecipients
  clientCallbackObjects : c ∈ s.deathRecipients →
    ∀ x, x ∈ t.clientCallbackObjects ↔ x ≠ c ∧ x ∈ s.clientCallbackObjects
  appClients : ∀ u, t.appClients u =
    if u = (s.resourceInfo c).uid then (s.appClients u).erase c else s.appClients u
  uid : ∀ x, x ≠ c → (t.resourceInfo x).uid = (s.resourceInfo x).uid

/-- A create that fails cancels the timer and leaves the clients alone, and one that succeeds
cancels the timer and adds one client under the id that the search found. -/
theorem createMidiInServer_cases (uid : Uid) (object : RemoteObject) (server : MidiInServer)
    (added : Bool) (s : MidiServiceController M) :
    (s.createMidiInServer uid object server added).status ≠ .ok ∧
      { s with unload := s.unload.cancelUnloadTask }.SameClients
        (s.createMidiInServer uid object server added).state ∨
    ∃ c, searchClientId s.clients (s.clients.keys.length + 1) s.currentClientId = some c ∧
      s.clients.keys.length < maxClients ∧ (s.appClients uid).size < maxClientsPerApp ∧
      s.Enrols (s.createMidiInServer uid object server added).state c uid server := by
  have hmany : Status.tooManyClients ≠ Status.ok := by decide
  have hsystem : Status.systemError ≠ Status.ok := by decide
  have hnamed : ∀ current, { s with unload := s.unload.cancelUnloadTask }.SameClients
      { s with
        unload := s.unload.cancelUnloadTask
        appClientMap := s.appClientMap.insert uid (s.appClients uid)
        currentClientId := current } := by
    intro current
    constructor
    · rfl
    · rfl
    · rfl
    · rfl
    · intro u
      change UnorderedMap.getD (s.appClientMap.insert uid (s.appClients uid)) u ∅ = s.appClients u
      rw [UnorderedMap.getD_insert]
      split
      · next h => rw [h]
      · rfl
    · exact fun _ => rfl
  unfold createMidiInServer
  dsimp only
  split
  · exact Or.inl ⟨hmany, SameClients.refl _⟩
  next htotal =>
  split
  · exact Or.inl ⟨hmany, hnamed _⟩
  next hshare =>
  split
  · exact Or.inl ⟨hsystem, hnamed _⟩
  next c hsearch =>
  split
  · exact Or.inl ⟨hsystem, hnamed _⟩
  · refine Or.inr ⟨c, hsearch, not_le.mp htotal, not_le.mp hshare, ?_⟩
    constructor
    · rfl
    · exact UnorderedMap.emplace_of_notMem (searchClientId_notMem _ _ hsearch) server
    · exact fun x => UnorderedMap.mem_emplace
    · exact fun x => UnorderedMap.mem_emplace
    · intro u
      change UnorderedMap.getD ((s.appClientMap.insert uid (s.appClients uid)).insert uid
        ((s.appClients uid).add c)) u ∅ = _
      rw [UnorderedMap.getD_insert, UnorderedMap.getD_insert]
      split <;> rfl
    · intro x
      change (UnorderedMap.getD (s.clientResourceInfo.insert c
        { s.resourceInfo c with uid := uid }) x {}).uid = _
      rw [UnorderedMap.getD_insert]
      split <;> rfl

theorem appClients_cleanupClientResources (c : ClientId) (uid u : Uid)
    (s : MidiServiceController M) :
    (s.cleanupClientResources c uid).appClients u =
      if u = uid then (s.appClients u).erase c else s.appClients u := by
  unfold cleanupClientResources
  dsimp only
  split
  · next hnone =>
      split
      · next h =>
          have hempty : s.appClients u = ∅ := by
            rw [h]
            exact congrArg (Option.getD · ∅) hnone
          change s.appClients u = _
          rw [hempty]
          rfl
      · rfl
  · next appClients hsome =>
      have hvalue : s.appClients uid = appClients := congrArg (Option.getD · ∅) hsome
      split
      · next hempty =>
          change UnorderedMap.getD (s.appClientMap.erase uid) u ∅ = _
          rw [UnorderedMap.getD_erase]
          split
          · next h => rw [h, hvalue, UnorderedMap.eq_empty_of_isEmpty_keys hempty]
          · rfl
      · change UnorderedMap.getD (s.appClientMap.insert uid (appClients.erase c)) u ∅ = _
        rw [UnorderedMap.getD_insert]
        split
        · next h => rw [h, hvalue]
        · rfl

theorem dismisses_destroyMidiClient {c : ClientId} (hlive : c ∈ s.clients) :
    s.Dismisses (s.destroyMidiClient api c).state c := by
  unfold destroyMidiClient
  rw [if_neg (not_not.mpr hlive)]
  dsimp only
  have hcleaned := SameClients.foldl (s := s.removeDeathRecipient c)
    (fun s d => sameClients_cleanupDeviceForClient api c d s)
    (s.collectDevicesForClientDestruction c).1
  set t := (s.collectDevicesForClientDestruction c).1.foldl
    (fun s d => s.cleanupDeviceForClient api c d) (s.removeDeathRecipient c)
  have hremoved : ∀ x, (s.removeDeathRecipient c).resourceInfo x = s.resourceInfo x ∧
      (s.removeDeathRecipient c).clients = s.clients ∧
      (s.removeDeathRecipient c).unload = s.unload ∧
      ∀ u, (s.removeDeathRecipient c).appClients u = s.appClients u := by
    intro x
    unfold removeDeathRecipient
    split
    · exact ⟨rfl, rfl, rfl, fun _ => rfl⟩
    · exact ⟨rfl, rfl, rfl, fun _ => rfl⟩
  constructor
  · exact hcleaned.unload.trans (hremoved c).2.2.1
  · change t.clients.erase c = _
    rw [hcleaned.clients, (hremoved c).2.1]
  · intro x
    change x ∈ t.deathRecipients ↔ _
    rw [hcleaned.deathRecipients]
    unfold removeDeathRecipient
    split
    · next hnone =>
        constructor
        · intro hx
          refine ⟨?_, hx⟩
          rintro rfl
          exact hnone hx
        · exact fun hx => hx.2
    · exact AList.mem_erase
  · intro hrecipient x
    change x ∈ t.clientCallbackObjects ↔ _
    rw [hcleaned.clientCallbackObjects]
    unfold removeDeathRecipient
    rw [if_neg (not_not.mpr hrecipient)]
    exact AList.mem_erase
  · intro u
    change (t.cleanupClientResources c (s.resourceInfo c).uid).appClients u = _
    rw [appClients_cleanupClientResources, hcleaned.appClients, (hremoved c).2.2.2]
  · intro x hx
    change (UnorderedMap.getD (t.clientResourceInfo.erase c) x {}).uid = _
    rw [UnorderedMap.getD_erase, if_neg hx, ← (hremoved x).1]
    exact hcleaned.uid x

/-- The locked sections that neither create nor destroy a client leave the clients alone. -/
theorem sameClients_run {op : ControllerOp M} (h : op.keepsClients) :
    s.SameClients (op.run api s) := by
  cases op with
  | createMidiInServer uid object server added => contradiction
  | openDevice permitted c d => exact sameClients_openDevice api permitted c d s
  | openBleDevice c address callback => exact sameClients_openBleDevice api c address callback s
  | handleBleOpenComplete address success d info =>
      exact sameClients_handleBleOpenComplete address success d info s
  | openInputPort env permitted c d p => exact sameClients_openPort api .input _ env permitted c d p s
  | openOutputPort env permitted c d p =>
      exact sameClients_openPort api .output _ env permitted c d p s
  | closeInputPort c d p => exact sameClients_closePort api .input c d p s
  | closeOutputPort c d p => exact sameClients_closePort api .output c d p s
  | closeDevice c d => exact sameClients_closeDevice api c d s
  | destroyMidiClient c => contradiction
  | finishDestroyMidiClient => contradiction
  | notifyDeviceChange change d => exact sameClients_notifyDeviceChange change d s

/-- A locked section adds a client, takes one out or changes at most the unload timer. -/
inductive ClientMove (s t : MidiServiceController M) : Prop
  | same (unload : UnloadTask) (h : { s with unload := unload }.SameClients t)
  | enrols {c : ClientId} {uid : Uid} {server : MidiInServer} (hfree : c ∉ s.clients)
      (htotal : s.clients.keys.length < maxClients)
      (hshare : (s.appClients uid).size < maxClientsPerApp) (h : s.Enrols t c uid server)
  | dismisses {c : ClientId} (hlive : c ∈ s.clients) (h : s.Dismisses t c)

theorem destroyMidiClient_of_notMem {c : ClientId} (h : c ∉ s.clients) :
    (s.destroyMidiClient api c).state = s := by
  unfold destroyMidiClient
  rw [if_pos h]

theorem clientMove_run (op : ControllerOp M) : s.ClientMove (op.run api s) := by
  cases op with
  | createMidiInServer uid object server added =>
      rcases createMidiInServer_cases uid object server added s with
        ⟨_, hsame⟩ | ⟨c, hsearch, htotal, hshare, henrols⟩
      · exact .same _ hsame
      · exact .enrols (searchClientId_notMem _ _ hsearch) htotal hshare henrols
  | destroyMidiClient c =>
      by_cases hlive : c ∈ s.clients
      · exact .dismisses hlive (dismisses_destroyMidiClient api hlive)
      · apply ClientMove.same s.unload
        change SameClients s (s.destroyMidiClient api c).state
        rw [destroyMidiClient_of_notMem api hlive]
        exact SameClients.refl s
  | finishDestroyMidiClient =>
      apply ClientMove.same s.finishDestroyMidiClient.unload
      change SameClients _ s.finishDestroyMidiClient
      unfold finishDestroyMidiClient
      split
      · exact SameClients.refl _
      · exact SameClients.refl s
  | _ => exact .same s.unload (sameClients_run api rfl)

theorem sameClients_unlocked (h : Unlocked s t) : s.SameClients t := by
  cases h with
  | manager m => exact (SameClients.refl s).withContexts _ _ _ m
  | @rehash contexts active _ _ => exact (SameClients.refl s).withContexts contexts active _ _

/-! ### The registry in every run -/

structure Enrolled (s : MidiServiceController M) : Prop where
  deathRecipients : ∀ c, c ∈ s.deathRecipients ↔ c ∈ s.clients
  clientCallbackObjects : ∀ c, c ∈ s.clientCallbackObjects ↔ c ∈ s.clients
  appClients : ∀ uid c, c ∈ s.appClients uid ↔ c ∈ s.clients ∧ (s.resourceInfo c).uid = uid
  total : s.clients.keys.length ≤ maxClients
  share : ∀ uid, (s.appClients uid).size ≤ maxClientsPerApp

namespace Enrolled

theorem same (h : s.Enrolled) (unload : UnloadTask)
    (hsame : { s with unload := unload }.SameClients t) : t.Enrolled where
  deathRecipients := by
    intro c
    rw [hsame.deathRecipients, hsame.clients, h.deathRecipients]
  clientCallbackObjects := by
    intro c
    rw [hsame.clientCallbackObjects, hsame.clients, h.clientCallbackObjects]
  appClients := by
    intro uid c
    rw [hsame.appClients, hsame.clients, hsame.uid]
    exact h.appClients uid c
  total := by
    rw [hsame.clients]
    exact h.total
  share := by
    intro uid
    rw [hsame.appClients]
    exact h.share uid

theorem enrols (h : s.Enrolled) {c : ClientId} {uid : Uid} {server : MidiInServer}
    (hfree : c ∉ s.clients) (htotal : s.clients.keys.length < maxClients)
    (hshare : (s.appClients uid).size < maxClientsPerApp) (henrols : s.Enrols t c uid server) :
    t.Enrolled where
  deathRecipients := by
    intro x
    rw [henrols.deathRecipients, henrols.clients, AList.mem_insert, h.deathRecipients]
  clientCallbackObjects := by
    intro x
    rw [henrols.clientCallbackObjects, henrols.clients, AList.mem_insert, h.clientCallbackObjects]
  appClients := by
    intro u x
    have hother := h.appClients u x
    rw [henrols.appClients, henrols.clients, AList.mem_insert, henrols.uid]
    by_cases hx : x = c
    · subst hx
      have hnone : x ∉ s.appClients u := fun hmem => hfree (hother.mp hmem).1
      by_cases hu : u = uid
      · simp [hu]
      · simp [hu, hnone, Ne.symm hu]
    · by_cases hu : u = uid
      · simp [hu, hx, hu ▸ hother]
      · simp [hu, hx, hother]
  total := by
    rw [henrols.clients]
    exact (UnorderedMap.length_keys_insert_le _ _ _).trans htotal
  share := by
    intro u
    rw [henrols.appClients]
    split
    · next hu => exact (UnorderedMap.length_keys_insert_le _ _ _).trans (hu ▸ hshare)
    · exact h.share u

theorem dismisses (h : s.Enrolled) {c : ClientId} (hlive : c ∈ s.clients)
    (hdismisses : s.Dismisses t c) : t.Enrolled where
  deathRecipients := by
    intro x
    rw [hdismisses.deathRecipients, hdismisses.clients, AList.mem_erase, h.deathRecipients]
  clientCallbackObjects := by
    intro x
    have hrecipient := (h.deathRecipients c).mpr hlive
    rw [hdismisses.clientCallbackObjects hrecipient, hdismisses.clients, AList.mem_erase,
      h.clientCallbackObjects]
  appClients := by
    intro u x
    have hother := h.appClients u x
    rw [hdismisses.appClients, hdismisses.clients, AList.mem_erase]
    by_cases hx : x = c
    · subst hx
      by_cases hu : u = (s.resourceInfo x).uid
      · simp [hu]
      · simp [hu, hother, Ne.symm hu]
    · rw [hdismisses.uid x hx]
      by_cases hu : u = (s.resourceInfo c).uid
      · rw [if_pos hu, AList.mem_erase, hother]
        grind
      · rw [if_neg hu, hother]
        grind
  total := by
    rw [hdismisses.clients]
    exact (UnorderedMap.length_keys_erase_le _ _).trans h.total
  share := by
    intro u
    rw [hdismisses.appClients]
    split
    · exact (UnorderedMap.length_keys_erase_le _ _).trans (h.share u)
    · exact h.share u

theorem move (h : s.Enrolled) (hmove : s.ClientMove t) : t.Enrolled := by
  cases hmove with
  | same unload hsame => exact h.same unload hsame
  | enrols hfree htotal hshare henrols => exact h.enrols hfree htotal hshare henrols
  | dismisses hlive hdismisses => exact h.dismisses hlive hdismisses

end Enrolled

theorem enrolled_reachable (reach : (controllerMachine api).Reachable s) : s.Enrolled := by
  apply reach.invariant Enrolled
  · rintro s ⟨m, rfl⟩
    constructor
    · exact fun c => Iff.rfl
    · exact fun c => Iff.rfl
    · exact fun uid c => ⟨fun hc => absurd hc (AList.notMem_empty c),
        fun hc => absurd hc.1 (AList.notMem_empty c)⟩
    · exact Nat.zero_le _
    · exact fun uid => Nat.zero_le _
  · intro s label t _ h _ move
    cases label with
    | none => exact h.same s.unload (sameClients_unlocked move)
    | some op => exact move.symm ▸ h.move (clientMove_run api op)

theorem Enrolled.encard_appClients (h : s.Enrolled) (uid : Uid) :
    {c | c ∈ s.clients ∧ (s.resourceInfo c).uid = uid}.encard = (s.appClients uid).size := by
  have hset : {c | c ∈ s.clients ∧ (s.resourceInfo c).uid = uid} = {c | c ∈ s.appClients uid} := by
    ext c
    exact (h.appClients uid c).symm
  rw [hset, UnorderedSet.encard_mem]

theorem mem_appClients {uid : Uid} {c : ClientId} :
    c ∈ s.appClients uid ↔ ∃ cs, s.appClientMap.lookup uid = some cs ∧ c ∈ cs := by
  unfold appClients UnorderedMap.getD
  cases s.appClientMap.lookup uid with
  | none => simp
  | some cs => simp

/-- The id that a client created now gets, wherever the last search has ended. -/
theorem Enrolled.exists_clientId (h : s.Enrolled) (current : ClientId) :
    ∃ c, c ≠ 0 ∧ c ∉ s.clients ∧
      (∀ rounds, s.clients.keys.length < rounds →
        searchClientId s.clients rounds current = some c) ∧
      ∀ uid object server added,
        ({ s with currentClientId := current }.createMidiInServer uid object server
          added).status = .ok →
        ({ s with currentClientId := current }.createMidiInServer uid object server
          added).state.clients = s.clients.insert c server := by
  have hmax : s.clients.keys.length + 1 ≤ maxClientId.toNat :=
    (Nat.succ_le_succ h.total).trans (by decide)
  obtain ⟨c, hsearch⟩ := Option.ne_none_iff_exists'.mp
    (searchClientId_ne_none current (Nat.lt_succ_self _) hmax)
  refine ⟨c, searchClientId_ne_zero hsearch, searchClientId_notMem _ _ hsearch, ?_, ?_⟩
  · exact fun rounds hrounds => searchClientId_mono hrounds hsearch
  · intro uid object server added hok
    rcases createMidiInServer_cases uid object server added { s with currentClientId := current }
      with ⟨hfailed, _⟩ | ⟨x, hx, _, _, henrols⟩
    · contradiction
    · have heq : x = c := Option.some.inj (hx.symm.trans hsearch)
      exact heq ▸ henrols.clients

/-- Every client has a resource record, a death recipient and a callback object, and these have
no others; the non-empty entries of the applications partition the clients by the application in
their records; neither bound is passed; and wherever the last search for an id has ended, the next
one ends with an id that is neither zero nor in use, which the next client gets. -/
theorem client_registry_consistent (reach : (controllerMachine api).Reachable s) :
    (∀ c, (c ∈ s.clientResourceInfo ↔ c ∈ s.clients) ∧ (c ∈ s.deathRecipients ↔ c ∈ s.clients) ∧
      (c ∈ s.clientCallbackObjects ↔ c ∈ s.clients)) ∧
    (∀ uid c, (∃ cs, s.appClientMap.lookup uid = some cs ∧ c ∈ cs) ↔
      c ∈ s.clients ∧ (s.resourceInfo c).uid = uid) ∧
    s.clients.keys.length ≤ maxClients ∧
    (∀ uid, {c | c ∈ s.clients ∧ (s.resourceInfo c).uid = uid}.encard ≤ maxClientsPerApp) ∧
    ∀ current, ∃ c, c ≠ 0 ∧ c ∉ s.clients ∧
      (∀ rounds, s.clients.keys.length < rounds →
        searchClientId s.clients rounds current = some c) ∧
      ∀ uid object server added,
        ({ s with currentClientId := current }.createMidiInServer uid object server
          added).status = .ok →
        ({ s with currentClientId := current }.createMidiInServer uid object server
          added).state.clients = s.clients.insert c server := by
  have h := enrolled_reachable api reach
  have hconsistent := consistent_reachable api reach
  refine ⟨?_, ?_, h.total, ?_, h.exists_clientId⟩
  · intro c
    exact ⟨hconsistent.recorded c, h.deathRecipients c, h.clientCallbackObjects c⟩
  · intro uid c
    rw [← mem_appClients, h.appClients]
  · intro uid
    rw [h.encard_appClients]
    exact Nat.cast_le.mpr (h.share uid)

/-- Two clients of one application and one of another, the first of them destroyed again. -/
def remainingClients : MidiServiceController Unit :=
  runAll openingManager { deviceManager := () }
    [.createMidiInServer 7 0 {} true, .createMidiInServer 7 1 {} true,
      .createMidiInServer 8 2 {} true, .destroyMidiClient 1]

theorem client_registry_consistent_remaining :
    (∀ c, (c ∈ remainingClients.clientResourceInfo ↔ c ∈ remainingClients.clients) ∧
      (c ∈ remainingClients.deathRecipients ↔ c ∈ remainingClients.clients) ∧
      (c ∈ remainingClients.clientCallbackObjects ↔ c ∈ remainingClients.clients)) ∧
    remainingClients.clients.keys.length ≤ maxClients ∧
    ∃ c, c ≠ 0 ∧ c ∉ remainingClients.clients := by
  have hreach := reachable_runAll openingManager [.createMidiInServer 7 0 {} true,
    .createMidiInServer 7 1 {} true, .createMidiInServer 8 2 {} true, .destroyMidiClient 1]
    (.init ⟨(), rfl⟩)
  obtain ⟨hkeys, _, htotal, _, hsearch⟩ := client_registry_consistent openingManager hreach
  obtain ⟨c, hzero, hfree, _⟩ := hsearch maxClientId
  exact ⟨hkeys, htotal, c, hzero, hfree⟩

end MidiServiceController

end MidiFramework.Server
