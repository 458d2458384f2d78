import Mathlib.Tactic.Tauto
import MidiFramework.Foundation.Mirror
import MidiFramework.Foundation.Transition
import MidiFramework.Server.Controller

/-!
# The device registry

The controller stores which client has which device open in the resource
records of the clients and in the contexts of the devices. The registry is
this relation with its two tables, and every locked section of the controller
is one of the moves of such a relation.
-/

namespace MidiFramework.Server

open Foundation

namespace MidiServiceController

variable {M : Type} (api : DeviceManager M) {s : MidiServiceController M}

/-- The registry of a controller. -/
def registry (s : MidiServiceController M) : Mirror ClientId DeviceId where
  live := {c | c ∈ s.clients}
  recorded := {c | c ∈ s.clientResourceInfo}
  opens := fun c => {d | d ∈ (s.resourceInfo c).openDevices}
  kept := {d | d ∈ s.deviceClientContexts}
  users := fun d => {c | ∃ context, s.deviceClientContexts.lookup d = some context ∧
    c ∈ context.clients}

/-! ### The maps after one change -/

theorem resourceInfo_setResourceInfo (s : MidiServiceController M) (c c' : ClientId)
    (info : ClientResourceInfo) :
    (s.setResourceInfo c info).resourceInfo c' = if c' = c then info else s.resourceInfo c' := by
  unfold resourceInfo UnorderedMap.getD
  rw [setResourceInfo, UnorderedMap.lookup_insert_eq]
  split <;> rfl

theorem resourceInfo_of_notMem {c : ClientId} (h : c ∉ s.clientResourceInfo) :
    s.resourceInfo c = {} := by
  unfold resourceInfo UnorderedMap.getD
  rw [AList.lookup_eq_none.mpr h]
  rfl

theorem mem_users {c : ClientId} {d : DeviceId} {context : DeviceClientContext}
    (h : s.deviceClientContexts.lookup d = some context) :
    c ∈ s.registry.users d ↔ c ∈ context.clients := by
  constructor
  · rintro ⟨context', h', hc⟩
    rw [h] at h'
    rwa [Option.some.inj h']
  · exact fun hc => ⟨context, h, hc⟩

/-- Only a device with a context has users. -/
theorem kept_of_mem_users {c : ClientId} {d : DeviceId} (h : c ∈ s.registry.users d) :
    d ∈ s.registry.kept := by
  obtain ⟨context, hcontext, _⟩ := h
  exact UnorderedMap.mem_of_lookup hcontext

theorem mem_empty_iff_users {c : ClientId} {d : DeviceId}
    (h : s.deviceClientContexts.lookup d = none) :
    c ∈ (∅ : UnorderedSet ClientId) ↔ c ∈ s.registry.users d :=
  iff_of_false (AList.notMem_empty c) fun hc => AList.lookup_eq_none.mp h (kept_of_mem_users hc)

theorem users_setContext (s : MidiServiceController M) (d d' : DeviceId) (c : ClientId)
    (context : DeviceClientContext) :
    c ∈ (s.setContext d context).registry.users d' ↔
      if d' = d then c ∈ context.clients else c ∈ s.registry.users d' := by
  have hlookup : (s.setContext d context).deviceClientContexts.lookup d' =
      if d' = d then some context else s.deviceClientContexts.lookup d' :=
    UnorderedMap.lookup_insert_eq _ _ _ _
  split
  · next h => exact mem_users (by rw [hlookup, if_pos h])
  · next h =>
      rw [if_neg h] at hlookup
      unfold registry
      simp only [Set.mem_ofPred_eq, hlookup]

theorem kept_setContext (s : MidiServiceController M) (d d' : DeviceId)
    (context : DeviceClientContext) :
    d' ∈ (s.setContext d context).registry.kept ↔ d' = d ∨ d' ∈ s.registry.kept :=
  AList.mem_insert _

theorem users_eraseContext (s : MidiServiceController M) (d d' : DeviceId) (c : ClientId) :
    c ∈ (s.eraseContext d).registry.users d' ↔ d' ≠ d ∧ c ∈ s.registry.users d' := by
  have hlookup : (s.eraseContext d).deviceClientContexts.lookup d' =
      if d' = d then none else s.deviceClientContexts.lookup d' :=
    UnorderedMap.lookup_erase_eq _ _ _
  unfold registry
  simp only [Set.mem_ofPred_eq, hlookup]
  by_cases h : d' = d <;> simp [h]

theorem kept_eraseContext (s : MidiServiceController M) (d d' : DeviceId) :
    d' ∈ (s.eraseContext d).registry.kept ↔ d' ≠ d ∧ d' ∈ s.registry.kept :=
  AList.mem_erase

/-- A context that keeps its clients and a record that keeps its devices leave the registry
alone. -/
theorem registry_keep {c : ClientId} {d : DeviceId} {context context' : DeviceClientContext}
    {info : ClientResourceInfo} (hcontext : s.deviceClientContexts.lookup d = some context)
    (hclients : context'.clients = context.clients) (hc : c ∈ s.clientResourceInfo)
    (hinfo : info.openDevices = (s.resourceInfo c).openDevices) :
    ((s.setResourceInfo c info).setContext d context').registry = s.registry := by
  ext x y
  · rfl
  · change x ∈ s.clientResourceInfo.insert c info ↔ x ∈ s.clientResourceInfo
    rw [AList.mem_insert]
    constructor
    · rintro (rfl | hx)
      · exact hc
      · exact hx
    · exact Or.inr
  · change y ∈ ((s.setResourceInfo c info).resourceInfo x).openDevices ↔
      y ∈ (s.resourceInfo x).openDevices
    rw [resourceInfo_setResourceInfo]
    split
    · next h => rw [h, hinfo]
    · rfl
  · rw [kept_setContext]
    constructor
    · rintro (rfl | hx)
      · exact UnorderedMap.mem_of_lookup hcontext
      · exact hx
    · exact Or.inr
  · rw [users_setContext]
    split
    · next h => rw [h, mem_users hcontext, hclients]
    · rfl

/-! ### Opening a device -/

theorem mem_openDevices_addOpenDevice (s : MidiServiceController M) (c c' : ClientId)
    (d d' : DeviceId) :
    d' ∈ ((s.addOpenDevice c d).resourceInfo c').openDevices ↔
      c' = c ∧ d' = d ∨ d' ∈ (s.resourceInfo c').openDevices := by
  rw [addOpenDevice, resourceInfo_setResourceInfo]
  split
  · next h => simp [h]
  · next h => simp [h]

/-- Several clients get the device in their records. -/
def addOpenDevices (s : MidiServiceController M) (cs : List ClientId) (d : DeviceId) :
    MidiServiceController M :=
  cs.foldl (fun s c => s.addOpenDevice c d) s

theorem addOpenDevices_spec (cs : List ClientId) (d : DeviceId) (s : MidiServiceController M) :
    ∃ infos, s.addOpenDevices cs d = { s with clientResourceInfo := infos } ∧
      (∀ c, c ∈ infos ↔ c ∈ cs ∨ c ∈ s.clientResourceInfo) ∧
      ∀ c d', d' ∈ ((s.addOpenDevices cs d).resourceInfo c).openDevices ↔
        c ∈ cs ∧ d' = d ∨ d' ∈ (s.resourceInfo c).openDevices := by
  induction cs generalizing s with
  | nil => exact ⟨s.clientResourceInfo, rfl, by simp, by simp [addOpenDevices]⟩
  | cons a cs ih =>
      obtain ⟨infos, heq, hmem, hopens⟩ := ih (s.addOpenDevice a d)
      refine ⟨infos, heq, ?_, ?_⟩
      · intro c
        have hinsert : c ∈ (s.addOpenDevice a d).clientResourceInfo ↔
            c = a ∨ c ∈ s.clientResourceInfo := AList.mem_insert _
        rw [hmem, hinsert, List.mem_cons]
        tauto
      · intro c d'
        have hfold : s.addOpenDevices (a :: cs) d = (s.addOpenDevice a d).addOpenDevices cs d := rfl
        rw [hfold, hopens, mem_openDevices_addOpenDevice, List.mem_cons]
        tauto

theorem registry_attach (cs : List ClientId) {d : DeviceId} {context : DeviceClientContext}
    (hclients : ∀ c, c ∈ context.clients ↔ c ∈ cs ∨ c ∈ s.registry.users d) :
    ((s.addOpenDevices cs d).setContext d context).registry =
      s.registry.attach {c | c ∈ cs} d := by
  obtain ⟨infos, heq, hmem, hopens⟩ := addOpenDevices_spec cs d s
  have hcontexts : (s.addOpenDevices cs d).deviceClientContexts = s.deviceClientContexts := by
    rw [heq]
  have hinfos : (s.addOpenDevices cs d).clientResourceInfo = infos := by
    rw [heq]
  have husers : (s.addOpenDevices cs d).registry.users = s.registry.users := by
    unfold registry
    rw [hcontexts]
  have hkept : (s.addOpenDevices cs d).registry.kept = s.registry.kept := by
    unfold registry
    rw [hcontexts]
  ext x y
  · rw [heq]
    rfl
  · change x ∈ (s.addOpenDevices cs d).clientResourceInfo ↔ _
    rw [hinfos, hmem]
    rfl
  · exact hopens x y
  · rw [kept_setContext, hkept]
    rfl
  · rw [users_setContext, husers]
    by_cases h : x = d
    · subst h
      rw [if_pos rfl, hclients]
      constructor
      · rintro (hy | hy)
        · exact Or.inl ⟨hy, rfl⟩
        · exact Or.inr ⟨kept_of_mem_users hy, hy⟩
      · rintro (⟨hy, _⟩ | ⟨_, hy⟩)
        · exact Or.inl hy
        · exact Or.inr hy
    · rw [if_neg h]
      constructor
      · exact fun hy => Or.inr ⟨kept_of_mem_users hy, hy⟩
      · rintro (⟨_, hx⟩ | ⟨_, hy⟩)
        · contradiction
        · exact hy

/-! ### Ports -/

@[simp] theorem clients_setConnections (context : DeviceClientContext)
    (connections : PortConnections) (direction : PortDirection) :
    (context.setConnections connections direction).clients = context.clients := by
  cases direction <;> rfl

theorem registry_openPort (direction : PortDirection) (ready : Status) (env : PortEnv)
    (permitted : Bool) {c : ClientId} (d : DeviceId) (p : PortIndex)
    (hc : c ∈ s.clients → c ∈ s.clientResourceInfo) :
    (s.openPort api direction ready env permitted c d p).state.registry = s.registry := by
  unfold openPort
  split
  · rfl
  · next hlive =>
      have hrecord := hc (not_not.mp hlive)
      split
      · rfl
      · next context hcontext =>
          split
          · rfl
          split
          · rfl
          split
          · rfl
          · split
            · unfold connectToExistingPort
              split_ifs
              · rfl
              · rfl
              · exact registry_keep hcontext (by simp) hrecord rfl
            · unfold createNewPortConnection
              dsimp only
              split_ifs
              · rfl
              · unfold emplacePortConnection
                split_ifs
                · rfl
                · exact registry_keep hcontext (by simp) hrecord rfl

theorem registry_closePortInner (direction : PortDirection) {c : ClientId} (d : DeviceId)
    (p : PortIndex) (hc : c ∈ s.clientResourceInfo) :
    (s.closePortInner api direction c d p).2.registry = s.registry := by
  unfold closePortInner
  split
  · rfl
  · next context hcontext =>
      split
      · rfl
      · split
        · rfl
        · dsimp only
          split_ifs
          · rfl
          · exact registry_keep hcontext (by simp) hc rfl
          · exact registry_keep hcontext (by simp) hc rfl

theorem registry_closePort (direction : PortDirection) {c : ClientId} (d : DeviceId)
    (p : PortIndex) (hc : c ∈ s.clients → c ∈ s.clientResourceInfo) :
    (s.closePort api direction c d p).state.registry = s.registry := by
  unfold closePort
  split
  · rfl
  · next hlive => exact registry_closePortInner api direction d p (hc (not_not.mp hlive))

theorem mem_clientResourceInfo {c : ClientId} :
    c ∈ s.registry.recorded ↔ c ∈ s.clientResourceInfo :=
  Iff.rfl

theorem registry_closePorts (direction : PortDirection) {c : ClientId} (d : DeviceId)
    (ps : List PortIndex) (hc : c ∈ s.clientResourceInfo) :
    (s.closePorts api direction c d ps).registry = s.registry := by
  induction ps generalizing s with
  | nil => rfl
  | cons p ps ih =>
      have hstep := registry_closePortInner api direction d p hc
      have hrecord : c ∈ (s.closePortInner api direction c d p).2.clientResourceInfo := by
        rw [← mem_clientResourceInfo, hstep]
        exact hc
      calc
        (s.closePorts api direction c d (p :: ps)).registry =
            (s.closePortInner api direction c d p).2.registry := ih hrecord
        _ = s.registry := hstep

theorem registry_closePortforDevice {c : ClientId} (d : DeviceId)
    (hc : c ∈ s.clientResourceInfo) :
    (s.closePortforDevice api c d).registry = s.registry := by
  have hinput := registry_closePorts api .input d (s.portIndexes .input d) hc
  unfold closePortforDevice
  dsimp only
  rw [registry_closePorts api .output d _ ?_, hinput]
  rw [← mem_clientResourceInfo, hinput]
  exact hc

/-! ### Closing a device -/

theorem registry_leaveContext (c : ClientId) (d : DeviceId) (s : MidiServiceController M) :
    (s.leaveContext c d).registry = s.registry.leave c {d} := by
  unfold leaveContext
  cases hcontext : s.deviceClientContexts.lookup d with
  | none =>
      have hkept : d ∉ s.registry.kept := AList.lookup_eq_none.mp hcontext
      ext x y
      · rfl
      · rfl
      · rfl
      · constructor
        · rintro hx
          refine ⟨hx, ?_⟩
          rintro rfl
          contradiction
        · exact fun hx => hx.1
      · constructor
        · rintro hy
          refine ⟨hy, ?_⟩
          rintro ⟨_, rfl⟩
          exact hkept (kept_of_mem_users hy)
        · exact fun hy => hy.1
  | some context =>
      have husers : ∀ x, x ∈ context.clients.erase c ↔ x ≠ c ∧ x ∈ s.registry.users d := by
        intro x
        rw [AList.mem_erase, mem_users hcontext]
      dsimp only
      split
      · next hempty =>
          have hnone : ∀ x, x ∈ s.registry.users d → x = c := by
            intro x hx
            by_contra hne
            have hmem := AList.mem_keys.mp ((husers x).mpr ⟨hne, hx⟩)
            rw [List.isEmpty_iff.mp hempty] at hmem
            contradiction
          ext x y
          · rfl
          · rfl
          · rfl
          · change x ∈ (s.eraseContext d).registry.kept ↔ _
            rw [kept_eraseContext]
            constructor
            · exact fun hx => ⟨hx.2, fun hd => absurd hd hx.1⟩
            · rintro ⟨hx, himp⟩
              refine ⟨?_, hx⟩
              rintro rfl
              obtain ⟨z, hz, hza⟩ := himp rfl
              exact hza (hnone z hz)
          · change y ∈ (s.eraseContext d).registry.users x ↔ _
            rw [users_eraseContext]
            constructor
            · exact fun hy => ⟨hy.2, fun hc => hy.1 hc.2⟩
            · rintro ⟨hy, hnot⟩
              refine ⟨?_, hy⟩
              rintro rfl
              exact hnot ⟨hnone y hy, rfl⟩
      · next hsome =>
          have hrest : ∃ x ∈ s.registry.users d, x ≠ c := by
            obtain ⟨x, hx⟩ := List.exists_mem_of_ne_nil _ (fun h => hsome (List.isEmpty_iff.mpr h))
            have hmem := (husers x).mp (AList.mem_keys.mpr hx)
            exact ⟨x, hmem.2, hmem.1⟩
          ext x y
          · rfl
          · rfl
          · rfl
          · rw [kept_setContext]
            constructor
            · rintro (rfl | hx)
              · exact ⟨UnorderedMap.mem_of_lookup hcontext, fun _ => hrest⟩
              · refine ⟨hx, ?_⟩
                rintro rfl
                exact hrest
            · exact fun hx => Or.inr hx.1
          · rw [users_setContext]
            split
            · next h =>
                subst h
                rw [husers]
                constructor
                · exact fun hy => ⟨hy.2, fun hc => hy.1 hc.1⟩
                · exact fun hy => ⟨fun hc => hy.2 ⟨hc, rfl⟩, hy.1⟩
            · next h => exact ⟨fun hy => ⟨hy, fun hc => h hc.2⟩, fun hy => hy.1⟩

theorem registry_forget (c : ClientId) (d : DeviceId) (s : MidiServiceController M) :
    (s.setResourceInfo c
      { s.resourceInfo c with
        openDevices := (s.resourceInfo c).openDevices.erase d }).registry =
      s.registry.forget c d := by
  ext x y
  · rfl
  · exact AList.mem_insert _
  · change y ∈ ((s.setResourceInfo c _).resourceInfo x).openDevices ↔
      y ∈ (s.resourceInfo x).openDevices ∧ ¬(x = c ∧ y = d)
    rw [resourceInfo_setResourceInfo]
    split
    · next h =>
        rw [AList.mem_erase, h]
        tauto
    · next h => simp [h]
  · rfl
  · rfl

/-! ### A client goes away -/

theorem registry_cleanupDeviceForClient {c : ClientId} (d : DeviceId)
    (hc : c ∈ s.clientResourceInfo) :
    (s.cleanupDeviceForClient api c d).registry = s.registry.leave c {d} := by
  unfold cleanupDeviceForClient
  split
  · next hcontext =>
      have hleave := registry_leaveContext c d s
      unfold leaveContext at hleave
      rw [AList.lookup_eq_none.mpr hcontext] at hleave
      exact hleave
  · rw [registry_leaveContext, registry_closePortforDevice api d hc]

theorem registry_cleanupDevices {c : ClientId} (ds : List DeviceId)
    (hc : c ∈ s.clientResourceInfo) :
    (ds.foldl (fun s d => s.cleanupDeviceForClient api c d) s).registry =
      s.registry.leave c {d | d ∈ ds} := by
  induction ds generalizing s with
  | nil =>
      ext x y <;> simp [Mirror.leave]
  | cons d ds ih =>
      have hstep := registry_cleanupDeviceForClient api d hc
      have hrecord : c ∈ (s.cleanupDeviceForClient api c d).clientResourceInfo := by
        rw [← mem_clientResourceInfo, hstep]
        exact hc
      rw [List.foldl_cons, ih hrecord, hstep, Mirror.leave_leave]
      simp only [Set.mem_singleton_iff, Set.mem_ofPred_eq, List.mem_cons]

theorem mem_devicesToClean {c : ClientId} {d : DeviceId} :
    d ∈ (s.collectDevicesForClientDestruction c).1 ↔ c ∈ s.registry.users d := by
  unfold collectDevicesForClientDestruction
  simp only [List.mem_map, List.mem_filter, decide_eq_true_eq]
  constructor
  · rintro ⟨e, ⟨he, hc⟩, rfl⟩
    exact ⟨e.2, UnorderedMap.mem_entries.mp he, hc⟩
  · rintro ⟨context, hcontext, hc⟩
    exact ⟨⟨d, context⟩, ⟨UnorderedMap.mem_entries.mpr hcontext, hc⟩, rfl⟩

theorem registry_dismiss (c : ClientId) (uid : Uid) (s : MidiServiceController M) :
    (((s.cleanupClientResources c uid).removePendingBleConnectionsForClient c).eraseClient
      c).registry = s.registry.dismiss c := by
  ext x y
  · exact AList.mem_erase.trans and_comm
  · exact AList.mem_erase.trans and_comm
  · change y ∈ (((s.clientResourceInfo.erase c).lookup x).getD {}).openDevices ↔
      y ∈ ((s.clientResourceInfo.lookup x).getD {}).openDevices ∧ x ≠ c
    rw [UnorderedMap.lookup_erase_eq]
    split
    · next h => simp [h]
    · next h => simp [h]
  · rfl
  · rfl

theorem registry_removeDeathRecipient (c : ClientId) (s : MidiServiceController M) :
    (s.removeDeathRecipient c).registry = s.registry := by
  unfold removeDeathRecipient
  split <;> rfl

theorem registry_destroyMidiClient {c : ClientId} (hlive : c ∈ s.clients)
    (hc : c ∈ s.clientResourceInfo) :
    (s.destroyMidiClient api c).state.registry =
      (s.registry.leave c {d | c ∈ s.registry.users d}).dismiss c := by
  have hdevices : {d | d ∈ (s.collectDevicesForClientDestruction c).1} =
      {d | c ∈ s.registry.users d} := by
    ext d
    exact mem_devicesToClean
  have hrecord : c ∈ (s.removeDeathRecipient c).clientResourceInfo := by
    rw [← mem_clientResourceInfo, registry_removeDeathRecipient]
    exact hc
  unfold destroyMidiClient
  rw [if_neg (not_not.mpr hlive)]
  dsimp only
  rw [registry_dismiss, registry_cleanupDevices api _ hrecord, registry_removeDeathRecipient,
    hdevices]

/-! ### A device goes away -/

theorem cleanupClientResourceForDevice_spec (c : ClientId) (d : DeviceId) (n : Nat)
    (s : MidiServiceController M) :
    ∃ infos, s.cleanupClientResourceForDevice c d n = { s with clientResourceInfo := infos } ∧
      (∀ x, x ∈ infos ↔ x ∈ s.clientResourceInfo) ∧
      ∀ x, (s.cleanupClientResourceForDevice c d n).resourceInfo x =
        if x = c then (s.resourceInfo x).release d n else s.resourceInfo x := by
  unfold cleanupClientResourceForDevice
  cases hinfo : s.clientResourceInfo.lookup c with
  | none =>
      refine ⟨s.clientResourceInfo, rfl, fun _ => Iff.rfl, ?_⟩
      intro x
      by_cases h : x = c
      · rw [if_pos h, h, resourceInfo_of_notMem (AList.lookup_eq_none.mp hinfo)]
        simp only [ClientResourceInfo.release, Nat.zero_sub]
        rfl
      · rw [if_neg h]
  | some info =>
      have hvalue : s.resourceInfo c = info := by
        unfold resourceInfo UnorderedMap.getD
        rw [hinfo]
        rfl
      refine ⟨s.clientResourceInfo.insert c (info.release d n), rfl, ?_, ?_⟩
      · intro x
        rw [AList.mem_insert]
        constructor
        · rintro (rfl | hx)
          · exact UnorderedMap.mem_of_lookup hinfo
          · exact hx
        · exact Or.inr
      · intro x
        dsimp only
        rw [resourceInfo_setResourceInfo]
        split
        · next h => rw [h, hvalue]
        · rfl

/-- The loop of `CleanupDeviceContext`. -/
def cleanupClients (d : DeviceId) (count : ClientId → Nat) (cs : List ClientId)
    (s : MidiServiceController M) : MidiServiceController M :=
  cs.foldl (fun s c => s.cleanupClientResourceForDevice c d (count c)) s

/-- The loop meets every client once, so it takes the count of each client off once. -/
theorem cleanupClients_spec (d : DeviceId) (count : ClientId → Nat) {cs : List ClientId}
    (hnodup : cs.Nodup) (s : MidiServiceController M) :
    ∃ infos, s.cleanupClients d count cs = { s with clientResourceInfo := infos } ∧
      (∀ x, x ∈ infos ↔ x ∈ s.clientResourceInfo) ∧
      ∀ x, (s.cleanupClients d count cs).resourceInfo x =
        if x ∈ cs then (s.resourceInfo x).release d (count x) else s.resourceInfo x := by
  induction cs generalizing s with
  | nil => exact ⟨s.clientResourceInfo, rfl, fun _ => Iff.rfl, fun x => by simp [cleanupClients]⟩
  | cons a cs ih =>
      obtain ⟨ha, hcs⟩ := List.nodup_cons.mp hnodup
      obtain ⟨infos, heq, hmem, hinfo⟩ := cleanupClientResourceForDevice_spec a d (count a) s
      obtain ⟨infos', heq', hmem', hinfo'⟩ :=
        ih hcs (s.cleanupClientResourceForDevice a d (count a))
      refine ⟨infos', ?_, ?_, ?_⟩
      · rw [cleanupClients, List.foldl_cons]
        rw [cleanupClients] at heq'
        rw [heq', heq]
      · intro x
        rw [hmem', heq]
        exact hmem x
      · intro x
        have hfold : s.cleanupClients d count (a :: cs) =
            (s.cleanupClientResourceForDevice a d (count a)).cleanupClients d count cs := rfl
        rw [hfold, hinfo', hinfo]
        by_cases hxa : x = a
        · subst hxa
          rw [if_neg ha, if_pos rfl, if_pos List.mem_cons_self]
        · simp only [List.mem_cons, hxa, false_or, if_false]

theorem registry_cleanupDeviceContext (d : DeviceId) (s : MidiServiceController M) :
    (s.cleanupDeviceContext d).registry = s.registry.drop d := by
  unfold cleanupDeviceContext
  cases hcontext : s.deviceClientContexts.lookup d with
  | none =>
      have hkept : d ∉ s.registry.kept := AList.lookup_eq_none.mp hcontext
      ext x y
      · rfl
      · rfl
      · exact ⟨fun hy => ⟨hy, fun hd => hkept hd.2.1⟩, fun hy => hy.1⟩
      · constructor
        · intro hx
          refine ⟨hx, ?_⟩
          rintro rfl
          contradiction
        · exact fun hx => hx.1
      · constructor
        · intro hy
          refine ⟨hy, ?_⟩
          rintro rfl
          exact hkept (kept_of_mem_users hy)
        · exact fun hy => hy.1
  | some context =>
      have hkept : d ∈ s.registry.kept := UnorderedMap.mem_of_lookup hcontext
      obtain ⟨infos, heq, hmem, hinfo⟩ := cleanupClients_spec d
        (fun c => calculateClientPortCount c context) context.clients.keys_nodup s
      set t := s.cleanupClients d (fun c => calculateClientPortCount c context)
        context.clients.keys
      change (t.eraseContext d).registry = _
      have hcontexts : t.deviceClientContexts = s.deviceClientContexts := by
        rw [heq]
      have husers : t.registry.users = s.registry.users := by
        unfold registry
        rw [hcontexts]
      have hkepts : t.registry.kept = s.registry.kept := by
        unfold registry
        rw [hcontexts]
      ext x y
      · change x ∈ t.clients ↔ _
        rw [heq]
        rfl
      · change x ∈ t.clientResourceInfo ↔ _
        rw [heq]
        exact hmem x
      · change y ∈ (t.resourceInfo x).openDevices ↔
          y ∈ (s.resourceInfo x).openDevices ∧ ¬(y = d ∧ d ∈ s.registry.kept ∧
            x ∈ s.registry.users d)
        rw [hinfo, mem_users hcontext]
        by_cases hx : x ∈ context.clients
        · rw [if_pos (AList.mem_keys.mp hx)]
          change y ∈ (s.resourceInfo x).openDevices.erase d ↔ _
          rw [AList.mem_erase]
          tauto
        · rw [if_neg (fun h => hx (AList.mem_keys.mpr h))]
          tauto
      · rw [kept_eraseContext, hkepts]
        exact and_comm
      · rw [users_eraseContext, husers]
        exact and_comm

/-! ### Opening and registering -/

theorem searchClientId_notMem {clients : UnorderedMap ClientId MidiInServer} {c : ClientId} :
    ∀ (rounds : Nat) (current : ClientId),
      searchClientId clients rounds current = some c → c ∉ clients
  | 0, _, h => by simp [searchClientId] at h
  | rounds + 1, current, h => by
      unfold searchClientId at h
      dsimp only at h
      split at h
      · exact searchClientId_notMem rounds _ h
      · next hfresh =>
          rw [← Option.some.inj h]
          exact hfresh

theorem registry_enrol {c : ClientId} {t : MidiServiceController M} (server : MidiInServer)
    (info : ClientResourceInfo) (hfresh : c ∉ s.clients)
    (hinfo : info.openDevices = (s.resourceInfo c).openDevices)
    (hclients : t.clients = s.clients.emplace c server)
    (hinfos : t.clientResourceInfo = s.clientResourceInfo.insert c info)
    (hcontexts : t.deviceClientContexts = s.deviceClientContexts) :
    t.registry = s.registry.enrol c := by
  have hopens : ∀ x, (t.resourceInfo x).openDevices = (s.resourceInfo x).openDevices := by
    intro x
    unfold resourceInfo UnorderedMap.getD
    rw [hinfos, UnorderedMap.lookup_insert_eq]
    split
    · next h => rw [h, Option.getD_some, hinfo]; rfl
    · rfl
  ext x y
  · change x ∈ t.clients ↔ _
    rw [hclients, UnorderedMap.emplace_of_notMem hfresh]
    exact AList.mem_insert _
  · change x ∈ t.clientResourceInfo ↔ _
    rw [hinfos]
    exact AList.mem_insert _
  · change y ∈ (t.resourceInfo x).openDevices ↔ _
    rw [hopens]
    rfl
  · change x ∈ t.deviceClientContexts ↔ _
    rw [hcontexts]
    rfl
  · unfold registry
    rw [hcontexts]
    rfl

/-- A client is created under an id that no client has, or the registry stays as it is. -/
theorem registry_createMidiInServer (uid : Uid) (object : RemoteObject) (server : MidiInServer)
    (added : Bool) (s : MidiServiceController M) :
    (s.createMidiInServer uid object server added).state.registry = s.registry ∨
      ∃ c, c ∉ s.clients ∧
        (s.createMidiInServer uid object server added).state.registry = s.registry.enrol c := by
  unfold createMidiInServer
  dsimp only
  split
  · exact Or.inl rfl
  split
  · exact Or.inl rfl
  split
  · exact Or.inl rfl
  · next c hsearch =>
      split
      · exact Or.inl rfl
      · have hfresh := searchClientId_notMem _ _ hsearch
        refine Or.inr ⟨c, hfresh, ?_⟩
        apply registry_enrol server { s.resourceInfo c with uid := uid } hfresh
        · rfl
        · rfl
        · rfl
        · rfl

theorem registry_openDevice (permitted : Bool) (c : ClientId) (d : DeviceId)
    (s : MidiServiceController M) :
    (s.openDevice api permitted c d).state.registry = s.registry ∨
      c ∈ s.clients ∧ (s.resourceInfo c).openDevices.size < maxDevicesPerClient ∧
        (s.openDevice api permitted c d).state.registry = s.registry.attach {x | x ∈ [c]} d := by
  unfold openDevice
  split
  · exact Or.inl rfl
  next hlive =>
  split
  · exact Or.inl rfl
  split
  · exact Or.inl rfl
  next hroom =>
  split
  · next context hcontext =>
      split
      · exact Or.inl rfl
      · refine Or.inr ⟨not_not.mp hlive, not_le.mp hroom, ?_⟩
        apply registry_attach [c]
        intro x
        rw [UnorderedSet.mem_add, mem_users hcontext, List.mem_singleton]
  · next hcontext =>
      dsimp only
      split
      · exact Or.inl rfl
      · refine Or.inr ⟨not_not.mp hlive, not_le.mp hroom, ?_⟩
        apply registry_attach (s := { s with deviceManager := _ }) [c]
        intro x
        rw [UnorderedSet.mem_add, List.mem_singleton]
        exact or_congr_right (mem_empty_iff_users hcontext)

theorem registry_openBleDevice (c : ClientId) (address : Address) (callback : RemoteObject)
    (s : MidiServiceController M) :
    (s.openBleDevice api c address callback).state.registry = s.registry ∨
      c ∈ s.clients ∧ (s.resourceInfo c).openDevices.size < maxDevicesPerClient ∧ ∃ d,
        (s.openBleDevice api c address callback).state.registry =
          s.registry.attach {x | x ∈ [c]} d := by
  unfold openBleDevice
  split
  · exact Or.inl rfl
  next hlive =>
  split
  · exact Or.inl rfl
  next hroom =>
  split
  · next t info hattach =>
      unfold tryAttachToActiveBleDevice at hattach
      split at hattach
      · contradiction
      · next d _ =>
          split at hattach
          · contradiction
          · next context hcontext =>
              obtain ⟨rfl, _⟩ := Prod.mk.inj (Option.some.inj hattach)
              refine Or.inr ⟨not_not.mp hlive, not_le.mp hroom, d, ?_⟩
              apply registry_attach [c]
              intro x
              rw [UnorderedSet.mem_add, mem_users hcontext, List.mem_singleton]
  · left
    unfold enqueueBleConnectionRequest
    split
    · rfl
    · dsimp only
      split <;> rfl

/-- The clients that wait for an address and are alive, in the order of their requests. -/
def initialClients (address : Address) (s : MidiServiceController M) : List ClientId :=
  ((s.pendingBleConnections.getD address []).map PendingBleConnection.clientId).filter
    fun c => decide (c ∈ s.clients)

theorem mem_initialClients {address : Address} {c : ClientId} (h : c ∈ s.initialClients address) :
    c ∈ s.clients :=
  of_decide_eq_true (List.mem_filter.mp h).2

/-- A completed open registers the waiting clients that are alive. -/
theorem registry_handleBleOpenComplete (address : Address) (success : Bool) (d : DeviceId)
    (info : MidiDeviceInfo) (s : MidiServiceController M) :
    (s.handleBleOpenComplete address success d info).state.registry = s.registry ∨
      success = true ∧ s.initialClients address ≠ [] ∧
        (s.handleBleOpenComplete address success d info).state.registry =
          s.registry.attach {x | x ∈ s.initialClients address} d := by
  unfold handleBleOpenComplete
  dsimp only
  split
  · next hsuccess =>
      unfold registerBleDeviceForPendingClientsLocked
      dsimp only
      set cs := (((s.pendingBleConnections.getD address []).map
        PendingBleConnection.clientId).filter fun c => decide (c ∈ s.clients)) with hcs
      set t : MidiServiceController M :=
        { s with
          pendingBleConnections := s.pendingBleConnections.erase address
          activeBleDevices := s.activeBleDevices.insert address d } with ht
      have hcontexts : (t.addOpenDevices cs d).deviceClientContexts = s.deviceClientContexts := by
        obtain ⟨infos, heq, _⟩ := addOpenDevices_spec cs d t
        rw [heq]
      split
      · next hempty =>
          left
          rw [List.isEmpty_iff.mp hempty]
          rfl
      · next hsome =>
          refine Or.inr ⟨hsuccess, fun h => hsome (List.isEmpty_iff.mpr h), ?_⟩
          split
          · next context hcontext =>
              change (t.addOpenDevices cs d).deviceClientContexts.lookup d = some context at hcontext
              rw [hcontexts] at hcontext
              apply registry_attach (s := t) cs
              intro x
              rw [UnorderedSet.mem_addAll]
              exact or_congr_right (mem_users hcontext).symm
          · next hcontext =>
              change (t.addOpenDevices cs d).deviceClientContexts.lookup d = none at hcontext
              rw [hcontexts] at hcontext
              apply registry_attach (s := t) cs
              intro x
              rw [UnorderedSet.mem_addAll]
              exact or_congr_right (mem_empty_iff_users hcontext)
  · exact Or.inl rfl

theorem registry_closeDevice (c : ClientId) (d : DeviceId)
    (hc : c ∈ s.clients → c ∈ s.clientResourceInfo) :
    (s.closeDevice api c d).state.registry = s.registry ∨
      c ∈ s.clients ∧
        (s.closeDevice api c d).state.registry = (s.registry.forget c d).leave c {d} := by
  unfold closeDevice
  split
  · exact Or.inl rfl
  next hlive =>
  split
  · exact Or.inl rfl
  split
  · exact Or.inl rfl
  · refine Or.inr ⟨not_not.mp hlive, ?_⟩
    dsimp only
    rw [registry_leaveContext, registry_forget,
      registry_closePortforDevice api d (hc (not_not.mp hlive))]

end MidiServiceController

/-! ### Runs of the controller -/

/-- The locked sections of the controller. The booleans and environments are the answers of the
calls that leave the repository. -/
inductive ControllerOp (M : Type)
  | createMidiInServer (callingUid : Uid) (object : RemoteObject) (server : MidiInServer)
      (added : Bool)
  | openDevice (permitted : Bool) (clientId : ClientId) (deviceId : DeviceId)
  | openBleDevice (clientId : ClientId) (address : Address) (callback : RemoteObject)
  | handleBleOpenComplete (address : Address) (success : Bool) (deviceId : DeviceId)
      (deviceInfo : MidiDeviceInfo)
  | openInputPort (env : MidiServiceController.PortEnv) (permitted : Bool) (clientId : ClientId)
      (deviceId : DeviceId) (portIndex : PortIndex)
  | openOutputPort (env : MidiServiceController.PortEnv) (permitted : Bool) (clientId : ClientId)
      (deviceId : DeviceId) (portIndex : PortIndex)
  | closeInputPort (clientId : ClientId) (deviceId : DeviceId) (portIndex : PortIndex)
  | closeOutputPort (clientId : ClientId) (deviceId : DeviceId) (portIndex : PortIndex)
  | closeDevice (clientId : ClientId) (deviceId : DeviceId)
  | destroyMidiClient (clientId : ClientId)
  | finishDestroyMidiClient
  | notifyDeviceChange (change : DeviceChangeType) (deviceId : DeviceId)

namespace ControllerOp

variable {M : Type} (api : DeviceManager M)

/-- The state a locked section leaves. -/
def run (s : MidiServiceController M) : ControllerOp M → MidiServiceController M
  | createMidiInServer uid object server added =>
      (s.createMidiInServer uid object server added).state
  | openDevice permitted c d => (s.openDevice api permitted c d).state
  | openBleDevice c address callback => (s.openBleDevice api c address callback).state
  | handleBleOpenComplete address success d info =>
      (s.handleBleOpenComplete address success d info).state
  | openInputPort env permitted c d p => (s.openInputPort api env permitted c d p).state
  | openOutputPort env permitted c d p => (s.openOutputPort api env permitted c d p).state
  | closeInputPort c d p => (s.closeInputPort api c d p).state
  | closeOutputPort c d p => (s.closeOutputPort api c d p).state
  | closeDevice c d => (s.closeDevice api c d).state
  | destroyMidiClient c => (s.destroyMidiClient api c).state
  | finishDestroyMidiClient => s.finishDestroyMidiClient
  | notifyDeviceChange change d => s.notifyDeviceChange change d

end ControllerOp

/-- What changes without a locked section: the manager and the order of the unordered maps. -/
inductive Unlocked {M : Type} (s : MidiServiceController M) : MidiServiceController M → Prop
  | manager (m : M) : Unlocked s { s with deviceManager := m }
  | rehash {contexts : UnorderedMap DeviceId DeviceClientContext}
      {active : UnorderedMap Address DeviceId}
      (hcontexts : s.deviceClientContexts.Rehash contexts)
      (hactive : s.activeBleDevices.Rehash active) :
      Unlocked s { s with deviceClientContexts := contexts, activeBleDevices := active }

/-- The controller from its construction on, over a manager of any behaviour. -/
def controllerMachine {M : Type} (api : DeviceManager M) :
    Machine (MidiServiceController M) (Option (ControllerOp M)) where
  init := fun s => ∃ m, s = { deviceManager := m }
  step := fun s label t =>
    match label with
    | some op => t = op.run api s
    | none => Unlocked s t

namespace MidiServiceController

variable {M : Type} (api : DeviceManager M) {s t : MidiServiceController M}

theorem registry_unlocked (h : Unlocked s t) : t.registry = s.registry := by
  cases h with
  | manager m => rfl
  | @rehash contexts _ hcontexts _ =>
      ext x y
      · rfl
      · rfl
      · rfl
      · exact (AList.mem_of_perm hcontexts).symm
      · change (∃ context, contexts.lookup x = some context ∧ y ∈ context.clients) ↔ _
        rw [hcontexts.lookup]
        rfl

theorem registry_notifyDeviceChange (change : DeviceChangeType) (d : DeviceId)
    (s : MidiServiceController M) :
    (s.notifyDeviceChange change d).registry = s.registry ∨
      (s.notifyDeviceChange change d).registry = s.registry.drop d := by
  cases change with
  | add => exact Or.inl rfl
  | removed =>
      right
      exact registry_cleanupDeviceContext d (s.removeFromActiveBleDevices d)

/-- What a locked section registers: a completed open the waiting clients that are alive, any
other section a client below its quota. -/
def Registers (s : MidiServiceController M) (cs : Set ClientId) (d : DeviceId) :
    ControllerOp M → Prop
  | .handleBleOpenComplete address success d' _ =>
      success = true ∧ s.initialClients address ≠ [] ∧ d = d' ∧
        cs = {c | c ∈ s.initialClients address}
  | _ => ∃ c ∈ s.clients, (s.resourceInfo c).openDevices.size < maxDevicesPerClient ∧
      cs = {x | x ∈ [c]}

/-- Every locked section is a move of the registry. -/
theorem registry_run (h : s.registry.Consistent) (op : ControllerOp M) :
    s.registry.Move (fun cs d => s.Registers cs d op) (op.run api s).registry := by
  have hrecord : ∀ c, c ∈ s.clients → c ∈ s.clientResourceInfo := fun c => (h.recorded c).mpr
  cases op with
  | createMidiInServer uid object server added =>
      rcases registry_createMidiInServer uid object server added s with heq | ⟨c, _, heq⟩
      · exact heq.symm ▸ .keep
      · exact heq.symm ▸ .enrol c
  | openDevice permitted c d =>
      rcases registry_openDevice api permitted c d s with heq | ⟨hlive, hroom, heq⟩
      · exact heq.symm ▸ .keep
      · exact heq.symm ▸ .attach ⟨c, hlive, hroom, rfl⟩
  | openBleDevice c address callback =>
      rcases registry_openBleDevice api c address callback s with heq | ⟨hlive, hroom, d, heq⟩
      · exact heq.symm ▸ .keep
      · exact heq.symm ▸ .attach ⟨c, hlive, hroom, rfl⟩
  | handleBleOpenComplete address success d info =>
      rcases registry_handleBleOpenComplete address success d info s with
        heq | ⟨hsuccess, hne, heq⟩
      · exact heq.symm ▸ .keep
      · exact heq.symm ▸ .attach ⟨hsuccess, hne, rfl, rfl⟩
  | openInputPort env permitted c d p =>
      have heq := registry_openPort api .input env.add env permitted d p (hrecord c)
      exact heq.symm ▸ .keep
  | openOutputPort env permitted c d p =>
      have heq := registry_openPort api .output (if env.start ≠ .ok then env.start else env.add)
        env permitted d p (hrecord c)
      exact heq.symm ▸ .keep
  | closeInputPort c d p =>
      have heq := registry_closePort api .input d p (hrecord c)
      exact heq.symm ▸ .keep
  | closeOutputPort c d p =>
      have heq := registry_closePort api .output d p (hrecord c)
      exact heq.symm ▸ .keep
  | closeDevice c d =>
      rcases registry_closeDevice api c d (hrecord c) with heq | ⟨hlive, heq⟩
      · exact heq.symm ▸ .keep
      · exact heq.symm ▸ .detach d hlive
  | destroyMidiClient c =>
      by_cases hlive : c ∈ s.clients
      · have heq := registry_destroyMidiClient api hlive (hrecord c hlive)
        exact heq.symm ▸ .dismiss c
      · have heq : (s.destroyMidiClient api c).state = s := by
          unfold destroyMidiClient
          rw [if_pos hlive]
        exact (congrArg registry heq).symm ▸ .keep
  | finishDestroyMidiClient =>
      have heq : s.finishDestroyMidiClient.registry = s.registry := by
        unfold finishDestroyMidiClient
        split <;> rfl
      exact heq.symm ▸ .keep
  | notifyDeviceChange change d =>
      rcases registry_notifyDeviceChange change d s with heq | heq
      · exact heq.symm ▸ .keep
      · exact heq.symm ▸ .drop d

theorem live_of_registers {cs : Set ClientId} {d : DeviceId} {op : ControllerOp M}
    (h : s.Registers cs d op) : cs.Nonempty ∧ ∀ c ∈ cs, c ∈ s.registry.live := by
  have hclient : (∃ c ∈ s.clients, (s.resourceInfo c).openDevices.size < maxDevicesPerClient ∧
      cs = {x | x ∈ [c]}) → cs.Nonempty ∧ ∀ c ∈ cs, c ∈ s.registry.live := by
    rintro ⟨c, hlive, _, rfl⟩
    constructor
    · exact ⟨c, List.mem_singleton_self c⟩
    · intro x hx
      exact List.mem_singleton.mp hx ▸ hlive
  cases op with
  | handleBleOpenComplete address success d' info =>
      obtain ⟨_, hne, _, rfl⟩ := h
      exact ⟨List.exists_mem_of_ne_nil _ hne, fun _ => mem_initialClients⟩
  | _ => exact hclient h

/-- Every locked section keeps the two tables of the registry consistent. -/
theorem consistent_run (h : s.registry.Consistent) (op : ControllerOp M) :
    (op.run api s).registry.Consistent :=
  h.move (fun _ _ => live_of_registers) (registry_run api h op)

theorem consistent_initial (m : M) :
    ({ deviceManager := m } : MidiServiceController M).registry.Consistent where
  mirrored := fun _ _ => ⟨fun h => absurd h (AList.notMem_empty _),
    fun h => absurd h.1 (AList.notMem_empty _)⟩
  inhabited := fun _ h => absurd h (AList.notMem_empty _)
  registered := fun _ h => absurd h (AList.notMem_empty _)
  recorded := fun _ => Iff.rfl

theorem consistent_reachable (reach : (controllerMachine api).Reachable s) :
    s.registry.Consistent := by
  apply reach.invariant fun s => s.registry.Consistent
  · rintro s ⟨m, rfl⟩
    exact consistent_initial m
  · intro s label t _ h _ move
    cases label with
    | none => exact (registry_unlocked move).symm ▸ h
    | some op => exact move.symm ▸ consistent_run api h op

/-- The records of the clients and the contexts of the devices tell the same: a device is among
the open devices of a client exactly when its context contains the client, no context is without
clients, and the clients of a context are registered. -/
theorem device_registry_consistent (reach : (controllerMachine api).Reachable s) :
    (∀ c d, d ∈ (s.resourceInfo c).openDevices ↔
      ∃ context, s.deviceClientContexts.lookup d = some context ∧ c ∈ context.clients) ∧
    (∀ d context, s.deviceClientContexts.lookup d = some context → ∃ c, c ∈ context.clients) ∧
    ∀ d context c, s.deviceClientContexts.lookup d = some context → c ∈ context.clients →
      c ∈ s.clients := by
  have h := consistent_reachable api reach
  refine ⟨?_, ?_, ?_⟩
  · intro c d
    exact (h.mirrored c d).trans ⟨fun hd => hd.2, fun hd => ⟨kept_of_mem_users hd, hd⟩⟩
  · intro d context hcontext
    obtain ⟨c, hc⟩ := h.inhabited d (UnorderedMap.mem_of_lookup hcontext)
    exact ⟨c, (mem_users hcontext).mp hc⟩
  · intro d context c hcontext hc
    exact h.registered d (UnorderedMap.mem_of_lookup hcontext) c ((mem_users hcontext).mpr hc)

/-- A manager that opens everything. -/
def openingManager : DeviceManager Unit where
  openDevice := fun _ m => (.ok, m)
  openBleDevice := fun _ m => (.ok, m)
  getDeviceForDeviceId := fun _ _ => {}
  getDevicePorts := fun _ _ => (.ok, [])
  openPort := fun _ _ _ m => (.ok, m)
  closePort := fun _ _ _ m => (.ok, m)

/-- The state after the sections of a list. -/
def runAll (s : MidiServiceController M) (ops : List (ControllerOp M)) : MidiServiceController M :=
  ops.foldl (ControllerOp.run api) s

theorem reachable_runAll (ops : List (ControllerOp M))
    (reach : (controllerMachine api).Reachable s) :
    (controllerMachine api).Reachable (s.runAll api ops) := by
  induction ops generalizing s with
  | nil => exact reach
  | cons op ops ih => exact ih (reach.step (l := some op) trivial rfl)

/-- Two clients open a device and an input port of it. -/
def sharedDevice : MidiServiceController Unit :=
  runAll openingManager { deviceManager := () }
    [.createMidiInServer 7 0 {} true, .createMidiInServer 7 1 {} true, .openDevice true 1 1001,
      .openDevice true 2 1001, .openInputPort {} true 1 1001 0, .openInputPort {} true 2 1001 0]

theorem reachable_sharedDevice : (controllerMachine openingManager).Reachable sharedDevice :=
  reachable_runAll openingManager _ (.init ⟨(), rfl⟩)

theorem device_registry_consistent_shared :
    (∀ c d, d ∈ (sharedDevice.resourceInfo c).openDevices ↔
      ∃ context, sharedDevice.deviceClientContexts.lookup d = some context ∧
        c ∈ context.clients) ∧
    (∀ d context, sharedDevice.deviceClientContexts.lookup d = some context →
      ∃ c, c ∈ context.clients) ∧
    ∀ d context c, sharedDevice.deviceClientContexts.lookup d = some context →
      c ∈ context.clients → c ∈ sharedDevice.clients :=
  device_registry_consistent openingManager reachable_sharedDevice

end MidiServiceController

end MidiFramework.Server
