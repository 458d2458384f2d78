import MidiFramework.Server.Registry

/-!
# Port accounting

A client's record counts the port connections the client is part of. The
count follows the connections through opening, sharing, closing and the loss
of a device, and the connections of a device stay within its context.
-/

namespace MidiFramework.Server

open Foundation

/-- A connection of a device whose context has these clients. -/
structure DeviceConnection.Sound (users : UnorderedSet ClientId) (conn : DeviceConnection) :
    Prop where
  inhabited : conn.clients ≠ []
  distinct : conn.clients.Nodup
  members : ∀ c ∈ conn.clients, c ∈ users

def DeviceClientContext.Sound (context : DeviceClientContext) : Prop :=
  ∀ direction p conn, (context.connections direction).lookup p = some conn →
    conn.Sound context.clients

namespace DeviceConnection

variable {conn : DeviceConnection} {users : UnorderedSet ClientId}

@[simp] theorem hasClientConnection_iff {c : ClientId} :
    conn.hasClientConnection c = true ↔ c ∈ conn.clients := by
  simp [hasClientConnection]

theorem Sound.mono {users' : UnorderedSet ClientId} (h : conn.Sound users)
    (himp : ∀ c ∈ conn.clients, c ∈ users → c ∈ users') : conn.Sound users' :=
  ⟨h.inhabited, h.distinct, fun c hc => himp c hc (h.members c hc)⟩

theorem sound_new {c : ClientId} (hc : c ∈ users) : (addClientConnection {} c).Sound users where
  inhabited := List.cons_ne_nil _ _
  distinct := List.nodup_singleton c
  members := by
    intro x hx
    rw [List.mem_singleton.mp hx]
    exact hc

theorem Sound.addClientConnection (h : conn.Sound users) {c : ClientId} (hc : c ∈ users)
    (hnew : c ∉ conn.clients) : (conn.addClientConnection c).Sound users where
  inhabited := by simp [DeviceConnection.addClientConnection]
  distinct := by
    apply h.distinct.append (List.nodup_singleton c)
    intro x hx hxc
    exact hnew (List.mem_singleton.mp hxc ▸ hx)
  members := by
    intro x hx
    rcases List.mem_append.mp hx with hx | hx
    · exact h.members x hx
    · rw [List.mem_singleton.mp hx]
      exact hc

theorem mem_removeClientConnection {c x : ClientId} :
    x ∈ (conn.removeClientConnection c).clients ↔ x ∈ conn.clients ∧ x ≠ c := by
  simp [removeClientConnection]

theorem Sound.removeClientConnection (h : conn.Sound users) {c : ClientId}
    (hne : (conn.removeClientConnection c).isEmptyClientConnections = false) :
    (conn.removeClientConnection c).Sound users where
  inhabited := by
    intro hnil
    rw [isEmptyClientConnections, hnil] at hne
    contradiction
  distinct := h.distinct.filter _
  members := fun x hx => h.members x (mem_removeClientConnection.mp hx).1

/-- One where the client is part of the connection. -/
def weight (c : ClientId) (conn : DeviceConnection) : Nat :=
  if conn.hasClientConnection c then 1 else 0

theorem weight_eq (c : ClientId) (conn : DeviceConnection) :
    conn.weight c = if c ∈ conn.clients then 1 else 0 := by
  unfold weight
  simp only [hasClientConnection_iff]

theorem weight_addClientConnection {c : ClientId} (hnew : c ∉ conn.clients) (x : ClientId) :
    (conn.addClientConnection c).weight x = conn.weight x + if x = c then 1 else 0 := by
  rw [weight_eq, weight_eq]
  by_cases hx : x = c
  · subst hx
    simp [addClientConnection, hnew]
  · simp [addClientConnection, hx]

theorem weight_removeClientConnection {c : ClientId} (hc : c ∈ conn.clients) (x : ClientId) :
    (conn.removeClientConnection c).weight x + (if x = c then 1 else 0) = conn.weight x := by
  rw [weight_eq, weight_eq]
  simp only [mem_removeClientConnection]
  by_cases hx : x = c
  · subst hx
    simp [hc]
  · simp [hx]

end DeviceConnection

/-- The connections of one direction that a client is part of. -/
def PortConnections.count (c : ClientId) (connections : PortConnections) : Nat :=
  connections.total fun _ conn => conn.weight c

namespace DeviceClientContext

variable {context : DeviceClientContext}

/-- The connections of a device that a client is part of. -/
def portCount (c : ClientId) (context : DeviceClientContext) : Nat :=
  PortConnections.count c (context.connections .input) +
    PortConnections.count c (context.connections .output)

theorem connections_setConnections (connections : PortConnections)
    (direction direction' : PortDirection) :
    (context.setConnections connections direction).connections direction' =
      if direction' = direction then connections else context.connections direction' := by
  cases direction <;> cases direction' <;> rfl

theorem portCount_setConnections (c : ClientId) (connections : PortConnections)
    (direction : PortDirection) :
    (context.setConnections connections direction).portCount c +
        PortConnections.count c (context.connections direction) =
      context.portCount c + PortConnections.count c connections := by
  unfold portCount
  cases direction <;> simp only [connections_setConnections] <;> simp <;> omega

theorem Sound.setConnections (h : context.Sound) {connections : PortConnections}
    (direction : PortDirection)
    (hconn : ∀ p conn, connections.lookup p = some conn → conn.Sound context.clients) :
    (context.setConnections connections direction).Sound := by
  intro direction' p conn hp
  rw [connections_setConnections] at hp
  rw [MidiServiceController.clients_setConnections]
  split at hp
  · exact hconn p conn hp
  · exact h direction' p conn hp

/-- A client outside the context is part of no connection. -/
theorem Sound.portCount_eq_zero (h : context.Sound) {c : ClientId} (hc : c ∉ context.clients) :
    context.portCount c = 0 := by
  have hzero : ∀ direction, PortConnections.count c (context.connections direction) = 0 := by
    intro direction
    calc
      PortConnections.count c (context.connections direction) =
          (context.connections direction).total fun _ _ => 0 := by
        apply UnorderedMap.total_congr
        intro p conn hp
        rw [DeviceConnection.weight_eq, if_neg]
        exact fun hmem => hc ((h direction p conn hp).members c hmem)
      _ = 0 := by simp [UnorderedMap.total]
  unfold portCount
  rw [hzero, hzero]

theorem sound_of_empty (clients : UnorderedSet ClientId) : Sound { clients := clients } := by
  intro direction p conn hp
  cases direction <;> exact absurd (UnorderedMap.mem_of_lookup hp) (AList.notMem_empty p)

theorem Sound.grow (h : context.Sound) {clients : UnorderedSet ClientId}
    (hclients : ∀ c ∈ context.clients, c ∈ clients) :
    Sound { context with clients := clients } := by
  intro direction p conn hp
  have hconn : conn.Sound context.clients := by
    cases direction with
    | input => exact h .input p conn hp
    | output => exact h .output p conn hp
  exact hconn.mono fun c _ hc => hclients c hc

@[simp] theorem portCount_of_empty (c : ClientId) (clients : UnorderedSet ClientId) :
    portCount c { clients := clients } = 0 :=
  rfl

end DeviceClientContext

namespace MidiServiceController

variable {M : Type} (api : DeviceManager M) {s t : MidiServiceController M}

/-- The connections of all devices that a client is part of. -/
def openPorts (s : MidiServiceController M) (c : ClientId) : Nat :=
  s.deviceClientContexts.total fun _ context => context.portCount c

/-- The connections of one device that a client is part of. -/
def openPortsAt (s : MidiServiceController M) (d : DeviceId) (c : ClientId) : Nat :=
  (s.deviceClientContexts.lookup d).elim 0 fun context => context.portCount c

structure Accounted (s : MidiServiceController M) : Prop where
  counted : ∀ c, (s.resourceInfo c).openPortCount = s.openPorts c
  bounded : ∀ c, (s.resourceInfo c).openPortCount ≤ maxPortsPerClient
  sound : ∀ d context, s.deviceClientContexts.lookup d = some context → context.Sound

theorem openPortsAt_of_lookup {d : DeviceId} {context : DeviceClientContext}
    (h : s.deviceClientContexts.lookup d = some context) (c : ClientId) :
    s.openPortsAt d c = context.portCount c := by
  unfold openPortsAt
  rw [h]
  rfl

theorem openPortsAt_le (s : MidiServiceController M) (d : DeviceId) (c : ClientId) :
    s.openPortsAt d c ≤ s.openPorts c := by
  have h := UnorderedMap.total_erase (fun _ context => context.portCount c)
    s.deviceClientContexts d
  unfold openPortsAt openPorts
  omega

/-- States with the same contexts and the same counts. -/
theorem Accounted.keep (h : s.Accounted) (hcontexts : t.deviceClientContexts = s.deviceClientContexts)
    (hcount : ∀ c, (t.resourceInfo c).openPortCount = (s.resourceInfo c).openPortCount) :
    t.Accounted where
  counted := by
    intro c
    rw [hcount, h.counted, openPorts, openPorts, hcontexts]
  bounded := fun c => (hcount c).symm ▸ h.bounded c
  sound := by
    rw [hcontexts]
    exact h.sound

/-- A context changes, and each count changes by as much as the client's part in the context. -/
theorem Accounted.insert (h : s.Accounted) {d : DeviceId} {context : DeviceClientContext}
    (hcontexts : t.deviceClientContexts = s.deviceClientContexts.insert d context)
    (hsound : context.Sound)
    (hcount : ∀ c, (t.resourceInfo c).openPortCount + s.openPortsAt d c =
      (s.resourceInfo c).openPortCount + context.portCount c)
    (hbound : ∀ c, (t.resourceInfo c).openPortCount ≤ maxPortsPerClient) : t.Accounted where
  counted := by
    intro c
    have htotal := UnorderedMap.total_insert (fun _ context => context.portCount c)
      s.deviceClientContexts d context
    have hcounted := h.counted c
    have hcount := hcount c
    unfold openPorts openPortsAt at *
    rw [hcontexts]
    omega
  bounded := hbound
  sound := by
    intro d' context' hlookup
    rw [hcontexts, UnorderedMap.lookup_insert_eq] at hlookup
    split at hlookup
    · rw [← Option.some.inj hlookup]
      exact hsound
    · exact h.sound d' context' hlookup

/-- A context goes away, and each count loses the client's part in it. -/
theorem Accounted.erase (h : s.Accounted) {d : DeviceId}
    (hcontexts : t.deviceClientContexts = s.deviceClientContexts.erase d)
    (hcount : ∀ c, (t.resourceInfo c).openPortCount + s.openPortsAt d c =
      (s.resourceInfo c).openPortCount) : t.Accounted where
  counted := by
    intro c
    have htotal := UnorderedMap.total_erase (fun _ context => context.portCount c)
      s.deviceClientContexts d
    have hcounted := h.counted c
    have hcount := hcount c
    unfold openPorts openPortsAt at *
    rw [hcontexts]
    omega
  bounded := by
    intro c
    have hcount := hcount c
    have hbound := h.bounded c
    omega
  sound := by
    intro d' context' hlookup
    rw [hcontexts, UnorderedMap.lookup_erase_eq] at hlookup
    split at hlookup
    · contradiction
    · exact h.sound d' context' hlookup

/-! ### Opening -/

theorem openPortCount_addOpenDevices (cs : List ClientId) (d : DeviceId)
    (s : MidiServiceController M) (c : ClientId) :
    ((s.addOpenDevices cs d).resourceInfo c).openPortCount =
      (s.resourceInfo c).openPortCount := by
  induction cs generalizing s with
  | nil => rfl
  | cons a cs ih =>
      calc
        ((s.addOpenDevices (a :: cs) d).resourceInfo c).openPortCount =
            ((s.addOpenDevice a d).resourceInfo c).openPortCount := ih _
        _ = (s.resourceInfo c).openPortCount := by
          rw [addOpenDevice, resourceInfo_setResourceInfo]
          split
          · next h => rw [h]
          · rfl

/-- Clients that join a context bring no connections, and the context keeps those it has. -/
theorem Accounted.attach (h : s.Accounted) (cs : List ClientId) {d : DeviceId}
    {context : DeviceClientContext} (hsound : context.Sound)
    (hcount : ∀ c, context.portCount c = s.openPortsAt d c) :
    ((s.addOpenDevices cs d).setContext d context).Accounted := by
  obtain ⟨infos, heq, _⟩ := addOpenDevices_spec cs d s
  have hcontexts : (s.addOpenDevices cs d).deviceClientContexts = s.deviceClientContexts := by
    rw [heq]
  have hcounts := openPortCount_addOpenDevices cs d s
  apply h.insert (d := d)
  · rw [setContext, hcontexts]
  · exact hsound
  · intro c
    rw [hcount]
    exact congrArg (· + s.openPortsAt d c) (hcounts c)
  · intro c
    exact (hcounts c).symm ▸ h.bounded c

theorem accounted_openDevice (h : s.Accounted) (permitted : Bool) (c : ClientId) (d : DeviceId) :
    (s.openDevice api permitted c d).state.Accounted := by
  unfold openDevice
  split
  · exact h
  split
  · exact h
  split
  · exact h
  split
  · next context hcontext =>
      split
      · exact h
      · apply h.attach [c]
        · exact (h.sound d context hcontext).grow fun x hx => UnorderedSet.mem_add.mpr (Or.inr hx)
        · exact fun x => (openPortsAt_of_lookup hcontext x).symm
  · next hcontext =>
      dsimp only
      split
      · exact h.keep rfl fun _ => rfl
      · have hmanager : Accounted { s with deviceManager := (api.openDevice d s.deviceManager).2 } :=
          h.keep rfl fun _ => rfl
        apply hmanager.attach [c]
        · exact DeviceClientContext.sound_of_empty _
        · intro x
          unfold openPortsAt
          rw [hcontext]
          rfl

theorem accounted_openBleDevice (h : s.Accounted) (c : ClientId) (address : Address)
    (callback : RemoteObject) : (s.openBleDevice api c address callback).state.Accounted := by
  unfold openBleDevice
  split
  · exact h
  split
  · exact h
  split
  · next t info hattach =>
      unfold tryAttachToActiveBleDevice at hattach
      split at hattach
      · contradiction
      · next d _ =>
          split at hattach
          · contradiction
          · next context hcontext =>
              obtain ⟨rfl, _⟩ := Prod.mk.inj (Option.some.inj hattach)
              apply h.attach [c]
              · exact (h.sound d context hcontext).grow
                  fun x hx => UnorderedSet.mem_add.mpr (Or.inr hx)
              · exact fun x => (openPortsAt_of_lookup hcontext x).symm
  · unfold enqueueBleConnectionRequest
    split
    · exact h.keep rfl fun _ => rfl
    · dsimp only
      split <;> exact h.keep rfl fun _ => rfl

theorem accounted_handleBleOpenComplete (h : s.Accounted) (address : Address) (success : Bool)
    (d : DeviceId) (info : MidiDeviceInfo) :
    (s.handleBleOpenComplete address success d info).state.Accounted := by
  unfold handleBleOpenComplete
  dsimp only
  split
  · unfold registerBleDeviceForPendingClientsLocked
    dsimp only
    set cs := (((s.pendingBleConnections.getD address []).map
      PendingBleConnection.clientId).filter fun c => decide (c ∈ s.clients))
    set t : MidiServiceController M :=
      { s with
        pendingBleConnections := s.pendingBleConnections.erase address
        activeBleDevices := s.activeBleDevices.insert address d }
    have ht : t.Accounted := h.keep rfl fun _ => rfl
    have hcontexts : (t.addOpenDevices cs d).deviceClientContexts = t.deviceClientContexts := by
      obtain ⟨infos, heq, _⟩ := addOpenDevices_spec cs d t
      rw [heq]
    split
    · exact ht.keep hcontexts (openPortCount_addOpenDevices cs d t)
    · split
      · next context hcontext =>
          change (t.addOpenDevices cs d).deviceClientContexts.lookup d = some context at hcontext
          rw [hcontexts] at hcontext
          apply ht.attach cs
          · exact (ht.sound d context hcontext).grow
              fun x hx => UnorderedSet.mem_addAll.mpr (Or.inr hx)
          · exact fun x => (openPortsAt_of_lookup hcontext x).symm
      · next hcontext =>
          change (t.addOpenDevices cs d).deviceClientContexts.lookup d = none at hcontext
          rw [hcontexts] at hcontext
          apply ht.attach cs
          · exact DeviceClientContext.sound_of_empty _
          · intro x
            unfold openPortsAt
            rw [hcontext]
            rfl
  · exact h.keep rfl fun _ => rfl

/-- A client that has room for one more port becomes part of one more connection. -/
theorem Accounted.openPort (h : s.Accounted) {c : ClientId} {d : DeviceId}
    {context : DeviceClientContext} (hcontext : s.deviceClientContexts.lookup d = some context)
    (hroom : (s.resourceInfo c).openPortCount < maxPortsPerClient) {direction : PortDirection}
    {connections : PortConnections}
    (hsound : ∀ p conn, connections.lookup p = some conn → conn.Sound context.clients)
    (hcount : ∀ x, PortConnections.count x connections =
      PortConnections.count x (context.connections direction) + if x = c then 1 else 0) :
    ((s.addOpenPort c).setContext d (context.setConnections connections direction)).Accounted := by
  have hresource : ∀ x, ((s.addOpenPort c).resourceInfo x).openPortCount =
      (s.resourceInfo x).openPortCount + if x = c then 1 else 0 := by
    intro x
    rw [addOpenPort, resourceInfo_setResourceInfo]
    split
    · next hx => rw [hx]
    · rfl
  apply h.insert (d := d)
  · rfl
  · exact (h.sound d context hcontext).setConnections direction hsound
  · intro x
    have hports := @DeviceClientContext.portCount_setConnections context x connections
      direction
    have hcount := hcount x
    rw [openPortsAt_of_lookup hcontext]
    change ((s.addOpenPort c).resourceInfo x).openPortCount + _ = _
    rw [hresource]
    omega
  · intro x
    change ((s.addOpenPort c).resourceInfo x).openPortCount ≤ _
    rw [hresource]
    split
    · next hx =>
        rw [hx]
        exact hroom
    · exact h.bounded x

theorem accounted_openPort (h : s.Accounted) (direction : PortDirection) (ready : Status)
    (env : PortEnv) (permitted : Bool) (c : ClientId) (d : DeviceId) (p : PortIndex) :
    (s.openPort api direction ready env permitted c d p).state.Accounted := by
  unfold openPort
  split
  · exact h
  split
  · exact h
  next context hcontext =>
  split
  · exact h
  next hc =>
  split
  · exact h
  split
  · exact h
  next hroom =>
  have hsound := h.sound d context hcontext direction
  split
  · next conn hconn =>
      unfold connectToExistingPort
      split
      · exact h
      next hnew =>
      rw [DeviceConnection.hasClientConnection_iff] at hnew
      split
      · exact h
      · apply h.openPort hcontext (Nat.lt_of_not_ge hroom)
        · intro p' conn' hp'
          rw [UnorderedMap.lookup_insert_eq] at hp'
          split at hp'
          · rw [← Option.some.inj hp']
            exact (hsound p conn hconn).addClientConnection (not_not.mp hc) hnew
          · exact hsound p' conn' hp'
        · intro x
          have htotal := UnorderedMap.total_insert (fun _ conn => conn.weight x)
            (context.connections direction) p (conn.addClientConnection c)
          have hweight := DeviceConnection.weight_addClientConnection hnew x
          rw [hconn] at htotal
          unfold PortConnections.count
          simp only [Option.elim_some] at htotal
          omega
  · next hconn =>
      unfold createNewPortConnection
      dsimp only
      split
      · exact h.keep rfl fun _ => rfl
      unfold emplacePortConnection
      split
      · exact h.keep rfl fun _ => rfl
      · have hmanager :
            Accounted { s with deviceManager := (api.openPort direction d p s.deviceManager).2 } :=
          h.keep rfl fun _ => rfl
        apply hmanager.openPort hcontext (Nat.lt_of_not_ge hroom)
        · intro p' conn' hp'
          rw [UnorderedMap.emplace_of_notMem (AList.lookup_eq_none.mp hconn),
            UnorderedMap.lookup_insert_eq] at hp'
          split at hp'
          · rw [← Option.some.inj hp']
            exact DeviceConnection.sound_new (not_not.mp hc)
          · exact hsound p' conn' hp'
        · intro x
          rw [UnorderedMap.emplace_of_notMem (AList.lookup_eq_none.mp hconn)]
          have htotal := UnorderedMap.total_insert (fun _ conn => conn.weight x)
            (context.connections direction) p (DeviceConnection.addClientConnection {} c)
          have hweight := @DeviceConnection.weight_addClientConnection {} c
            (List.not_mem_nil : c ∉ []) x
          rw [hconn] at htotal
          unfold PortConnections.count
          have hnone : DeviceConnection.weight x {} = 0 := rfl
          simp only [Option.elim_none] at htotal
          omega

/-! ### Closing -/

/-- A client leaves one connection. -/
theorem Accounted.closePort (h : s.Accounted) {c : ClientId} {d : DeviceId}
    {context : DeviceClientContext} (hcontext : s.deviceClientContexts.lookup d = some context)
    {direction : PortDirection} {connections : PortConnections}
    (hsound : ∀ p conn, connections.lookup p = some conn → conn.Sound context.clients)
    (hcount : ∀ x, PortConnections.count x connections + (if x = c then 1 else 0) =
      PortConnections.count x (context.connections direction)) :
    ((s.setResourceInfo c
        { s.resourceInfo c with openPortCount := (s.resourceInfo c).openPortCount - 1 }).setContext
      d (context.setConnections connections direction)).Accounted := by
  have hresource : ∀ x, ((s.setResourceInfo c
        { s.resourceInfo c with
          openPortCount := (s.resourceInfo c).openPortCount - 1 }).resourceInfo x).openPortCount =
      (s.resourceInfo x).openPortCount - if x = c then 1 else 0 := by
    intro x
    rw [resourceInfo_setResourceInfo]
    split
    · next hx => rw [hx]
    · rfl
  have hports := fun x => @DeviceClientContext.portCount_setConnections context x
    connections direction
  apply h.insert (d := d)
  · rfl
  · exact (h.sound d context hcontext).setConnections direction hsound
  · intro x
    have hports := hports x
    have hcount := hcount x
    have hcounted := h.counted x
    have hle := openPortsAt_le s d x
    rw [openPortsAt_of_lookup hcontext] at hle ⊢
    change ((s.setResourceInfo c _).resourceInfo x).openPortCount + _ = _
    rw [hresource]
    omega
  · intro x
    have hbound := h.bounded x
    change ((s.setResourceInfo c _).resourceInfo x).openPortCount ≤ _
    rw [hresource]
    omega

/-- The last client takes the connection with it; any other leaves the rest behind. -/
theorem accounted_closePortInner (h : s.Accounted) (direction : PortDirection) (c : ClientId)
    (d : DeviceId) (p : PortIndex) : (s.closePortInner api direction c d p).2.Accounted := by
  unfold closePortInner
  split
  · exact h
  next context hcontext =>
  split
  · exact h
  have hsound := h.sound d context hcontext direction
  split
  · exact h
  next conn hconn =>
  split
  · exact h
  next hc =>
  rw [Bool.not_eq_true', Bool.not_eq_false, DeviceConnection.hasClientConnection_iff] at hc
  have hweight := DeviceConnection.weight_removeClientConnection hc
  dsimp only
  split
  · next hempty =>
      have hmanager : Accounted
          { s with deviceManager := (api.closePort direction d p s.deviceManager).2 } :=
        h.keep rfl fun _ => rfl
      apply hmanager.closePort hcontext
      · intro p' conn' hp'
        rw [UnorderedMap.lookup_erase_eq] at hp'
        split at hp'
        · contradiction
        · exact hsound p' conn' hp'
      · intro x
        have htotal := UnorderedMap.total_erase (fun _ conn => conn.weight x)
          (context.connections direction) p
        have hzero : (conn.removeClientConnection c).weight x = 0 := by
          rw [DeviceConnection.weight_eq, List.isEmpty_iff.mp hempty]
          rfl
        have hweight := hweight x
        rw [hconn] at htotal
        unfold PortConnections.count
        simp only [Option.elim_some] at htotal
        omega
  · next hnonempty =>
      apply h.closePort hcontext
      · intro p' conn' hp'
        rw [UnorderedMap.lookup_insert_eq] at hp'
        split at hp'
        · rw [← Option.some.inj hp']
          exact (hsound p conn hconn).removeClientConnection (Bool.eq_false_iff.mpr hnonempty)
        · exact hsound p' conn' hp'
      · intro x
        have htotal := UnorderedMap.total_insert (fun _ conn => conn.weight x)
          (context.connections direction) p (conn.removeClientConnection c)
        have hweight := hweight x
        rw [hconn] at htotal
        unfold PortConnections.count
        simp only [Option.elim_some] at htotal
        omega

/-- The client is not part of the connection of a port, when there is one. -/
def Closed (s : MidiServiceController M) (c : ClientId) (d : DeviceId)
    (direction : PortDirection) (p : PortIndex) : Prop :=
  ∀ context conn, s.deviceClientContexts.lookup d = some context →
    (context.connections direction).lookup p = some conn → c ∉ conn.clients

/-- What closing a port of its own does to the context of a client. -/
theorem closePortInner_context (direction : PortDirection) {c : ClientId} {d : DeviceId}
    (p : PortIndex) {context : DeviceClientContext}
    (hcontext : s.deviceClientContexts.lookup d = some context) (hc : c ∈ context.clients) :
    ∃ connections, (s.closePortInner api direction c d p).2.deviceClientContexts.lookup d =
        some (context.setConnections connections direction) ∧
      (∀ conn, connections.lookup p = some conn → c ∉ conn.clients) ∧
      ∀ p', p' ≠ p → connections.lookup p' = (context.connections direction).lookup p' := by
  have hself : context.setConnections (context.connections direction) direction = context := by
    cases direction <;> rfl
  have hset : ∀ (t : MidiServiceController M) (context' : DeviceClientContext),
      (t.setContext d context').deviceClientContexts.lookup d = some context' := by
    intro t context'
    exact AList.lookup_insert _
  unfold closePortInner
  simp only [hcontext, hc, not_true_eq_false, if_false]
  cases hconn : (context.connections direction).lookup p with
  | none =>
      refine ⟨context.connections direction, ?_, ?_, fun _ _ => rfl⟩
      · rw [hself]
        exact hcontext
      · intro conn h
        rw [hconn] at h
        contradiction
  | some conn =>
      dsimp only
      split
      · next hnot =>
          refine ⟨context.connections direction, ?_, ?_, fun _ _ => rfl⟩
          · rw [hself]
            exact hcontext
          · intro conn' h
            rw [hconn] at h
            rw [← Option.some.inj h, ← DeviceConnection.hasClientConnection_iff]
            rw [Bool.not_eq_true'] at hnot
            exact Bool.eq_false_iff.mp hnot
      · split
        · refine ⟨(context.connections direction).erase p, hset _ _, ?_, ?_⟩
          · intro conn' h
            rw [AList.lookup_erase] at h
            contradiction
          · exact fun p' hp' => AList.lookup_erase_ne hp'
        · refine ⟨(context.connections direction).insert p (conn.removeClientConnection c),
            hset _ _, ?_, ?_⟩
          · intro conn' h hmem
            rw [AList.lookup_insert] at h
            rw [← Option.some.inj h, DeviceConnection.mem_removeClientConnection] at hmem
            exact hmem.2 rfl
          · exact fun p' hp' => AList.lookup_insert_ne hp'

theorem closed_closePortInner (direction : PortDirection) {c : ClientId} {d : DeviceId}
    (p : PortIndex) (hc : c ∈ s.registry.users d) :
    Closed (s.closePortInner api direction c d p).2 c d direction p := by
  obtain ⟨context, hcontext, hmem⟩ := hc
  obtain ⟨connections, hlookup, hclosed, _⟩ := closePortInner_context api direction p hcontext hmem
  intro context' conn hcontext' hconn
  rw [hlookup] at hcontext'
  rw [← Option.some.inj hcontext', DeviceClientContext.connections_setConnections, if_pos rfl]
    at hconn
  exact hclosed conn hconn

theorem Closed.closePortInner (direction : PortDirection) {c : ClientId} {d : DeviceId}
    (p : PortIndex) (hc : c ∈ s.registry.users d) {direction' : PortDirection} {p' : PortIndex}
    (h : Closed s c d direction' p') :
    Closed (s.closePortInner api direction c d p).2 c d direction' p' := by
  obtain ⟨context, hcontext, hmem⟩ := hc
  obtain ⟨connections, hlookup, hclosed, hothers⟩ :=
    closePortInner_context api direction p hcontext hmem
  intro context' conn hcontext' hconn
  rw [hlookup] at hcontext'
  rw [← Option.some.inj hcontext', DeviceClientContext.connections_setConnections] at hconn
  split at hconn
  · next hdirection =>
      by_cases hp : p' = p
      · exact hclosed conn (hp ▸ hconn)
      · rw [hothers p' hp] at hconn
        exact h context conn hcontext (hdirection ▸ hconn)
  · exact h context conn hcontext hconn

/-- The loop over the ports of one direction closes them all and opens none. -/
theorem closed_closePorts (direction : PortDirection) {c : ClientId} {d : DeviceId}
    (ps : List PortIndex) (hc : c ∈ s.registry.users d) (hrecord : c ∈ s.clientResourceInfo) :
    (∀ p ∈ ps, Closed (s.closePorts api direction c d ps) c d direction p) ∧
      ∀ direction' p', Closed s c d direction' p' →
        Closed (s.closePorts api direction c d ps) c d direction' p' := by
  induction ps generalizing s with
  | nil => exact ⟨fun p hp => absurd hp List.not_mem_nil, fun _ _ h => h⟩
  | cons p ps ih =>
      have hstep := registry_closePortInner api direction d p hrecord
      obtain ⟨hall, hkeep⟩ := @ih (s.closePortInner api direction c d p).2
        (by rw [hstep]; exact hc) (by rw [← mem_clientResourceInfo, hstep]; exact hrecord)
      constructor
      · intro p' hp'
        rcases List.mem_cons.mp hp' with rfl | hp'
        · exact hkeep direction p' (closed_closePortInner api direction p' hc)
        · exact hall p' hp'
      · intro direction' p' h
        exact hkeep direction' p' (h.closePortInner api direction p hc)

theorem closed_of_notMem_portIndexes {c : ClientId} {d : DeviceId} {direction : PortDirection}
    {p : PortIndex} (hp : p ∉ s.portIndexes direction d) : Closed s c d direction p := by
  intro context conn hcontext hconn
  unfold portIndexes at hp
  rw [hcontext] at hp
  exact absurd (AList.mem_keys.mp (UnorderedMap.mem_of_lookup hconn)) hp

/-- The client is part of no connection of the device any more. -/
theorem closed_closePortforDevice {c : ClientId} {d : DeviceId} (hc : c ∈ s.registry.users d)
    (hrecord : c ∈ s.clientResourceInfo) (direction : PortDirection) (p : PortIndex) :
    Closed (s.closePortforDevice api c d) c d direction p := by
  set t := s.closePorts api .input c d (s.portIndexes .input d) with ht
  have hregistry : t.registry = s.registry := registry_closePorts api .input d _ hrecord
  obtain ⟨hinput, hkeep⟩ := closed_closePorts api .input (s.portIndexes .input d) hc hrecord
  have hct : c ∈ t.registry.users d := hregistry.symm ▸ hc
  have hrecordt : c ∈ t.clientResourceInfo := by
    rw [← mem_clientResourceInfo, hregistry]
    exact hrecord
  obtain ⟨houtput, hkeep'⟩ := closed_closePorts api .output (t.portIndexes .output d) hct hrecordt
  change Closed (t.closePorts api .output c d (t.portIndexes .output d)) c d direction p
  cases direction with
  | input =>
      apply hkeep'
      by_cases hp : p ∈ s.portIndexes .input d
      · exact hinput p hp
      · exact hkeep .input p (closed_of_notMem_portIndexes hp)
  | output =>
      by_cases hp : p ∈ t.portIndexes .output d
      · exact houtput p hp
      · exact hkeep' .output p (closed_of_notMem_portIndexes hp)

theorem accounted_closePorts (h : s.Accounted) (direction : PortDirection) (c : ClientId)
    (d : DeviceId) (ps : List PortIndex) : (s.closePorts api direction c d ps).Accounted := by
  induction ps generalizing s with
  | nil => exact h
  | cons p ps ih => exact ih (accounted_closePortInner api h direction c d p)

theorem accounted_closePortforDevice (h : s.Accounted) (c : ClientId) (d : DeviceId) :
    (s.closePortforDevice api c d).Accounted :=
  accounted_closePorts api (accounted_closePorts api h .input c d _) .output c d _

/-- A client without connections on a device can leave its context. -/
theorem accounted_leaveContext (h : s.Accounted) {c : ClientId} {d : DeviceId}
    (hclosed : ∀ direction p, Closed s c d direction p) : (s.leaveContext c d).Accounted := by
  unfold leaveContext
  split
  · exact h
  next context hcontext =>
  have hsound : DeviceClientContext.Sound { context with clients := context.clients.erase c } := by
    intro direction p conn hp
    have hconn : (context.connections direction).lookup p = some conn := by
      cases direction <;> exact hp
    apply (h.sound d context hcontext direction p conn hconn).mono
    intro x hx hmem
    apply AList.mem_erase.mpr
    refine ⟨?_, hmem⟩
    rintro rfl
    exact hclosed direction p context conn hcontext hconn hx
  dsimp only
  split
  · next hempty =>
      apply h.erase (d := d)
      · rfl
      · intro x
        have hnone : x ∉ context.clients.erase c := by
          intro hx
          have hkeys := AList.mem_keys.mp hx
          rw [List.isEmpty_iff.mp hempty] at hkeys
          contradiction
        have hzero : context.portCount x = 0 := hsound.portCount_eq_zero hnone
        rw [openPortsAt_of_lookup hcontext, hzero]
        rfl
  · apply h.insert (d := d)
    · rfl
    · exact hsound
    · intro x
      rw [openPortsAt_of_lookup hcontext]
      rfl
    · exact h.bounded

theorem closed_of_accounted (h : s.Accounted) {c : ClientId} (d : DeviceId)
    (hrecord : c ∈ s.clientResourceInfo) (direction : PortDirection) (p : PortIndex) :
    Closed (s.closePortforDevice api c d) c d direction p := by
  by_cases hc : c ∈ s.registry.users d
  · exact closed_closePortforDevice api hc hrecord direction p
  · -- A client outside the context is part of none of its connections.
    intro context conn hcontext hconn hmem
    have hsound := (accounted_closePortforDevice api h c d).sound d context hcontext direction p
    have husers : c ∈ (s.closePortforDevice api c d).registry.users d :=
      (mem_users hcontext).mpr ((hsound conn hconn).members c hmem)
    rw [registry_closePortforDevice api d hrecord] at husers
    exact hc husers

theorem accounted_closeDevice (h : s.Accounted) (c : ClientId) (d : DeviceId)
    (hrecord : c ∈ s.clients → c ∈ s.clientResourceInfo) :
    (s.closeDevice api c d).state.Accounted := by
  unfold closeDevice
  split
  · exact h
  next hlive =>
  split
  · exact h
  split
  · exact h
  · dsimp only
    set t := s.closePortforDevice api c d
    have ht : t.Accounted := accounted_closePortforDevice api h c d
    apply accounted_leaveContext
    · apply ht.keep
      · rfl
      · intro x
        rw [resourceInfo_setResourceInfo]
        split
        · next hx => rw [hx]
        · rfl
    · exact closed_of_accounted api h d (hrecord (not_not.mp hlive))

theorem accounted_cleanupDevices (h : s.Accounted) {c : ClientId} (ds : List DeviceId)
    (hrecord : c ∈ s.clientResourceInfo) :
    (ds.foldl (fun s d => s.cleanupDeviceForClient api c d) s).Accounted := by
  induction ds generalizing s with
  | nil => exact h
  | cons d ds ih =>
      have hregistry := registry_cleanupDeviceForClient api d hrecord
      rw [List.foldl_cons]
      apply ih
      · unfold cleanupDeviceForClient
        split
        · exact h
        · apply accounted_leaveContext (accounted_closePortforDevice api h c d)
          exact closed_of_accounted api h d hrecord
      · rw [← mem_clientResourceInfo, hregistry]
        exact hrecord

/-- A client that is in no context has no open ports. -/
theorem Accounted.openPortCount_eq_zero (h : s.Accounted) {c : ClientId}
    (hc : ∀ d, c ∉ s.registry.users d) : (s.resourceInfo c).openPortCount = 0 := by
  have hzero : s.openPorts c = s.deviceClientContexts.total fun _ _ => 0 := by
    apply UnorderedMap.total_congr
    intro d context hcontext
    apply (h.sound d context hcontext).portCount_eq_zero
    exact fun hmem => hc d ((mem_users hcontext).mpr hmem)
  rw [h.counted, hzero]
  simp [UnorderedMap.total]

theorem accounted_destroyMidiClient (h : s.Accounted) (c : ClientId)
    (hrecord : c ∈ s.clients → c ∈ s.clientResourceInfo) :
    (s.destroyMidiClient api c).state.Accounted := by
  unfold destroyMidiClient
  split
  · exact h
  next hlive =>
  dsimp only
  set r := s.removeDeathRecipient c with hr
  have hrecordr : c ∈ r.clientResourceInfo := by
    rw [← mem_clientResourceInfo, hr, registry_removeDeathRecipient]
    exact hrecord (not_not.mp hlive)
  have haccounted : r.Accounted := by
    rw [hr]
    unfold removeDeathRecipient
    split
    · exact h
    · exact h.keep rfl fun _ => rfl
  set ds := (s.collectDevicesForClientDestruction c).1 with hds
  set u := ds.foldl (fun s d => s.cleanupDeviceForClient api c d) r with hu
  have hgone : ∀ d, c ∉ u.registry.users d := by
    intro d hmem
    rw [hu, registry_cleanupDevices api ds hrecordr, hr, registry_removeDeathRecipient] at hmem
    exact hmem.2 ⟨rfl, mem_devicesToClean.mpr hmem.1⟩
  have hcount := (accounted_cleanupDevices api haccounted ds hrecordr).openPortCount_eq_zero hgone
  apply (accounted_cleanupDevices api haccounted ds hrecordr).keep
  · rfl
  · intro x
    change ((((u.clientResourceInfo.erase c).lookup x).getD {}).openPortCount) = _
    rw [UnorderedMap.lookup_erase_eq]
    split
    · next hx => rw [hx, hcount]; rfl
    · rfl

theorem accounted_cleanupDeviceContext (h : s.Accounted) (d : DeviceId) :
    (s.cleanupDeviceContext d).Accounted := by
  unfold cleanupDeviceContext
  split
  · exact h
  next context hcontext =>
  obtain ⟨infos, heq, _, hinfo⟩ := cleanupClients_spec d
    (fun c => calculateClientPortCount c context) context.clients.keys_nodup s
  set t := s.cleanupClients d (fun c => calculateClientPortCount c context) context.clients.keys
  change (t.eraseContext d).Accounted
  apply h.erase (d := d)
  · rw [eraseContext, heq]
  · intro x
    have hle := openPortsAt_le s d x
    have hcounted := h.counted x
    rw [openPortsAt_of_lookup hcontext] at hle ⊢
    change (t.resourceInfo x).openPortCount + _ = _
    rw [hinfo]
    by_cases hx : x ∈ context.clients
    · rw [if_pos (AList.mem_keys.mp hx)]
      change (s.resourceInfo x).openPortCount - context.portCount x + _ = _
      omega
    · rw [if_neg fun hkeys => hx (AList.mem_keys.mpr hkeys)]
      have hzero := (h.sound d context hcontext).portCount_eq_zero hx
      omega

/-! ### Runs -/

theorem accounted_createMidiInServer (h : s.Accounted) (uid : Uid) (object : RemoteObject)
    (server : MidiInServer) (added : Bool) :
    (s.createMidiInServer uid object server added).state.Accounted := by
  unfold createMidiInServer
  dsimp only
  split
  · exact h.keep rfl fun _ => rfl
  split
  · exact h.keep rfl fun _ => rfl
  split
  · exact h.keep rfl fun _ => rfl
  · next c _ =>
      split
      · exact h.keep rfl fun _ => rfl
      · apply h.keep
        · rfl
        · intro x
          change ((s.clientResourceInfo.insert c
            { s.resourceInfo c with uid := uid }).lookup x |>.getD {}).openPortCount = _
          rw [UnorderedMap.lookup_insert_eq]
          split
          · next hx => rw [hx]; rfl
          · rfl

/-- Every locked section keeps the accounting. -/
theorem accounted_run (hconsistent : s.registry.Consistent) (h : s.Accounted)
    (op : ControllerOp M) : (op.run api s).Accounted := by
  have hrecord : ∀ c, c ∈ s.clients → c ∈ s.clientResourceInfo :=
    fun c => (hconsistent.recorded c).mpr
  cases op with
  | createMidiInServer uid object server added =>
      exact accounted_createMidiInServer h uid object server added
  | openDevice permitted c d => exact accounted_openDevice api h permitted c d
  | openBleDevice c address callback => exact accounted_openBleDevice api h c address callback
  | handleBleOpenComplete address success d info =>
      exact accounted_handleBleOpenComplete h address success d info
  | openInputPort env permitted c d p => exact accounted_openPort api h _ _ env permitted c d p
  | openOutputPort env permitted c d p => exact accounted_openPort api h _ _ env permitted c d p
  | closeInputPort c d p =>
      change (s.closePort api .input c d p).state.Accounted
      unfold MidiServiceController.closePort
      split
      · exact h
      · exact accounted_closePortInner api h .input c d p
  | closeOutputPort c d p =>
      change (s.closePort api .output c d p).state.Accounted
      unfold MidiServiceController.closePort
      split
      · exact h
      · exact accounted_closePortInner api h .output c d p
  | closeDevice c d => exact accounted_closeDevice api h c d (hrecord c)
  | destroyMidiClient c => exact accounted_destroyMidiClient api h c (hrecord c)
  | finishDestroyMidiClient =>
      change s.finishDestroyMidiClient.Accounted
      unfold finishDestroyMidiClient
      split
      · exact h.keep rfl fun _ => rfl
      · exact h
  | notifyDeviceChange change d =>
      cases change with
      | add => exact h
      | removed =>
          have hactive : (s.removeFromActiveBleDevices d).Accounted := h.keep rfl fun _ => rfl
          exact accounted_cleanupDeviceContext hactive d

theorem accounted_unlocked (h : s.Accounted) (move : Unlocked s t) : t.Accounted := by
  cases move with
  | manager m => exact h.keep rfl fun _ => rfl
  | @rehash contexts _ hcontexts _ =>
      constructor
      · intro c
        exact (h.counted c).trans (hcontexts.total _).symm
      · exact h.bounded
      · intro d context hcontext
        change contexts.lookup d = some context at hcontext
        rw [hcontexts.lookup] at hcontext
        exact h.sound d context hcontext

theorem accounted_initial (m : M) : Accounted ({ deviceManager := m } : MidiServiceController M) where
  counted := fun _ => rfl
  bounded := fun _ => Nat.zero_le _
  sound := fun d _ h => absurd (UnorderedMap.mem_of_lookup h) (AList.notMem_empty d)

theorem accounted_reachable (reach : (controllerMachine api).Reachable s) : s.Accounted := by
  apply reach.invariant fun s => s.Accounted
  · rintro s ⟨m, rfl⟩
    exact accounted_initial m
  · intro s label t hreach h _ move
    cases label with
    | none => exact accounted_unlocked h move
    | some op => exact move.symm ▸ accounted_run api (consistent_reachable api hreach) h op

/-- The record of a client counts the connections that contain it, within the limit. A connection
has clients, each of them once, and they are clients of the device's context. -/
theorem port_accounting_exact (reach : (controllerMachine api).Reachable s) :
    (∀ c ∈ s.clients, (s.resourceInfo c).openPortCount = s.openPorts c ∧
      (s.resourceInfo c).openPortCount ≤ maxPortsPerClient) ∧
    ∀ d context direction p conn, s.deviceClientContexts.lookup d = some context →
      (context.connections direction).lookup p = some conn →
      conn.clients ≠ [] ∧ conn.clients.Nodup ∧ ∀ c ∈ conn.clients, c ∈ context.clients := by
  have h := accounted_reachable api reach
  constructor
  · exact fun c _ => ⟨h.counted c, h.bounded c⟩
  · intro d context direction p conn hcontext hconn
    have hsound := h.sound d context hcontext direction p conn hconn
    exact ⟨hsound.inhabited, hsound.distinct, hsound.members⟩

theorem port_accounting_exact_shared :
    (∀ c ∈ sharedDevice.clients,
      (sharedDevice.resourceInfo c).openPortCount = sharedDevice.openPorts c ∧
        (sharedDevice.resourceInfo c).openPortCount ≤ maxPortsPerClient) ∧
    ∀ d context direction p conn, sharedDevice.deviceClientContexts.lookup d = some context →
      (context.connections direction).lookup p = some conn →
      conn.clients ≠ [] ∧ conn.clients.Nodup ∧ ∀ c ∈ conn.clients, c ∈ context.clients :=
  port_accounting_exact openingManager reachable_sharedDevice

end MidiServiceController

end MidiFramework.Server
