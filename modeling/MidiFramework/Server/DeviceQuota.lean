import MidiFramework.Server.Registry

/-!
# The device quota of a client

`OpenDevice` and `OpenBleDevice` look at the number of open devices when a
request is made. A Bluetooth device is counted only when its connection
completes, and the completion looks at no number: the quota holds as long as
every client that a completed connection registers still has room for it.
-/

namespace MidiFramework.Server

open Foundation

namespace MidiServiceController

variable {M : Type} (api : DeviceManager M) {s t : MidiServiceController M}

/-- No client has more than `MAX_DEVICES_PER_CLIENT` devices open. -/
def WithinQuota (s : MidiServiceController M) : Prop :=
  ∀ c, (s.resourceInfo c).openDevices.size ≤ maxDevicesPerClient

theorem encard_opens (c : ClientId) :
    (s.registry.opens c).encard = (s.resourceInfo c).openDevices.size :=
  UnorderedSet.encard_mem _

theorem withinQuota_iff : s.WithinQuota ↔ s.registry.Within maxDevicesPerClient := by
  apply forall_congr'
  intro c
  rw [encard_opens, Nat.cast_le]

/-- A client can open the device: it has it open already or is below the quota. -/
def CanOpen (s : MidiServiceController M) (c : ClientId) (d : DeviceId) : Prop :=
  d ∈ (s.resourceInfo c).openDevices ∨ (s.resourceInfo c).openDevices.size < maxDevicesPerClient

/-- The waiting clients that a completed open registers can open its device. -/
def HasRoom (s : MidiServiceController M) : Option (ControllerOp M) → Prop
  | some (.handleBleOpenComplete address success d _) =>
      success = true → ∀ c ∈ s.initialClients address, s.CanOpen c d
  | _ => True

theorem withinQuota_run (h : s.WithinQuota) (hconsistent : s.registry.Consistent)
    {op : ControllerOp M} (hroom : s.HasRoom (some op)) : (op.run api s).WithinQuota := by
  apply withinQuota_iff.mpr
  apply (withinQuota_iff.mp h).move _ (registry_run api hconsistent op)
  have hcanOpen : ∀ {c d}, s.CanOpen c d →
      d ∈ s.registry.opens c ∨ (s.registry.opens c).encard < (maxDevicesPerClient : ℕ) := by
    intro c d hc
    rw [encard_opens, Nat.cast_lt]
    exact hc
  intro cs d hregisters c hc
  apply hcanOpen
  have hclient : (∃ x ∈ s.clients, (s.resourceInfo x).openDevices.size < maxDevicesPerClient ∧
      cs = {y | y ∈ [x]}) → s.CanOpen c d := by
    rintro ⟨x, _, hsize, rfl⟩
    exact Or.inr (List.mem_singleton.mp hc ▸ hsize)
  cases op with
  | handleBleOpenComplete address success d' info =>
      obtain ⟨hsuccess, _, rfl, rfl⟩ := hregisters
      exact hroom hsuccess c hc
  | _ => exact hclient hregisters

theorem withinQuota_unlocked (h : s.WithinQuota) (hmove : Unlocked s t) : t.WithinQuota := by
  rw [withinQuota_iff, registry_unlocked hmove, ← withinQuota_iff]
  exact h

/-- In every run whose completed opens find room at the clients they register, every client has
at most `MAX_DEVICES_PER_CLIENT` devices open. -/
theorem device_quota (reach : (controllerMachine api).ReachableWith HasRoom s) :
    ∀ c, (s.resourceInfo c).openDevices.size ≤ maxDevicesPerClient := by
  apply reach.invariant WithinQuota
  · rintro s ⟨m, rfl⟩ c
    exact Nat.zero_le _
  · intro s label t reach h hroom move
    cases label with
    | none => exact withinQuota_unlocked h move
    | some op =>
        exact move.symm ▸ withinQuota_run api h (consistent_reachable api reach.reachable) hroom

/-- A client that has asked for one Bluetooth device. -/
def oneRequest : MidiServiceController Unit :=
  runAll openingManager { deviceManager := () }
    [.createMidiInServer 7 0 {} true, .openBleDevice 1 "A0" 0]

/-- The open completes. -/
def oneDevice : MidiServiceController Unit :=
  ControllerOp.run openingManager oneRequest (.handleBleOpenComplete "A0" true 1001 {})

theorem reachable_oneDevice : (controllerMachine openingManager).ReachableWith HasRoom oneDevice := by
  have hasked : (controllerMachine openingManager).ReachableWith HasRoom oneRequest := by
    apply Machine.ReachableWith.step (l := some (.openBleDevice 1 "A0" 0)) _ trivial rfl
    apply Machine.ReachableWith.step (l := some (.createMidiInServer 7 0 {} true)) _ trivial rfl
    exact .init ⟨(), rfl⟩
  apply hasked.step (l := some (.handleBleOpenComplete "A0" true 1001 {})) _ rfl
  intro _ c hc
  right
  have hclients : oneRequest.initialClients "A0" = [1] := by decide +kernel
  rw [hclients, List.mem_singleton] at hc
  rw [hc]
  decide +kernel

theorem device_quota_oneDevice :
    1001 ∈ (oneDevice.resourceInfo 1).openDevices ∧
      ∀ c, (oneDevice.resourceInfo c).openDevices.size ≤ maxDevicesPerClient :=
  ⟨by decide +kernel, device_quota openingManager reachable_oneDevice⟩

/-- One address more than a client may have devices open. -/
def manyAddresses : List Address :=
  ["A0", "A1", "A2", "A3", "A4", "A5", "A6", "A7", "A8", "A9", "AA", "AB", "AC", "AD", "AE", "AF",
    "B0"]

/-- A client asks for all of them before the first connection completes, then all complete. -/
def manyRequests : List (ControllerOp Unit) :=
  .createMidiInServer 7 0 {} true ::
    (manyAddresses.map fun address => .openBleDevice 1 address 0) ++
    manyAddresses.zipIdx.map fun (address, i) => .handleBleOpenComplete address true (1001 + i) {}

/-- Requests made one after the other while nothing is open yet get past the quota. -/
theorem device_quota_exceeded :
    ¬∀ s, (controllerMachine openingManager).Reachable s →
      ∀ c, (s.resourceInfo c).openDevices.size ≤ maxDevicesPerClient := by
  intro h
  have hquota := h _ (reachable_runAll openingManager manyRequests (.init ⟨(), rfl⟩)) 1
  have hsize : ((runAll openingManager { deviceManager := () } manyRequests).resourceInfo
      1).openDevices.size = 17 := by decide +kernel
  rw [hsize] at hquota
  contradiction

end MidiServiceController

end MidiFramework.Server
