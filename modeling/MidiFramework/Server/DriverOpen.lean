import MidiFramework.Server.ListAgreement

/-!
# A device with users is open in its driver

The controller asks the driver to open a device while it holds its lock, and
the last close of a device reaches the driver in later sections. The registry
and the driver agree on a device that no such close is under way for, unless
the device was opened again before the close arrived.
-/

namespace MidiFramework.Server

open Foundation

namespace MidiServiceController

variable {M : Type} (api : DeviceManager M) {s : MidiServiceController M} {c : ClientId}

/-- The devices to close are those that lose their context. -/
structure Releases (s : MidiServiceController M) (result : Locked M) : Prop where
  kept : ∀ d ∈ result.state.deviceClientContexts, d ∈ s.deviceClientContexts
  closed : ∀ d, d ∈ result.devicesToClose ↔
    d ∈ s.deviceClientContexts ∧ d ∉ result.state.deviceClientContexts

theorem releases_of_keep {status : Status} :
    s.Releases { status := status, state := s } :=
  ⟨fun _ hd => hd, fun _ => ⟨fun hd => absurd hd List.not_mem_nil, fun hd => absurd hd.1 hd.2⟩⟩

/-- A device loses its context when the client that leaves is its only user. -/
theorem releases_of_registry {result : Locked M} (c : ClientId) (ds : Set DeviceId)
    (hkept : result.state.registry.kept =
      {d | d ∈ s.registry.kept ∧ (d ∈ ds → ∃ x ∈ s.registry.users d, x ≠ c)})
    (hclose : ∀ d, d ∈ result.devicesToClose ↔
      d ∈ s.registry.kept ∧ d ∈ ds ∧ ∀ x ∈ s.registry.users d, x = c) : s.Releases result := by
  have hmem : ∀ d, d ∈ result.state.deviceClientContexts ↔
      d ∈ s.registry.kept ∧ (d ∈ ds → ∃ x ∈ s.registry.users d, x ≠ c) := by
    intro d
    change d ∈ result.state.registry.kept ↔ _
    rw [hkept]
    rfl
  constructor
  · exact fun d hd => ((hmem d).mp hd).1
  · intro d
    rw [hclose, hmem]
    constructor
    · rintro ⟨hd, hds, hall⟩
      refine ⟨hd, ?_⟩
      rintro ⟨_, hother⟩
      obtain ⟨x, hx, hne⟩ := hother hds
      exact hne (hall x hx)
    · rintro ⟨hd, hgone⟩
      have hds : d ∈ ds ∧ ¬ ∃ x ∈ s.registry.users d, x ≠ c := by
        apply Classical.not_imp.mp
        exact fun himp => hgone ⟨hd, himp⟩
      refine ⟨hd, hds.1, ?_⟩
      intro x hx
      by_contra hne
      exact hds.2 ⟨x, hx, hne⟩

theorem releases_closeDevice (h : s.registry.Consistent) (c : ClientId) (d : DeviceId) :
    s.Releases (s.closeDevice api c d) := by
  unfold closeDevice
  split
  · exact releases_of_keep
  next hlive =>
  split
  · exact releases_of_keep
  next context hcontext =>
  split
  · exact releases_of_keep
  · have hrecord : c ∈ s.clientResourceInfo := (h.recorded c).mpr (not_not.mp hlive)
    apply releases_of_registry c {d}
    · dsimp only
      rw [registry_leaveContext, registry_forget, registry_closePortforDevice api d hrecord]
      rfl
    · intro d'
      have hempty : (context.clients.erase c).keys.isEmpty ↔ ∀ x ∈ s.registry.users d, x = c := by
        rw [UnorderedSet.isEmpty_erase]
        simp only [mem_users hcontext]
      dsimp only
      split
      · next hnone =>
          rw [List.mem_singleton]
          constructor
          · rintro rfl
            exact ⟨UnorderedMap.mem_of_lookup hcontext, rfl, hempty.mp hnone⟩
          · exact fun hd => hd.2.1
      · next hsome =>
          constructor
          · exact fun hd => absurd hd List.not_mem_nil
          · rintro ⟨_, rfl, hall⟩
            exact absurd (hempty.mpr hall) hsome

theorem mem_devicesToClose {d : DeviceId} :
    d ∈ (s.collectDevicesForClientDestruction c).2 ↔
      c ∈ s.registry.users d ∧ ∀ x ∈ s.registry.users d, x = c := by
  unfold collectDevicesForClientDestruction
  simp only [List.mem_map, List.mem_filter, decide_eq_true_eq, beq_iff_eq]
  constructor
  · rintro ⟨e, ⟨⟨he, hc⟩, hsize⟩, rfl⟩
    have hcontext := UnorderedMap.mem_entries.mp he
    refine ⟨(mem_users hcontext).mpr hc, ?_⟩
    intro x hx
    exact (UnorderedSet.size_eq_one hc).mp hsize x ((mem_users hcontext).mp hx)
  · rintro ⟨⟨context, hcontext, hc⟩, hall⟩
    refine ⟨⟨d, context⟩, ⟨⟨UnorderedMap.mem_entries.mpr hcontext, hc⟩, ?_⟩, rfl⟩
    apply (UnorderedSet.size_eq_one hc).mpr
    exact fun x hx => hall x ((mem_users hcontext).mpr hx)

theorem releases_destroyMidiClient (h : s.registry.Consistent) (c : ClientId) :
    s.Releases (s.destroyMidiClient api c) := by
  by_cases hlive : c ∈ s.clients
  · apply releases_of_registry c {d | c ∈ s.registry.users d}
    · rw [registry_destroyMidiClient api hlive ((h.recorded c).mpr hlive)]
      rfl
    · intro d
      have hclose : (s.destroyMidiClient api c).devicesToClose =
          (s.collectDevicesForClientDestruction c).2 := by
        unfold destroyMidiClient
        rw [if_neg (not_not.mpr hlive)]
      rw [hclose, mem_devicesToClose]
      constructor
      · exact fun hd => ⟨kept_of_mem_users hd.1, hd.1, hd.2⟩
      · exact fun hd => hd.2
  · unfold destroyMidiClient
    rw [if_pos hlive]
    exact releases_of_keep

end MidiServiceController

/-- The HDI service opens and closes what it is asked to. -/
def Hdi.Obeys (hdi : Hdi) : Prop := hdi.openDevice = .ok ∧ hdi.closeDevice = .ok

namespace MidiDeviceManager

variable {m : MidiDeviceManager}

/-- A list of USB devices, each under an id and a driver id of its own. -/
structure UsbListed (m : MidiDeviceManager) : Prop where
  usb : ∀ e ∈ m.devices, e.key.2 = .usb
  numbered : ∀ e ∈ m.devices, e.id ≠ 0
  ids : (m.devices.map DeviceInformation.id).Nodup
  keys : (m.devices.map DeviceInformation.key).Nodup

theorem UsbListed.eq_of_id (h : m.UsbListed) {e e' : DeviceInformation} (he : e ∈ m.devices)
    (he' : e' ∈ m.devices) (hid : e.id = e'.id) : e = e' :=
  List.inj_on_of_nodup_map h.ids he he' hid

theorem UsbListed.eq_of_driverId (h : m.UsbListed) {e e' : DeviceInformation}
    (he : e ∈ m.devices) (he' : e' ∈ m.devices) (hid : e.key.1 = e'.key.1) : e = e' := by
  apply List.inj_on_of_nodup_map h.keys he he'
  exact Prod.ext hid ((h.usb e he).trans (h.usb e' he').symm)

theorem UsbListed.getDeviceForDeviceId (h : m.UsbListed) {e : DeviceInformation}
    (he : e ∈ m.devices) : m.getDeviceForDeviceId e.id = e := by
  unfold MidiDeviceManager.getDeviceForDeviceId
  cases hfound : m.find? e.id with
  | none => exact absurd (by simp) (List.find?_eq_none.mp hfound e he)
  | some found =>
      obtain ⟨hmem, hid⟩ := mem_of_find hfound
      exact h.eq_of_id hmem he hid

/-- The device of an id is listed, or there is none. -/
theorem getDeviceForDeviceId_cases (d : DeviceId) (m : MidiDeviceManager) :
    (m.getDeviceForDeviceId d).id = 0 ∨
      m.getDeviceForDeviceId d ∈ m.devices ∧ (m.getDeviceForDeviceId d).id = d := by
  unfold getDeviceForDeviceId
  cases hfound : m.find? d with
  | none => exact Or.inl rfl
  | some found => exact Or.inr (mem_of_find hfound)

/-- The list, and which devices are open at the USB driver. -/
structure KeepsUsb (m m' : MidiDeviceManager) : Prop where
  devices : m'.devices = m.devices
  hdi : m'.usb.hdi = m.usb.hdi
  opened : m'.usb.opened = m.usb.opened

theorem KeepsUsb.of_eq {m m' : MidiDeviceManager} (h : m' = m) : m.KeepsUsb m' :=
  h ▸ ⟨rfl, rfl, rfl⟩

/-- What closing ports leaves alone. -/
theorem closing_usb : api.Closing KeepsUsb where
  refl := fun _ => ⟨rfl, rfl, rfl⟩
  trans := fun h h' =>
    ⟨h'.devices.trans h.devices, h'.hdi.trans h.hdi, h'.opened.trans h.opened⟩
  closePort := by
    intro direction d p m
    change m.KeepsUsb (m.closePort direction d p).2
    unfold closePort
    dsimp only
    split
    · exact ⟨rfl, rfl, rfl⟩
    · unfold switchDriverPort
      split
      · have hkept := m.usb.hdi_switchPort false direction (m.getDeviceForDeviceId d).key.1 p
        exact ⟨rfl, hkept.1, hkept.2⟩
      · exact ⟨rfl, rfl, rfl⟩

/-- The device of a list whose driver obeys is opened there. -/
theorem UsbListed.openDevice (h : m.UsbListed) (hobeys : m.usb.hdi.Obeys) (d : DeviceId) :
    m.openDevice d = (.systemError, m) ∨
      ∃ e ∈ m.devices, e.id = d ∧ m.openDevice d =
        (.ok, { m with usb := { m.usb with opened := m.usb.opened.add e.key.1 } }) := by
  unfold MidiDeviceManager.openDevice
  dsimp only
  split
  · exact Or.inl rfl
  · next hlisted =>
      obtain ⟨hmem, hid⟩ := (getDeviceForDeviceId_cases d m).resolve_left hlisted
      refine Or.inr ⟨_, hmem, hid, ?_⟩
      unfold openDriverDevice UsbDriver.openDevice
      rw [h.usb _ hmem, if_pos hobeys.1]

end MidiDeviceManager

namespace MidiServiceController

variable {s : MidiServiceController MidiDeviceManager}

/-- A client joins the users of a device, or the device is opened in the driver for it. -/
theorem openDevice_cases (h : s.deviceManager.UsbListed) (hobeys : s.deviceManager.usb.hdi.Obeys)
    (permitted : Bool) (c : ClientId) (d : DeviceId) :
    ((s.openDevice MidiDeviceManager.api permitted c d).state.deviceManager = s.deviceManager ∧
      ∀ d', d' ∈ (s.openDevice MidiDeviceManager.api permitted c d).state.deviceClientContexts ↔
        d' ∈ s.deviceClientContexts) ∨
    (d ∉ s.deviceClientContexts ∧ ∃ e ∈ s.deviceManager.devices, e.id = d ∧
      (s.openDevice MidiDeviceManager.api permitted c d).state.deviceManager =
        { s.deviceManager with
          usb := { s.deviceManager.usb with
            opened := s.deviceManager.usb.opened.add e.key.1 } } ∧
      ∀ d', d' ∈ (s.openDevice MidiDeviceManager.api permitted c d).state.deviceClientContexts ↔
        d' = d ∨ d' ∈ s.deviceClientContexts) := by
  unfold MidiServiceController.openDevice
  split
  · exact Or.inl ⟨rfl, fun _ => Iff.rfl⟩
  split
  · exact Or.inl ⟨rfl, fun _ => Iff.rfl⟩
  split
  · exact Or.inl ⟨rfl, fun _ => Iff.rfl⟩
  split
  · next context hcontext =>
      split
      · exact Or.inl ⟨rfl, fun _ => Iff.rfl⟩
      · refine Or.inl ⟨rfl, ?_⟩
        intro d'
        apply (AList.mem_insert _).trans
        apply or_iff_right_of_imp
        rintro rfl
        exact UnorderedMap.mem_of_lookup hcontext
  · next hcontext =>
      have hcall : MidiDeviceManager.api.openDevice d s.deviceManager =
          s.deviceManager.openDevice d := rfl
      rcases h.openDevice hobeys d with hfailed | ⟨e, he, hid, hopened⟩
      · rw [hcall, hfailed]
        exact Or.inl ⟨rfl, fun _ => Iff.rfl⟩
      · rw [hcall, hopened]
        refine Or.inr ⟨AList.lookup_eq_none.mp hcontext, e, he, hid, rfl, ?_⟩
        exact fun d' => AList.mem_insert _

end MidiServiceController

/-- The calls that open and close devices. -/
def Task.opensUsb : Task → Bool
  | .createMidiInServer .. | .openDevice .. | .closeDevice .. | .destroyMidiClient .. => true
  | _ => false

/-- What a run of these calls leaves to do on a list of USB devices. -/
def Task.OfUsb (m : MidiDeviceManager) : Task → Prop
  | .createMidiInServer .. | .openDevice .. | .closeDevice .. | .destroyMidiClient ..
  | .finishDestroyMidiClient | .managerCloseDevice _ => True
  | .driverCloseDevice key => ∃ e ∈ m.devices, e.key = key
  | _ => False

theorem Task.OfUsb.mono {m m' : MidiDeviceManager} {t : Task}
    (hdevices : m'.devices = m.devices) (h : t.OfUsb m) : t.OfUsb m' := by
  cases t with
  | driverCloseDevice key =>
      obtain ⟨e, he, hkey⟩ := h
      exact ⟨e, hdevices ▸ he, hkey⟩
  | _ => exact h

/-- The task is to close the device in its driver. -/
def Task.Closes (e : DeviceInformation) : Task → Prop
  | .managerCloseDevice d => d = e.id
  | .driverCloseDevice key => key = e.key
  | _ => False

/-- A close of the device is under way. -/
def Closing (e : DeviceInformation) (ts : Multiset Task) : Prop := ∃ t ∈ ts, t.Closes e

theorem closing_cons {e : DeviceInformation} {t : Task} {ts : Multiset Task} :
    Closing e (t ::ₘ ts) ↔ t.Closes e ∨ Closing e ts := by
  simp [Closing]

theorem closing_add {e : DeviceInformation} {tasks : List Task} {ts : Multiset Task} :
    Closing e ((tasks : Multiset Task) + ts) ↔ (∃ t ∈ tasks, t.Closes e) ∨ Closing e ts := by
  simp [Closing, or_and_right, exists_or]

theorem closes_managerCloseDevice {e : DeviceInformation} {ds : List DeviceId} :
    (∃ t ∈ ds.map Task.managerCloseDevice, t.Closes e) ↔ e.id ∈ ds := by
  simp [Task.Closes]

/-- How the users of a device, its flag in the driver and a close under way go together. -/
def Settled (used isOpen closing : Prop) : Prop :=
  (used → isOpen ∧ ¬closing) ∧ (¬used → isOpen → closing)

namespace Service

variable {s s' : Service} {ts : Multiset Task}

/-- The calls on a list of USB devices that the driver has closed, over a HDI service that
obeys. -/
def usbCalls : Sections Service Task where
  init := fun s => s.manager.UsbListed ∧ s.manager.usb.hdi.Obeys ∧ s.manager.usb.opened = ∅ ∧
    s.controller = { deviceManager := s.manager }
  starts := fun t => t.opensUsb
  environment := fun s s' => Environment s s' ∧ s'.manager.usb.hdi.Obeys
  run := run

/-- A device without users is opened only when no close of it is under way. -/
def Reopens (s : Service) (ts : Multiset Task) : Task → Prop
  | .openDevice _ _ d => d ∉ s.controller.deviceClientContexts →
      ∀ e ∈ s.manager.devices, e.id = d → ¬ Closing e ts
  | _ => True

/-- The invariant: a listed device that is used is open and not about to be closed, and one that
is not used is closed or about to be. -/
structure Drives (s : Service) (ts : Multiset Task) : Prop where
  listed : s.manager.UsbListed
  obeys : s.manager.usb.hdi.Obeys
  consistent : s.controller.registry.Consistent
  contexts : ∀ d ∈ s.controller.deviceClientContexts, ∃ e ∈ s.manager.devices, e.id = d
  tasks : ∀ t ∈ ts, t.OfUsb s.manager
  settled : ∀ e ∈ s.manager.devices, Settled (e.id ∈ s.controller.deviceClientContexts)
    (e.key.1 ∈ s.manager.usb.opened) (Closing e ts)

/-- A task that leaves the driver alone, where the devices that lose their users are closed
next. -/
theorem Drives.release {t : Task} {result : Service × List Task} (h : s.Drives (t ::ₘ ts))
    (hmanager : s.manager.KeepsUsb result.1.manager)
    (hconsistent : result.1.controller.registry.Consistent)
    (hkept : ∀ d ∈ result.1.controller.deviceClientContexts,
      d ∈ s.controller.deviceClientContexts)
    (htasks : ∀ t ∈ result.2, t.OfUsb s.manager) (ht : ∀ e, ¬ t.Closes e)
    (hclosing : ∀ e, (∃ t ∈ result.2, t.Closes e) ↔ e.id ∈ s.controller.deviceClientContexts ∧
      e.id ∉ result.1.controller.deviceClientContexts) :
    result.1.Drives ((result.2 : Multiset Task) + ts) := by
  have hdevices := hmanager.devices
  constructor
  · obtain ⟨husb, hnumbered, hids, hkeys⟩ := h.listed
    exact ⟨hdevices.symm ▸ husb, hdevices.symm ▸ hnumbered, hdevices.symm ▸ hids,
      hdevices.symm ▸ hkeys⟩
  · exact hmanager.hdi.symm ▸ h.obeys
  · exact hconsistent
  · intro d hd
    rw [hdevices]
    exact h.contexts d (hkept d hd)
  · intro t' ht'
    apply Task.OfUsb.mono hdevices
    rcases Multiset.mem_add.mp ht' with ht' | ht'
    · exact htasks t' (Multiset.mem_coe.mp ht')
    · exact h.tasks t' (Multiset.mem_cons_of_mem ht')
  · intro e he
    rw [hdevices] at he
    have hsettled := h.settled e he
    have hkept := hkept e.id
    have ht := ht e
    unfold Settled at hsettled ⊢
    rw [closing_cons] at hsettled
    rw [closing_add, hclosing e, hmanager.opened]
    grind

/-- A task that keeps the users of all devices and leaves the driver alone. -/
theorem Drives.keep {t : Task} {s' : Service} (h : s.Drives (t ::ₘ ts))
    (hmanager : s.manager.KeepsUsb s'.manager)
    (hconsistent : s'.controller.registry.Consistent)
    (hkept : ∀ d, d ∈ s'.controller.deviceClientContexts ↔ d ∈ s.controller.deviceClientContexts)
    (ht : ∀ e, ¬ t.Closes e) : s'.Drives ((([] : List Task) : Multiset Task) + ts) := by
  apply @release s ts t (s', []) h hmanager hconsistent
  · exact fun d => (hkept d).mp
  · exact fun t ht => absurd ht List.not_mem_nil
  · exact ht
  · intro e
    change (∃ t ∈ ([] : List Task), t.Closes e) ↔ _ ∧ e.id ∉ s'.controller.deviceClientContexts
    rw [hkept]
    simp

/-- The device of a call is opened in the driver. -/
theorem Drives.openDriver {token : TokenId} {c : ClientId} {d : DeviceId}
    {e : DeviceInformation} (h : s.Drives (.openDevice token c d ::ₘ ts)) (s' : Service)
    (hok : s.Reopens ts (.openDevice token c d))
    (hconsistent : s'.controller.registry.Consistent)
    (hd : d ∉ s.controller.deviceClientContexts) (he : e ∈ s.manager.devices) (hid : e.id = d)
    (hmanager : s'.manager = { s.manager with
      usb := { s.manager.usb with opened := s.manager.usb.opened.add e.key.1 } })
    (hcontexts : ∀ d', d' ∈ s'.controller.deviceClientContexts ↔
      d' = d ∨ d' ∈ s.controller.deviceClientContexts) : s'.Drives ts := by
  have hdevices : s'.manager.devices = s.manager.devices := by rw [hmanager]
  have hopened : ∀ k, k ∈ s'.manager.usb.opened ↔
      k = e.key.1 ∨ k ∈ s.manager.usb.opened := by
    intro k
    rw [hmanager]
    exact UnorderedSet.mem_add
  constructor
  · rw [hmanager]
    exact ⟨h.listed.usb, h.listed.numbered, h.listed.ids, h.listed.keys⟩
  · rw [hmanager]
    exact h.obeys
  · exact hconsistent
  · intro d' hd'
    rw [hdevices]
    rcases (hcontexts d').mp hd' with rfl | hd'
    · exact ⟨e, he, hid⟩
    · exact h.contexts d' hd'
  · intro t ht
    exact (h.tasks t (Multiset.mem_cons_of_mem ht)).mono hdevices
  · intro e' he'
    rw [hdevices] at he'
    have hsettled := h.settled e' he'
    have hopens : ¬ (Task.openDevice token c d).Closes e' := id
    unfold Settled at hsettled ⊢
    rw [closing_cons] at hsettled
    rw [hcontexts, hopened]
    by_cases hsame : e' = e
    · have hnone : ¬ Closing e' ts := by
        rw [hsame]
        exact hok hd e he hid
      subst hsame
      grind
    · have hid' : e'.id ≠ d := fun h' => hsame (h.listed.eq_of_id he' he (h'.trans hid.symm))
      have hkey : e'.key.1 ≠ e.key.1 := fun h' => hsame (h.listed.eq_of_driverId he' he h')
      grind

/-- The driver is called next for a device to close. -/
theorem Drives.managerCloseDevice {d : DeviceId} (h : s.Drives (.managerCloseDevice d ::ₘ ts)) :
    (s.managerCloseDevice d).1.Drives (((s.managerCloseDevice d).2 : Multiset Task) + ts) := by
  have htask : ∀ t ∈ (s.managerCloseDevice d).2,
      ∃ e ∈ s.manager.devices, e.id = d ∧ t = .driverCloseDevice e.key := by
    intro t ht
    unfold Service.managerCloseDevice at ht
    dsimp only at ht
    split at ht
    · contradiction
    · next hlisted =>
        obtain ⟨hmem, hid⟩ :=
          (MidiDeviceManager.getDeviceForDeviceId_cases d s.manager).resolve_left hlisted
        exact ⟨_, hmem, hid, List.mem_singleton.mp ht⟩
  have hclosing : ∀ e ∈ s.manager.devices,
      (∃ t ∈ (s.managerCloseDevice d).2, t.Closes e) ↔ d = e.id := by
    intro e he
    constructor
    · rintro ⟨t, ht, hcloses⟩
      obtain ⟨e', he', hid, rfl⟩ := htask t ht
      have hkey : e'.key = e.key := hcloses
      rw [← hid, h.listed.eq_of_driverId he' he (congrArg Prod.fst hkey)]
    · rintro rfl
      refine ⟨.driverCloseDevice e.key, ?_, rfl⟩
      unfold Service.managerCloseDevice
      dsimp only
      rw [h.listed.getDeviceForDeviceId he, if_neg (h.listed.numbered e he)]
      exact List.mem_singleton_self _
  constructor
  · exact h.listed
  · exact h.obeys
  · exact h.consistent
  · exact h.contexts
  · intro t ht
    rcases Multiset.mem_add.mp ht with ht | ht
    · obtain ⟨e, he, _, rfl⟩ := htask t (Multiset.mem_coe.mp ht)
      exact ⟨e, he, rfl⟩
    · exact h.tasks t (Multiset.mem_cons_of_mem ht)
  · intro e he
    have hsettled := h.settled e he
    rw [closing_cons] at hsettled
    rw [closing_add, hclosing e he]
    exact hsettled

/-- A device that is closed in the driver is used by nobody. -/
theorem Drives.driverCloseDevice {key : DriverKey} (h : s.Drives (.driverCloseDevice key ::ₘ ts)) :
    (s.driverCloseDevice key).1.Drives (((s.driverCloseDevice key).2 : Multiset Task) + ts) := by
  obtain ⟨e, he, rfl⟩ : ∃ e ∈ s.manager.devices, e.key = key :=
    h.tasks _ (Multiset.mem_cons_self _ _)
  have hclosed : s.driverCloseDevice e.key = (s.setManager { s.manager with
      usb := { s.manager.usb with opened := s.manager.usb.opened.erase e.key.1 } }, []) := by
    unfold Service.driverCloseDevice UsbDriver.closeDevice
    rw [h.listed.usb e he, if_pos h.obeys.2]
  rw [hclosed, Multiset.coe_nil, Multiset.zero_add]
  constructor
  · exact ⟨h.listed.usb, h.listed.numbered, h.listed.ids, h.listed.keys⟩
  · exact h.obeys
  · exact h.consistent
  · exact h.contexts
  · intro t ht
    exact (h.tasks t (Multiset.mem_cons_of_mem ht)).mono rfl
  · intro e' he'
    have hsettled := h.settled e' he'
    have hopened : e'.key.1 ∈ s.manager.usb.opened.erase e.key.1 ↔
        e'.key.1 ≠ e.key.1 ∧ e'.key.1 ∈ s.manager.usb.opened := AList.mem_erase
    have hcloses : (Task.driverCloseDevice e.key).Closes e' ↔ e'.key.1 = e.key.1 := by
      constructor
      · exact fun hkey => congrArg Prod.fst hkey.symm
      · intro hkey
        rw [h.listed.eq_of_driverId he' he hkey]
        rfl
    unfold Settled at hsettled ⊢
    rw [closing_cons, hcloses] at hsettled
    change (_ → e'.key.1 ∈ s.manager.usb.opened.erase e.key.1 ∧ _) ∧
      (_ → e'.key.1 ∈ s.manager.usb.opened.erase e.key.1 → _)
    rw [hopened]
    tauto

/-- The section of every task keeps the invariant. -/
theorem Drives.run {t : Task} (h : s.Drives (t ::ₘ ts)) (hok : s.Reopens ts t) :
    (s.run t).1.Drives (((s.run t).2 : Multiset Task) + ts) := by
  have hself := h.tasks t (Multiset.mem_cons_self t ts)
  have hstep := MidiServiceController.consistent_run MidiDeviceManager.api h.consistent
  cases t with
  | createMidiInServer uid object token added =>
      have hmanager := MidiServiceController.deviceManager_createMidiInServer uid object
        { callerTokenId := token, hasBluetoothPermission := s.granted token } added s.controller
      refine h.keep (.of_eq hmanager)
        (hstep (.createMidiInServer uid object _ added)) ?_ (fun e => id)
      intro d
      rcases MidiServiceController.registry_createMidiInServer uid object
        { callerTokenId := token, hasBluetoothPermission := s.granted token } added s.controller
        with heq | ⟨_, _, heq⟩
      · exact Set.ext_iff.mp (congrArg Mirror.kept heq) d
      · exact Set.ext_iff.mp (congrArg Mirror.kept heq) d
  | openDevice token c d =>
      have hconsistent := hstep (.openDevice (s.granted token) c d)
      rcases MidiServiceController.openDevice_cases h.listed h.obeys (s.granted token) c d with
        ⟨hmanager, hkept⟩ | ⟨hd, e, he, hid, hmanager, hcontexts⟩
      · exact h.keep (.of_eq hmanager) hconsistent hkept (fun e => id)
      · have hopen := h.openDriver (s.run (.openDevice token c d)).1 hok hconsistent hd he hid
          hmanager hcontexts
        rwa [← Multiset.zero_add ts] at hopen
  | closeDevice c d =>
      have hreleases := MidiServiceController.releases_closeDevice
        MidiDeviceManager.api h.consistent c d
      have hmanager := MidiServiceController.closing_closeDevice
        MidiDeviceManager.closing_usb c d s.controller
      apply h.release
      · exact hmanager
      · exact hstep (.closeDevice c d)
      · exact hreleases.kept
      · intro t ht
        obtain ⟨d', _, rfl⟩ := List.mem_map.mp ht
        trivial
      · exact fun e => id
      · exact fun e => closes_managerCloseDevice.trans (hreleases.closed e.id)
  | destroyMidiClient c =>
      change (s.destroyMidiClient c).1.Drives
        (((s.destroyMidiClient c).2 : Multiset Task) + ts)
      unfold Service.destroyMidiClient
      split
      · exact h.keep (.of_eq rfl) h.consistent (fun _ => Iff.rfl) (fun e => id)
      · have hreleases := MidiServiceController.releases_destroyMidiClient
          MidiDeviceManager.api h.consistent c
        have hmanager := MidiServiceController.closing_destroyMidiClient
          MidiDeviceManager.closing_usb c s.controller
        apply h.release
        · exact hmanager
        · exact hstep (.destroyMidiClient c)
        · exact hreleases.kept
        · intro t ht
          rcases List.mem_append.mp ht with ht | ht
          · obtain ⟨d', _, rfl⟩ := List.mem_map.mp ht
            trivial
          · rw [List.mem_singleton.mp ht]
            trivial
        · exact fun e => id
        · intro e
          have hlast : ¬ Task.finishDestroyMidiClient.Closes e := id
          rw [← hreleases.closed, ← closes_managerCloseDevice]
          simp [or_and_right, exists_or, hlast]
  | finishDestroyMidiClient =>
      have hmanager := MidiServiceController.deviceManager_finishDestroyMidiClient s.controller
      refine h.keep (.of_eq hmanager) (hstep .finishDestroyMidiClient) ?_
        (fun e => id)
      intro d
      change d ∈ s.controller.finishDestroyMidiClient.deviceClientContexts ↔ _
      unfold MidiServiceController.finishDestroyMidiClient
      split <;> rfl
  | managerCloseDevice d => exact h.managerCloseDevice
  | driverCloseDevice key => exact h.driverCloseDevice
  | _ => exact absurd hself id

theorem drives_initial (h : usbCalls.init s) : s.Drives 0 := by
  obtain ⟨hlisted, hobeys, hclosed, hcontroller⟩ := h
  have hnone : s.controller.deviceClientContexts = ∅ := by rw [hcontroller]
  constructor
  · exact hlisted
  · exact hobeys
  · rw [hcontroller]
    exact MidiServiceController.consistent_initial _
  · intro d hd
    rw [hnone] at hd
    exact absurd hd (AList.notMem_empty d)
  · exact fun t ht => absurd ht (Multiset.notMem_zero t)
  · intro e _
    rw [Settled, hnone, hclosed]
    exact ⟨fun he => absurd he (AList.notMem_empty _), fun _ he => absurd he (AList.notMem_empty _)⟩

theorem Drives.environment (h : s.Drives ts) (henvironment : usbCalls.environment s s') :
    s'.Drives ts := by
  obtain ⟨hstep, hobeys⟩ := henvironment
  have hsame : s'.manager.devices = s.manager.devices ∧
      s'.manager.usb.opened = s.manager.usb.opened ∧
      s'.controller.registry = s.controller.registry := by
    cases hstep with
    | answers hdi gatt granted => exact ⟨rfl, rfl, rfl⟩
    | rehash c hunlocked hmanager =>
        refine ⟨congrArg _ hmanager, ?_, MidiServiceController.registry_unlocked hunlocked⟩
        exact congrArg (fun m => m.usb.opened) hmanager
    | rehashBle table hrehash => exact ⟨rfl, rfl, rfl⟩
  obtain ⟨hdevices, hopened, hregistry⟩ := hsame
  have hcontexts : ∀ d, d ∈ s'.controller.deviceClientContexts ↔
      d ∈ s.controller.deviceClientContexts :=
    fun d => Set.ext_iff.mp (congrArg Mirror.kept hregistry) d
  constructor
  · obtain ⟨husb, hnumbered, hids, hkeys⟩ := h.listed
    exact ⟨hdevices.symm ▸ husb, hdevices.symm ▸ hnumbered, hdevices.symm ▸ hids,
      hdevices.symm ▸ hkeys⟩
  · exact hobeys
  · exact hregistry.symm ▸ h.consistent
  · intro d hd
    rw [hdevices]
    exact h.contexts d ((hcontexts d).mp hd)
  · exact fun t ht => (h.tasks t ht).mono hdevices
  · intro e he
    rw [hcontexts, hopened]
    exact h.settled e (hdevices ▸ he)

theorem drives_reached {c : Config Service Task} (reach : usbCalls.ReachedWith Reopens c) :
    c.shared.Drives c.outstanding := by
  apply reach.invariant fun s ts => s.Drives ts
  · exact fun s h => drives_initial h
  · intro s ts t hstarts h
    have ht : t.OfUsb s.manager ∧ ∀ e, ¬ t.Closes e := by
      cases t <;> first | exact ⟨trivial, fun e => id⟩ | contradiction
    refine ⟨h.listed, h.obeys, h.consistent, h.contexts, ?_, ?_⟩
    · intro t' ht'
      rcases Multiset.mem_cons.mp ht' with rfl | ht'
      · exact ht.1
      · exact h.tasks t' ht'
    · intro e he
      rw [closing_cons, or_iff_right (ht.2 e)]
      exact h.settled e he
  · exact fun s ts t hok h => h.run hok
  · exact fun s ts s' henvironment h => h.environment henvironment

/-- In every run that opens no device again while a close of it is under way, a listed device is
open in its driver exactly when it has users, unless its close is still under way; and only listed
devices have users. -/
theorem open_iff_used {c : Config Service Task} (reach : usbCalls.ReachedWith Reopens c) :
    (∀ d ∈ c.shared.controller.deviceClientContexts,
      ∃ e ∈ c.shared.manager.devices, e.id = d) ∧
    ∀ e ∈ c.shared.manager.devices, ¬ Closing e c.outstanding →
      (e.key.1 ∈ c.shared.manager.usb.opened ↔
        e.id ∈ c.shared.controller.deviceClientContexts) := by
  have h := drives_reached reach
  refine ⟨h.contexts, ?_⟩
  intro e he hnone
  have hsettled := h.settled e he
  unfold Settled at hsettled
  grind

/-! ### A device that is closed and opened again, after its close and before it -/

/-- The service after a refresh has listed a USB device. -/
def pluggedService : Service :=
  (sections.after (start pluggedIn {} fun _ => true)
    (.start .updateDevices :: List.replicate 6 (.run 0))).shared

theorem init_pluggedService : usbCalls.init pluggedService := by
  refine ⟨⟨?_, ?_, ?_, ?_⟩, ⟨?_, ?_⟩, rfl, rfl⟩ <;> decide +kernel

/-- A check that is enough for a run that opens no device while a close is under way. -/
def opensAlone (_ : Service) (ts : Multiset Task) : Task → Bool
  | .openDevice .. => ts.card == 0
  | _ => true

theorem reopens_of_opensAlone (s : Service) (ts : Multiset Task) (t : Task)
    (h : opensAlone s ts t) : s.Reopens ts t := by
  cases t with
  | openDevice token c d =>
      have hnone : ts = 0 := Multiset.card_eq_zero.mp (beq_iff_eq.mp h)
      rintro _ e _ _ ⟨t, ht, _⟩
      rw [hnone] at ht
      exact Multiset.notMem_zero t ht
  | _ => trivial

instance : DecidablePred usbCalls.starts :=
  fun t => inferInstanceAs (Decidable (t.opensUsb = true))

/-- Two clients share the device, and the one that closed it opens it again after the last close
has reached the driver. -/
def takingTurns : List (Turn Service Task) :=
  [.start (.createMidiInServer 7 0 1 true), .run 0, .start (.createMidiInServer 8 1 2 true), .run 1,
    .start (.openDevice 1 1 1001), .run 2, .start (.openDevice 2 2 1001), .run 3,
    .start (.closeDevice 1 1001), .run 4, .start (.destroyMidiClient 2), .run 5, .run 5, .run 5,
    .run 5, .start (.openDevice 1 1 1001), .run 6]

def reopenedDevice : Config Service Task := usbCalls.after { shared := pluggedService } takingTurns

theorem open_iff_used_reopened :
    (∀ d ∈ reopenedDevice.shared.controller.deviceClientContexts,
      ∃ e ∈ reopenedDevice.shared.manager.devices, e.id = d) ∧
    ∀ e ∈ reopenedDevice.shared.manager.devices, ¬ Closing e reopenedDevice.outstanding →
      (e.key.1 ∈ reopenedDevice.shared.manager.usb.opened ↔
        e.id ∈ reopenedDevice.shared.controller.deviceClientContexts) := by
  have hpermits : usbCalls.Permits Reopens { shared := pluggedService } takingTurns :=
    Sections.permits_of_follows reopens_of_opensAlone (by decide +kernel)
  have reach : usbCalls.ReachedWith Reopens reopenedDevice :=
    .after (.init ⟨init_pluggedService, rfl⟩) hpermits
  exact open_iff_used reach

/-- The second client opens the device between the two sections of the first one's close. -/
def overtaking : List (Turn Service Task) :=
  [.start (.createMidiInServer 7 0 1 true), .run 0, .start (.createMidiInServer 8 1 2 true), .run 1,
    .start (.openDevice 1 1 1001), .run 2, .start (.closeDevice 1 1001), .run 3,
    .start (.openDevice 2 2 1001), .run 4, .run 3, .run 3]

def silentDevice : Config Service Task := usbCalls.after { shared := pluggedService } overtaking

/-- The device has a user and is closed in its driver. -/
theorem used_and_closed : ∃ c : Config Service Task, usbCalls.Reached c ∧ c.Quiet ∧
    ∃ e ∈ c.shared.manager.devices, e.id ∈ c.shared.controller.deviceClientContexts ∧
      e.key.1 ∉ c.shared.manager.usb.opened := by
  have hpermits : usbCalls.Permits (fun _ _ _ => True) { shared := pluggedService } overtaking :=
    Sections.permits_of_follows (fun _ _ _ (_ : true) => trivial) (by decide +kernel)
  have hquiet : silentDevice.threads.flatten.isEmpty := by decide +kernel
  have hsilent : ∃ e ∈ silentDevice.shared.manager.devices,
      e.id ∈ silentDevice.shared.controller.deviceClientContexts ∧
        e.key.1 ∉ silentDevice.shared.manager.usb.opened := by decide +kernel
  exact ⟨silentDevice, .after (.init ⟨init_pluggedService, rfl⟩) hpermits,
    Config.quiet_of_isEmpty hquiet, hsilent⟩

end Service

end MidiFramework.Server
