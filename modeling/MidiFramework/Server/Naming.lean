import MidiFramework.Foundation.Transition
import MidiFramework.Server.DeviceIds

/-!
# Device ids name devices

The complete operations on the device list, one after the other, between any
changes of the drivers. Each is the composition of its sections. After each of
them the list and the id map tell the same, and the ids that are given out
only grow.
-/

namespace MidiFramework.Server

open Foundation

namespace MidiDeviceManager

/-! ### The operations -/

/-- The loop of `UpdateDevices` over the devices of the drivers. -/
def nameDevices (m : MidiDeviceManager) :
    List DeviceInformation → List DeviceInformation × MidiDeviceManager
  | [] => ([], m)
  | e :: rest =>
      let found := m.getOrCreateDeviceId e.key
      let named := found.2.nameDevices rest
      (e.withId found.1 :: named.1, named.2)

/-- `UpdateDevices` and `CompareDevices`. -/
def updateDevices (m : MidiDeviceManager) : MidiDeviceManager :=
  let named := m.nameDevices m.snapshot
  (named.2.installDevices named.1).eraseDriverIds
    ((without m.devices named.1).map DeviceInformation.key)

/-- `HandleBleConnect`. -/
def handleBleConnect (device : DeviceCtx) (m : MidiDeviceManager) : MidiDeviceManager :=
  let found := m.getOrCreateDeviceId device.information.key
  (found.2.listBleDevice device.information found.1).2

/-- `HandleBleDisconnect`. -/
def handleBleDisconnect (device : DeviceCtx) (m : MidiDeviceManager) : MidiDeviceManager :=
  let taken := m.takeDeviceId device.information.key
  (taken.2.unlistBleDevice taken.1).2

end MidiDeviceManager

/-- The operations on the device list. -/
inductive NamingOp
  | updateDevices
  | handleBleConnect (device : DeviceCtx)
  | handleBleDisconnect (device : DeviceCtx)

def NamingOp.run (m : MidiDeviceManager) : NamingOp → MidiDeviceManager
  | updateDevices => m.updateDevices
  | handleBleConnect device => m.handleBleConnect device
  | handleBleDisconnect device => m.handleBleDisconnect device

/-- A manager from its construction on. Where there is no operation the drivers change. -/
def namingMachine : Machine MidiDeviceManager (Option NamingOp) where
  init := fun m => ∃ usbFirst usb ble, m = { usbFirst := usbFirst, usb := usb, ble := ble }
  step := fun m label m' =>
    match label with
    | some op => m' = op.run m
    | none => ∃ usbFirst usb ble, m' = { m with usbFirst := usbFirst, usb := usb, ble := ble }

namespace MidiDeviceManager

variable {m m' m'' : MidiDeviceManager}

def driverIds (devices : List DeviceInformation) : List Int :=
  devices.map fun e => e.midiDeviceInfo.driverDeviceId

/-- In a refresh the drivers list each of their ids once. -/
def ListsOnce (m : MidiDeviceManager) : Option NamingOp → Prop
  | some .updateDevices =>
      (driverIds m.usb.getRegisteredDevices).Nodup ∧ (driverIds m.ble.getRegisteredDevices).Nodup
  | _ => True

/-- A refresh finds the device at its driver, and it is not reported as disconnected. -/
def Stays (key : DriverKey) (m : MidiDeviceManager) : Option NamingOp → Prop
  | some .updateDevices => key ∈ m.snapshot.map DeviceInformation.key
  | some (.handleBleDisconnect device) => device.information.key ≠ key
  | _ => True

/-- The ids in the map were given out, each to one key. -/
structure Issued (m : MidiDeviceManager) : Prop where
  next : 1000 ≤ m.nextDeviceId
  given : ∀ key d, m.driverIdToMidiId.lookup key = some d → 1000 < d ∧ d ≤ m.nextDeviceId
  injective : ∀ key key' d, m.driverIdToMidiId.lookup key = some d →
    m.driverIdToMidiId.lookup key' = some d → key = key'

/-- The list and the map tell the same. -/
structure Faithful (m : MidiDeviceManager) : Prop where
  issued : m.Issued
  mapped : ∀ e ∈ m.devices, m.driverIdToMidiId.lookup e.key = some e.id
  listed : ∀ key ∈ m.driverIdToMidiId, ∃ e ∈ m.devices, e.key = key
  once : (m.devices.map DeviceInformation.key).Nodup

/-- An operation gives out new ids only. -/
structure Grows (m m' : MidiDeviceManager) : Prop where
  next : m.nextDeviceId ≤ m'.nextDeviceId
  news : ∀ key d, m'.driverIdToMidiId.lookup key = some d →
    m.driverIdToMidiId.lookup key = some d ∨ m.nextDeviceId < d

/-! ### Looking up ids -/

/-- What looking up the ids of some keys does. -/
structure Names (keys : List DriverKey) (m m' : MidiDeviceManager) : Prop where
  devices : m'.devices = m.devices
  issued : m.Issued → m'.Issued
  grows : m.Grows m'
  keeps : ∀ key d, m.driverIdToMidiId.lookup key = some d →
    m'.driverIdToMidiId.lookup key = some d
  asked : ∀ key ∈ m'.driverIdToMidiId, key ∈ m.driverIdToMidiId ∨ key ∈ keys

theorem Grows.refl (m : MidiDeviceManager) : m.Grows m where
  next := le_rfl
  news := fun _ _ => Or.inl

theorem Grows.trans (h : m.Grows m') (h' : m'.Grows m'') : m.Grows m'' where
  next := h.next.trans h'.next
  news := by
    intro key d hd
    rcases h'.news key d hd with hold | hnew
    · exact h.news key d hold
    · exact Or.inr (h.next.trans_lt hnew)

theorem Names.refl (m : MidiDeviceManager) : Names [] m m where
  devices := rfl
  issued := id
  grows := .refl m
  keeps := fun _ _ => id
  asked := fun _ => Or.inl

theorem Names.trans {keys keys' : List DriverKey} (h : Names keys m m')
    (h' : Names keys' m' m'') : Names (keys ++ keys') m m'' where
  devices := h'.devices.trans h.devices
  issued := fun hm => h'.issued (h.issued hm)
  grows := h.grows.trans h'.grows
  keeps := fun key d hd => h'.keeps key d (h.keeps key d hd)
  asked := by
    intro key hkey
    rw [List.mem_append]
    rcases h'.asked key hkey with hold | hnew
    · rcases h.asked key hold with hold | hnew
      · exact Or.inl hold
      · exact Or.inr (Or.inl hnew)
    · exact Or.inr (Or.inr hnew)

/-- Looking up one id gives the id that the key has from then on. -/
theorem names_getOrCreateDeviceId (key : DriverKey) (m : MidiDeviceManager) :
    Names [key] m (m.getOrCreateDeviceId key).2 ∧
      (m.getOrCreateDeviceId key).2.driverIdToMidiId.lookup key =
        some (m.getOrCreateDeviceId key).1 := by
  unfold getOrCreateDeviceId
  split
  · next d hd =>
      refine ⟨⟨rfl, id, .refl m, fun _ _ => id, fun _ => Or.inl⟩, hd⟩
  · next hnone =>
      have hlookup : ∀ key' d, (m.driverIdToMidiId.insert key (m.nextDeviceId + 1)).lookup key' =
          some d → key' = key ∧ d = m.nextDeviceId + 1 ∨
            key' ≠ key ∧ m.driverIdToMidiId.lookup key' = some d := by
        intro key' d hd
        rw [UnorderedMap.lookup_insert_eq] at hd
        split at hd
        · next hkey => exact Or.inl ⟨hkey, (Option.some.inj hd).symm⟩
        · next hkey => exact Or.inr ⟨hkey, hd⟩
      refine ⟨⟨rfl, ?_, ⟨Int.le_add_one le_rfl, ?_⟩, ?_, ?_⟩, AList.lookup_insert _⟩
      · intro hm
        constructor
        · exact Int.le_add_one hm.next
        · intro key' d hd
          rcases hlookup key' d hd with ⟨_, rfl⟩ | ⟨_, hold⟩
          · exact ⟨Int.lt_add_one_of_le hm.next, le_rfl⟩
          · exact ⟨(hm.given key' d hold).1, Int.le_add_one (hm.given key' d hold).2⟩
        · intro key₁ key₂ d h₁ h₂
          have hfresh : ∀ key', m.driverIdToMidiId.lookup key' ≠ some (m.nextDeviceId + 1) :=
            fun key' hd => Int.not_le.mpr (Int.lt_add_one_of_le le_rfl) (hm.given key' _ hd).2
          rcases hlookup key₁ d h₁ with ⟨rfl, rfl⟩ | ⟨_, hold₁⟩
          · rcases hlookup key₂ _ h₂ with ⟨rfl, _⟩ | ⟨_, hold₂⟩
            · rfl
            · exact absurd hold₂ (hfresh key₂)
          · rcases hlookup key₂ d h₂ with ⟨rfl, rfl⟩ | ⟨_, hold₂⟩
            · exact absurd hold₁ (hfresh key₁)
            · exact hm.injective key₁ key₂ d hold₁ hold₂
      · intro key' d hd
        rcases hlookup key' d hd with ⟨_, rfl⟩ | ⟨_, hold⟩
        · exact Or.inr (Int.lt_add_one_of_le le_rfl)
        · exact Or.inl hold
      · intro key' d hd
        rw [UnorderedMap.lookup_insert_eq, if_neg]
        · exact hd
        · rintro rfl
          rw [hnone] at hd
          contradiction
      · intro key' hkey
        rcases (AList.mem_insert _).mp hkey with rfl | hold
        · exact Or.inr (List.mem_singleton_self _)
        · exact Or.inl hold

/-- The loop gives every device the id of its key. -/
theorem names_nameDevices (es : List DeviceInformation) (m : MidiDeviceManager) :
    Names (es.map DeviceInformation.key) m (m.nameDevices es).2 ∧
      (m.nameDevices es).1.map DeviceInformation.key = es.map DeviceInformation.key ∧
      ∀ e ∈ (m.nameDevices es).1,
        (m.nameDevices es).2.driverIdToMidiId.lookup e.key = some e.id := by
  induction es generalizing m with
  | nil => exact ⟨.refl m, rfl, fun e he => absurd he List.not_mem_nil⟩
  | cons e es ih =>
      obtain ⟨hfirst, hid⟩ := names_getOrCreateDeviceId e.key m
      obtain ⟨hrest, hkeys, hids⟩ := ih (m.getOrCreateDeviceId e.key).2
      refine ⟨hfirst.trans hrest, congrArg (e.key :: ·) hkeys, ?_⟩
      intro x hx
      rcases List.mem_cons.mp hx with rfl | hx
      · exact hrest.keeps _ _ hid
      · exact hids x hx

/-! ### The list and the map -/

/-- The ids of the list are distinct, since their keys are. -/
theorem Faithful.nodup_ids (h : m.Faithful) : (m.devices.map DeviceInformation.id).Nodup := by
  apply List.Nodup.map_on _ (List.Nodup.of_map _ h.once)
  intro e he e' he' hid
  have hkey : e.key = e'.key :=
    h.issued.injective _ _ _ (h.mapped e he) (hid ▸ h.mapped e' he')
  exact List.inj_on_of_nodup_map h.once he he' hkey

theorem Issued.mono (h : m.Issued) (hnext : m'.nextDeviceId = m.nextDeviceId)
    (hids : ∀ key d, m'.driverIdToMidiId.lookup key = some d →
      m.driverIdToMidiId.lookup key = some d) : m'.Issued where
  next := hnext.symm ▸ h.next
  given := fun key d hd => hnext.symm ▸ h.given key d (hids key d hd)
  injective := fun key key' d hd hd' => h.injective key key' d (hids key d hd) (hids key' d hd')

theorem lookup_eraseDriverIds_eq (keys : List DriverKey) (key : DriverKey)
    (m : MidiDeviceManager) :
    (m.eraseDriverIds keys).driverIdToMidiId.lookup key =
      if key ∈ keys then none else m.driverIdToMidiId.lookup key := by
  unfold eraseDriverIds
  induction keys generalizing m with
  | nil => rfl
  | cons k keys ih =>
      have hrest := ih { m with driverIdToMidiId := m.driverIdToMidiId.erase k }
      rw [UnorderedMap.lookup_erase_eq] at hrest
      rw [List.foldl_cons]
      apply hrest.trans
      by_cases hkey : key = k
      · simp [hkey]
      · simp [hkey]

theorem mem_keys_without {devices others : List DeviceInformation} {key : DriverKey} :
    key ∈ (without devices others).map DeviceInformation.key ↔
      key ∈ devices.map DeviceInformation.key ∧ key ∉ others.map DeviceInformation.key := by
  unfold without
  simp only [List.mem_map, List.mem_filter, Bool.not_eq_true', List.any_eq_false, beq_iff_eq]
  constructor
  · rintro ⟨e, ⟨he, hother⟩, rfl⟩
    refine ⟨⟨e, he, rfl⟩, ?_⟩
    rintro ⟨o, ho, hkey⟩
    exact hother o ho hkey
  · rintro ⟨⟨e, he, rfl⟩, hother⟩
    exact ⟨e, ⟨he, fun o ho hkey => hother ⟨o, ho, hkey⟩⟩, rfl⟩

/-- The drivers list their own devices, so that distinct ids give distinct keys. -/
theorem nodup_snapshot (h : m.ListsOnce (some .updateDevices)) :
    (m.snapshot.map DeviceInformation.key).Nodup := by
  have husb : ∀ e ∈ m.usb.getRegisteredDevices, e.key.2 = .usb := by
    intro e he
    unfold UsbDriver.getRegisteredDevices at he
    split at he
    · contradiction
    · obtain ⟨device, _, rfl⟩ := List.mem_map.mp he
      rfl
  have hble : ∀ e ∈ m.ble.getRegisteredDevices, e.key.2 = .ble := by
    intro e he
    obtain ⟨i, d, _, _, rfl⟩ := BleDriver.mem_getRegisteredDevices.mp he
    rfl
  have hpart : ∀ es : List DeviceInformation, (driverIds es).Nodup →
      (es.map DeviceInformation.key).Nodup := by
    intro es hes
    apply List.Nodup.of_map Prod.fst
    rw [List.map_map]
    exact hes
  have hdisjoint : ∀ key, key ∈ m.usb.getRegisteredDevices.map DeviceInformation.key →
      key ∉ m.ble.getRegisteredDevices.map DeviceInformation.key := by
    intro key hkey hkey'
    obtain ⟨e, he, rfl⟩ := List.mem_map.mp hkey
    obtain ⟨e', he', heq⟩ := List.mem_map.mp hkey'
    have htype := congrArg Prod.snd heq
    rw [husb e he, hble e' he'] at htype
    contradiction
  unfold snapshot
  split
  · rw [List.map_append]
    exact (hpart _ h.1).append (hpart _ h.2) fun key hkey => hdisjoint key hkey
  · rw [List.map_append]
    exact (hpart _ h.2).append (hpart _ h.1) fun key hkey hkey' => hdisjoint key hkey' hkey

theorem faithful_updateDevices (h : m.Faithful) (honce : m.ListsOnce (some .updateDevices)) :
    m.updateDevices.Faithful := by
  obtain ⟨hnames, hkeys, hids⟩ := names_nameDevices m.snapshot m
  have hlookup : ∀ key, m.updateDevices.driverIdToMidiId.lookup key =
      if key ∈ (without m.devices (m.nameDevices m.snapshot).1).map DeviceInformation.key then none
      else (m.nameDevices m.snapshot).2.driverIdToMidiId.lookup key :=
    fun key => lookup_eraseDriverIds_eq _ key _
  have hsub : ∀ key d, m.updateDevices.driverIdToMidiId.lookup key = some d →
      (m.nameDevices m.snapshot).2.driverIdToMidiId.lookup key = some d := by
    intro key d hd
    rw [hlookup] at hd
    split at hd
    · contradiction
    · exact hd
  constructor
  · exact (hnames.issued h.issued).mono rfl hsub
  · intro e he
    rw [hlookup, if_neg]
    · exact hids e he
    · intro hremoved
      exact (mem_keys_without.mp hremoved).2 (List.mem_map_of_mem he)
  · intro key hkey
    obtain ⟨d, hd⟩ := UnorderedMap.mem_iff_lookup.mp hkey
    rw [hlookup] at hd
    split at hd
    · contradiction
    · next hremoved =>
        have hlisted : key ∈ (m.nameDevices m.snapshot).1.map DeviceInformation.key := by
          rcases hnames.asked key (UnorderedMap.mem_of_lookup hd) with hold | hasked
          · obtain ⟨e, he, rfl⟩ := h.listed key hold
            by_contra hnot
            exact hremoved (mem_keys_without.mpr ⟨List.mem_map_of_mem he, hnot⟩)
          · exact hkeys ▸ hasked
        exact List.mem_map.mp hlisted
  · change ((m.nameDevices m.snapshot).1.map DeviceInformation.key).Nodup
    rw [hkeys]
    exact nodup_snapshot honce

theorem listBleDevice_snd (device : DeviceInformation) (d : DeviceId) (m : MidiDeviceManager) :
    ∃ devices, (m.listBleDevice device d).2 = { m with devices := devices } ∧
      (devices = m.devices ∧ (∃ e ∈ m.devices, e.id = d) ∨
        devices = m.devices ++ [device.withId d] ∧ ∀ e ∈ m.devices, e.id ≠ d) := by
  unfold listBleDevice
  split
  · next e he => exact ⟨m.devices, rfl, Or.inl ⟨rfl, e, mem_of_find he⟩⟩
  · next hnone =>
      refine ⟨_, rfl, Or.inr ⟨rfl, ?_⟩⟩
      intro e he hid
      exact List.find?_eq_none.mp hnone e he (beq_iff_eq.mpr hid)

theorem faithful_handleBleConnect (h : m.Faithful) (device : DeviceCtx) :
    (m.handleBleConnect device).Faithful := by
  obtain ⟨hnames, hid⟩ := names_getOrCreateDeviceId device.information.key m
  unfold handleBleConnect
  dsimp only
  set found := m.getOrCreateDeviceId device.information.key
  have hissued := hnames.issued h.issued
  obtain ⟨devices, heq, hdevices⟩ := listBleDevice_snd device.information found.1 found.2
  rw [heq]
  rw [hnames.devices] at hdevices
  have hmapped : ∀ e ∈ m.devices, found.2.driverIdToMidiId.lookup e.key = some e.id :=
    fun e he => hnames.keeps _ _ (h.mapped e he)
  rcases hdevices with ⟨rfl, e, he, hfound⟩ | ⟨rfl, hnew⟩
  · constructor
    · exact hissued.mono rfl fun _ _ => id
    · exact hmapped
    · intro key hkey
      rcases hnames.asked key hkey with hold | hasked
      · exact h.listed key hold
      · have hkey : e.key = device.information.key :=
          hissued.injective _ _ _ (hfound ▸ hmapped e he) hid
        exact ⟨e, he, hkey.trans (List.mem_singleton.mp hasked).symm⟩
    · exact h.once
  · constructor
    · exact hissued.mono rfl fun _ _ => id
    · intro e he
      rcases List.mem_append.mp he with he | he
      · exact hmapped e he
      · rw [List.mem_singleton.mp he]
        exact hid
    · intro key hkey
      rcases hnames.asked key hkey with hold | hasked
      · obtain ⟨e, he, hkey⟩ := h.listed key hold
        exact ⟨e, List.mem_append_left _ he, hkey⟩
      · refine ⟨_, List.mem_append_right _ (List.mem_singleton_self _), ?_⟩
        exact (List.mem_singleton.mp hasked).symm
    · rw [List.map_append]
      apply h.once.append (List.nodup_singleton _)
      intro key hkey hkey'
      obtain ⟨e, he, rfl⟩ := List.mem_map.mp hkey
      have hlookup := hmapped e he
      rw [List.mem_singleton.mp hkey'] at hlookup
      exact hnew e he (Option.some.inj (hlookup.symm.trans hid))

/-- In a list of distinct ids, erasing the first device with an id erases all with it. -/
theorem mem_eraseP_id {devices : List DeviceInformation} {d : DeviceId} {e : DeviceInformation}
    (h : (devices.map DeviceInformation.id).Nodup) :
    e ∈ devices.eraseP (fun e => e.id == d) ↔ e ∈ devices ∧ e.id ≠ d := by
  induction devices with
  | nil => simp
  | cons x devices ih =>
      obtain ⟨hx, hrest⟩ := List.nodup_cons.mp h
      by_cases hid : x.id = d
      · rw [List.eraseP_cons_of_pos (by simpa using hid)]
        constructor
        · intro he
          refine ⟨List.mem_cons_of_mem _ he, ?_⟩
          rintro rfl
          exact hx (hid ▸ List.mem_map_of_mem he)
        · rintro ⟨he, hne⟩
          rcases List.mem_cons.mp he with rfl | he
          · contradiction
          · exact he
      · rw [List.eraseP_cons_of_neg (by simpa using hid), List.mem_cons, List.mem_cons, ih hrest]
        constructor
        · rintro (rfl | ⟨he, hne⟩)
          · exact ⟨Or.inl rfl, hid⟩
          · exact ⟨Or.inr he, hne⟩
        · rintro ⟨rfl | he, hne⟩
          · exact Or.inl rfl
          · exact Or.inr ⟨he, hne⟩

theorem lookup_handleBleDisconnect (device : DeviceCtx) (key : DriverKey) (m : MidiDeviceManager) :
    (m.handleBleDisconnect device).driverIdToMidiId.lookup key =
      if key = device.information.key then none else m.driverIdToMidiId.lookup key := by
  change (m.takeDeviceId device.information.key).2.driverIdToMidiId.lookup key = _
  unfold takeDeviceId
  split
  · exact UnorderedMap.lookup_erase_eq _ _ _
  · next hnone =>
      split
      · next hkey => rw [hkey, hnone]
      · rfl

theorem faithful_handleBleDisconnect (h : m.Faithful) (device : DeviceCtx) :
    (m.handleBleDisconnect device).Faithful := by
  have hlookup := fun key => lookup_handleBleDisconnect device key m
  have hnext : (m.handleBleDisconnect device).nextDeviceId = m.nextDeviceId :=
    (takeDeviceId_snd device.information.key m).2.1
  have hdevices : (m.handleBleDisconnect device).devices = m.devices.eraseP
      fun e => e.id == (m.takeDeviceId device.information.key).1 :=
    congrArg (List.eraseP _) (takeDeviceId_snd device.information.key m).1
  have hsub : ∀ key d, (m.handleBleDisconnect device).driverIdToMidiId.lookup key = some d →
      m.driverIdToMidiId.lookup key = some d := by
    intro key d hd
    rw [hlookup] at hd
    split at hd
    · contradiction
    · exact hd
  -- The device of the key, and only that, has the id that is taken.
  have htaken : ∀ e ∈ m.devices, e.id = (m.takeDeviceId device.information.key).1 ↔
      e.key = device.information.key := by
    intro e he
    have hmapped := h.mapped e he
    constructor
    · intro hid
      rcases takeDeviceId_fst (m := m) device.information.key with hsome | hzero
      · exact h.issued.injective _ _ _ (hid ▸ hmapped) hsome
      · have hpositive := (h.issued.given _ _ hmapped).1
        rw [hid, hzero] at hpositive
        contradiction
    · intro hkey
      rw [hkey] at hmapped
      unfold takeDeviceId
      rw [hmapped]
  constructor
  · exact h.issued.mono hnext hsub
  · intro e he
    rw [hdevices, mem_eraseP_id h.nodup_ids] at he
    rw [hlookup, if_neg fun hkey => he.2 ((htaken e he.1).mpr hkey)]
    exact h.mapped e he.1
  · intro key hkey
    obtain ⟨d, hd⟩ := UnorderedMap.mem_iff_lookup.mp hkey
    obtain ⟨e, he, rfl⟩ := h.listed key (UnorderedMap.mem_of_lookup (hsub key d hd))
    refine ⟨e, ?_, rfl⟩
    rw [hdevices, mem_eraseP_id h.nodup_ids]
    refine ⟨he, fun hid => ?_⟩
    rw [hlookup, if_pos ((htaken e he).mp hid)] at hd
    contradiction
  · rw [hdevices]
    exact h.once.sublist (List.eraseP_sublist.map _)

/-! ### Every run -/

theorem faithful_run (h : m.Faithful) {op : NamingOp} (honce : m.ListsOnce (some op)) :
    (op.run m).Faithful := by
  cases op with
  | updateDevices => exact faithful_updateDevices h honce
  | handleBleConnect device => exact faithful_handleBleConnect h device
  | handleBleDisconnect device => exact faithful_handleBleDisconnect h device

theorem faithful_reached (reach : namingMachine.ReachableWith ListsOnce m) : m.Faithful := by
  apply reach.invariant Faithful
  · rintro m ⟨usbFirst, usb, ble, rfl⟩
    have hnone : ∀ key d, (∅ : UnorderedMap DriverKey DeviceId).lookup key ≠ some d :=
      fun key d hd => AList.notMem_empty key (UnorderedMap.mem_of_lookup hd)
    constructor
    · exact ⟨le_rfl, fun key d hd => absurd hd (hnone key d),
        fun key _ d hd => absurd hd (hnone key d)⟩
    · exact fun e he => absurd he List.not_mem_nil
    · exact fun key hkey => absurd hkey (AList.notMem_empty key)
    · exact List.nodup_nil
  · intro m label m' _ h honce move
    cases label with
    | none =>
        obtain ⟨usbFirst, usb, ble, rfl⟩ := move
        exact ⟨h.issued.mono rfl fun _ _ => id, h.mapped, h.listed, h.once⟩
    | some op => exact move.symm ▸ faithful_run h honce

theorem grows_run (op : NamingOp) (m : MidiDeviceManager) : m.Grows (op.run m) := by
  cases op with
  | updateDevices =>
      have hnames := (names_nameDevices m.snapshot m).1
      refine ⟨hnames.grows.next, ?_⟩
      intro key d hd
      change m.updateDevices.driverIdToMidiId.lookup key = some d at hd
      exact hnames.grows.news key d (lookup_eraseDriverIds hd)
  | handleBleConnect device =>
      have hnames := (names_getOrCreateDeviceId device.information.key m).1
      obtain ⟨devices, heq, _⟩ := listBleDevice_snd device.information
        (m.getOrCreateDeviceId device.information.key).1
        (m.getOrCreateDeviceId device.information.key).2
      change m.Grows ((m.getOrCreateDeviceId device.information.key).2.listBleDevice
        device.information (m.getOrCreateDeviceId device.information.key).1).2
      rw [heq]
      exact ⟨hnames.grows.next, hnames.grows.news⟩
  | handleBleDisconnect device =>
      refine ⟨(takeDeviceId_snd device.information.key m).2.1.ge, ?_⟩
      intro key d hd
      exact Or.inl (lookup_takeDeviceId hd)

/-- A device that stays keeps its id in the map. -/
theorem keeps_run {key : DriverKey} {d : DeviceId} {op : NamingOp}
    (hd : m.driverIdToMidiId.lookup key = some d) (hstays : Stays key m (some op)) :
    (op.run m).driverIdToMidiId.lookup key = some d := by
  cases op with
  | updateDevices =>
      obtain ⟨hnames, hkeys, _⟩ := names_nameDevices m.snapshot m
      apply (lookup_eraseDriverIds_eq _ key _).trans
      rw [if_neg]
      · exact hnames.keeps key d hd
      · intro hremoved
        exact (mem_keys_without.mp hremoved).2 (hkeys.symm ▸ hstays)
  | handleBleConnect device =>
      have hnames := (names_getOrCreateDeviceId device.information.key m).1
      obtain ⟨devices, heq, _⟩ := listBleDevice_snd device.information
        (m.getOrCreateDeviceId device.information.key).1
        (m.getOrCreateDeviceId device.information.key).2
      change ((m.getOrCreateDeviceId device.information.key).2.listBleDevice
        device.information (m.getOrCreateDeviceId device.information.key).1
        ).2.driverIdToMidiId.lookup key = some d
      rw [heq]
      exact hnames.keeps key d hd
  | handleBleDisconnect device =>
      apply (lookup_handleBleDisconnect device key m).trans
      rw [if_neg (Ne.symm hstays)]
      exact hd

/-- An id that was given out and is in the map no more. -/
def Retired (d : DeviceId) (m : MidiDeviceManager) : Prop :=
  d ≤ m.nextDeviceId ∧ ∀ key, m.driverIdToMidiId.lookup key ≠ some d

theorem Retired.grows {d : DeviceId} (h : m.Retired d) (hgrows : m.Grows m') : m'.Retired d := by
  refine ⟨h.1.trans hgrows.next, ?_⟩
  intro key hd
  rcases hgrows.news key d hd with hold | hnew
  · exact h.2 key hold
  · exact Int.not_le.mpr hnew h.1

theorem grows_reached (reach : (namingMachine.startingAt m).ReachableWith ListsOnce m') :
    m.Grows m' := by
  apply reach.invariant (fun m' => m.Grows m')
  · rintro m' rfl
    exact .refl m'
  · intro t label u _ h _ move
    cases label with
    | none =>
        obtain ⟨usbFirst, usb, ble, rfl⟩ := move
        exact h.trans ⟨le_rfl, fun _ _ => Or.inl⟩
    | some op => exact move.symm ▸ h.trans (grows_run op t)

theorem keeps_reached {key : DriverKey} {d : DeviceId}
    (hd : m.driverIdToMidiId.lookup key = some d)
    (reach : (namingMachine.startingAt m).ReachableWith
      (fun t label => t.ListsOnce label ∧ t.Stays key label) m') :
    m'.driverIdToMidiId.lookup key = some d := by
  apply reach.invariant (fun m' => m'.driverIdToMidiId.lookup key = some d)
  · rintro m' rfl
    exact hd
  · intro t label u _ h hcond move
    cases label with
    | none =>
        obtain ⟨usbFirst, usb, ble, rfl⟩ := move
        exact h
    | some op => exact move.symm ▸ keeps_run h hcond.2

/-- The entries of the list and of the map correspond one to one, each device with the id of its
key; ids are distinct and not zero; a device that every refresh finds and that is not reported as
disconnected keeps its id; and an id that no device has any more is not given to a device again. -/
theorem device_ids_name_devices (reach : namingMachine.ReachableWith ListsOnce m) :
    (∀ e ∈ m.devices, m.driverIdToMidiId.lookup e.key = some e.id) ∧
    (∀ key d, m.driverIdToMidiId.lookup key = some d → ∃ e ∈ m.devices, e.key = key ∧ e.id = d) ∧
    (m.devices.map DeviceInformation.key).Nodup ∧
    (m.devices.map DeviceInformation.id).Nodup ∧
    (∀ e ∈ m.devices, e.id ≠ 0) ∧
    (∀ e ∈ m.devices, ∀ t,
      (namingMachine.startingAt m).ReachableWith
        (fun t label => t.ListsOnce label ∧ t.Stays e.key label) t →
      ∃ e' ∈ t.devices, e'.key = e.key ∧ e'.id = e.id) ∧
    ∀ e ∈ m.devices, ∀ t u,
      (namingMachine.startingAt m).ReachableWith ListsOnce t → (∀ x ∈ t.devices, x.id ≠ e.id) →
      (namingMachine.startingAt t).ReachableWith ListsOnce u → ∀ x ∈ u.devices, x.id ≠ e.id := by
  have h := faithful_reached reach
  have hentry : ∀ {n : MidiDeviceManager}, n.Faithful → ∀ key d,
      n.driverIdToMidiId.lookup key = some d → ∃ e ∈ n.devices, e.key = key ∧ e.id = d := by
    intro n hn key d hd
    obtain ⟨e, he, rfl⟩ := hn.listed key (UnorderedMap.mem_of_lookup hd)
    exact ⟨e, he, rfl, Option.some.inj ((hn.mapped e he).symm.trans hd)⟩
  refine ⟨h.mapped, hentry h, h.once, h.nodup_ids, ?_, ?_, ?_⟩
  · intro e he hzero
    have hpositive := (h.issued.given _ _ (h.mapped e he)).1
    rw [hzero] at hpositive
    contradiction
  · intro e he t hrun
    have ht : t.Faithful := faithful_reached (reach.append (hrun.mono fun _ _ hcond => hcond.1))
    exact hentry ht e.key e.id (keeps_reached (h.mapped e he) hrun)
  · intro e he t u hrun hgone hrest x hx hid
    have ht : t.Faithful := faithful_reached (reach.append hrun)
    have hu : u.Faithful := faithful_reached ((reach.append hrun).append hrest)
    have hretired : t.Retired e.id := by
      constructor
      · exact (h.issued.given _ _ (h.mapped e he)).2.trans (grows_reached hrun).next
      · intro key hkey
        obtain ⟨e', he', _, hid'⟩ := hentry ht key e.id hkey
        exact hgone e' he' hid'
    exact (hretired.grows (grows_reached hrest)).2 x.key (hid ▸ hu.mapped x hx)

/-- A Bluetooth device that connects, leaves and comes back under the same driver id. -/
def returningDevice : DeviceCtx := { id := 5, address := "A0", deviceCallback := some "A0" }

theorem device_ids_name_devices_returning :
    ((({} : MidiDeviceManager).handleBleConnect returningDevice).handleBleDisconnect
        returningDevice |>.handleBleConnect returningDevice).devices.length = 1 ∧
      ∀ x ∈ ((({} : MidiDeviceManager).handleBleConnect returningDevice).handleBleDisconnect
        returningDevice |>.handleBleConnect returningDevice).devices, x.id ≠ 1001 := by
  have hfirst : namingMachine.ReachableWith ListsOnce
      (({} : MidiDeviceManager).handleBleConnect returningDevice) := by
    apply Machine.ReachableWith.step (l := some (.handleBleConnect returningDevice)) _ trivial rfl
    exact .init ⟨true, {}, {}, rfl⟩
  have hmem : returningDevice.information.withId 1001 ∈
      (({} : MidiDeviceManager).handleBleConnect returningDevice).devices :=
    List.mem_singleton_self _
  have hnames := device_ids_name_devices hfirst
  refine ⟨by decide +kernel, ?_⟩
  apply hnames.2.2.2.2.2.2 _ hmem
    ((({} : MidiDeviceManager).handleBleConnect returningDevice).handleBleDisconnect
      returningDevice)
  · apply Machine.ReachableWith.step (l := some (.handleBleDisconnect returningDevice)) _ trivial
      rfl
    exact .init rfl
  · have hnone : ((({} : MidiDeviceManager).handleBleConnect returningDevice).handleBleDisconnect
        returningDevice).devices = [] := by decide +kernel
    rw [hnone]
    exact fun x hx => absurd hx List.not_mem_nil
  · apply Machine.ReachableWith.step (l := some (.handleBleConnect returningDevice)) _ trivial rfl
    exact .init rfl

end MidiDeviceManager

end MidiFramework.Server
