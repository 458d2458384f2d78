import MidiFramework.Server.DeviceIds

/-!
# Updates of the device list

Three kinds of sections write the device list: a refresh installs what it saw
of the drivers, and the handlers of the Bluetooth reports add or take out one
device. The handlers are ordered by their list sections. A run is undisturbed
when no refresh installs a list that a handler has overtaken, and no handler
meets the device of another session; in such a run the list agrees with the
reports and with the last refresh.

## Implementation notes

The stack gives a client id again when its session has ended, so the id does not
say which device a report is about. What was connected is a session, and what
the list shows is a client id with an address.
-/

namespace MidiFramework.Server

open Foundation

/-- A Bluetooth device as the list shows it: the driver's id and the address. -/
abbrev BleDevice : Type := Int × Address

def DeviceCtx.bleDevice (d : DeviceCtx) : BleDevice := (d.id, d.address)

/-! ### The last handler of a session and of a device -/

/-- The last handler that the predicate holds of. -/
def lastHandled (p : BleHandling → Bool) (handled : List BleHandling) : Option BleHandling :=
  (handled.filter p).getLast?

def BleHandling.sameSession (x y : BleHandling) : Bool := y.device.session == x.device.session

def BleHandling.sameDevice (x y : BleHandling) : Bool := y.device.bleDevice == x.device.bleDevice

section LastHandled

variable {p : BleHandling → Bool} {handled : List BleHandling} {x y : BleHandling}

theorem lastHandled_append (p : BleHandling → Bool) (handled more : List BleHandling) :
    lastHandled p (handled ++ more) = (lastHandled p more).or (lastHandled p handled) := by
  unfold lastHandled
  rw [List.filter_append, List.getLast?_append]

@[simp] theorem lastHandled_nil (p : BleHandling → Bool) : lastHandled p [] = none := rfl

theorem lastHandled_concat (p : BleHandling → Bool) (handled : List BleHandling) (x : BleHandling) :
    lastHandled p (handled ++ [x]) = if p x then some x else lastHandled p handled := by
  rw [lastHandled_append]
  by_cases h : p x
  · simp [lastHandled, h]
  · simp [lastHandled, h]

/-- The last handler is one of the handlers. -/
theorem mem_of_lastHandled (h : lastHandled p handled = some x) : x ∈ handled ∧ p x = true :=
  List.mem_filter.mp (List.mem_of_getLast? h)

/-- What the last handler did is older than the first `n` handlers, or it is the last one since. -/
theorem lastHandled_drop (h : lastHandled p handled = some x) (n : Nat) :
    lastHandled p (handled.drop n) = none ∨ lastHandled p (handled.drop n) = some x := by
  rw [← List.take_append_drop n handled, lastHandled_append] at h
  cases hdrop : lastHandled p (handled.drop n) with
  | none => exact Or.inl rfl
  | some y =>
      rw [hdrop, Option.some_or] at h
      exact Or.inr h

end LastHandled

/-! ### Lists of devices -/

/-- The entry of the list shows the Bluetooth device. -/
def DeviceInformation.Shows (e : DeviceInformation) (device : BleDevice) : Prop :=
  e.key = (device.1, .ble) ∧ e.midiDeviceInfo.address = device.2

instance (e : DeviceInformation) (device : BleDevice) : Decidable (e.Shows device) :=
  inferInstanceAs (Decidable (_ ∧ _))

theorem DeviceCtx.information_shows (d : DeviceCtx) : d.information.Shows d.bleDevice := ⟨rfl, rfl⟩

theorem DeviceInformation.Shows.unique {e : DeviceInformation} {device device' : BleDevice}
    (h : e.Shows device) (h' : e.Shows device') : device = device' :=
  Prod.ext (Prod.mk.inj (h.1.symm.trans h'.1)).1 (h.2.symm.trans h'.2)

/-- The list has the Bluetooth device. -/
def ListsBle (devices : List DeviceInformation) (device : BleDevice) : Prop :=
  ∃ e ∈ devices, e.Shows device

/-- The USB devices of a list as the driver describes them. -/
def usbPart (devices : List DeviceInformation) : List DeviceInformation :=
  (devices.filter fun e => e.key.2 == .usb).map fun e => e.withId 0

theorem usbPart_append (devices devices' : List DeviceInformation) :
    usbPart (devices ++ devices') = usbPart devices ++ usbPart devices' := by
  simp [usbPart]

theorem listsBle_append {devices devices' : List DeviceInformation} {device : BleDevice} :
    ListsBle (devices ++ devices') device ↔ ListsBle devices device ∨ ListsBle devices' device := by
  simp [ListsBle, or_and_right, exists_or]

/-- The two lists describe the same devices, whatever ids they have. -/
def SameDevices (devices devices' : List DeviceInformation) : Prop :=
  devices.map (fun e => e.withId 0) = devices'.map fun e => e.withId 0

theorem SameDevices.usbPart {devices devices' : List DeviceInformation}
    (h : SameDevices devices devices') : usbPart devices = usbPart devices' := by
  have hpart : ∀ l : List DeviceInformation, Server.usbPart l =
      (l.map fun e => e.withId 0).filter fun e => e.key.2 == .usb := by
    intro l
    rw [List.filter_map]
    rfl
  rw [hpart, hpart, h]

theorem SameDevices.listsBle {devices devices' : List DeviceInformation}
    (h : SameDevices devices devices') (device : BleDevice) :
    ListsBle devices device ↔ ListsBle devices' device := by
  have hlists : ∀ l : List DeviceInformation, ListsBle l device ↔
      ∃ e ∈ l.map fun e => e.withId 0, e.Shows device := by
    intro l
    constructor
    · rintro ⟨e, he, hshows⟩
      exact ⟨_, List.mem_map_of_mem he, hshows⟩
    · rintro ⟨_, he, hshows⟩
      obtain ⟨found, hfound, rfl⟩ := List.mem_map.mp he
      exact ⟨found, hfound, hshows⟩
  rw [hlists, hlists, h]

/-! ### Sessions of the Bluetooth driver -/

namespace BleDriver

variable {s s' : BleDriver}

/-- The session is the one that the driver has under the id. -/
def Current (s : BleDriver) (i : Int) (k : Nat) : Prop :=
  ∃ d, s.devices.lookup i = some d ∧ d.session = k

/-- A context that can report belongs to a numbered session of its client id. -/
def Keyed (s : BleDriver) : Prop :=
  ∀ i d, s.devices.lookup i = some d →
    d.session ≤ s.sessions ∧ (d.deviceCallback.isSome → d.id = i ∧ 0 < d.session)

/-- The session of the context reported success: as long as the driver has it, it is connected and
the device is the same. -/
structure Succeeded (s : BleDriver) (device : DeviceCtx) : Prop where
  numbered : 0 < device.session ∧ device.session ≤ s.sessions
  online : ∀ d, s.devices.lookup device.id = some d → d.session = device.session →
    d.connected ∧ d.bleDevice = device.bleDevice

theorem Keyed.evolves (h : s.Keyed) (hevolves : s.Evolves s') : s'.Keyed := by
  intro i d hd
  refine ⟨hevolves.numbered (fun i d hd => (h i d hd).1) i d hd, ?_⟩
  intro hcallback
  cases hevolves.descends i d hd with
  | same d₀ found session id address callback connected =>
      obtain ⟨_, hd₀⟩ := h i d₀ found
      rw [session, id]
      exact hd₀ (callback ▸ hcallback)
  | unclaimed session callback =>
      rw [callback] at hcallback
      contradiction
  | opened later id callback => exact ⟨id, Nat.zero_lt_of_lt later⟩

/-- A numbered session of the later table was in the earlier one. -/
theorem Current.descends {i : Int} {k : Nat} (h : s'.Current i k) (hevolves : s.Evolves s')
    (hk : 0 < k ∧ k ≤ s.sessions) : s.Current i k := by
  obtain ⟨d, hd, rfl⟩ := h
  cases hevolves.descends i d hd with
  | same d₀ found session => exact ⟨d₀, found, session.symm⟩
  | unclaimed session => exact absurd hk.1 (by simp [session])
  | opened later => exact absurd hk.2 (Nat.not_le.mpr later)

theorem Succeeded.evolves {device : DeviceCtx} (h : s.Succeeded device)
    (hevolves : s.Evolves s') : s'.Succeeded device := by
  refine ⟨⟨h.numbered.1, h.numbered.2.trans hevolves.sessions⟩, ?_⟩
  intro d hd hk
  cases hevolves.descends device.id d hd with
  | same d₀ found session id address callback connected =>
      obtain ⟨hconnected, hdevice⟩ := h.online d₀ found (session.symm.trans hk)
      exact ⟨connected hconnected, (Prod.ext id address : d.bleDevice = d₀.bleDevice).trans hdevice⟩
  | unclaimed session =>
      have hzero := h.numbered.1
      rw [← hk, session] at hzero
      exact absurd hzero (Nat.lt_irrefl 0)
  | opened later =>
      have hle := h.numbered.2
      rw [← hk] at hle
      exact absurd hle (Nat.not_le.mpr later)

end BleDriver

/-- The last handler of the session has listed its device, and the driver has the session. -/
structure BleHandling.Online (x : BleHandling) (ble : BleDriver) (handled : List BleHandling) :
    Prop where
  last : lastHandled x.sameSession handled = some x
  listed : x.listed
  current : ble.Current x.device.id x.device.session

/-- The last handler of the device has taken it out. -/
structure BleHandling.Offline (x : BleHandling) (handled : List BleHandling) : Prop where
  last : lastHandled x.sameDevice handled = some x
  unlisted : x.listed = false

section BleHandlings

variable {x : BleHandling} {ble ble' : BleDriver} {handled more : List BleHandling}

theorem BleHandling.Online.drop (h : x.Online ble handled) (n : Nat) :
    lastHandled x.sameSession (handled.drop n) = none ∨ x.Online ble (handled.drop n) :=
  (lastHandled_drop h.last n).imp_right fun hlast => ⟨hlast, h.listed, h.current⟩

theorem BleHandling.Offline.drop (h : x.Offline handled) (n : Nat) :
    lastHandled x.sameDevice (handled.drop n) = none ∨ x.Offline (handled.drop n) :=
  (lastHandled_drop h.last n).imp_right fun hlast => ⟨hlast, h.unlisted⟩

/-- What is online after other handlers was online before them. -/
theorem BleHandling.Online.earlier (h : x.Online ble' (handled ++ more))
    (hmore : lastHandled x.sameSession more = none) (hevolves : ble.Evolves ble')
    (hsucceeded : ∀ y ∈ handled, y.listed → ble.Succeeded y.device) : x.Online ble handled := by
  have hlast := h.last
  rw [lastHandled_append, hmore, Option.none_or] at hlast
  have hnumbered := (hsucceeded x (mem_of_lastHandled hlast).1 h.listed).numbered
  exact ⟨hlast, h.listed, h.current.descends hevolves hnumbered⟩

theorem BleHandling.Offline.earlier (h : x.Offline (handled ++ more))
    (hmore : lastHandled x.sameDevice more = none) : x.Offline handled := by
  have hlast := h.last
  rw [lastHandled_append, hmore, Option.none_or] at hlast
  exact ⟨hlast, h.unlisted⟩

/-- After one more handler a session is online as before, or the handler is of it. -/
theorem BleHandling.Online.of_concat {y : BleHandling} (h : x.Online ble (handled ++ [y])) :
    x = y ∨ y.device.session ≠ x.device.session ∧ x.Online ble handled := by
  have hlast := h.last
  rw [lastHandled_concat] at hlast
  split at hlast
  · exact Or.inl (Option.some.inj hlast).symm
  · next hother =>
      exact Or.inr ⟨fun heq => hother (beq_iff_eq.mpr heq), hlast, h.listed, h.current⟩

theorem BleHandling.Offline.of_concat {y : BleHandling} (h : x.Offline (handled ++ [y])) :
    x = y ∨ y.device.bleDevice ≠ x.device.bleDevice ∧ x.Offline handled := by
  have hlast := h.last
  rw [lastHandled_concat] at hlast
  split at hlast
  · exact Or.inl (Option.some.inj hlast).symm
  · next hother => exact Or.inr ⟨fun heq => hother (beq_iff_eq.mpr heq), hlast, h.unlisted⟩

end BleHandlings

/-! ### Undisturbed runs -/

namespace Service

/-- The refresh that the task is of, before its list is installed. -/
def refreshOf : Task → Option Nat
  | .takeSnapshot refresh => some refresh
  | .assignIds snapshot _ _ => some snapshot.refresh
  | .installDevices snapshot _ => some snapshot.refresh
  | _ => none

/-- The conditions of an undisturbed run. The stack confirms notifications only on a connected
session. A refresh sees no device that was last taken out of the list. No refresh that began after a
snapshot is installed before it, and the handlers that reach the list in between leave the devices
of the snapshot. A report of success finds no other device listed under the id that its handler
looked up. A report of failure takes out its own device, which is listed once and is online in no
other session. -/
def Undisturbed (s : Service) (_ : Multiset Task) : Task → Prop
  | .onRegisterNotify i status =>
      status = 0 → ∀ d, s.manager.ble.devices.lookup i = some d → d.connected
  | .takeSnapshot _ =>
      ∀ x : BleHandling, x.Offline s.listing.handled →
        ¬ ListsBle s.manager.ble.getRegisteredDevices x.device.bleDevice
  | .installDevices snapshot _ =>
      (∀ y ∈ s.listing.installed, y.refresh ≤ snapshot.begun) ∧
      (∀ x : BleHandling, x.Online s.manager.ble (s.listing.handled.drop snapshot.handled) →
        ListsBle snapshot.devices x.device.bleDevice) ∧
      ∀ x : BleHandling, x.Offline (s.listing.handled.drop snapshot.handled) →
        ¬ ListsBle snapshot.devices x.device.bleDevice
  | .listBleDevice report d =>
      ∀ e ∈ s.manager.devices, e.id = d → e.midiDeviceInfo.address = report.device.address
  | .unlistBleDevice report d =>
      (∀ e ∈ s.manager.devices, e.key = report.device.information.key →
        (e.id = d ↔ e.midiDeviceInfo.address = report.device.address)) ∧
      (s.manager.devices.filter fun e => e.Shows report.device.bleDevice).length ≤ 1 ∧
      ∀ x : BleHandling, x.Online s.manager.ble s.listing.handled →
        x.device.session ≠ report.device.session → x.device.bleDevice ≠ report.device.bleDevice
  | _ => True

variable {s s' : Service} {ts : Multiset Task}

/-- The snapshot agrees with the handlers of all sessions and devices that no handler has reached
since. -/
structure Sees (s : Service) (snapshot : Snapshot) : Prop where
  recorded : snapshot ∈ s.listing.snapshots
  begun : snapshot.refresh ≤ snapshot.begun ∧ snapshot.begun ≤ s.listing.begun
  handled : snapshot.handled ≤ s.listing.handled.length
  listed : ∀ x : BleHandling, x.Online s.manager.ble s.listing.handled →
    lastHandled x.sameSession (s.listing.handled.drop snapshot.handled) = none →
      ListsBle snapshot.devices x.device.bleDevice
  unlisted : ∀ x : BleHandling, x.Offline s.listing.handled →
    lastHandled x.sameDevice (s.listing.handled.drop snapshot.handled) = none →
      ¬ ListsBle snapshot.devices x.device.bleDevice

/-- What an outstanding task relies on. -/
def TaskAgrees (s : Service) : Task → Prop
  | .handleBleConnect report | .listBleDevice report _ => s.manager.ble.Succeeded report.device
  | .takeSnapshot refresh => refresh ≤ s.listing.begun
  | .assignIds snapshot rest named =>
      s.Sees snapshot ∧ SameDevices (named ++ rest) snapshot.devices
  | .installDevices snapshot devices => s.Sees snapshot ∧ SameDevices devices snapshot.devices
  | _ => True

/-- The list agrees with the handlers and with the refresh that was installed last. -/
structure Agrees (s : Service) (ts : Multiset Task) : Prop where
  keyed : s.manager.ble.Keyed
  succeeded : ∀ x ∈ s.listing.handled, x.listed → s.manager.ble.Succeeded x.device
  listed : ∀ x : BleHandling, x.Online s.manager.ble s.listing.handled →
    ListsBle s.manager.devices x.device.bleDevice
  unlisted : ∀ x : BleHandling, x.Offline s.listing.handled →
    ¬ ListsBle s.manager.devices x.device.bleDevice
  installed : ∀ snapshot, s.listing.installed.getLast? = some snapshot →
    snapshot ∈ s.listing.snapshots ∧ snapshot.begun ≤ s.listing.begun ∧
      (∀ x ∈ s.listing.installed, x.refresh ≤ snapshot.begun) ∧
      usbPart s.manager.devices = usbPart snapshot.devices
  refreshes : ∀ n, 0 < n → n ≤ s.listing.begun →
    (∃ x ∈ s.listing.installed, x.refresh = n) ∨ ∃ t ∈ ts, refreshOf t = some n
  tasks : ∀ t ∈ ts, s.TaskAgrees t

/-- A later state, as far as the outstanding tasks see it. -/
structure Later (s s' : Service) : Prop where
  ble : s.manager.ble.Evolves s'.manager.ble
  snapshots : s.listing.snapshots ⊆ s'.listing.snapshots
  begun : s.listing.begun ≤ s'.listing.begun
  handled : ∃ more, s'.listing.handled = s.listing.handled ++ more

theorem later_of_evolves (hble : s.manager.ble.Evolves s'.manager.ble)
    (hlisting : s'.listing = s.listing) : s.Later s' where
  ble := hble
  snapshots := hlisting ▸ List.Subset.refl _
  begun := by rw [hlisting]
  handled := ⟨[], by rw [hlisting, List.append_nil]⟩

theorem later_of_ble (hble : s'.manager.ble = s.manager.ble) (hlisting : s'.listing = s.listing) :
    s.Later s' := later_of_evolves (hble ▸ .refl _) hlisting

theorem Sees.later {snapshot : Snapshot} (h : s.Sees snapshot)
    (hsucceeded : ∀ x ∈ s.listing.handled, x.listed → s.manager.ble.Succeeded x.device)
    (hlater : s.Later s') : s'.Sees snapshot := by
  obtain ⟨more, hmore⟩ := hlater.handled
  have hdrop : s'.listing.handled.drop snapshot.handled =
      s.listing.handled.drop snapshot.handled ++ more := by
    rw [hmore, List.drop_append_of_le_length h.handled]
  refine ⟨hlater.snapshots h.recorded, ⟨h.begun.1, h.begun.2.trans hlater.begun⟩, ?_, ?_, ?_⟩
  · rw [hmore, List.length_append]
    exact h.handled.trans (Nat.le_add_right _ _)
  · intro x hx hnone
    rw [hdrop, lastHandled_append, Option.or_eq_none_iff] at hnone
    rw [hmore] at hx
    exact h.listed x (hx.earlier hnone.1 hlater.ble hsucceeded) hnone.2
  · intro x hx hnone
    rw [hdrop, lastHandled_append, Option.or_eq_none_iff] at hnone
    rw [hmore] at hx
    exact h.unlisted x (hx.earlier hnone.1) hnone.2

theorem TaskAgrees.later {t : Task} (h : s.TaskAgrees t)
    (hsucceeded : ∀ x ∈ s.listing.handled, x.listed → s.manager.ble.Succeeded x.device)
    (hlater : s.Later s') : s'.TaskAgrees t := by
  cases t with
  | handleBleConnect report => exact BleDriver.Succeeded.evolves h hlater.ble
  | listBleDevice report d => exact BleDriver.Succeeded.evolves h hlater.ble
  | takeSnapshot refresh => exact Nat.le_trans h hlater.begun
  | assignIds snapshot rest named => exact ⟨h.1.later hsucceeded hlater, h.2⟩
  | installDevices snapshot devices => exact ⟨h.1.later hsucceeded hlater, h.2⟩
  | _ => trivial

/-! ### One section -/

theorem Later.refl (s : Service) : s.Later s := later_of_ble rfl rfl

/-- What writes neither the list nor the reports keeps the agreement. -/
theorem Agrees.carry {ts' : Multiset Task} (h : s.Agrees ts) (hlater : s.Later s')
    (hdevices : s'.manager.devices = s.manager.devices)
    (hhandled : s'.listing.handled = s.listing.handled)
    (hinstalled : s'.listing.installed = s.listing.installed)
    (hbegun : s'.listing.begun = s.listing.begun)
    (hrefresh : ∀ t ∈ ts, ∀ n, refreshOf t = some n → ∃ t' ∈ ts', refreshOf t' = some n)
    (htasks : ∀ t ∈ ts', s'.TaskAgrees t) : s'.Agrees ts' where
  keyed := h.keyed.evolves hlater.ble
  succeeded := by
    intro x hx hlisted
    exact (h.succeeded x (hhandled ▸ hx) hlisted).evolves hlater.ble
  listed := by
    intro x hx
    rw [hhandled, ← List.append_nil s.listing.handled] at hx
    exact hdevices ▸ h.listed x (hx.earlier rfl hlater.ble h.succeeded)
  unlisted := by
    intro x hx
    exact hdevices ▸ h.unlisted x (hhandled ▸ hx)
  installed := by
    intro snapshot hlast
    rw [hinstalled] at hlast
    obtain ⟨hmem, hsnapshot, hrefreshes, husb⟩ := h.installed snapshot hlast
    rw [hinstalled, hdevices]
    exact ⟨hlater.snapshots hmem, hsnapshot.trans hlater.begun, hrefreshes, husb⟩
  refreshes := by
    intro n hn hle
    rw [hinstalled]
    apply (h.refreshes n hn (hbegun ▸ hle)).imp_right
    rintro ⟨t, ht, hof⟩
    exact hrefresh t ht n hof
  tasks := htasks

/-- The tasks that a section adds agree with the others. -/
theorem Agrees.tasksAgree {t : Task} {tasks : List Task} (h : s.Agrees (t ::ₘ ts))
    (hlater : s.Later s') (htasks : ∀ t' ∈ tasks, s'.TaskAgrees t') :
    ∀ t' ∈ (tasks : Multiset Task) + ts, s'.TaskAgrees t' := by
  intro t' ht'
  rcases Multiset.mem_add.mp ht' with ht' | ht'
  · exact htasks t' (Multiset.mem_coe.mp ht')
  · exact (h.tasks t' (Multiset.mem_cons_of_mem ht')).later h.succeeded hlater

/-- A section that writes neither the list nor the reports keeps the agreement. -/
theorem Agrees.keep {t : Task} {result : Service × List Task} (h : s.Agrees (t ::ₘ ts))
    (hlater : s.Later result.1) (hdevices : result.1.manager.devices = s.manager.devices)
    (hhandled : result.1.listing.handled = s.listing.handled)
    (hinstalled : result.1.listing.installed = s.listing.installed)
    (hbegun : result.1.listing.begun = s.listing.begun)
    (hrefresh : ∀ n, refreshOf t = some n → ∃ t' ∈ result.2, refreshOf t' = some n)
    (htasks : ∀ t' ∈ result.2, result.1.TaskAgrees t') :
    result.1.Agrees ((result.2 : Multiset Task) + ts) := by
  apply h.carry hlater hdevices hhandled hinstalled hbegun
  · intro t' ht' n hof
    rcases Multiset.mem_cons.mp ht' with rfl | ht'
    · obtain ⟨t'', ht'', hof'⟩ := hrefresh n hof
      exact ⟨t'', Multiset.mem_add.mpr (Or.inl (Multiset.mem_coe.mpr ht'')), hof'⟩
    · exact ⟨t', Multiset.mem_add.mpr (Or.inr ht'), hof⟩
  · exact h.tasksAgree hlater htasks

/-- A section of the driver calls the manager with a success only if it reports one. -/
theorem report_of_bleSection {i : Int} {reported : Reported} {report : Report}
    (h : .handleBleConnect report ∈ (s.bleSection i reported).2) :
    reported.report = some (true, report.device) ∧ report.device.deviceCallback.isSome := by
  unfold bleSection notifyManager at h
  rcases List.mem_append.mp h with h | h
  · split at h
    · contradiction
    · next success device heq =>
        split at h
        · contradiction
        · next address hcallback =>
            cases success with
            | true =>
                obtain rfl := Task.handleBleConnect.inj (List.mem_singleton.mp h)
                exact ⟨heq, by simp [hcallback]⟩
            | false => exact absurd (List.mem_singleton.mp h) (by simp)
  · split at h
    · exact absurd (List.mem_singleton.mp h) (by simp)
    · contradiction

/-- The report of a success comes from the callback that confirms the notifications. -/
theorem online_of_report {t : Task} (hlist : t.ofList = false) {report : Report}
    (h : .handleBleConnect report ∈ (s.run t).2) :
    ∃ i d, t = .onRegisterNotify i 0 ∧ s.manager.ble.devices.lookup i = some d ∧
      d.deviceCallback.isSome ∧ report.device = s.manager.ble.onlineContext d := by
  have hdrop : ∀ i, (s.manager.ble.dropContext i).report ≠ some (true, report.device) := by
    intro i
    unfold BleDriver.dropContext
    split <;> simp
  have hno : ∀ {α : Type} (f : α → Task) (l : List α), (∀ x, f x ≠ .handleBleConnect report) →
      .handleBleConnect report ∉ l.map f := by
    intro α f l hf hmem
    obtain ⟨x, _, hx⟩ := List.mem_map.mp hmem
    exact hf x hx
  cases t with
  | onRegisterNotify i status =>
      obtain ⟨hreport, hcallback⟩ := report_of_bleSection h
      unfold BleDriver.onRegisterNotify at hreport
      split at hreport
      · contradiction
      · next d hd =>
          split at hreport
          · next hstatus =>
              have hdevice : s.manager.ble.onlineContext d = report.device := by
                simpa using hreport
              refine ⟨i, d, by rw [hstatus], hd, ?_, hdevice.symm⟩
              rw [← hdevice] at hcallback
              exact hcallback
          · contradiction
  | onConnectionState i connState status =>
      obtain ⟨hreport, _⟩ := report_of_bleSection h
      unfold BleDriver.onConnectionState at hreport
      split at hreport
      · exact absurd hreport (hdrop i)
      · split at hreport <;> contradiction
  | onServicesComplete i status =>
      obtain ⟨hreport, _⟩ := report_of_bleSection h
      unfold BleDriver.onServicesComplete at hreport
      split at hreport
      · contradiction
      · split at hreport
        · contradiction
        · split at hreport <;> contradiction
  | cleanupDevice i => exact absurd (report_of_bleSection h).1 (hdrop i)
  | driverCloseDevice key =>
      change _ ∈ (s.driverCloseDevice key).2 at h
      unfold driverCloseDevice at h
      split at h
      · contradiction
      · exact absurd (report_of_bleSection h).1 (hdrop key.1)
  | closeDevice c d => exact absurd h (hno _ _ (by simp))
  | openBleDevice token c address =>
      change _ ∈ (s.openBleDevice token c address).2 at h
      unfold openBleDevice at h
      dsimp only at h
      split at h
      · contradiction
      · exact absurd h (hno _ _ (by simp))
  | destroyMidiClient c =>
      change _ ∈ (s.destroyMidiClient c).2 at h
      unfold destroyMidiClient at h
      split at h
      · contradiction
      · rcases List.mem_append.mp h with h | h
        · exact absurd h (hno _ _ (by simp))
        · exact absurd (List.mem_singleton.mp h) (by simp)
  | managerCloseDevice d =>
      change _ ∈ (if (s.manager.getDeviceForDeviceId d).id = 0 then [] else _) at h
      split at h
      · contradiction
      · exact absurd (List.mem_singleton.mp h) (by simp)
  | handleBleOpenComplete report d info =>
      rcases List.mem_append.mp h with h | h
      · exact absurd h (hno _ _ (by simp))
      · exact absurd h (hno _ _ (by simp))
  | _ => contradiction

theorem refreshOf_of_ofList {t : Task} (h : t.ofList = false) : refreshOf t = none := by
  cases t <;> first | rfl | contradiction

/-- A task that does not work on the list keeps the agreement. -/
theorem Agrees.leaves {t : Task} (h : s.Agrees (t ::ₘ ts)) (hlist : t.ofList = false)
    (hok : s.Undisturbed ts t) : (s.run t).1.Agrees (((s.run t).2 : Multiset Task) + ts) := by
  have hleaves := leavesList_run hlist s
  have hlater : s.Later (s.run t).1 := later_of_evolves hleaves.manager.ble hleaves.listing
  apply h.keep hlater hleaves.manager.devices (by rw [hleaves.listing]) (by rw [hleaves.listing])
    (by rw [hleaves.listing])
  · rw [refreshOf_of_ofList hlist]
    exact fun n hn => nomatch hn
  · intro t' ht'
    cases t' with
    | handleBleConnect report =>
        obtain ⟨i, d, rfl, hd, hcallback, hdevice⟩ := online_of_report hlist ht'
        obtain ⟨hsession, hkeyed⟩ := h.keyed i d hd
        obtain ⟨hid, hpositive⟩ := hkeyed hcallback
        have hconnected := hok rfl d hd
        have htable : (s.run (.onRegisterNotify i 0)).1.manager.ble =
            s.manager.ble.insertContext i (s.manager.ble.onlineContext d) := by
          change (s.bleSection i (s.manager.ble.onRegisterNotify i 0)).1.manager.ble = _
          unfold BleDriver.onRegisterNotify
          rw [hd]
          unfold bleSection notifyManager
          simp only [if_true]
          split <;> rfl
        have hrid : report.device.id = i := hdevice ▸ hid
        have hrsession : report.device.session = d.session := hdevice ▸ rfl
        change (s.run (.onRegisterNotify i 0)).1.manager.ble.Succeeded _
        rw [htable]
        refine ⟨⟨hrsession ▸ hpositive, hrsession ▸ hsession.trans (le_max_left _ _)⟩, ?_⟩
        intro d' hd' _
        rw [hrid, BleDriver.insertContext, UnorderedMap.lookup_insert_eq, if_pos rfl] at hd'
        obtain rfl := Option.some.inj hd'
        exact ⟨hconnected, hdevice ▸ rfl⟩
    | handleBleDisconnect report => trivial
    | _ => rcases hleaves.tasks _ ht' with hno | hno <;> trivial

theorem usbPart_eq_of_ble {devices : List DeviceInformation} {e : DeviceInformation}
    (h : e.key.2 = .ble) : usbPart (devices ++ [e]) = usbPart devices := by
  rw [usbPart_append]
  simp [usbPart, h]

/-- What a handler of a Bluetooth report has to show about the list that it leaves. -/
theorem Agrees.handle {t : Task} (device : DeviceCtx) (listed : Bool)
    {result : Service × List Task} (h : s.Agrees (t ::ₘ ts))
    (hble : result.1.manager.ble = s.manager.ble)
    (hlisting : ∃ edits, result.1.listing =
      { s.listing with edits := edits, handled := s.listing.handled ++ [⟨device, listed⟩] })
    (hsucceeded : listed = true → s.manager.ble.Succeeded device)
    (hkeep : ∀ other, other ≠ device.bleDevice →
      (ListsBle result.1.manager.devices other ↔ ListsBle s.manager.devices other))
    (hself : listed = true → ListsBle result.1.manager.devices device.bleDevice)
    (hgone : listed = false → ¬ ListsBle result.1.manager.devices device.bleDevice)
    (hothers : listed = false → ∀ x : BleHandling, x.Online s.manager.ble s.listing.handled →
      x.device.session ≠ device.session → x.device.bleDevice ≠ device.bleDevice)
    (husb : usbPart result.1.manager.devices = usbPart s.manager.devices)
    (hrefresh : refreshOf t = none) (htasks : ∀ t' ∈ result.2, result.1.TaskAgrees t') :
    result.1.Agrees ((result.2 : Multiset Task) + ts) := by
  obtain ⟨edits, hlisting⟩ := hlisting
  have hlater : s.Later result.1 := by
    refine ⟨hble ▸ .refl _, ?_, ?_, [⟨device, listed⟩], ?_⟩ <;> rw [hlisting]
    exact fun _ h => h
  constructor
  · exact hble ▸ h.keyed
  · intro x hx hlisted
    rw [hlisting] at hx
    rw [hble]
    rcases List.mem_append.mp hx with hx | hx
    · exact h.succeeded x hx hlisted
    · obtain rfl := List.mem_singleton.mp hx
      exact hsucceeded hlisted
  · intro x hx
    rw [hble, hlisting] at hx
    rcases hx.of_concat with rfl | ⟨hsession, hbefore⟩
    · exact hself hx.listed
    · by_cases hdevice : x.device.bleDevice = device.bleDevice
      · cases listed with
        | true => exact hdevice ▸ hself rfl
        | false => exact absurd hdevice (hothers rfl x hbefore (Ne.symm hsession))
      · exact (hkeep _ hdevice).mpr (h.listed x hbefore)
  · intro x hx
    rw [hlisting] at hx
    rcases hx.of_concat with rfl | ⟨hdevice, hbefore⟩
    · exact hgone hx.unlisted
    · exact fun hlists => h.unlisted x hbefore ((hkeep _ (Ne.symm hdevice)).mp hlists)
  · intro snapshot hsnapshot
    rw [husb, hlisting]
    rw [hlisting] at hsnapshot
    exact h.installed snapshot hsnapshot
  · intro n hn hle
    rw [hlisting] at hle ⊢
    apply (h.refreshes n hn hle).imp_right
    rintro ⟨t', ht', hof⟩
    rcases Multiset.mem_cons.mp ht' with rfl | ht'
    · rw [hrefresh] at hof
      contradiction
    · exact ⟨t', Multiset.mem_add.mpr (Or.inr ht'), hof⟩
  · exact h.tasksAgree hlater htasks

/-- A report of success puts its device into the list, unless the list has it. -/
theorem Agrees.listBleDevice {owner : DeviceId → DriverKey} {report : Report} {d : DeviceId}
    (h : s.Agrees (.listBleDevice report d ::ₘ ts))
    (hnamed : s.NamedBy owner (.listBleDevice report d ::ₘ ts))
    (hok : s.Undisturbed ts (.listBleDevice report d)) :
    (s.listBleDevice report d).1.Agrees (((s.listBleDevice report d).2 : Multiset Task) + ts) := by
  have hsucceeded : s.manager.ble.Succeeded report.device :=
    h.tasks _ (Multiset.mem_cons_self _ _)
  have howns : Owns owner s.manager.nextDeviceId d report.device.information.key :=
    hnamed.tasks _ (Multiset.mem_cons_self _ _)
  rcases listBleDevice_cases report d s with ⟨found, hfound, heq⟩ | ⟨_, heq⟩
  · rw [heq]
    obtain ⟨hmem, hid⟩ := MidiDeviceManager.mem_of_find hfound
    apply h.handle report.device true rfl ⟨_, rfl⟩ fun _ => hsucceeded
    · exact fun _ _ => Iff.rfl
    · intro _
      refine ⟨found, hmem, ?_, hok found hmem hid⟩
      rw [← (hnamed.devices found hmem).owns.key, hid]
      exact howns.key
    · exact fun hlisted => nomatch hlisted
    · exact fun hlisted => nomatch hlisted
    · rfl
    · rfl
    · intro t' ht'
      rw [List.mem_singleton.mp ht']
      trivial
  · rw [heq]
    have hshows : (report.device.information.withId d).Shows report.device.bleDevice := ⟨rfl, rfl⟩
    have hlists : ∀ device,
        ListsBle (s.manager.devices ++ [report.device.information.withId d]) device ↔
          ListsBle s.manager.devices device ∨ report.device.bleDevice = device := by
      intro device
      rw [listsBle_append]
      apply or_congr_right
      constructor
      · rintro ⟨e, he, heshows⟩
        obtain rfl := List.mem_singleton.mp he
        exact hshows.unique heshows
      · rintro rfl
        exact ⟨_, List.mem_singleton_self _, hshows⟩
    apply h.handle report.device true rfl ⟨_, rfl⟩ fun _ => hsucceeded
    · intro other hother
      exact (hlists other).trans (or_iff_left (Ne.symm hother))
    · exact fun _ => (hlists _).mpr (Or.inr rfl)
    · exact fun hlisted => nomatch hlisted
    · exact fun hlisted => nomatch hlisted
    · exact usbPart_eq_of_ble rfl
    · rfl
    · intro t' ht'
      rcases List.mem_cons.mp ht' with rfl | ht'
      · trivial
      · rw [List.mem_singleton.mp ht']
        trivial

/-- Where only one device has the id, erasing the id leaves the other devices. -/
theorem listsBle_eraseP {d : DeviceId} {devices : List DeviceInformation} {device : BleDevice}
    (hid : ∀ e ∈ devices, e.id = d → e.Shows device) {other : BleDevice} (hother : other ≠ device) :
    ListsBle (devices.eraseP fun e => e.id == d) other ↔ ListsBle devices other := by
  constructor
  · rintro ⟨e, he, hshows⟩
    exact ⟨e, List.mem_of_mem_eraseP he, hshows⟩
  · rintro ⟨e, he, hshows⟩
    refine ⟨e, ?_, hshows⟩
    apply (List.mem_eraseP_of_neg ?_).mpr he
    intro heq
    exact hother (hshows.unique (hid e he (beq_iff_eq.mp heq)))

theorem eraseP_of_find? {α : Type} {p : α → Bool} {l : List α} {a : α} (h : l.find? p = some a) :
    ∃ before after, l = before ++ a :: after ∧ l.eraseP p = before ++ after := by
  obtain ⟨hp, before, after, rfl, hbefore⟩ := List.find?_eq_some_iff_append.mp h
  refine ⟨before, after, rfl, ?_⟩
  rw [List.eraseP_append_right, List.eraseP_cons_of_pos hp]
  intro b hb
  simpa using hbefore b hb

theorem not_listsBle_eraseP {d : DeviceId} {devices : List DeviceInformation} {device : BleDevice}
    (honce : (devices.filter fun e => e.Shows device).length ≤ 1)
    {found : DeviceInformation} (hfound : devices.find? (fun e => e.id == d) = some found)
    (hshows : found.Shows device) : ¬ ListsBle (devices.eraseP fun e => e.id == d) device := by
  rintro ⟨e, he, heshows⟩
  obtain ⟨before, after, hsplit, herase⟩ := eraseP_of_find? hfound
  rw [herase] at he
  rw [hsplit] at honce
  have hpositive : 0 < ((before ++ after).filter fun e => e.Shows device).length := by
    apply List.length_pos_of_mem
    exact List.mem_filter.mpr ⟨he, by simp [heshows]⟩
  simp only [List.filter_append, List.filter_cons, List.length_append, hshows, decide_true,
    if_true, List.length_cons] at honce hpositive
  omega

/-- A report of failure takes its device out of the list. -/
theorem Agrees.unlistBleDevice {owner : DeviceId → DriverKey} {report : Report} {d : DeviceId}
    (h : s.Agrees (.unlistBleDevice report d ::ₘ ts))
    (hnamed : s.NamedBy owner (.unlistBleDevice report d ::ₘ ts))
    (hok : s.Undisturbed ts (.unlistBleDevice report d)) :
    (s.unlistBleDevice report d).1.Agrees
      (((s.unlistBleDevice report d).2 : Multiset Task) + ts) := by
  have howns : d = 0 ∨ Owns owner s.manager.nextDeviceId d report.device.information.key :=
    hnamed.tasks _ (Multiset.mem_cons_self _ _)
  obtain ⟨hids, honce, hothers⟩ := hok
  rcases unlistBleDevice_cases report d s with ⟨hnone, heq⟩ | ⟨found, hfound, heq⟩
  · rw [heq]
    apply h.handle report.device false rfl ⟨_, rfl⟩ (fun hlisted => nomatch hlisted)
    · exact fun _ _ => Iff.rfl
    · exact fun hlisted => nomatch hlisted
    · rintro _ ⟨e, he, hkey, haddress⟩
      have hid := (hids e he hkey).mpr haddress
      exact List.find?_eq_none.mp hnone e he (by simp [hid])
    · exact fun _ => hothers
    · rfl
    · rfl
    · intro t' ht'
      rw [List.mem_singleton.mp ht']
      trivial
  · obtain ⟨hmem, hid⟩ := MidiDeviceManager.mem_of_find hfound
    have hd : Owns owner s.manager.nextDeviceId d report.device.information.key := by
      rcases howns with hzero | howns
      · have hpositive := (hnamed.devices found hmem).owns.positive
        rw [hid, hzero] at hpositive
        exact absurd hpositive (by decide)
      · exact howns
    have hshows : ∀ e ∈ s.manager.devices, e.id = d → e.Shows report.device.bleDevice := by
      intro e he heid
      have hkey : e.key = report.device.information.key := by
        rw [← (hnamed.devices e he).owns.key, heid]
        exact hd.key
      exact ⟨hkey, (hids e he hkey).mp heid⟩
    rw [heq]
    apply h.handle report.device false rfl ⟨_, rfl⟩ (fun hlisted => nomatch hlisted)
    · exact fun _ hother => listsBle_eraseP hshows hother
    · exact fun hlisted => nomatch hlisted
    · exact fun _ => not_listsBle_eraseP honce hfound (hshows found hmem hid)
    · exact fun _ => hothers
    · change usbPart (s.manager.devices.eraseP fun e => e.id == d) = _
      obtain ⟨before, after, hsplit, herase⟩ := eraseP_of_find? hfound
      rw [herase, hsplit, usbPart_append, usbPart_append]
      congr 1
      simp [usbPart, (hshows found hmem hid).1]
    · rfl
    · intro t' ht'
      rw [List.mem_singleton.mp ht']
      trivial

/-- A refresh whose snapshot no report has overtaken is installed. -/
theorem Agrees.installDevices {snapshot : Snapshot} {devices : List DeviceInformation}
    (h : s.Agrees (.installDevices snapshot devices ::ₘ ts))
    (hok : s.Undisturbed ts (.installDevices snapshot devices)) :
    (s.installDevices snapshot devices).1.Agrees
      (((s.installDevices snapshot devices).2 : Multiset Task) + ts) := by
  obtain ⟨hsees, hsame⟩ : s.Sees snapshot ∧ SameDevices devices snapshot.devices :=
    h.tasks _ (Multiset.mem_cons_self _ _)
  have hlater : s.Later (s.installDevices snapshot devices).1 :=
    ⟨.refl _, fun _ h => h, le_rfl, [], (List.append_nil _).symm⟩
  obtain ⟨hrefreshes, honline, hoffline⟩ := hok
  constructor
  · exact h.keyed
  · exact h.succeeded
  -- What the last handler did is older than the snapshot, or the condition speaks of it.
  · intro x hx
    apply (hsame.listsBle _).mpr
    rcases hx.drop snapshot.handled with hnone | hsince
    · exact hsees.listed x hx hnone
    · exact honline x hsince
  · intro x hx hlists
    have hlists := (hsame.listsBle _).mp hlists
    rcases hx.drop snapshot.handled with hnone | hsince
    · exact hsees.unlisted x hx hnone hlists
    · exact hoffline x hsince hlists
  · intro last hlast
    change (s.listing.installed ++ [snapshot]).getLast? = some last at hlast
    rw [List.getLast?_concat] at hlast
    obtain rfl := Option.some.inj hlast
    refine ⟨hsees.recorded, hsees.begun.2, ?_, hsame.usbPart⟩
    intro x hx
    rcases List.mem_append.mp hx with hx | hx
    · exact hrefreshes x hx
    · exact List.mem_singleton.mp hx ▸ hsees.begun.1
  · intro n hn hle
    rcases h.refreshes n hn hle with ⟨x, hx, hnumber⟩ | ⟨t', ht', hof⟩
    · exact Or.inl ⟨x, List.mem_append_left _ hx, hnumber⟩
    · rcases Multiset.mem_cons.mp ht' with rfl | ht'
      · exact Or.inl ⟨snapshot, List.mem_append_right _ (List.mem_singleton_self _),
          Option.some.inj hof⟩
      · exact Or.inr ⟨t', Multiset.mem_add.mpr (Or.inr ht'), hof⟩
  · intro t' ht'
    rcases Multiset.mem_add.mp ht' with ht' | ht'
    · rcases List.mem_append.mp (Multiset.mem_coe.mp ht') with ht' | ht'
      · split at ht'
        · contradiction
        · exact List.mem_singleton.mp ht' ▸ trivial
      · obtain ⟨x, _, rfl⟩ := List.mem_map.mp ht'
        trivial
    · exact (h.tasks t' (Multiset.mem_cons_of_mem ht')).later h.succeeded hlater

/-- The drivers' devices that a refresh sees are the sessions that are connected. -/
theorem listsBle_snapshot (m : MidiDeviceManager) (device : BleDevice) :
    ListsBle m.snapshot device ↔ ListsBle m.ble.getRegisteredDevices device := by
  have husb : ¬ ListsBle m.usb.getRegisteredDevices device := by
    rintro ⟨e, he, hshows⟩
    unfold UsbDriver.getRegisteredDevices at he
    split at he
    · contradiction
    · obtain ⟨found, _, rfl⟩ := List.mem_map.mp he
      exact nomatch congrArg Prod.snd hshows.1
  unfold MidiDeviceManager.snapshot
  split
  · rw [listsBle_append, or_iff_right husb]
  · rw [listsBle_append, or_iff_left husb]

theorem Agrees.takeSnapshot {refresh : Nat} (h : s.Agrees (.takeSnapshot refresh ::ₘ ts))
    (hok : s.Undisturbed ts (.takeSnapshot refresh)) :
    (s.takeSnapshot refresh).1.Agrees (((s.takeSnapshot refresh).2 : Multiset Task) + ts) := by
  have hbegun : refresh ≤ s.listing.begun := h.tasks _ (Multiset.mem_cons_self _ _)
  apply h.keep ⟨.refl _, List.subset_append_left _ _, le_rfl, [], (List.append_nil _).symm⟩ rfl rfl
    rfl rfl
  · intro n hn
    exact ⟨_, List.mem_singleton_self _, hn⟩
  · intro t' ht'
    rw [List.mem_singleton.mp ht']
    refine ⟨⟨List.mem_append_right _ (List.mem_singleton_self _), ⟨hbegun, le_rfl⟩, le_rfl, ?_, ?_⟩,
      rfl⟩
    · intro x hx _
      obtain ⟨d, hd, hsession⟩ := hx.current
      have hsucceeded := h.succeeded x (mem_of_lastHandled hx.last).1 hx.listed
      obtain ⟨hconnected, hdevice⟩ := hsucceeded.online d hd hsession
      apply (listsBle_snapshot s.manager _).mpr
      exact ⟨d.information, BleDriver.mem_getRegisteredDevices.mpr ⟨_, d, hd, hconnected, rfl⟩,
        hdevice ▸ d.information_shows⟩
    · exact fun x hx _ hlists => hok x hx ((listsBle_snapshot s.manager _).mp hlists)

theorem Agrees.assignIds {snapshot : Snapshot} {rest named : List DeviceInformation}
    (h : s.Agrees (.assignIds snapshot rest named ::ₘ ts)) :
    (s.assignIds snapshot rest named).1.Agrees
      (((s.assignIds snapshot rest named).2 : Multiset Task) + ts) := by
  obtain ⟨hsees, hsame⟩ : s.Sees snapshot ∧ SameDevices (named ++ rest) snapshot.devices :=
    h.tasks _ (Multiset.mem_cons_self _ _)
  cases rest with
  | nil =>
      apply h.keep (.refl s) rfl rfl rfl rfl
      · intro n hn
        exact ⟨.installDevices snapshot named, List.mem_singleton_self _, hn⟩
      intro t' ht'
      rw [List.mem_singleton.mp ht']
      exact ⟨hsees, by rwa [List.append_nil] at hsame⟩
  | cons e rest =>
      obtain ⟨hdevices, hble, _⟩ := MidiDeviceManager.getOrCreateDeviceId_fst e.key s.manager
      have hlater : s.Later (s.assignIds snapshot (e :: rest) named).1 := later_of_ble hble rfl
      apply h.keep hlater hdevices rfl rfl rfl (fun n hn => ⟨_, List.mem_singleton_self _, hn⟩)
      intro t' ht'
      rw [List.mem_singleton.mp ht']
      refine ⟨hsees.later h.succeeded hlater, ?_⟩
      unfold SameDevices at hsame ⊢
      rw [← hsame]
      simp

/-- A refresh begins. -/
theorem Agrees.updateDevices (h : s.Agrees (.updateDevices ::ₘ ts)) :
    s.updateDevices.1.Agrees ((s.updateDevices.2 : Multiset Task) + ts) := by
  constructor
  · exact h.keyed
  · exact h.succeeded
  · exact h.listed
  · exact h.unlisted
  · intro snapshot hlast
    obtain ⟨hmem, hle, hrest⟩ := h.installed snapshot hlast
    exact ⟨hmem, Nat.le_succ_of_le hle, hrest⟩
  · intro n hn hle
    rcases Nat.le_succ_iff.mp hle with hle | rfl
    · apply (h.refreshes n hn hle).imp_right
      rintro ⟨t', ht', hof⟩
      rcases Multiset.mem_cons.mp ht' with rfl | ht'
      · contradiction
      · exact ⟨t', Multiset.mem_add.mpr (Or.inr ht'), hof⟩
    · exact Or.inr ⟨.takeSnapshot _, Multiset.mem_add.mpr
        (Or.inl (Multiset.mem_coe.mpr (List.mem_singleton_self _))), rfl⟩
  · intro t' ht'
    rcases Multiset.mem_add.mp ht' with ht' | ht'
    · rw [List.mem_singleton.mp (Multiset.mem_coe.mp ht')]
      exact le_refl (s.listing.begun + 1)
    · apply (h.tasks t' (Multiset.mem_cons_of_mem ht')).later h.succeeded
      exact ⟨.refl _, fun _ h => h, Nat.le_succ _, [], (List.append_nil _).symm⟩

/-- The section of every task of an undisturbed run keeps the agreement. -/
theorem Agrees.run {owner : DeviceId → DriverKey} {t : Task} (h : s.Agrees (t ::ₘ ts))
    (hnamed : s.NamedBy owner (t ::ₘ ts)) (hok : s.Undisturbed ts t) :
    (s.run t).1.Agrees (((s.run t).2 : Multiset Task) + ts) := by
  by_cases hlist : t.ofList = false
  · exact h.leaves hlist hok
  · cases t with
    | takeSnapshot refresh => exact h.takeSnapshot hok
    | assignIds snapshot rest named => exact h.assignIds
    | installDevices snapshot devices => exact h.installDevices hok
    | listBleDevice report d => exact h.listBleDevice hnamed hok
    | unlistBleDevice report d => exact h.unlistBleDevice hnamed hok
    | updateDevices => exact h.updateDevices
    | notifyDeviceChange device edit =>
        have hmanager : (s.run (.notifyDeviceChange device edit)).1.manager = s.manager :=
          MidiServiceController.deviceManager_notifyDeviceChange _ _ _
        have hlater : s.Later (s.run (.notifyDeviceChange device edit)).1 :=
          ⟨hmanager ▸ .refl _, fun _ h => h, le_rfl, [], (List.append_nil _).symm⟩
        apply h.keep hlater (by rw [hmanager]) rfl rfl rfl (fun n hn => nomatch hn)
        intro t' ht'
        obtain ⟨e, _, rfl⟩ := List.mem_map.mp ht'
        trivial
    | deliver c server change info =>
        have hmanager := manager_deliver c server change info s
        have hlisting := listing_deliver c server change info s
        have hresult : s.run (.deliver c server change info) =
            (s.deliver c server change info, []) := rfl
        rw [hresult]
        exact h.keep (later_of_ble (congrArg MidiDeviceManager.ble hmanager) hlisting)
          (by rw [hmanager]) (by rw [hlisting]) (by rw [hlisting]) (by rw [hlisting])
          (fun n hn => nomatch hn) (by simp)
    | eraseDriverIds keys =>
        exact h.keep (later_of_ble rfl rfl) rfl rfl rfl rfl (fun n hn => nomatch hn)
          (fun t' ht' => absurd ht' List.not_mem_nil)
    | handleBleConnect report =>
        obtain ⟨hdevices, hble, _⟩ :=
          MidiDeviceManager.getOrCreateDeviceId_fst report.device.information.key s.manager
        have hlater : s.Later (s.handleBleConnect report).1 := later_of_ble hble rfl
        apply h.keep hlater hdevices rfl rfl rfl (fun n hn => nomatch hn)
        intro t' ht'
        rw [List.mem_singleton.mp ht']
        exact BleDriver.Succeeded.evolves (h.tasks _ (Multiset.mem_cons_self _ _)) hlater.ble
    | handleBleDisconnect report =>
        obtain ⟨hdevices, _, hble, _⟩ :=
          MidiDeviceManager.takeDeviceId_snd report.device.information.key s.manager
        have hlater : s.Later (s.handleBleDisconnect report).1 := later_of_ble hble rfl
        apply h.keep hlater hdevices rfl rfl rfl (fun n hn => nomatch hn)
        intro t' ht'
        rw [List.mem_singleton.mp ht']
        trivial
    | _ => exact absurd rfl hlist

theorem agrees_initial (h : sections.init s) : s.Agrees 0 := by
  obtain ⟨usbFirst, hdi, gatt, granted, rfl⟩ := h
  constructor
  · intro i d hd
    simp [initial, manager] at hd
  · exact fun x hx => absurd hx List.not_mem_nil
  · intro x hx
    cases hx.last
  · intro x hx
    cases hx.last
  · intro snapshot hlast
    contradiction
  · exact fun n hn hle => absurd hn (Nat.not_lt.mpr hle)
  · exact fun t ht => absurd ht (Multiset.notMem_zero t)

theorem taskAgrees_of_external {t : Task} (h : t.external) : s.TaskAgrees t := by
  cases t <;> trivial

theorem agrees_reached {c : Config Service Task} (reach : sections.ReachedWith Undisturbed c) :
    c.shared.Agrees c.outstanding := by
  apply reach.invariant_using (fun s ts => ∃ owner, s.NamedBy owner ts) fun s ts => s.Agrees ts
  · exact fun c reach => namedBy_reached reach
  · exact fun s h => agrees_initial h
  · intro s ts t hexternal h
    have hcons : ∀ t' ∈ t ::ₘ ts, s.TaskAgrees t' := by
      intro t' ht'
      rcases Multiset.mem_cons.mp ht' with rfl | ht'
      · exact taskAgrees_of_external hexternal
      · exact h.tasks t' ht'
    exact h.carry (.refl s) rfl rfl rfl rfl
      (fun t' ht' n hof => ⟨t', Multiset.mem_cons_of_mem ht', hof⟩) hcons
  · rintro s ts t ⟨owner, hnamed⟩ hok h
    exact h.run hnamed hok
  · intro s ts s' henvironment h
    obtain ⟨hdevices, _, _, hble, hlisting, _⟩ := leavesList_environment henvironment
    have hlater : s.Later s' := later_of_evolves hble hlisting
    exact h.carry hlater hdevices (by rw [hlisting]) (by rw [hlisting]) (by rw [hlisting])
      (fun t ht n hof => ⟨t, ht, hof⟩) fun t ht => (h.tasks t ht).later h.succeeded hlater

/-- The device list agrees with the Bluetooth handlers and with the last refresh to begin. -/
structure UpToDate (s : Service) : Prop where
  connected : ∀ x : BleHandling, x.Online s.manager.ble s.listing.handled →
    ListsBle s.manager.devices x.device.bleDevice
  disconnected : ∀ x : BleHandling, x.Offline s.listing.handled →
    ¬ ListsBle s.manager.devices x.device.bleDevice
  usb : 0 < s.listing.begun → ∃ snapshot ∈ s.listing.snapshots,
    snapshot.begun = s.listing.begun ∧ usbPart s.manager.devices = usbPart snapshot.devices

/-- In an undisturbed run the list is up to date whenever no task works on it: it has the device of
every session whose last handler listed it and that the driver has, none that was taken out last,
and the USB devices of a snapshot that was taken when the last refresh had begun. -/
theorem no_lost_update {c : Config Service Task} (reach : sections.ReachedWith Undisturbed c)
    (hidle : ∀ t ∈ c.outstanding, t.ofList = false) : c.shared.UpToDate := by
  have h := agrees_reached reach
  refine ⟨h.listed, h.unlisted, ?_⟩
  intro hbegun
  obtain ⟨x, hx, hnumber⟩ : ∃ x ∈ c.shared.listing.installed,
      x.refresh = c.shared.listing.begun := by
    apply (h.refreshes _ hbegun le_rfl).resolve_right
    rintro ⟨t, ht, hof⟩
    rw [refreshOf_of_ofList (hidle t ht)] at hof
    contradiction
  obtain ⟨last, hlast⟩ : ∃ last, c.shared.listing.installed.getLast? = some last := by
    cases hlast : c.shared.listing.installed.getLast? with
    | some last => exact ⟨last, rfl⟩
    | none =>
        rw [List.getLast?_eq_none_iff.mp hlast] at hx
        contradiction
  obtain ⟨hmem, hle, hrefreshes, husb⟩ := h.installed last hlast
  exact ⟨last, hmem, le_antisymm hle (hnumber ▸ hrefreshes x hx), husb⟩

/-! ### A refresh before a device, and a refresh around one -/

/-- A check that is enough for an undisturbed run: refreshes come before all reports. -/
def refreshesFirst (s : Service) : Task → Bool
  | .onRegisterNotify i _ => (s.manager.ble.devices.lookup i).all fun d => d.connected
  | .takeSnapshot _ | .installDevices .. =>
      s.listing.handled.isEmpty && s.listing.installed.isEmpty
  | .listBleDevice _ d => s.manager.devices.all fun e => e.id != d
  | .unlistBleDevice .. => false
  | _ => true

theorem undisturbed_of_refreshesFirst (s : Service) (ts : Multiset Task) (t : Task)
    (h : s.refreshesFirst t) : s.Undisturbed ts t := by
  have hempty : (s.listing.handled.isEmpty && s.listing.installed.isEmpty) = true →
      s.listing.handled = [] ∧ s.listing.installed = [] := by
    simp [List.isEmpty_iff]
  cases t with
  | onRegisterNotify i status =>
      intro _ d hd
      change (s.manager.ble.devices.lookup i).all (fun d => d.connected) = true at h
      rw [hd] at h
      exact h
  | takeSnapshot refresh =>
      intro x hx
      rw [(hempty h).1] at hx
      cases hx.last
  | installDevices snapshot devices =>
      obtain ⟨hhandled, hinstalled⟩ := hempty h
      refine ⟨?_, ?_, ?_⟩
      · rw [hinstalled]
        exact fun y hy => absurd hy List.not_mem_nil
      · rw [hhandled, List.drop_nil]
        intro x hx
        cases hx.last
      · rw [hhandled, List.drop_nil]
        intro x hx
        cases hx.last
  | listBleDevice report d =>
      intro e he hid
      exact absurd hid (bne_iff_ne.mp (List.all_eq_true.mp h e he))
  | unlistBleDevice report d => contradiction
  | _ => trivial

def pluggedIn : Hdi where
  getDeviceList := (.ok, [{ deviceId := 5, deviceName := "Keyboard" }])

/-- A client opens a Bluetooth device, and the success is reported and handled. -/
def bleOpening (i : Nat) : List (Turn Service Task) :=
  [.start (.onConnectionState 1 .connected 0), .run i, .start (.onServicesComplete 1 0),
    .run (i + 1), .start (.onRegisterNotify 1 0)] ++ List.replicate 7 (.run (i + 2))

def bleRequest : List (Turn Service Task) :=
  [.start (.createMidiInServer 7 0 1 true), .run 0,
    .start (.openBleDevice 1 1 "11:22:33:44:55:66"), .run 1]

/-- The context of the session that was opened. -/
def openedContext : DeviceCtx where
  id := 1
  address := "11:22:33:44:55:66"
  connected := true
  serviceReady := true
  notifyEnabled := true
  deviceCallback := some "11:22:33:44:55:66"
  session := 1

/-- A refresh lists the USB device, and then a Bluetooth device is opened. -/
def refreshThenBle : List (Turn Service Task) :=
  bleRequest ++ .start .updateDevices :: List.replicate 7 (.run 2) ++ bleOpening 3

def listedService : Config Service Task :=
  sections.after (start pluggedIn {} fun _ => true) refreshThenBle

theorem no_lost_update_listed :
    (⟨openedContext, true⟩ : BleHandling).Online listedService.shared.manager.ble
        listedService.shared.listing.handled ∧ listedService.shared.UpToDate := by
  have hsession : listedService.shared.manager.ble.devices.lookup 1 = some openedContext := by
    decide +kernel
  refine ⟨⟨by decide +kernel, rfl, openedContext, hsession, rfl⟩, ?_⟩
  exact no_lost_update
    (reachedWith_after undisturbed_of_refreshesFirst (by decide +kernel) :
      sections.ReachedWith Undisturbed listedService)
    (by decide +kernel)

/-- The refresh has taken its snapshot when the device is opened, and installs it afterwards. -/
def refreshAroundBle : List (Turn Service Task) :=
  bleRequest ++ .start .updateDevices :: List.replicate 2 (.run 2) ++ bleOpening 3 ++
    List.replicate 5 (.run 2)

def droppedService : Config Service Task :=
  sections.after (start {} {} fun _ => true) refreshAroundBle

/-- The device is opened, its session is there, and the list has lost it. -/
theorem update_lost :
    ∃ c : Config Service Task, sections.Reached c ∧ c.Quiet ∧ ¬ c.shared.UpToDate := by
  refine ⟨droppedService, reached_after (by decide +kernel), ?_, ?_⟩
  · have hthreads : droppedService.threads.flatten.isEmpty := by decide +kernel
    exact Config.quiet_of_isEmpty hthreads
  · intro hupToDate
    have hlast : lastHandled (BleHandling.sameSession ⟨openedContext, true⟩)
        droppedService.shared.listing.handled = some ⟨openedContext, true⟩ := by
      decide +kernel
    have hsession : droppedService.shared.manager.ble.devices.lookup 1 = some openedContext := by
      decide +kernel
    obtain ⟨e, he, _⟩ := hupToDate.connected _ ⟨hlast, rfl, openedContext, hsession, rfl⟩
    have hnone : droppedService.shared.manager.devices = [] := by decide +kernel
    exact List.not_mem_nil (hnone ▸ he)

end Service

end MidiFramework.Server
