import MidiFramework.Server.Basic

/-!
# The client's handle of a device

`MidiDevicePrivate` keeps a map of ports for each direction. A disconnection
leaves a null pointer at the ports that were open. A call that goes through
such a pointer has no result here.
-/

namespace MidiFramework.Client

open Foundation MidiFramework.Server

/-- What a map of ports has at an index: a port, or a null pointer. -/
inductive PortEntry
  | port
  | tombstone
  deriving DecidableEq, Repr

abbrev PortMap := UnorderedMap PortIndex PortEntry

/-- A handle, with the input ports whose receiver thread runs. -/
structure MidiDevicePrivate where
  deviceId : DeviceId
  isValid : Bool := true
  inputPorts : PortMap := ∅
  outputPorts : PortMap := ∅
  receivers : UnorderedSet PortIndex := ∅

namespace MidiDevicePrivate

def genericIpcFailure : Status := 35500002

def ports (device : MidiDevicePrivate) : PortDirection → PortMap
  | .input => device.inputPorts
  | .output => device.outputPorts

/-! ### Calls of the application -/

/-- The checks of `Send` and `SendSysEx`, and what the port answers. -/
def callOutputPort (portIndex : PortIndex) (answer : Status) (device : MidiDevicePrivate) :
    Option Status :=
  match device.outputPorts.lookup portIndex with
  | none => some .invalidPort
  | some outputPort =>
      if !device.isValid then some genericIpcFailure
      else
        match outputPort with
        | .port => some answer
        | .tombstone => none

def send : PortIndex → Status → MidiDevicePrivate → Option Status := callOutputPort

def sendSysEx : PortIndex → Status → MidiDevicePrivate → Option Status := callOutputPort

/-- The end of `OpenInputPort` and of `OpenOutputPort`. An input port comes with its receiver
thread. -/
def emplacePort (direction : PortDirection) (portIndex : PortIndex) (device : MidiDevicePrivate) :
    MidiDevicePrivate :=
  match direction with
  | .input =>
      { device with
        inputPorts := device.inputPorts.emplace portIndex .port
        receivers := device.receivers.add portIndex }
  | .output => { device with outputPorts := device.outputPorts.emplace portIndex .port }

/-- `CloseInputPort` and `CloseOutputPort` up to the call of the service. The thread of an input
port ends with it. -/
def erasePort (direction : PortDirection) (portIndex : PortIndex) (device : MidiDevicePrivate) :
    MidiDevicePrivate :=
  match direction with
  | .input =>
      { device with
        inputPorts := device.inputPorts.erase portIndex
        receivers :=
          if device.inputPorts.lookup portIndex = some .port then device.receivers.erase portIndex
          else device.receivers }
  | .output => { device with outputPorts := device.outputPorts.erase portIndex }

/-! ### Calls of the client -/

/-- `StopReceiverThread` of every input port that is there. -/
def stopReceiverThreads (device : MidiDevicePrivate) : UnorderedSet PortIndex :=
  device.inputPorts.entries.foldl
    (fun receivers e => if e.2 = .port then receivers.erase e.1 else receivers) device.receivers

/-- `entry.second.reset()` at every entry. -/
def resetPorts (ports : PortMap) : PortMap := ports.filterMap fun _ _ => some .tombstone

def tombstoneAllPorts (device : MidiDevicePrivate) : MidiDevicePrivate :=
  { device with
    inputPorts := resetPorts device.inputPorts
    outputPorts := resetPorts device.outputPorts
    receivers := device.stopReceiverThreads }

def setInValid (device : MidiDevicePrivate) : MidiDevicePrivate := { device with isValid := false }

/-! ### Sound handles -/

/-- A valid handle has no null pointers, and a receiver thread runs for a port that is there. -/
structure Sound (device : MidiDevicePrivate) : Prop where
  valid : device.isValid = true → ∀ direction p, (device.ports direction).lookup p ≠ some .tombstone
  receivers : ∀ p ∈ device.receivers, device.inputPorts.lookup p = some .port

/-- The handle of a device that is gone: it is not valid, its ports are null pointers and no
receiver thread runs. -/
structure Disconnected (device : MidiDevicePrivate) : Prop where
  invalid : device.isValid = false
  tombstoned : ∀ direction p entry,
    (device.ports direction).lookup p = some entry → entry = .tombstone
  stopped : ∀ p, p ∉ device.receivers

variable {device : MidiDevicePrivate} {p : PortIndex} {answer : Status}

/-- A call on a sound handle goes through no null pointer. -/
theorem Sound.callOutputPort_isSome (h : device.Sound) :
    (device.callOutputPort p answer).isSome := by
  unfold callOutputPort
  split
  · rfl
  · next entry hentry =>
      split
      · rfl
      · next hinvalid =>
          have hvalid : device.isValid = true := by simpa using hinvalid
          cases entry with
          | port => rfl
          | tombstone => exact absurd hentry (h.valid hvalid .output p)

/-- A call on an invalid handle fails, whatever the port would answer. -/
theorem callOutputPort_of_invalid (h : device.isValid = false) :
    device.callOutputPort p answer = some .invalidPort ∨
      device.callOutputPort p answer = some genericIpcFailure := by
  unfold callOutputPort
  split
  · exact Or.inl rfl
  · simp [h]

private theorem mem_foldl_erase {entries : List ((_ : PortIndex) × PortEntry)}
    {receivers : UnorderedSet PortIndex} :
    p ∈ entries.foldl (fun receivers e => if e.2 = .port then receivers.erase e.1 else receivers)
        receivers ↔
      p ∈ receivers ∧ ∀ e ∈ entries, e.2 = .port → p ≠ e.1 := by
  induction entries generalizing receivers with
  | nil => simp
  | cons e entries ih =>
      rw [List.foldl_cons, ih]
      split
      · next hport => simp [AList.mem_erase, hport, and_assoc, and_left_comm]
      · next hport => simp [hport]

/-- The threads of the ports that are there stop. -/
theorem mem_stopReceiverThreads :
    p ∈ device.stopReceiverThreads ↔
      p ∈ device.receivers ∧ device.inputPorts.lookup p ≠ some .port := by
  unfold stopReceiverThreads
  rw [mem_foldl_erase]
  constructor
  · rintro ⟨hmem, hnone⟩
    refine ⟨hmem, ?_⟩
    intro hport
    exact hnone ⟨p, .port⟩ (UnorderedMap.mem_entries.mpr hport) rfl rfl
  · rintro ⟨hmem, hnot⟩
    refine ⟨hmem, ?_⟩
    rintro ⟨q, entry⟩ he rfl rfl
    exact hnot (UnorderedMap.mem_entries.mp he)

theorem Sound.stopped (h : device.Sound) : p ∉ device.stopReceiverThreads := by
  intro hmem
  obtain ⟨hreceiver, hnot⟩ := mem_stopReceiverThreads.mp hmem
  exact hnot (h.receivers p hreceiver)

theorem lookup_resetPorts {ports : PortMap} {entry : PortEntry}
    (h : (resetPorts ports).lookup p = some entry) : entry = .tombstone := by
  rw [resetPorts, UnorderedMap.lookup_filterMap] at h
  obtain ⟨_, _, hentry⟩ := Option.bind_eq_some_iff.mp h
  exact (Option.some.inj hentry).symm

/-! ### What keeps a handle sound -/

theorem sound_new (deviceId : DeviceId) : Sound { deviceId := deviceId } where
  valid := by
    intro _ direction p
    cases direction <;> simp [ports]
  receivers := fun p hp => absurd hp (AList.notMem_empty p)

theorem Sound.emplacePort (h : device.Sound) (direction : PortDirection)
    (hnew : p ∉ device.ports direction) : (device.emplacePort direction p).Sound := by
  have hemplaced := UnorderedMap.emplace_of_notMem hnew PortEntry.port
  cases direction with
  | input =>
      change device.inputPorts.emplace p .port = device.inputPorts.insert p .port at hemplaced
      constructor
      · intro hvalid direction q
        cases direction with
        | input =>
            change (device.inputPorts.emplace p .port).lookup q ≠ _
            rw [hemplaced, UnorderedMap.lookup_insert_eq]
            split
            · simp
            · exact h.valid hvalid .input q
        | output => exact h.valid hvalid .output q
      · intro q hq
        change (device.inputPorts.emplace p .port).lookup q = _
        rw [hemplaced, UnorderedMap.lookup_insert_eq]
        split
        · rfl
        · next hne => exact h.receivers q ((UnorderedSet.mem_add.mp hq).resolve_left hne)
  | output =>
      change device.outputPorts.emplace p .port = device.outputPorts.insert p .port at hemplaced
      constructor
      · intro hvalid direction q
        cases direction with
        | input => exact h.valid hvalid .input q
        | output =>
            change (device.outputPorts.emplace p .port).lookup q ≠ _
            rw [hemplaced, UnorderedMap.lookup_insert_eq]
            split
            · simp
            · exact h.valid hvalid .output q
      · exact h.receivers

theorem Sound.erasePort (h : device.Sound) (direction : PortDirection) (p : PortIndex) :
    (device.erasePort direction p).Sound := by
  have herase : ∀ ports : PortMap, (∀ q, ports.lookup q ≠ some .tombstone) →
      ∀ q, (ports.erase p).lookup q ≠ some .tombstone := by
    intro ports hports q
    rw [UnorderedMap.lookup_erase_eq]
    split
    · simp
    · exact hports q
  cases direction with
  | input =>
      constructor
      · intro hvalid direction q
        cases direction with
        | input => exact herase _ (h.valid hvalid .input) q
        | output => exact h.valid hvalid .output q
      · intro q hq
        -- A thread that still runs is that of another port.
        have hother : q ≠ p ∧ q ∈ device.receivers := by
          unfold MidiDevicePrivate.erasePort at hq
          dsimp only at hq
          split at hq
          · exact AList.mem_erase.mp hq
          · next hnot =>
              refine ⟨?_, hq⟩
              rintro rfl
              exact hnot (h.receivers q hq)
        change (device.inputPorts.erase p).lookup q = _
        rw [UnorderedMap.lookup_erase_eq, if_neg hother.1]
        exact h.receivers q hother.2
  | output =>
      constructor
      · intro hvalid direction q
        cases direction with
        | input => exact h.valid hvalid .input q
        | output => exact herase _ (h.valid hvalid .output) q
      · exact h.receivers

theorem Sound.setInValid (h : device.Sound) : device.setInValid.Sound where
  valid := fun hvalid => absurd hvalid Bool.false_ne_true
  receivers := h.receivers

/-- What `HandleDeviceDisconnect` does to a handle. -/
theorem Sound.disconnect (h : device.Sound) :
    device.setInValid.tombstoneAllPorts.Sound ∧
      device.setInValid.tombstoneAllPorts.Disconnected := by
  have hstopped : ∀ p, p ∉ device.setInValid.tombstoneAllPorts.receivers :=
    fun p => h.setInValid.stopped
  constructor
  · exact ⟨fun hvalid => absurd hvalid Bool.false_ne_true, fun p hp => absurd hp (hstopped p)⟩
  · refine ⟨rfl, ?_, hstopped⟩
    intro direction p entry hentry
    cases direction <;> exact lookup_resetPorts hentry

end MidiDevicePrivate

end MidiFramework.Client
