import Mathlib.Data.List.Induction
import MidiFramework.Ump.Stream

/-!
# What `ProcessBytes` emits

Whatever bytes come in, every packet is well formed, and a system exclusive that
takes several packets begins with a start packet and goes on without a packet of
another one in between.

## Implementation notes

`Handled` says once what a byte can do. The form of the packets and their order
are read off it.
-/

namespace MidiFramework.Ump

open Foundation UmpProcessor

/-- The bytes that `ProcessBytes` handles: of two high bytes in a row the second one. -/
def handledBytes : List UInt8 → List UInt8
  | [] => []
  | [b] => [b]
  | b :: next :: rest =>
      if midiStatusStart ≤ b then
        if midiStatusStart ≤ next then next :: handledBytes rest
        else b :: handledBytes (next :: rest)
      else b :: handledBytes (next :: rest)

theorem processBytes_handled (p : UmpProcessor) (bytes : List UInt8) :
    p.processBytes bytes = feed handleByte p (handledBytes bytes) := by
  induction bytes using handledBytes.induct generalizing p with
  | case1 => rfl
  | case2 b => exact (feed_singleton handleByte p b).symm
  | case3 b next rest hb hnext ih =>
      rw [processBytes, if_pos hb, if_pos hnext, handledBytes, if_pos hb, if_pos hnext, feed_cons,
        handleByte, if_pos hnext]
      simp only [ih]
  | case4 b next rest hb hnext ih =>
      rw [processBytes, if_pos hb, if_neg hnext, handledBytes, if_pos hb, if_neg hnext, feed_cons,
        handleByte, if_pos hb]
      simp only [ih]
  | case5 b next rest hb ih =>
      rw [processBytes, if_neg hb, handledBytes, if_neg hb, feed_cons, handleByte, if_neg hb]
      simp only [ih]

theorem feed_processBytes (p : UmpProcessor) (calls : List (List UInt8)) :
    feed processBytes p calls = feed handleByte p (calls.flatMap handledBytes) := by
  induction calls generalizing p with
  | nil => rfl
  | cons bytes calls ih =>
      rw [feed_cons, List.flatMap_cons, feed_append, processBytes_handled]
      simp only [ih]

/-! ### The form of a packet -/

/-- Whether a byte is a status byte of a message that is emitted as one word. -/
def IsEmittedStatus (s : UInt8) : Prop :=
  midiStatusStart ≤ s ∧ s ≠ midiSysexStart ∧ s ≠ midiSysexEnd

instance (s : UInt8) : Decidable (IsEmittedStatus s) := inferInstanceAs (Decidable (_ ∧ _ ∧ _))

/-- Whether a byte is a status byte of a channel voice message. -/
def IsVoiceStatus (s : UInt8) : Prop := midiStatusStart ≤ s ∧ s < midiSystemCommonEnd

theorem IsVoiceStatus.emitted {s : UInt8} (h : IsVoiceStatus s) : IsEmittedStatus s := by
  simp only [IsVoiceStatus, IsEmittedStatus, midiStatusStart, midiSystemCommonEnd, midiSysexStart,
    midiSysexEnd] at *
  grind

theorem IsVoiceStatus.length {s : UInt8} (h : IsVoiceStatus s) :
    1 ≤ getExpectedDataLength s := by
  rw [getExpectedDataLength, if_pos h.2]
  split <;> omega

/-- The data bytes of a message word are low, and those the message does not use are zero. -/
structure MessageData (w : UInt32) : Prop where
  low1 : byteField w 8 < midiStatusStart
  low2 : byteField w 0 < midiStatusStart
  unused1 : getExpectedDataLength (byteField w 16) = 0 → byteField w 8 = 0
  unused2 : getExpectedDataLength (byteField w 16) ≤ 1 → byteField w 0 = 0

/-- A packet of a group as the MIDI 1.0 protocol has it. -/
inductive WellFormed (group : UInt8) : List UInt32 → Prop
  | system {w : UInt32} (type : messageType w = 0x1) (inGroup : nibbleField w 24 = group)
      (status : (0xF1 ≤ byteField w 16 ∧ byteField w 16 ≤ 0xF6) ∨ 0xF8 ≤ byteField w 16)
      (data : MessageData w) : WellFormed group [w]
  | voice {w : UInt32} (type : messageType w = 0x2) (inGroup : nibbleField w 24 = group)
      (status : 0x80 ≤ byteField w 16 ∧ byteField w 16 ≤ 0xEF) (data : MessageData w) :
      WellFormed group [w]
  | data {w0 w1 : UInt32} (type : messageType w0 = 0x3) (inGroup : nibbleField w0 24 = group)
      (status : nibbleField w0 20 ≤ sysexStatusEnd) (count : nibbleField w0 16 ≤ 6)
      (low : ∀ d ∈ sysexData w0 w1, d < midiStatusStart)
      (unused : ∀ d ∈ (sysexData w0 w1).drop (nibbleField w0 16).toNat, d = 0)
      (full : nibbleField w0 20 = sysexStatusStart ∨ nibbleField w0 20 = sysexStatusContinue →
        nibbleField w0 16 = 6) : WellFormed group [w0, w1]

section Fields

variable {p : UmpProcessor} {s d0 d1 : UInt8}

theorem group_messageWord {mt : UInt32} {group : UInt8} (status d0 d1 : UInt8)
    (hmt : (mt <<< 28).toNat = mt.toNat * 2 ^ 28) (hgroup : group.toNat < 2 ^ 4) :
    nibbleField (messageWord mt group status d0 d1) 24 = group := by
  have hw := toNat_messageWord status d0 d1 hmt hgroup
  have h0 := d0.toNat_lt
  have h1 := d1.toNat_lt
  have h2 := status.toNat_lt
  exact nibbleField_eq (k := 24) rfl (by decide) hw (by omega)

theorem group_headWord {group status count : UInt8} (d0 d1 : UInt8) (hgroup : group.toNat < 2 ^ 4)
    (hstatus : status.toNat < 2 ^ 4) (hcount : count.toNat < 2 ^ 4) :
    nibbleField (headWord group status count d0 d1) 24 = group := by
  have hw := toNat_headWord d0 d1 hgroup hstatus hcount
  have h0 := d0.toNat_lt
  have h1 := d1.toNat_lt
  exact nibbleField_eq (k := 24) rfl (by decide) hw (by omega)

/-- Data bytes that go with a status byte. -/
structure DataFor (s d0 d1 : UInt8) : Prop where
  low0 : d0 < midiStatusStart
  low1 : d1 < midiStatusStart
  unused0 : getExpectedDataLength s = 0 → d0 = 0
  unused1 : getExpectedDataLength s ≤ 1 → d1 = 0

theorem wellFormed_voicePacket (hs : IsEmittedStatus s) (hd : DataFor s d0 d1) :
    WellFormed p.group (p.voicePacket s d0 d1).words := by
  have hfields := voicePacket_fields p s d0 d1
  obtain ⟨hhigh, hstart, hend⟩ := hs
  have hdata : MessageData
      (messageWord (if s < midiSystemCommonEnd then 0x2 else 0x1) p.group s d0 d1) := by
    constructor
    · rw [hfields.d0]
      exact hd.low0
    · rw [hfields.d1]
      exact hd.low1
    · rw [hfields.status, hfields.d0]
      exact hd.unused0
    · rw [hfields.status, hfields.d1]
      exact hd.unused1
  by_cases hlow : s < midiSystemCommonEnd
  · rw [if_pos hlow] at hdata
    rw [if_pos hlow, if_pos hlow] at hfields
    rw [voicePacket, if_pos hlow]
    apply WellFormed.voice hfields.mt (group_messageWord s d0 d1 rfl p.group_lt) ?_ hdata
    rw [hfields.status]
    simp only [midiStatusStart, midiSystemCommonEnd] at *
    grind
  · rw [if_neg hlow] at hdata
    rw [if_neg hlow, if_neg hlow] at hfields
    rw [voicePacket, if_neg hlow]
    apply WellFormed.system hfields.mt (group_messageWord s d0 d1 rfl p.group_lt) ?_ hdata
    rw [hfields.status]
    simp only [midiSystemCommonEnd, midiSysexStart, midiSysexEnd] at *
    grind

theorem sysexSlot_low {count : Nat} (hlow : ∀ i : Fin 6, i.val < count →
    p.sysexBuffer[i] < midiStatusStart) (i : Fin 6) : p.sysexSlot count i < midiStatusStart := by
  unfold sysexSlot
  split
  · exact hlow i ‹_›
  · decide

/-- The bytes of a packet, one for each slot. -/
theorem sysexData_sysexSlots {w0 : UInt32} {status n : UInt8} {count : Nat}
    (h : HeadFields w0 status n (p.sysexSlot count 0) (p.sysexSlot count 1)) :
    sysexData w0 (laneWord (p.sysexSlot count 2) (p.sysexSlot count 3) (p.sysexSlot count 4)
      (p.sysexSlot count 5)) = List.ofFn (p.sysexSlot count) := by
  rw [h.sysexData]
  simp [List.ofFn_succ]

theorem wellFormed_sysexPacket {statusCode : UInt8} (hstatus : statusCode ≤ sysexStatusEnd)
    {count : Nat} (hcount : count ≤ 6)
    (hlow : ∀ i : Fin 6, i.val < count → p.sysexBuffer[i] < midiStatusStart)
    (hfull : statusCode = sysexStatusStart ∨ statusCode = sysexStatusContinue → count = 6) :
    WellFormed p.group (p.sysexPacket statusCode count).words := by
  have hstatus' : statusCode.toNat < 2 ^ 4 := by
    have h := UInt8.le_iff_toNat_le.mp hstatus
    have h3 : sysexStatusEnd.toNat = 3 := rfl
    omega
  have hsize : count.toUInt8.toNat = count := by
    simp only [Nat.toUInt8, UInt8.toNat_ofNat']
    omega
  have hlt : count.toUInt8.toNat < 2 ^ 4 := by omega
  have hfields := headFields (p.sysexSlot count 0) (p.sysexSlot count 1) p.group_lt hstatus' hlt
  have hdata := sysexData_sysexSlots hfields
  constructor
  · exact hfields.mt
  · exact group_headWord _ _ p.group_lt hstatus' hlt
  · rw [hfields.status]
    exact hstatus
  · rw [hfields.count, UInt8.le_iff_toNat_le, hsize]
    exact hcount
  · rw [hdata]
    intro d hd
    obtain ⟨i, rfl⟩ := List.mem_ofFn.mp hd
    exact sysexSlot_low hlow i
  · rw [hdata, hfields.count, hsize]
    intro d hd
    obtain ⟨i, hi, rfl⟩ := List.mem_iff_getElem.mp hd
    rw [List.getElem_drop, List.getElem_ofFn, sysexSlot, if_neg (by simp)]
  · rw [hfields.status, hfields.count]
    intro h
    rw [hfull h]
    rfl

end Fields

/-! ### What a byte can do -/

/-- The system exclusive that waits to be sent has low data. -/
structure SoundBuffer (p : UmpProcessor) : Prop where
  sysexPos : p.sysexPos < 6
  low : ∀ i : Fin 6, i.val < p.sysexPos → p.sysexBuffer[i] < midiStatusStart

/-- What the processor keeps between bytes. A message that waits for its data has a status byte
and low data. -/
structure Sound (p : UmpProcessor) : Prop extends SoundBuffer p where
  running : p.runningStatus = 0 ∨ IsVoiceStatus p.runningStatus
  status : 0 < p.cvPos → IsEmittedStatus p.cvBuffer[0] ∧
    p.expectedLen = getExpectedDataLength p.cvBuffer[0]
  waiting : p.cvPos ≤ p.expectedLen ∨ p.cvPos = 0
  first : 2 ≤ p.cvPos → p.cvBuffer[1] < midiStatusStart

theorem Sound.between {p : UmpProcessor} (hbuffer : SoundBuffer p)
    (hrunning : p.runningStatus = 0 ∨ IsVoiceStatus p.runningStatus) (hpos : p.cvPos = 0) :
    Sound p where
  toSoundBuffer := hbuffer
  running := hrunning
  status h := absurd hpos (by omega)
  waiting := .inr hpos
  first h := absurd hpos (by omega)

theorem soundBuffer_zero {p : UmpProcessor} (h : p.sysexPos = 0) : SoundBuffer p where
  sysexPos := by omega
  low i hi := absurd hi (by omega)

theorem sound_fresh : Sound fresh := .between (soundBuffer_zero rfl) (.inl rfl) rfl

/-- What handling the byte `b` can do. -/
inductive Handled (p : UmpProcessor) (b : UInt8) : Emission UmpProcessor UmpPacket → Prop
  | realTime (hb : midiRealtimeStart ≤ b) : Handled p b ⟨[p.voicePacket b 0 0], p⟩
  | opened {p' : UmpProcessor} (sound : Sound p') (group : p'.group = p.group)
      (unsent : p'.sysexHasStarted = false) : Handled p b (.silent p')
  | kept {p' : UmpProcessor} (hb : b < midiStatusStart) (sound : Sound p')
      (group : p'.group = p.group) (same : p'.inSysex = p.inSysex)
      (started : p'.sysexHasStarted = p.sysexHasStarted) : Handled p b (.silent p')
  | closed {p' : UmpProcessor} (sound : Sound p') (group : p'.group = p.group)
      (outside : p'.inSysex = false) : Handled p b (.silent p')
  | message {p' q : UmpProcessor} {s d0 d1 : UInt8} (sound : Sound p') (group : p'.group = p.group)
      (from_ : q.group = p.group) (outside : p'.inSysex = false) (hs : IsEmittedStatus s)
      (data : DataFor s d0 d1) : Handled p b ⟨[q.voicePacket s d0 d1], p'⟩
  | full {p' q : UmpProcessor} (hb : b < midiStatusStart) (sound : Sound p')
      (group : p'.group = p.group) (from_ : q.group = p.group) (inside : p.inSysex = true)
      (low : ∀ i : Fin 6, i.val < 6 → q.sysexBuffer[i] < midiStatusStart) :
      Handled p b
        ⟨[q.sysexPacket (if p.sysexHasStarted then sysexStatusContinue else sysexStatusStart) 6],
          p'⟩
  | finished {p' : UmpProcessor} (sound : Sound p') (group : p'.group = p.group)
      (inside : p.inSysex = true) (outside : p'.inSysex = false) :
      Handled p b
        ⟨[p.sysexPacket (if p.sysexHasStarted then sysexStatusEnd else sysexStatusComplete)
          p.sysexPos], p'⟩

section Bytes

variable {p q : UmpProcessor} {b : UInt8}

/-- A message to which a data byte has just been added. -/
structure Collected (q : UmpProcessor) : Prop extends SoundBuffer q where
  running : q.runningStatus = 0 ∨ IsVoiceStatus q.runningStatus
  status : IsEmittedStatus q.cvBuffer[0]
  length : q.expectedLen = getExpectedDataLength q.cvBuffer[0]
  pos : 2 ≤ q.cvPos
  within : q.cvPos ≤ q.expectedLen + 1
  first : q.cvBuffer[1] < midiStatusStart
  second : q.cvPos = 3 → q.cvBuffer[2] < midiStatusStart

theorem Collected.handled (h : Collected q) (hb : b < midiStatusStart) (hgroup : q.group = p.group)
    (hout : q.inSysex = false) (hin : p.inSysex = false)
    (hstarted : q.sysexHasStarted = p.sysexHasStarted) : Handled p b q.dispatchWhenComplete := by
  have hpos := h.pos
  have hlen := h.length
  by_cases hfull : q.cvPos = q.expectedLen + 1
  · have hdata : DataFor q.cvBuffer[0] (q.messageData q.expectedLen).1
        (q.messageData q.expectedLen).2 := by
      have hle := getExpectedDataLength_le q.cvBuffer[0]
      unfold messageData
      dsimp only
      constructor
      · rw [if_pos (by omega)]
        exact h.first
      · split
        · exact h.second (by omega)
        · decide
      · intro hzero
        omega
      · intro hone
        exact if_neg (by omega)
    have hsound : Sound { q with cvPos := 0 } :=
      .between ⟨h.sysexPos, h.low⟩ h.running rfl
    rw [dispatchWhenComplete_of_eq hfull]
    exact .message hsound hgroup hgroup hout h.status hdata
  · have hwithin := h.within
    have hsound : Sound q := by
      constructor
      · exact h.toSoundBuffer
      · exact h.running
      · exact fun _ => ⟨h.status, h.length⟩
      · omega
      · exact fun _ => h.first
    rw [dispatchWhenComplete_of_ne hfull]
    exact .kept hb hsound hgroup (hout.trans hin.symm) hstarted

theorem Sound.handleChannelData (h : Sound p) (hb : b < midiStatusStart)
    (hin : p.inSysex = false) : Handled p b (p.handleChannelData b) := by
  unfold UmpProcessor.handleChannelData
  split
  · rename_i hrunning
    have hvoice := h.running.resolve_left hrunning.2
    have hlen := hvoice.length
    have hcollected : Collected { p with
        cvBuffer := (p.cvBuffer.set 0 p.runningStatus).set 1 b
        cvPos := 2
        expectedLen := getExpectedDataLength p.runningStatus } := by
      constructor
      · exact ⟨h.sysexPos, h.low⟩
      · exact h.running
      · simpa using hvoice.emitted
      · simp
      · exact Nat.le_refl 2
      · exact Nat.succ_le_succ hlen
      · simpa using hb
      · intro h3
        have htwo : 2 = 3 := h3
        exact absurd htwo (by decide)
    exact hcollected.handled hb rfl hin hin rfl
  · split
    · rename_i hpos
      obtain ⟨hstatus, hlength⟩ := h.status hpos.1
      have hne : p.cvPos ≠ 0 := Nat.pos_iff_ne_zero.mp hpos.1
      have hwaiting := h.waiting.resolve_right hne
      have hcollected : Collected { p with
          cvBuffer := p.cvBuffer.set p.cvPos b hpos.2
          cvPos := p.cvPos + 1 } := by
        constructor
        · exact ⟨h.sysexPos, h.low⟩
        · exact h.running
        · simpa [hne] using hstatus
        · simpa [hne] using hlength
        · exact Nat.succ_le_succ hpos.1
        · exact Nat.succ_le_succ hwaiting
        · dsimp only
          by_cases hone : p.cvPos = 1
          · simpa [hone] using hb
          · rw [Vector.getElem_set_ne _ _ hone]
            exact h.first (by omega)
        · intro h3
          have htwo : p.cvPos = 2 := Nat.succ.inj h3
          simpa [htwo] using hb
      exact hcollected.handled hb rfl hin hin rfl
    · exact .kept hb h rfl rfl rfl

/-- A byte is added to a system exclusive. -/
theorem SoundBuffer.add (h : SoundBuffer p) (hb : b < midiStatusStart) (i : Fin 6)
    (hi : i.val < p.sysexPos + 1) : (buffered p b h.sysexPos).sysexBuffer[i] < midiStatusStart := by
  unfold buffered
  dsimp only
  by_cases hlast : p.sysexPos = i.val
  · simpa [hlast] using hb
  · have hlow := h.low i (by omega)
    simpa [Vector.getElem_set_ne _ _ hlast] using hlow

theorem Sound.processSysExData (h : Sound p) (hb : b < midiStatusStart) (hin : p.inSysex = true) :
    Handled p b (p.processSysExData b) := by
  have hlow := h.toSoundBuffer.add hb
  rw [processSysExData_eq b h.sysexPos]
  dsimp only
  split
  · rename_i hfull
    have hsound : Sound { buffered p b h.sysexPos with
        sysexPos := 0
        sysexHasStarted := true } :=
      ⟨soundBuffer_zero rfl, h.running, h.status, h.waiting, h.first⟩
    exact .full hb hsound rfl rfl hin fun i hi => hlow i (by omega)
  · have hsound : Sound (buffered p b h.sysexPos) :=
      ⟨⟨by change p.sysexPos + 1 < 6; have := h.sysexPos; omega, hlow⟩, h.running, h.status,
        h.waiting, h.first⟩
    exact .kept hb hsound rfl rfl rfl

theorem Sound.handleStatusByte (h : Sound p) (hb : midiStatusStart ≤ b) :
    Handled p b (p.handleStatusByte b) := by
  by_cases hstart : b = midiSysexStart
  · rw [UmpProcessor.handleStatusByte, if_pos hstart]
    exact .opened (.between (soundBuffer_zero rfl) (.inl rfl) rfl) rfl rfl
  by_cases hend : b = midiSysexEnd
  · rw [UmpProcessor.handleStatusByte, if_neg hstart, if_pos hend]
    split
    · rename_i hin
      rw [finalizeSysEx]
      dsimp only
      rw [dispatchSysExPacket_eq _ h.sysexPos.le]
      exact .finished (.between (soundBuffer_zero rfl) (.inl rfl) rfl) rfl hin rfl
    · rename_i hin
      exact .closed (.between ⟨h.sysexPos, h.low⟩ (.inl rfl) rfl) rfl (by simpa using hin)
  have hemitted : IsEmittedStatus b := ⟨hb, hstart, hend⟩
  have hrunning : (p.begun b).runningStatus = 0 ∨ IsVoiceStatus (p.begun b).runningStatus := by
    unfold begun
    dsimp only
    split
    · exact .inr ⟨hb, ‹_›⟩
    · exact .inl rfl
  rw [handleStatusByte_message hstart hend]
  split
  · rename_i hzero
    have hsound : Sound { p.begun b with cvPos := 0 } :=
      .between ⟨h.sysexPos, h.low⟩ hrunning rfl
    have hdata : DataFor b ((p.begun b).messageData 0).1 ((p.begun b).messageData 0).2 := by
      constructor <;> simp [messageData, midiStatusStart]
    rw [dispatchChannelMessage_eq]
    have hfirst : (p.begun b).cvBuffer[0] = b := by simp [begun]
    have hlen : (p.begun b).expectedLen = 0 := hzero
    rw [hfirst, hlen]
    exact .message hsound rfl rfl rfl hemitted hdata
  · rename_i hpos
    have hsound : Sound (p.begun b) := by
      constructor
      · exact ⟨h.sysexPos, h.low⟩
      · exact hrunning
      · intro _
        simpa [begun] using hemitted
      · exact .inl (Nat.one_le_iff_ne_zero.mpr hpos)
      · exact fun h2 => absurd h2 (by simp [begun])
    exact .closed hsound rfl rfl

theorem Sound.handled (h : Sound p) (b : UInt8) : Handled p b (p.handleByte b) := by
  by_cases hrt : midiRealtimeStart ≤ b
  · have hhigh : ¬ b < midiSystemCommonEnd := by
      simp only [midiRealtimeStart, midiSystemCommonEnd] at *
      grind
    have hpacket : p.messagePacket 0x1 b 0 0 = p.voicePacket b 0 0 := by
      rw [voicePacket, if_neg hhigh]
    rw [handleByte_realTime hrt, hpacket]
    exact .realTime hrt
  by_cases hhigh : midiStatusStart ≤ b
  · rw [handleByte_status hhigh (UInt8.not_le.mp hrt)]
    exact h.handleStatusByte hhigh
  · have hlow := UInt8.not_le.mp hhigh
    rw [handleByte_data hlow, handleDataByte]
    split
    · exact h.processSysExData hlow ‹_›
    · rename_i hin
      exact h.handleChannelData hlow (Bool.not_eq_true _ ▸ hin)

end Bytes

/-! ### Runs -/

/-- A data message with this status. -/
def IsData (packet : UmpPacket) (statusCode : UInt8) : Prop :=
  messageType (packet.words.headD 0) = 0x3 ∧ nibbleField (packet.words.headD 0) 20 = statusCode

/-- The last data message in `packets`, which `p` emitted for `bytes`, is the start or a
continuation of a system exclusive, and since then no status byte has ended or begun one. -/
def Continues (p : UmpProcessor) (bytes : List UInt8) (packets : List UmpPacket) : Prop :=
  ∃ before inside earlier opening later, bytes = before ++ inside ∧
    (∀ b ∈ inside, b < midiStatusStart ∨ midiRealtimeStart ≤ b) ∧
    (feed handleByte p before).out = earlier ++ [opening] ∧
    (IsData opening sysexStatusStart ∨ IsData opening sysexStatusContinue) ∧
    packets = earlier ++ opening :: later ∧
    ∀ packet ∈ later, messageType (packet.words.headD 0) ≠ 0x3

section Runs

variable {p q : UmpProcessor} {b s : UInt8} {bytes : List UInt8}

theorem voicePacket_type (p : UmpProcessor) (s d0 d1 : UInt8) :
    messageType ((p.voicePacket s d0 d1).words.headD 0) ≠ 0x3 := by
  have hfields := voicePacket_fields p s d0 d1
  change messageType (messageWord _ p.group s d0 d1) ≠ 0x3
  rw [hfields.mt]
  split <;> decide

theorem isData_sysexPacket {statusCode : UInt8} (hstatus : statusCode.toNat < 2 ^ 4) {count : Nat}
    (hcount : count ≤ 6) : IsData (p.sysexPacket statusCode count) statusCode := by
  have hlt : count.toUInt8.toNat < 2 ^ 4 := by
    simp only [Nat.toUInt8, UInt8.toNat_ofNat']
    omega
  have hfields := headFields (p.sysexSlot count 0) (p.sysexSlot count 1) p.group_lt hstatus hlt
  exact ⟨hfields.mt, hfields.status⟩

theorem IsData.unique {packet : UmpPacket} {s t : UInt8} (hs : IsData packet s)
    (ht : IsData packet t) : s = t := hs.2.symm.trans ht.2

/-- Every byte keeps the state sound and in its group and emits at most one packet, which is well
formed. -/
theorem Handled.wellFormed {e : Emission UmpProcessor UmpPacket} (h : Handled p b e)
    (hp : Sound p) : (Sound e.state ∧ e.state.group = p.group) ∧ e.out.length ≤ 1 ∧
      ∀ packet ∈ e.out, WellFormed p.group packet.words := by
  cases h with
  | realTime hb =>
      refine ⟨⟨hp, rfl⟩, Nat.le_refl 1, List.forall_mem_singleton.mpr ?_⟩
      apply wellFormed_voicePacket
      · simp only [IsEmittedStatus, midiRealtimeStart, midiStatusStart, midiSysexStart,
          midiSysexEnd] at *
        grind
      · constructor <;> simp [midiStatusStart]
  | opened sound group unsent => exact ⟨⟨sound, group⟩, Nat.zero_le 1, by simp⟩
  | kept hb sound group same started => exact ⟨⟨sound, group⟩, Nat.zero_le 1, by simp⟩
  | closed sound group outside => exact ⟨⟨sound, group⟩, Nat.zero_le 1, by simp⟩
  | message sound group from_ outside hs data =>
      refine ⟨⟨sound, group⟩, Nat.le_refl 1, List.forall_mem_singleton.mpr ?_⟩
      rw [← from_]
      exact wellFormed_voicePacket hs data
  | full hb sound group from_ inside low =>
      refine ⟨⟨sound, group⟩, Nat.le_refl 1, List.forall_mem_singleton.mpr ?_⟩
      rw [← from_]
      apply wellFormed_sysexPacket ?_ (Nat.le_refl 6) low (fun _ => rfl)
      split <;> decide
  | finished sound group inside outside =>
      refine ⟨⟨sound, group⟩, Nat.le_refl 1, List.forall_mem_singleton.mpr ?_⟩
      apply wellFormed_sysexPacket ?_ hp.sysexPos.le hp.low ?_
      · split <;> decide
      · split <;> simp [sysexStatusEnd, sysexStatusComplete, sysexStatusStart, sysexStatusContinue]

/-- While a system exclusive is going on that has been sent in part, the last data message is of
it, and a processor that is fed the packets knows that it is open. -/
def Ongoing (p q : UmpProcessor) (bytes : List UInt8) : Prop :=
  (feed handleByte p bytes).state.inSysex = true →
    (feed handleByte p bytes).state.sysexHasStarted = true →
    Continues p bytes (feed handleByte p bytes).out ∧
      (feed processUmpPacket q (feed handleByte p bytes).out).state.reverseSysexActive = true

theorem processUmpPacket_voice_state (r p : UmpProcessor) (s d0 d1 : UInt8) :
    (r.processUmpPacket (p.voicePacket s d0 d1)).state = r := by
  have hfields := voicePacket_fields p s d0 d1
  by_cases hlow : s < midiSystemCommonEnd
  · rw [if_pos hlow, if_pos hlow] at hfields
    rw [voicePacket, if_pos hlow]
    change (r.processUmp [_]).state = r
    rw [processUmp_channel hfields.mt]
    simp only [Emission.andThen, processUmp_nil, Emission.silent_state]
  · rw [if_neg hlow, if_neg hlow] at hfields
    rw [voicePacket, if_neg hlow]
    change (r.processUmp [_]).state = r
    rw [processUmp_system hfields.mt]
    simp only [Emission.andThen, processUmp_nil, Emission.silent_state]

theorem feed_snoc (p : UmpProcessor) (bytes : List UInt8) (b : UInt8) :
    feed handleByte p (bytes ++ [b]) = (feed handleByte p bytes).andThen fun p => p.handleByte b := by
  rw [feed_append]
  simp only [feed_singleton]

/-- A byte that is no status byte and is not sent on as a data message. -/
theorem Continues.snoc {packets later : List UmpPacket} (h : Continues p bytes packets)
    (hb : b < midiStatusStart ∨ midiRealtimeStart ≤ b)
    (hlater : ∀ packet ∈ later, messageType (packet.words.headD 0) ≠ 0x3) :
    Continues p (bytes ++ [b]) (packets ++ later) := by
  obtain ⟨before, inside, earlier, opening, rest, rfl, hinside, hout, hopening, rfl, hrest⟩ := h
  refine ⟨before, inside ++ [b], earlier, opening, rest ++ later, ?_, ?_, hout, hopening, ?_, ?_⟩
  · exact List.append_assoc before inside [b]
  · intro c hc
    rcases List.mem_append.mp hc with hc | hc
    · exact hinside c hc
    · exact List.mem_singleton.mp hc ▸ hb
  · rw [List.append_assoc, List.cons_append]
  · intro packet hpacket
    exact (List.mem_append.mp hpacket).elim (hrest packet) (hlater packet)

theorem continues_opening {earlier : List UmpPacket} {opening : UmpPacket}
    (hout : (feed handleByte p bytes).out = earlier ++ [opening])
    (hopening : IsData opening sysexStatusStart ∨ IsData opening sysexStatusContinue) :
    Continues p bytes (earlier ++ [opening]) :=
  ⟨bytes, [], earlier, opening, [], (List.append_nil _).symm, by simp, hout, hopening, rfl, by simp⟩

theorem feed_packets_state (q : UmpProcessor) (packets : List UmpPacket) (packet : UmpPacket) :
    (feed processUmpPacket q (packets ++ [packet])).state =
      ((feed processUmpPacket q packets).state.processUmpPacket packet).state := by
  rw [feed_append, Emission.andThen, feed_singleton]

/-- What a byte does to a system exclusive that is going on. -/
theorem Ongoing.snoc (hsound : Sound (feed handleByte p bytes).state) (h : Ongoing p q bytes)
    (b : UInt8) : Ongoing p q (bytes ++ [b]) := by
  have hsnoc : feed handleByte p (bytes ++ [b]) =
      ⟨(feed handleByte p bytes).out ++ ((feed handleByte p bytes).state.handleByte b).out,
        ((feed handleByte p bytes).state.handleByte b).state⟩ := feed_snoc p bytes b
  have hhandled := hsound.handled b
  unfold Ongoing at h ⊢
  rw [hsnoc]
  generalize (feed handleByte p bytes).state.handleByte b = e at hsnoc hhandled ⊢
  generalize hst : feed handleByte p bytes = st at h hsnoc hhandled ⊢
  intro hin hstarted
  cases hhandled with
  | realTime hb =>
      obtain ⟨hcontinues, hactive⟩ := h hin hstarted
      constructor
      · exact hcontinues.snoc (.inr hb) (List.forall_mem_singleton.mpr (voicePacket_type _ _ _ _))
      · rw [feed_packets_state, processUmpPacket_voice_state]
        exact hactive
  | opened sound group unsent =>
      rw [Emission.silent_state, unsent] at hstarted
      exact absurd hstarted (by decide)
  | kept hb sound group same started =>
      rw [Emission.silent_state] at hin hstarted
      obtain ⟨hcontinues, hactive⟩ := h (same ▸ hin) (started ▸ hstarted)
      constructor
      · exact hcontinues.snoc (.inl hb) (by simp)
      · rw [Emission.silent_out, List.append_nil]
        exact hactive
  | closed sound group outside =>
      rw [Emission.silent_state, outside] at hin
      exact absurd hin (by decide)
  | message sound group from_ outside hs data =>
      rw [outside] at hin
      exact absurd hin (by decide)
  | @full p' r hb sound group from_ inside low =>
      by_cases hbefore : st.state.sysexHasStarted = true
      · rw [if_pos hbefore] at hsnoc ⊢
        have hdata : IsData (r.sysexPacket sysexStatusContinue 6) sysexStatusContinue :=
          isData_sysexPacket (by decide) (Nat.le_refl 6)
        constructor
        · exact continues_opening (by rw [hsnoc]) (.inr hdata)
        · rw [feed_packets_state, processUmpPacket_sysex (by decide) (Nat.le_refl 6),
            sysexEffect_continue]
          exact (h inside hbefore).2
      · rw [if_neg hbefore] at hsnoc ⊢
        have hdata : IsData (r.sysexPacket sysexStatusStart 6) sysexStatusStart :=
          isData_sysexPacket (by decide) (Nat.le_refl 6)
        constructor
        · exact continues_opening (by rw [hsnoc]) (.inl hdata)
        · rw [feed_packets_state, processUmpPacket_sysex (by decide) (Nat.le_refl 6),
            sysexEffect_start]
  | finished sound group inside outside =>
      rw [outside] at hin
      exact absurd hin (by decide)

theorem feed_sound (hp : Sound p) (bytes : List UInt8) :
    Sound (feed handleByte p bytes).state ∧ (feed handleByte p bytes).state.group = p.group := by
  induction bytes using List.reverseRecOn with
  | nil => exact ⟨hp, rfl⟩
  | append_singleton bytes b ih =>
      obtain ⟨hsound, hgroup⟩ := ih
      obtain ⟨⟨hsound', hgroup'⟩, -⟩ := (hsound.handled b).wellFormed hsound
      rw [feed_snoc]
      exact ⟨hsound', hgroup'.trans hgroup⟩

theorem feed_ongoing (hp : Sound p) (hout : p.inSysex = false) (bytes : List UInt8) :
    Ongoing p q bytes := by
  induction bytes using List.reverseRecOn with
  | nil =>
      intro hin
      exact absurd (hout.symm.trans hin) (by decide)
  | append_singleton bytes b ih => exact ih.snoc (feed_sound hp bytes).1 b

/-- A byte that gives the continuation or the end of a system exclusive comes while it is going
on. -/
theorem Handled.inside {e : Emission UmpProcessor UmpPacket} (h : Handled p b e) (hp : Sound p)
    {packet : UmpPacket} (hmem : e.out = [packet])
    (hdata : IsData packet sysexStatusContinue ∨ IsData packet sysexStatusEnd) :
    p.inSysex = true ∧ p.sysexHasStarted = true := by
  have htype : messageType (packet.words.headD 0) = 0x3 := hdata.elim (·.1) (·.1)
  cases h with
  | realTime hb =>
      obtain rfl := List.singleton_inj.mp hmem
      exact absurd htype (voicePacket_type _ _ _ _)
  | opened sound group unsent => exact absurd hmem (by simp)
  | kept hb sound group same started => exact absurd hmem (by simp)
  | closed sound group outside => exact absurd hmem (by simp)
  | message sound group from_ outside hs data =>
      obtain rfl := List.singleton_inj.mp hmem
      exact absurd htype (voicePacket_type _ _ _ _)
  | @full p' r hb sound group from_ inside low =>
      obtain rfl := List.singleton_inj.mp hmem
      refine ⟨inside, by_contra fun hunsent => ?_⟩
      rw [if_neg hunsent] at hdata
      have hstart : IsData (r.sysexPacket sysexStatusStart 6) sysexStatusStart :=
        isData_sysexPacket (by decide) (Nat.le_refl 6)
      rcases hdata with hdata | hdata
      · exact absurd (hstart.unique hdata) (by decide)
      · exact absurd (hstart.unique hdata) (by decide)
  | finished sound group inside outside =>
      obtain rfl := List.singleton_inj.mp hmem
      refine ⟨inside, by_contra fun hunsent => ?_⟩
      rw [if_neg hunsent] at hdata
      have hcomplete : IsData (p.sysexPacket sysexStatusComplete p.sysexPos) sysexStatusComplete :=
        isData_sysexPacket (by decide) hp.sysexPos.le
      rcases hdata with hdata | hdata
      · exact absurd (hcomplete.unique hdata) (by decide)
      · exact absurd (hcomplete.unique hdata) (by decide)

end Runs

section Main

variable {group : UInt8}

theorem sound_setGroup (group : UInt8) : Sound (fresh.setGroup group) := by
  unfold setGroup
  split
  · exact .between (soundBuffer_zero rfl) (.inl rfl) rfl
  · exact sound_fresh

theorem setGroup_inSysex (group : UInt8) : (fresh.setGroup group).inSysex = false := by
  unfold setGroup
  split <;> rfl

/-- Every packet that a new processor emits is well formed and in the group. A continuation or
the end of a system exclusive is emitted only when the last data message before it was a part of
the same one, and then any processor that is fed the packets knows that it is open. -/
theorem processBytes_wellFormed (hgroup : group ≤ maxGroupId) (calls : List (List UInt8)) :
    (∀ packet ∈ (feed processBytes (fresh.setGroup group) calls).out,
        WellFormed group packet.words) ∧
      ∀ (q : UmpProcessor) (earlier : List UmpPacket) (packet : UmpPacket) (later : List UmpPacket),
        (feed processBytes (fresh.setGroup group) calls).out = earlier ++ packet :: later →
        IsData packet sysexStatusContinue ∨ IsData packet sysexStatusEnd →
        (∃ bytes b rest, calls.flatMap handledBytes = bytes ++ b :: rest ∧
          (feed handleByte (fresh.setGroup group) bytes).out = earlier ∧
          Continues (fresh.setGroup group) bytes earlier) ∧
        (feed processUmpPacket q earlier).state.reverseSysexActive = true := by
  have hsame : (fresh.setGroup group).group = group := by rw [setGroup, dif_pos hgroup]
  have hsound := sound_setGroup group
  have hout := setGroup_inSysex group
  have hstep : ∀ (r : UmpProcessor) (b : UInt8), Sound r ∧ r.group = group →
      (Sound (r.handleByte b).state ∧ (r.handleByte b).state.group = group) ∧
        (r.handleByte b).out.length ≤ 1 ∧
        ∀ packet ∈ (r.handleByte b).out, WellFormed group packet.words := by
    rintro r b ⟨hr, rfl⟩
    exact (hr.handled b).wellFormed hr
  rw [feed_processBytes]
  constructor
  · exact feed_out handleByte (fun r b hr => ⟨(hstep r b hr).1, (hstep r b hr).2.2⟩)
      ⟨hsound, hsame⟩ _
  · intro q earlier packet later hemitted hdata
    obtain ⟨bytes, b, rest, hbytes, hearlier, hpacket⟩ := feed_split handleByte
      (fun r b hr => ⟨(hstep r b hr).1, (hstep r b hr).2.1⟩) ⟨hsound, hsame⟩ hemitted
    have hbefore := (feed_sound hsound bytes).1
    obtain ⟨hin, hstarted⟩ := (hbefore.handled b).inside hbefore hpacket hdata
    obtain ⟨hcontinues, hactive⟩ := feed_ongoing (q := q) hsound hout bytes hin hstarted
    rw [hearlier] at hcontinues hactive
    exact ⟨⟨bytes, b, rest, hbytes, hearlier, hcontinues⟩, hactive⟩

/-- A system exclusive over three calls, with a timing clock within it, and a note on. -/
def sysExCalls : List (List UInt8) :=
  [[0xF0, 1, 2, 3, 4], [5, 6, 7, 0xF8, 8, 9], [10, 11, 12, 13, 0xF7], [0x90, 0x3C, 0x64]]

/-- What is emitted before the end of the system exclusive. -/
def sysExBegun : List UmpPacket :=
  [.ofWords [0x33160102, 0x03040506], .ofWords [0x13F80000], .ofWords [0x33260708, 0x090A0B0C]]

theorem processBytes_wellFormed_sysEx :
    (feed processBytes (fresh.setGroup 3) sysExCalls).out =
        sysExBegun ++ .ofWords [0x33310D00, 0] :: [.ofWords [0x23903C64]] ∧
      (∀ packet ∈ (feed processBytes (fresh.setGroup 3) sysExCalls).out,
        WellFormed 3 packet.words) ∧
      (∃ bytes b rest, sysExCalls.flatMap handledBytes = bytes ++ b :: rest ∧
        (feed handleByte (fresh.setGroup 3) bytes).out = sysExBegun ∧
        Continues (fresh.setGroup 3) bytes sysExBegun) ∧
      (feed processUmpPacket fresh sysExBegun).state.reverseSysexActive = true := by
  have hout : (feed processBytes (fresh.setGroup 3) sysExCalls).out =
      sysExBegun ++ .ofWords [0x33310D00, 0] :: [.ofWords [0x23903C64]] := by
    decide +kernel
  have hend : IsData (.ofWords [0x33310D00, 0]) sysexStatusEnd := ⟨by decide, by decide⟩
  have hformed := processBytes_wellFormed (by decide : (3 : UInt8) ≤ maxGroupId) sysExCalls
  exact ⟨hout, hformed.1, hformed.2 fresh _ _ _ hout (.inr hend)⟩

end Main

end MidiFramework.Ump
