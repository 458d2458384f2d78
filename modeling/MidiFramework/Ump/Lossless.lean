import MidiFramework.Ump.Converter

/-!
# MIDI 1.0 to MIDI 2.0 and back

A canonical MIDI 1.0 packet is unchanged by a conversion to MIDI 2.0 and back.
The scaled values are the least of their rounding interval, so rounding down
gives the value that was scaled up.
-/

namespace MidiFramework.Ump

open Foundation UmpProcessor UmpConverter

/-- A MIDI 1.0 packet without anything that a MIDI 1.0 message cannot say. -/
inductive CanonicalMidi1 : List UInt32 → Prop
  | system {w : UInt32} (type : messageType w = 0x1) : CanonicalMidi1 [w]
  | channel {w : UInt32} (type : messageType w = 0x2) (high : midiStatusStart ≤ byteField w 16)
      (low : byteField w 16 < midiSystemCommonEnd) (data1 : byteField w 8 < midiStatusStart)
      (data2 : byteField w 0 < midiStatusStart)
      (unused : getExpectedDataLength (byteField w 16) = 1 → byteField w 0 = 0) :
      CanonicalMidi1 [w]
  | data {w0 w1 : UInt32} (type : messageType w0 = 0x3) : CanonicalMidi1 [w0, w1]

structure Midi1Packet where
  words : List UInt32
  canonical : CanonicalMidi1 words

section Bytes

/-- A property of bytes holds if it holds of the 256 bytes there are. -/
theorem forall_byte {P : UInt8 → Prop} (h : ∀ n < 256, P (UInt8.ofNat n)) (b : UInt8) : P b := by
  have hb := h b.toNat b.toNat_lt
  rwa [UInt8.ofNat_toNat] at hb

theorem joinStatus (s : UInt8) :
    ((s >>> 4) &&& maskNibble) <<< 4 ||| (s &&& maskNibble) &&& maskNibble = s := by
  revert s
  exact forall_byte (by decide +kernel)

theorem and_mask7Bit (b : UInt8) : b < midiStatusStart → b &&& mask7Bit = b := by
  revert b
  exact forall_byte (by decide +kernel)

theorem and_maskNibble (b : UInt8) : b.toNat < 16 → b &&& maskNibble = b := by
  revert b
  exact forall_byte (by decide +kernel)

theorem maskNibble_lt (b : UInt8) : (b &&& maskNibble).toNat < 16 := by
  revert b
  exact forall_byte (by decide +kernel)

theorem u32ToU7_u7ToU32 (b : UInt8) : b < midiStatusStart → u32ToU7 (u7ToU32 b) = b := by
  revert b
  exact forall_byte (by decide +kernel)

/-- The high nibbles of the status bytes of channel voice messages. -/
theorem voiceNibble (s : UInt8) : midiStatusStart ≤ s → s < midiSystemCommonEnd →
    (s >>> 4) &&& maskNibble ∈ ([0x8, 0x9, 0xA, 0xB, 0xC, 0xD, 0xE] : List UInt8) := by
  revert s
  exact forall_byte (by decide +kernel)

/-- The messages with one data byte. -/
theorem expected_one (s : UInt8) : midiStatusStart ≤ s → s < midiSystemCommonEnd →
    (s >>> 4) &&& maskNibble ∈ ([0xC, 0xD] : List UInt8) → getExpectedDataLength s = 1 := by
  revert s
  exact forall_byte (by decide +kernel)

/-- The fourteen bits of a pitch bend are put together, scaled up, scaled down and taken apart
again. -/
theorem pitchBend_roundTrip {d1 d2 : UInt8} (h1 : d1 < midiStatusStart)
    (h2 : d2 < midiStatusStart) :
    let pb14 := u32ToU14 (u14ToU32 ((d2.toUInt16 <<< 7 ||| d1.toUInt16) &&& mask14Bit)) &&&
      mask14Bit
    (pb14 &&& mask7Bit.toUInt16).toUInt8 = d1 ∧
      ((pb14 >>> 7) &&& mask7Bit.toUInt16).toUInt8 = d2 := by
  have hstart : midiStatusStart.toNat = 128 := rfl
  rw [UInt8.lt_iff_toNat_lt, hstart] at h1 h2
  have hjoin : (d2.toUInt16 <<< 7 ||| d1.toUInt16).toNat = d2.toNat * 128 + d1.toNat := by
    rw [UInt16.toNat_or, UInt16.toNat_shiftLeft, UInt8.toNat_toUInt16, UInt8.toNat_toUInt16]
    have hshift : d2.toNat <<< ((7 : UInt16).toNat % 16) % 2 ^ 16 = d2.toNat * 128 := by
      rw [Nat.shiftLeft_eq]
      change d2.toNat * 128 % 2 ^ 16 = _
      omega
    rw [hshift]
    exact or_eq_add (k := 7) ⟨d2.toNat, by omega⟩ h1
  have hmask (v : UInt16) : (v &&& mask14Bit).toNat = v.toNat % 2 ^ 14 := by
    rw [UInt16.toNat_and]
    exact Nat.and_two_pow_sub_one_eq_mod _ 14
  have hlow (v : UInt16) : (v &&& mask7Bit.toUInt16).toNat = v.toNat % 2 ^ 7 := by
    rw [UInt16.toNat_and]
    exact Nat.and_two_pow_sub_one_eq_mod _ 7
  have hscaled : (u32ToU14 (u14ToU32 ((d2.toUInt16 <<< 7 ||| d1.toUInt16) &&& mask14Bit))).toNat =
      d2.toNat * 128 + d1.toNat := by
    have hround : roundU32ToU14.toNat = 2 ^ 17 := rfl
    have hup : (u14ToU32 ((d2.toUInt16 <<< 7 ||| d1.toUInt16) &&& mask14Bit)).toNat =
        (d2.toNat * 128 + d1.toNat) * 2 ^ 18 := by
      rw [u14ToU32, UInt32.toNat_shiftLeft, UInt16.toNat_toUInt32, hmask, hjoin, Nat.shiftLeft_eq]
      change (d2.toNat * 128 + d1.toNat) % 2 ^ 14 * 2 ^ 18 % 2 ^ 32 = _
      omega
    rw [u32ToU14, UInt32.toNat_toUInt16, toNat_shiftRight (by decide), UInt32.toNat_add, hup, hround]
    change ((d2.toNat * 128 + d1.toNat) * 2 ^ 18 + 2 ^ 17) % 2 ^ 32 / 2 ^ 18 % 2 ^ 16 = _
    omega
  intro pb14
  have hpb : pb14.toNat = d2.toNat * 128 + d1.toNat := by
    rw [hmask, hscaled]
    omega
  constructor
  · apply UInt8.toNat_inj.mp
    rw [UInt16.toNat_toUInt8, hlow, hpb]
    omega
  · apply UInt8.toNat_inj.mp
    rw [UInt16.toNat_toUInt8, hlow, UInt16.toNat_shiftRight, hpb, Nat.shiftRight_eq_div_pow]
    change (d2.toNat * 128 + d1.toNat) / 2 ^ 7 % 2 ^ 7 % 2 ^ 8 = _
    omega

end Bytes

section Words

variable {w : UInt32} {mt group status d1 d2 : UInt8}

theorem nibbleField_lt (w : UInt32) {shift : UInt32} (hs : shift.toNat < 32) :
    (nibbleField w shift).toNat < 16 := by
  rw [nibbleField_toNat hs]
  exact Nat.mod_lt _ (by decide)

/-- A word is put together again from its fields. -/
theorem messageWord_fields (htype : messageType w = 0x2) :
    messageWord 0x2 (nibbleField w 24) (byteField w 16) (byteField w 8) (byteField w 0) = w := by
  have hlt := w.toNat_lt
  have hgroup : (nibbleField w 24).toNat < 2 ^ 4 := nibbleField_lt w (by decide)
  have hmt : w.toNat / 2 ^ 28 % 16 = 2 := by
    have h28 : (28 : UInt32).toNat = 28 := rfl
    rw [← h28, ← nibbleField_toNat (by decide), ← messageType, htype]
    rfl
  apply UInt32.toNat_inj.mp
  have hshift : ((0x2 : UInt32) <<< 28).toNat = (0x2 : UInt32).toNat * 2 ^ 28 := rfl
  have h2 : (0x2 : UInt32).toNat = 2 := rfl
  have h24 : (24 : UInt32).toNat = 24 := rfl
  have h16 : (16 : UInt32).toNat = 16 := rfl
  have h8 : (8 : UInt32).toNat = 8 := rfl
  have h0 : (0 : UInt32).toNat = 0 := rfl
  rw [toNat_messageWord _ _ _ hshift hgroup, nibbleField_toNat (by decide),
    byteField_toNat (by decide), byteField_toNat (by decide), byteField_toNat (by decide),
    h2, h24, h16, h8, h0]
  omega

theorem pushMidi1ChannelVoice_eq (hgroup : group.toNat < 16) (status d1 d2 : UInt8) :
    pushMidi1ChannelVoice ⟨group, status, d1, d2⟩ = [messageWord 0x2 group status d1 d2] := by
  rw [pushMidi1ChannelVoice, and_maskNibble _ hgroup]
  rfl

/-- The first word of a MIDI 2.0 channel voice message with this status byte. -/
def midi2Word (group status d1 d2 : UInt8) : UInt32 :=
  (0x4 : UInt32) <<< 28 ||| group.toUInt32 <<< 24 |||
    ((status >>> 4) &&& maskNibble).toUInt32 <<< 20 ||| (status &&& maskNibble).toUInt32 <<< 16 |||
    d1.toUInt32 <<< 8 ||| d2.toUInt32 <<< 0

theorem pushMidi2ChannelVoice_eq (hgroup : group.toNat < 16) (status d1 d2 : UInt8)
    (value32 : UInt32) :
    pushMidi2ChannelVoice
      ⟨group, (status >>> 4) &&& maskNibble, status &&& maskNibble, d1, d2, value32⟩ =
      [midi2Word group status d1 d2, value32] := by
  have hhigh := and_maskNibble ((status >>> 4) &&& maskNibble) (maskNibble_lt _)
  have hlow := and_maskNibble (status &&& maskNibble) (maskNibble_lt _)
  rw [pushMidi2ChannelVoice, and_maskNibble _ hgroup, hhigh, hlow]
  rfl

/-- The fields of the first word of a MIDI 2.0 channel voice message. -/
structure Midi2Fields (w : UInt32) (group status d1 : UInt8) : Prop where
  mt : messageType w = 0x4
  group : nibbleField w 24 = group
  statusNibble : nibbleField w 20 = (status >>> 4) &&& maskNibble
  channel : nibbleField w 16 = status &&& maskNibble
  d1 : byteField w 8 = d1

theorem toNat_midi2Word (status d1 d2 : UInt8) (hgroup : group.toNat < 2 ^ 4) :
    (midi2Word group status d1 d2).toNat =
      4 * 2 ^ 28 + group.toNat * 2 ^ 24 + ((status >>> 4) &&& maskNibble).toNat * 2 ^ 20 +
        (status &&& maskNibble).toNat * 2 ^ 16 + d1.toNat * 2 ^ 8 + d2.toNat * 2 ^ 0 := by
  have htop : ((0x4 : UInt32) <<< 28).toNat = 4 * 2 ^ 28 := rfl
  have h0 := toNat_or_field (s := 24) (k := 24) htop rfl hgroup (by decide) (by decide)
    (by omega)
  have h1 := toNat_or_field (s := 20) (k := 20) (n := 4) h0 rfl (maskNibble_lt (status >>> 4))
    (by decide) (by decide) (by omega)
  have h2 := toNat_or_field (s := 16) (k := 16) (n := 4) h1 rfl (maskNibble_lt status)
    (by decide) (by decide) (by omega)
  have h3 := toNat_or_field (s := 8) (k := 8) h2 rfl d1.toNat_lt (by decide) (by decide)
    (by omega)
  exact toNat_or_field h3 rfl d2.toNat_lt (by decide) (by decide) (by omega)

theorem midi2Fields (status d1 d2 : UInt8) (hgroup : group.toNat < 2 ^ 4) :
    Midi2Fields (midi2Word group status d1 d2) group status d1 := by
  have hw := toNat_midi2Word status d1 d2 hgroup
  have hhigh := maskNibble_lt (status >>> 4)
  have hlow := maskNibble_lt status
  have h1 := d1.toNat_lt
  have h2 := d2.toNat_lt
  have h4 : (0x4 : UInt8).toNat = 4 := rfl
  constructor
  · exact nibbleField_eq (k := 28) rfl (by decide) hw (by omega)
  · exact nibbleField_eq (k := 24) rfl (by decide) hw (by omega)
  · exact nibbleField_eq (k := 20) rfl (by decide) hw (by omega)
  · exact nibbleField_eq (k := 16) rfl (by decide) hw (by omega)
  · exact byteField_eq (k := 8) rfl (by decide) hw (by omega)

end Words

section Voice

variable {group status d1 d2 : UInt8}

/-- What the converters do with the parts of a channel voice message. -/
def upgraded (group status d1 d2 : UInt8) : Option (List UInt32) :=
  convertMidi1ChannelVoiceToMidi2Inner ((status >>> 4) &&& maskNibble) d1 d2
    { group, statusNibble := (status >>> 4) &&& maskNibble, channel := status &&& maskNibble }

def downgraded (group status d1 : UInt8) (w1 : UInt32) : Option (List UInt32) :=
  convertMidi2ChannelVoiceToMidi1Inner ((status >>> 4) &&& maskNibble) d1 w1
    { group, statusByte := status }

theorem convertMidi1ToMidi2_voice {w : UInt32} (htype : messageType w = 0x2) :
    convertMidi1ToMidi2 [w] =
      upgraded (nibbleField w 24) (byteField w 16) (byteField w 8) (byteField w 0) := by
  have h1 : messageType w ≠ 0x1 := by
    rw [htype]
    decide
  have h3 : messageType w ≠ 0x3 := by
    rw [htype]
    decide
  rw [convertMidi1ToMidi2, convertOne, if_neg h1, if_neg h3, if_neg (not_not.mpr htype)]
  rfl

theorem convertMidi2ToMidi1_voice (hgroup : group.toNat < 16) (status d1 d2 : UInt8)
    (w1 : UInt32) :
    convertMidi2ToMidi1 [midi2Word group status d1 d2, w1] = downgraded group status d1 w1 := by
  have hfields := midi2Fields status d1 d2 hgroup
  have h1 : messageType (midi2Word group status d1 d2) ≠ 0x1 := by
    rw [hfields.mt]
    decide
  have h3 : messageType (midi2Word group status d1 d2) ≠ 0x3 := by
    rw [hfields.mt]
    decide
  rw [convertMidi2ToMidi1, convertOne, if_neg h1, if_neg h3, if_neg (not_not.mpr hfields.mt),
    convertMidi2ChannelVoiceToMidi1, hfields.statusNibble, hfields.channel, hfields.d1, hfields.group, joinStatus]
  rfl

/-- The parts of a canonical channel voice message are found again in the converted message. -/
theorem downgraded_upgraded (hgroup : group.toNat < 16) (high : midiStatusStart ≤ status)
    (low : status < midiSystemCommonEnd) (h1 : d1 < midiStatusStart) (h2 : d2 < midiStatusStart)
    (unused : getExpectedDataLength status = 1 → d2 = 0) :
    ∃ d1' d2' w1, upgraded group status d1 d2 = some [midi2Word group status d1' d2', w1] ∧
      downgraded group status d1' w1 = some [messageWord 0x2 group status d1 d2] := by
  have hnibble := voiceNibble status high low
  have hpush1 := pushMidi1ChannelVoice_eq hgroup status d1 d2
  have hpush2 (a b : UInt8) (v : UInt32) := pushMidi2ChannelVoice_eq hgroup status a b v
  have hd1 := and_mask7Bit d1 h1
  have hd2 := and_mask7Bit d2 h2
  have hv1 := u32ToU7_u7ToU32 d1 h1
  have hv2 := u32ToU7_u7ToU32 d2 h2
  obtain ⟨hbend1, hbend2⟩ := pitchBend_roundTrip h1 h2
  have hunused : (status >>> 4) &&& maskNibble ∈ ([0xC, 0xD] : List UInt8) → d2 = 0 :=
    fun hn => unused (expected_one status high low hn)
  unfold upgraded downgraded convertMidi1ChannelVoiceToMidi2Inner
    convertMidi2ChannelVoiceToMidi1Inner
  generalize (status >>> 4) &&& maskNibble = n at *
  simp only [List.mem_cons, List.not_mem_nil, or_false] at hnibble
  rcases hnibble with rfl | rfl | rfl | rfl | rfl | rfl | rfl
  · exact ⟨d1, midi2NoteAttrNone, u7ToU32 d2, by simp [hpush2, hd1, hd2],
      by simp [hd1, hd2, hv2, hpush1]⟩
  · exact ⟨d1, midi2NoteAttrNone, u7ToU32 d2, by simp [hpush2, hd1, hd2],
      by simp [hd1, hd2, hv2, hpush1]⟩
  · exact ⟨d1, 0, u7ToU32 d2, by simp [hpush2, hd1, hd2], by simp [hd1, hd2, hv2, hpush1]⟩
  · exact ⟨d1, 0, u7ToU32 d2, by simp [hpush2, hd2], by simp [hd2, hv2, hpush1]⟩
  · obtain rfl := hunused (by simp)
    exact ⟨d1, 0, u7ToU32 d1, by simp [hpush2, hd1], by simp [hd1, hpush1]⟩
  · obtain rfl := hunused (by simp)
    exact ⟨0, 0, u7ToU32 d1, by simp [hpush2, hd1], by simp [hd1, hv1, hpush1]⟩
  · refine ⟨0, 0, u14ToU32 ((d2.toUInt16 <<< 7 ||| d1.toUInt16) &&& mask14Bit), ?_, ?_⟩
    · simp [hpush2, hd1, hd2]
    · simp [hbend1, hbend2, hpush1]

end Voice

section Main

theorem isPacket_of_type {mt : UInt8} {words : List UInt32}
    (htype : messageType (words.headD 0) = mt) (hmt : mt ≠ 0xD)
    (hlen : words.length = umpWordCount.getD mt.toNat 0) (hne : words ≠ []) : IsPacket words := by
  obtain ⟨word0, rest, rfl⟩ := List.exists_cons_of_ne_nil hne
  exact ⟨word0, rest, rfl, hlen.trans (getUmpWordCount_of_type htype hmt).symm⟩

theorem convertOne_system (dir : Direction) {w : UInt32} (h : messageType w = 0x1) :
    convertOne dir [w] = some [w] := by
  simp [convertOne, h]

theorem convertOne_data (dir : Direction) {w0 : UInt32} (h : messageType w0 = 0x3)
    (w1 : UInt32) : convertOne dir [w0, w1] = some [w0, w1] := by
  simp [convertOne, h]

/-- A canonical packet is converted to one packet, which is converted back to it. -/
theorem CanonicalMidi1.roundTrip {words : List UInt32} (h : CanonicalMidi1 words) :
    ∃ converted, convertMidi1ToMidi2 words = some converted ∧ IsPacket converted ∧
      convertMidi2ToMidi1 converted = some words := by
  cases h with
  | @system w type =>
      refine ⟨[w], convertOne_system _ type, ?_, convertOne_system _ type⟩
      exact isPacket_of_type type (by decide) rfl (by simp)
  | @data w0 w1 type =>
      refine ⟨[w0, w1], convertOne_data _ type w1, ?_, convertOne_data _ type w1⟩
      exact isPacket_of_type type (by decide) rfl (by simp)
  | @channel w type high low data1 data2 unused =>
      have hgroup : (nibbleField w 24).toNat < 16 := nibbleField_lt w (by decide)
      obtain ⟨d1', d2', w1, hup, hdown⟩ :=
        downgraded_upgraded hgroup high low data1 data2 unused
      refine ⟨_, (convertMidi1ToMidi2_voice type).trans hup, ?_, ?_⟩
      · exact isPacket_of_type (midi2Fields _ d1' d2' hgroup).mt (by decide) rfl (by simp)
      · rw [convertMidi2ToMidi1_voice hgroup, hdown, messageWord_fields type]

/-- Every packet of a canonical sequence is converted, the converted packets are found again in
their concatenation, and converted back they are the sequence. -/
theorem midi1_midi2_midi1 (packets : List Midi1Packet) :
    ∃ converted : List (List UInt32),
      packets.map (fun packet => convertMidi1ToMidi2 packet.words) = converted.map some ∧
      splitUmpPackets converted.flatten = converted ∧
      converted.map convertMidi2ToMidi1 = packets.map fun packet => some packet.words := by
  have hall : ∃ converted : List (List UInt32),
      packets.map (fun packet => convertMidi1ToMidi2 packet.words) = converted.map some ∧
      (∀ p ∈ converted, IsPacket p) ∧
      converted.map convertMidi2ToMidi1 = packets.map fun packet => some packet.words := by
    induction packets with
    | nil => exact ⟨[], rfl, by simp, rfl⟩
    | cons packet packets ih =>
        obtain ⟨p, hup, hpacket, hdown⟩ := packet.canonical.roundTrip
        obtain ⟨converted, hups, hpackets, hdowns⟩ := ih
        refine ⟨p :: converted, ?_, List.forall_mem_cons.mpr ⟨hpacket, hpackets⟩, ?_⟩
        · rw [List.map_cons, List.map_cons, hup, hups]
        · rw [List.map_cons, List.map_cons, hdown, hdowns]
  obtain ⟨converted, hup, hpackets, hdown⟩ := hall
  exact ⟨converted, hup, splitUmpPackets_flatten hpackets, hdown⟩

end Main

end MidiFramework.Ump
