import MidiFramework.Foundation.Rounding
import MidiFramework.Ump.Lossless

/-!
# Values scaled down to MIDI 1.0

A 32-bit value is rounded to seven bits, or to fourteen for a pitch bend. The
rounding adds half a step in 32-bit arithmetic, so the values within half a step
of the end of the word come out as zero.
-/

namespace MidiFramework.Ump

open Foundation UmpConverter

section Results

variable {words out : List UInt32}

/-- What a packet becomes: system and data messages stay as they are, and a MIDI 2.0 channel voice
message becomes one word of MIDI 1.0. -/
inductive Downgraded : List UInt32 → List UInt32 → Prop
  | system {w : UInt32} (type : messageType w = 0x1) : Downgraded [w] [w]
  | data {w : UInt32} {rest : List UInt32} (type : messageType w = 0x3)
      (even : (w :: rest).length % 2 = 0) : Downgraded (w :: rest) (w :: rest)
  | voice {w0 w1 w : UInt32} (type : messageType w0 = 0x4) (type' : messageType w = 0x2) :
      Downgraded [w0, w1] [w]

/-- The word that `ConvertMidi2ChannelVoiceToMidi1` puts together, by its data bytes. -/
def downgradedWord (w0 : UInt32) (d1 d2 : UInt8) : UInt32 :=
  messageWord 0x2 (nibbleField w0 24)
    ((nibbleField w0 20 <<< 4) ||| (nibbleField w0 16 &&& maskNibble)) d1 d2

theorem downgradedWord_fields (w0 : UInt32) (d1 d2 : UInt8) :
    messageType (downgradedWord w0 d1 d2) = 0x2 ∧ byteField (downgradedWord w0 d1 d2) 8 = d1 ∧
      byteField (downgradedWord w0 d1 d2) 0 = d2 := by
  have hgroup : (nibbleField w0 24).toNat < 2 ^ 4 := nibbleField_lt w0 (by decide)
  have hshift : ((0x2 : UInt32) <<< 28).toNat = (0x2 : UInt32).toNat * 2 ^ 28 := rfl
  have hfields := messageFields ((nibbleField w0 20 <<< 4) ||| (nibbleField w0 16 &&& maskNibble))
    d1 d2 hshift hgroup
  exact ⟨hfields.mt, hfields.d0, hfields.d1⟩

/-- The data bytes of the MIDI 1.0 message, for every status that has one. -/
def downgradedData (statusNibble data1 : UInt8) (w1 : UInt32) : Option (UInt8 × UInt8) :=
  if statusNibble = 0x8 ∨ statusNibble = 0x9 ∨ statusNibble = 0xA then
    some (data1 &&& mask7Bit, u32ToU7 w1 &&& mask7Bit)
  else if statusNibble = 0xB then some (data1, u32ToU7 w1 &&& mask7Bit)
  else if statusNibble = 0xC then some (data1 &&& mask7Bit, 0)
  else if statusNibble = 0xD then some (u32ToU7 w1 &&& mask7Bit, 0)
  else if statusNibble = 0xE then
    some (((u32ToU14 w1 &&& mask14Bit) &&& mask7Bit.toUInt16).toUInt8,
      (((u32ToU14 w1 &&& mask14Bit) >>> 7) &&& mask7Bit.toUInt16).toUInt8)
  else none

theorem convertMidi2ChannelVoiceToMidi1_eq (w0 w1 : UInt32) :
    convertMidi2ChannelVoiceToMidi1 [w0, w1] =
      (downgradedData (nibbleField w0 20) (byteField w0 8) w1).map fun d =>
        [downgradedWord w0 d.1 d.2] := by
  have hpush : ∀ d1 d2 : UInt8, pushMidi1ChannelVoice
      { group := nibbleField w0 24
        statusByte := (nibbleField w0 20 <<< 4) ||| (nibbleField w0 16 &&& maskNibble)
        data1 := d1
        data2 := d2 } = [downgradedWord w0 d1 d2] :=
    fun d1 d2 => pushMidi1ChannelVoice_eq (nibbleField_lt w0 (by decide)) _ d1 d2
  unfold convertMidi2ChannelVoiceToMidi1 convertMidi2ChannelVoiceToMidi1Inner downgradedData
  dsimp only
  split
  · exact congrArg some (hpush _ _)
  split
  · exact congrArg some (hpush _ _)
  split
  · exact congrArg some (hpush _ _)
  split
  · exact congrArg some (hpush _ _)
  split
  · exact congrArg some (hpush _ _)
  · rfl

theorem downgraded_of_convert (h : convertMidi2ToMidi1 words = some out) :
    Downgraded words out := by
  cases words with
  | nil => contradiction
  | cons w0 rest =>
      unfold convertMidi2ToMidi1 convertOne at h
      dsimp only at h
      split at h
      · next hsystem =>
          split at h
          · contradiction
          · next hlen =>
              obtain rfl : rest = [] := by simpa using hlen
              rw [← Option.some.inj h]
              exact .system hsystem
      · split at h
        · next hdata =>
            split at h
            · contradiction
            · next heven =>
                rw [← Option.some.inj h]
                exact .data hdata (not_not.mp heven)
        · split at h
          · contradiction
          · next hvoice =>
              match rest with
              | [] => contradiction
              | _ :: _ :: _ => contradiction
              | [w1] =>
                  rw [convertMidi2ChannelVoiceToMidi1_eq] at h
                  obtain ⟨d, _, rfl⟩ := Option.map_eq_some_iff.mp h
                  exact .voice (not_not.mp hvoice) (downgradedWord_fields w0 d.1 d.2).1

/-- The statuses that MIDI 1.0 has a channel voice message for. -/
def VoiceStatus (statusNibble : UInt8) : Prop :=
  statusNibble ∈ ([0x8, 0x9, 0xA, 0xB, 0xC, 0xD, 0xE] : List UInt8)

instance (statusNibble : UInt8) : Decidable (VoiceStatus statusNibble) :=
  inferInstanceAs (Decidable (_ ∈ _))

/-- A MIDI 2.0 channel voice message with one of these statuses. -/
def IsMidi2Voice (words : List UInt32) : Prop :=
  ∃ w0 w1, words = [w0, w1] ∧ messageType w0 = 0x4 ∧ VoiceStatus (nibbleField w0 20)

theorem isMidi2Voice_pair {w0 w1 : UInt32} :
    IsMidi2Voice [w0, w1] ↔ messageType w0 = 0x4 ∧ VoiceStatus (nibbleField w0 20) := by
  constructor
  · rintro ⟨v0, v1, heq, hvoice⟩
    obtain ⟨rfl, -⟩ := List.cons.inj heq
    exact hvoice
  · exact fun hvoice => ⟨w0, w1, rfl, hvoice⟩

instance : DecidablePred IsMidi2Voice
  | [_, _] => decidable_of_iff _ isMidi2Voice_pair.symm
  | [] | [_] | _ :: _ :: _ :: _ => isFalse fun ⟨_, _, heq, _⟩ => by cases heq

theorem downgradedData_isSome (statusNibble data1 : UInt8) (w1 : UInt32) :
    (downgradedData statusNibble data1 w1).isSome ↔ VoiceStatus statusNibble := by
  simp only [VoiceStatus, List.mem_cons, List.not_mem_nil, or_false]
  unfold downgradedData
  split
  · next h => exact iff_of_true rfl (by grind)
  split
  · next h => exact iff_of_true rfl (by grind)
  split
  · next h => exact iff_of_true rfl (by grind)
  split
  · next h => exact iff_of_true rfl (by grind)
  split
  · next h => exact iff_of_true rfl (by grind)
  · exact iff_of_false Bool.false_ne_true (by grind)

theorem convertMidi2ToMidi1_voice_isSome {w0 : UInt32} (htype : messageType w0 = 0x4)
    (w1 : UInt32) :
    (convertMidi2ToMidi1 [w0, w1]).isSome ↔ VoiceStatus (nibbleField w0 20) := by
  have h1 : messageType w0 ≠ 0x1 := by
    rw [htype]
    decide
  have h3 : messageType w0 ≠ 0x3 := by
    rw [htype]
    decide
  rw [convertMidi2ToMidi1, convertOne, if_neg h1, if_neg h3, if_neg (not_not.mpr htype),
    convertMidi2ChannelVoiceToMidi1_eq, Option.isSome_map]
  exact downgradedData_isSome _ _ _

/-- The output is as long as the packet, unless it is a channel voice message. -/
theorem length_of_convert (h : convertMidi2ToMidi1 words = some out) :
    IsMidi2Voice words ∧ out.length = 1 ∨ ¬IsMidi2Voice words ∧ out = words := by
  have hsome := congrArg Option.isSome h
  cases downgraded_of_convert h with
  | system htype =>
      refine Or.inr ⟨?_, rfl⟩
      rintro ⟨w0, w1, heq, -⟩
      exact absurd (congrArg List.length heq) (by simp)
  | data htype heven =>
      refine Or.inr ⟨?_, rfl⟩
      rintro ⟨w0, w1, heq, hvoice, -⟩
      rw [← (List.cons.inj heq).1, htype] at hvoice
      exact absurd hvoice (by decide)
  | voice htype htype' =>
      exact Or.inl ⟨⟨_, _, rfl, htype, (convertMidi2ToMidi1_voice_isSome htype _).mp hsome⟩, rfl⟩

/-- The packets that MIDI 1.0 has a form for: system messages, data messages and the channel voice
messages with a status of MIDI 1.0. -/
def HasMidi1Form (packet : List UInt32) : Prop :=
  (∃ w ∈ packet.head?, messageType w = 0x1 ∨ messageType w = 0x3) ∨ IsMidi2Voice packet

/-- These packets are converted, and no others. -/
theorem convertMidi2ToMidi1_isSome {packet : List UInt32} (hpacket : IsPacket packet) :
    (convertMidi2ToMidi1 packet).isSome ↔ HasMidi1Form packet := by
  obtain ⟨w0, rest, rfl, hlen⟩ := hpacket
  constructor
  · intro hsome
    obtain ⟨out, hout⟩ := Option.isSome_iff_exists.mp hsome
    generalize hwords : w0 :: rest = words at hout
    cases downgraded_of_convert hout with
    | system htype => exact Or.inl ⟨_, rfl, Or.inl htype⟩
    | data htype heven => exact Or.inl ⟨_, rfl, Or.inr htype⟩
    | voice htype htype' =>
        have hstatus := (convertMidi2ToMidi1_voice_isSome htype _).mp
          (Option.isSome_iff_exists.mpr ⟨_, hout⟩)
        exact Or.inr ⟨_, _, rfl, htype, hstatus⟩
  · rintro (⟨w, hw, hsystem | hdata⟩ | ⟨v0, v1, heq, htype, hstatus⟩)
    · obtain rfl : w0 = w := Option.some.inj hw
      have hone : (w0 :: rest).length = 1 := by
        rw [hlen, getUmpWordCount_of_type hsystem (by decide)]
        rfl
      rw [convertMidi2ToMidi1, convertOne, if_pos hsystem, if_neg (not_not.mpr hone)]
      rfl
    · obtain rfl : w0 = w := Option.some.inj hw
      have hsystem : messageType w0 ≠ 0x1 := by
        rw [hdata]
        decide
      have heven : (w0 :: rest).length % 2 = 0 := by
        rw [hlen, getUmpWordCount_of_type hdata (by decide)]
        rfl
      rw [convertMidi2ToMidi1, convertOne, if_neg hsystem, if_pos hdata,
        if_neg (not_not.mpr heven)]
      rfl
    · rw [heq]
      exact (convertMidi2ToMidi1_voice_isSome htype v1).mpr hstatus

end Results

section Values

/-- The statuses whose messages carry a value. -/
def ScaledStatus (statusNibble : UInt8) : Prop :=
  statusNibble ∈ ([0x8, 0x9, 0xA, 0xB, 0xD, 0xE] : List UInt8)

instance (statusNibble : UInt8) : Decidable (ScaledStatus statusNibble) :=
  inferInstanceAs (Decidable (_ ∈ _))

/-- Half a step of the rounding. -/
def halfStep (statusNibble : UInt8) : Nat := if statusNibble = 0xE then 2 ^ 17 else 2 ^ 24

/-- How many values MIDI 1.0 has for the status. -/
def valueCount (statusNibble : UInt8) : Nat := if statusNibble = 0xE then 2 ^ 14 else 2 ^ 7

/-- The value in a MIDI 1.0 word with the status. -/
def messageValue (statusNibble : UInt8) (w : UInt32) : Nat :=
  if statusNibble = 0xE then (byteField w 0).toNat * 2 ^ 7 + (byteField w 8).toNat
  else if statusNibble = 0xD then (byteField w 8).toNat
  else (byteField w 0).toNat

/-- The value that a MIDI 2.0 message with the first word `w0` and the value `v` gets. -/
def downscaled (w0 v : UInt32) : Option Nat :=
  match convertMidi2ToMidi1 [w0, v] with
  | some [w] => some (messageValue (nibbleField w0 20) w)
  | _ => none

theorem word_steps (statusNibble : UInt8) :
    valueCount statusNibble * (2 * halfStep statusNibble) = 2 ^ 32 := by
  unfold valueCount halfStep
  split <;> rfl

theorem u32ToU7_toNat (v : UInt32) :
    (u32ToU7 v &&& mask7Bit).toNat = roundedDown (2 ^ 24) (2 ^ 7) v.toNat := by
  have hround : roundU32ToU7.toNat = 2 ^ 24 := rfl
  have hmask (b : UInt8) : (b &&& mask7Bit).toNat = b.toNat % 2 ^ 7 := by
    rw [UInt8.toNat_and]
    exact Nat.and_two_pow_sub_one_eq_mod _ 7
  have hshift : (25 : UInt32).toNat = 25 := rfl
  rw [hmask, u32ToU7, UInt32.toNat_toUInt8, toNat_shiftRight (by decide), UInt32.toNat_add, hround,
    hshift, roundedDown]
  omega

theorem u32ToU14_toNat (v : UInt32) :
    (u32ToU14 v &&& mask14Bit).toNat = roundedDown (2 ^ 17) (2 ^ 14) v.toNat := by
  have hround : roundU32ToU14.toNat = 2 ^ 17 := rfl
  have hmask (b : UInt16) : (b &&& mask14Bit).toNat = b.toNat % 2 ^ 14 := by
    rw [UInt16.toNat_and]
    exact Nat.and_two_pow_sub_one_eq_mod _ 14
  have hshift : (18 : UInt32).toNat = 18 := rfl
  rw [hmask, u32ToU14, UInt32.toNat_toUInt16, toNat_shiftRight (by decide), UInt32.toNat_add,
    hround, hshift, roundedDown]
  omega

/-- The two data bytes of a pitch bend hold its fourteen bits. -/
theorem pitchBend_toNat {b : UInt16} (hb : b.toNat < 2 ^ 14) :
    ((b >>> 7) &&& mask7Bit.toUInt16).toUInt8.toNat * 2 ^ 7 +
      (b &&& mask7Bit.toUInt16).toUInt8.toNat = b.toNat := by
  have hlow (x : UInt16) : (x &&& mask7Bit.toUInt16).toNat = x.toNat % 2 ^ 7 := by
    rw [UInt16.toNat_and]
    exact Nat.and_two_pow_sub_one_eq_mod _ 7
  rw [UInt16.toNat_toUInt8, UInt16.toNat_toUInt8, hlow, hlow, UInt16.toNat_shiftRight,
    Nat.shiftRight_eq_div_pow]
  change b.toNat / 2 ^ 7 % 2 ^ 7 % 2 ^ 8 * 2 ^ 7 + b.toNat % 2 ^ 7 % 2 ^ 8 = b.toNat
  omega

/-- Every message with a value is converted, and its value is rounded down. -/
theorem downscaled_eq {w0 : UInt32} (htype : messageType w0 = 0x4)
    (hstatus : ScaledStatus (nibbleField w0 20)) (v : UInt32) :
    downscaled w0 v = some (roundedDown (halfStep (nibbleField w0 20))
      (valueCount (nibbleField w0 20)) v.toNat) := by
  have h1 : messageType w0 ≠ 0x1 := by
    rw [htype]
    decide
  have h3 : messageType w0 ≠ 0x3 := by
    rw [htype]
    decide
  have hconvert : convertMidi2ToMidi1 [w0, v] =
      (downgradedData (nibbleField w0 20) (byteField w0 8) v).map fun d =>
        [downgradedWord w0 d.1 d.2] := by
    rw [convertMidi2ToMidi1, convertOne, if_neg h1, if_neg h3, if_neg (not_not.mpr htype)]
    exact convertMidi2ChannelVoiceToMidi1_eq w0 v
  have hfields := downgradedWord_fields w0
  rw [downscaled, hconvert]
  generalize nibbleField w0 20 = status at hstatus ⊢
  simp only [ScaledStatus, List.mem_cons, List.not_mem_nil, or_false] at hstatus
  rcases hstatus with rfl | rfl | rfl | rfl | rfl | rfl
  · exact congrArg some ((congrArg UInt8.toNat (hfields _ _).2.2).trans (u32ToU7_toNat v))
  · exact congrArg some ((congrArg UInt8.toNat (hfields _ _).2.2).trans (u32ToU7_toNat v))
  · exact congrArg some ((congrArg UInt8.toNat (hfields _ _).2.2).trans (u32ToU7_toNat v))
  · exact congrArg some ((congrArg UInt8.toNat (hfields _ _).2.2).trans (u32ToU7_toNat v))
  · exact congrArg some ((congrArg UInt8.toNat (hfields _ _).2.1).trans (u32ToU7_toNat v))
  · have hlt : (u32ToU14 v &&& mask14Bit).toNat < 2 ^ 14 := by
      rw [UInt16.toNat_and]
      exact Nat.and_lt_two_pow _ (by decide)
    apply congrArg some
    change (byteField _ 0).toNat * 2 ^ 7 + (byteField _ 8).toNat = _
    rw [(hfields _ _).2.1, (hfields _ _).2.2, pitchBend_toNat hlt, u32ToU14_toNat]
    rfl

/-- Both values are there, in order, and each one is nearest to what it was scaled from or the
largest there is. -/
structure ScalesDown (w0 v v' : UInt32) (n n' : Nat) : Prop where
  value : downscaled w0 v = some n
  value' : downscaled w0 v' = some n'
  monotone : n ≤ n'
  faithful : Saturating (halfStep (nibbleField w0 20)) (valueCount (nibbleField w0 20)) v.toNat n
  faithful' :
    Saturating (halfStep (nibbleField w0 20)) (valueCount (nibbleField w0 20)) v'.toNat n'

/-- Scaling down is monotone and accurate for the values more than half a step below the end of
the word, and for no others. -/
theorem downscaling_faithful_iff {w0 v v' : UInt32} (htype : messageType w0 = 0x4)
    (hstatus : ScaledStatus (nibbleField w0 20)) (hle : v ≤ v') :
    (∃ n n', ScalesDown w0 v v' n n') ↔ v'.toNat + halfStep (nibbleField w0 20) < 2 ^ 32 := by
  have hv := downscaled_eq htype hstatus v
  have hv' := downscaled_eq htype hstatus v'
  have hword := word_steps (nibbleField w0 20)
  have hhalf : 0 < halfStep (nibbleField w0 20) := by
    unfold halfStep
    split <;> decide
  have hcount : 1 < valueCount (nibbleField w0 20) := by
    unfold valueCount
    split <;> decide
  have hlt : ∀ u : UInt32, u.toNat <
      valueCount (nibbleField w0 20) * (2 * halfStep (nibbleField w0 20)) :=
    fun u => hword ▸ u.toNat_lt
  have hsaturating := fun u : UInt32 => saturating_roundedDown hhalf hcount (hlt u)
  rw [hword] at hsaturating
  constructor
  · rintro ⟨n, n', h⟩
    have hn' : roundedDown (halfStep (nibbleField w0 20)) (valueCount (nibbleField w0 20))
        v'.toNat = n' := Option.some.inj (hv'.symm.trans h.value')
    exact (hsaturating v').mp (hn' ▸ h.faithful')
  · intro hin
    have hle' : v.toNat ≤ v'.toNat := UInt32.le_iff_toNat_le.mp hle
    refine ⟨_, _, hv, hv', ?_, (hsaturating v).mpr (by omega), (hsaturating v').mpr hin⟩
    exact roundedDown_mono hle' (hword.symm ▸ hin)

theorem downscaling_faithful_half : ∃ n n', ScalesDown 0x40903C00 0x01000000 0x80000000 n n' :=
  (downscaling_faithful_iff rfl (by decide) (by decide)).mpr (by decide)

/-- A note on with full velocity gets the velocity zero. -/
theorem full_velocity_lost :
    ¬∀ w0 v v' : UInt32, messageType w0 = 0x4 → ScaledStatus (nibbleField w0 20) → v ≤ v' →
      ∃ n n', ScalesDown w0 v v' n n' := by
  intro h
  obtain ⟨n, n', hscales⟩ := h 0x40903C00 0xFFFFFFFF 0xFFFFFFFF rfl (by decide) (by decide)
  have hzero : downscaled 0x40903C00 0xFFFFFFFF = some 0 := by decide +kernel
  have hn : 0 = n := Option.some.inj (hzero.symm.trans hscales.value)
  have hlast := hscales.faithful.last (by decide)
  rw [← hn] at hlast
  exact absurd hlast (by decide)

end Values

end MidiFramework.Ump
