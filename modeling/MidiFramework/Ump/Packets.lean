import MidiFramework.Ump.Processor

/-!
# The fields of a packet

A packet word is built from shifted fields that do not meet, so each field is
read back by its own shift and mask. What the processor makes of a packet
follows from its fields.
-/

namespace MidiFramework.Ump

open Foundation

/-! ### Words built from fields -/

section Words

variable {mt : UInt32} {group status count : UInt8} (d0 d1 d2 d3 : UInt8)

theorem toNat_laneWord :
    (laneWord d0 d1 d2 d3).toNat =
      d0.toNat * 2 ^ 24 + d1.toNat * 2 ^ 16 + d2.toNat * 2 ^ 8 + d3.toNat * 2 ^ 0 := by
  have h0 := toNat_field_shiftLeft (s := 24) (k := 24) rfl d0.toNat_lt (by decide) (by decide)
  have h1 := toNat_or_field (s := 16) (k := 16) h0 rfl d1.toNat_lt (by decide) (by decide)
    (by omega)
  have h2 := toNat_or_field (s := 8) (k := 8) h1 rfl d2.toNat_lt (by decide) (by decide)
    (by omega)
  exact toNat_or_field h2 rfl d3.toNat_lt (by decide) (by decide) (by omega)

theorem toNat_headWord (hgroup : group.toNat < 2 ^ 4) (hstatus : status.toNat < 2 ^ 4)
    (hcount : count.toNat < 2 ^ 4) :
    (headWord group status count d0 d1).toNat =
      3 * 2 ^ 28 + group.toNat * 2 ^ 24 + status.toNat * 2 ^ 20 + count.toNat * 2 ^ 16 +
        d0.toNat * 2 ^ 8 + d1.toNat * 2 ^ 0 := by
  have htop : ((0x3 : UInt32) <<< 28).toNat = 3 * 2 ^ 28 := rfl
  have h0 := toNat_or_field (s := 24) (k := 24) htop rfl hgroup (by decide) (by decide)
    (by omega)
  have h1 := toNat_or_field (s := 20) (k := 20) h0 rfl hstatus (by decide) (by decide)
    (by omega)
  have h2 := toNat_or_field (s := 16) (k := 16) h1 rfl hcount (by decide) (by decide)
    (by omega)
  have h3 := toNat_or_field (s := 8) (k := 8) h2 rfl d0.toNat_lt (by decide) (by decide)
    (by omega)
  exact toNat_or_field h3 rfl d1.toNat_lt (by decide) (by decide) (by omega)

theorem toNat_messageWord (status d0 d1 : UInt8) (hmt : (mt <<< 28).toNat = mt.toNat * 2 ^ 28)
    (hgroup : group.toNat < 2 ^ 4) :
    (messageWord mt group status d0 d1).toNat =
      mt.toNat * 2 ^ 28 + group.toNat * 2 ^ 24 + status.toNat * 2 ^ 16 + d0.toNat * 2 ^ 8 +
        d1.toNat * 2 ^ 0 := by
  have h0 := toNat_or_field (s := 24) (k := 24) hmt rfl hgroup (by decide) (by decide)
    (by omega)
  have h1 := toNat_or_field (s := 16) (k := 16) h0 rfl status.toNat_lt (by decide) (by decide)
    (by omega)
  have h2 := toNat_or_field (s := 8) (k := 8) h1 rfl d0.toNat_lt (by decide) (by decide)
    (by omega)
  exact toNat_or_field h2 rfl d1.toNat_lt (by decide) (by decide) (by omega)

/-! ### Reading the fields back -/

theorem byteField_eq {w shift : UInt32} {b : UInt8} {m k : Nat} (hk : shift.toNat = k)
    (hlt : k < 32) (hw : w.toNat = m) (h : m / 2 ^ k % 256 = b.toNat) : byteField w shift = b := by
  apply UInt8.toNat_inj.mp
  rw [byteField_toNat (hk ▸ hlt), hk, hw, h]

theorem nibbleField_eq {w shift : UInt32} {b : UInt8} {m k : Nat} (hk : shift.toNat = k)
    (hlt : k < 32) (hw : w.toNat = m) (h : m / 2 ^ k % 16 = b.toNat) : nibbleField w shift = b := by
  apply UInt8.toNat_inj.mp
  rw [nibbleField_toNat (hk ▸ hlt), hk, hw, h]

theorem byteField_laneWord :
    byteField (laneWord d0 d1 d2 d3) 24 = d0 ∧ byteField (laneWord d0 d1 d2 d3) 16 = d1 ∧
      byteField (laneWord d0 d1 d2 d3) 8 = d2 ∧ byteField (laneWord d0 d1 d2 d3) 0 = d3 := by
  have h0 := d0.toNat_lt
  have h1 := d1.toNat_lt
  have h2 := d2.toNat_lt
  have h3 := d3.toNat_lt
  refine ⟨?_, ?_, ?_, ?_⟩
  · exact byteField_eq (k := 24) rfl (by decide) (toNat_laneWord d0 d1 d2 d3) (by omega)
  · exact byteField_eq (k := 16) rfl (by decide) (toNat_laneWord d0 d1 d2 d3) (by omega)
  · exact byteField_eq (k := 8) rfl (by decide) (toNat_laneWord d0 d1 d2 d3) (by omega)
  · exact byteField_eq (k := 0) rfl (by decide) (toNat_laneWord d0 d1 d2 d3) (by omega)

/-- The fields of the first word of a data message. -/
structure HeadFields (w : UInt32) (status count d0 d1 : UInt8) : Prop where
  mt : messageType w = 0x3
  status : nibbleField w 20 = status
  count : nibbleField w 16 = count
  d0 : byteField w 8 = d0
  d1 : byteField w 0 = d1

theorem headFields (hgroup : group.toNat < 2 ^ 4) (hstatus : status.toNat < 2 ^ 4)
    (hcount : count.toNat < 2 ^ 4) :
    HeadFields (headWord group status count d0 d1) status count d0 d1 := by
  have hw := toNat_headWord d0 d1 hgroup hstatus hcount
  have h0 := d0.toNat_lt
  have h1 := d1.toNat_lt
  have h3 : (0x3 : UInt8).toNat = 3 := rfl
  constructor
  · exact nibbleField_eq (k := 28) rfl (by decide) hw (by omega)
  · exact nibbleField_eq (k := 20) rfl (by decide) hw (by omega)
  · exact nibbleField_eq (k := 16) rfl (by decide) hw (by omega)
  · exact byteField_eq (k := 8) rfl (by decide) hw (by omega)
  · exact byteField_eq (k := 0) rfl (by decide) hw (by omega)

/-- The fields of a message word. -/
structure MessageFields (w : UInt32) (mt status d0 d1 : UInt8) : Prop where
  mt : messageType w = mt
  status : byteField w 16 = status
  d0 : byteField w 8 = d0
  d1 : byteField w 0 = d1

theorem messageFields (status d0 d1 : UInt8) (hmt : (mt <<< 28).toNat = mt.toNat * 2 ^ 28)
    (hgroup : group.toNat < 2 ^ 4) :
    MessageFields (messageWord mt group status d0 d1) mt.toUInt8 status d0 d1 := by
  have hw := toNat_messageWord status d0 d1 hmt hgroup
  have h0 := d0.toNat_lt
  have h1 := d1.toNat_lt
  have h2 := status.toNat_lt
  have hlt := (messageWord mt group status d0 d1).toNat_lt
  have h3 : mt.toUInt8.toNat = mt.toNat % 256 := UInt32.toNat_toUInt8 mt
  constructor
  · exact nibbleField_eq (k := 28) rfl (by decide) hw (by omega)
  · exact byteField_eq (k := 16) rfl (by decide) hw (by omega)
  · exact byteField_eq (k := 8) rfl (by decide) hw (by omega)
  · exact byteField_eq (k := 0) rfl (by decide) hw (by omega)

theorem HeadFields.sysexData {w : UInt32} {status count a b : UInt8}
    (h : HeadFields w status count a b) (c d e f : UInt8) :
    UmpProcessor.sysexData w (laneWord c d e f) = [a, b, c, d, e, f] := by
  obtain ⟨hc, hd, he, hf⟩ := byteField_laneWord c d e f
  simp only [UmpProcessor.sysexData, h.d0, h.d1, hc, hd, he, hf]

end Words

namespace UmpProcessor

variable {p : UmpProcessor}

theorem group_lt (p : UmpProcessor) : p.group.toNat < 2 ^ 4 := by
  have h : p.group.toNat ≤ maxGroupId.toNat := UInt8.le_iff_toNat_le.mp p.validGroup
  have hmax : maxGroupId.toNat = 15 := rfl
  omega

/-! ### What the processor emits -/

theorem handleRealTime_of_le {byte : UInt8} (h : midiRealtimeStart ≤ byte) :
    p.handleRealTime byte = some ⟨[p.messagePacket 0x1 byte 0 0], p⟩ := by
  unfold handleRealTime messagePacket messageWord
  rw [if_neg (UInt8.not_lt.mpr h)]
  simp

theorem handleRealTime_of_lt {byte : UInt8} (h : byte < midiRealtimeStart) :
    p.handleRealTime byte = none := if_pos h

theorem dispatchSysExPacket_eq (statusCode : UInt8) {count : Nat} (hcount : count ≤ 6) :
    p.dispatchSysExPacket statusCode count = ⟨[p.sysexPacket statusCode count], p⟩ := by
  have hslot (i : Fin 6) (shift : UInt32) :
      (if i.val < count then p.sysexBuffer[i].toUInt32 <<< shift else 0) =
        (p.sysexSlot count i).toUInt32 <<< shift := by
    unfold sysexSlot
    split <;> simp
  have hsize : count.toUInt8.toUInt32 = count.toUInt32 := by
    apply UInt32.toNat_inj.mp
    simp only [UInt8.toNat_toUInt32, Nat.toUInt8, Nat.toUInt32]
    simp
    omega
  simp only [dispatchSysExPacket, sysexPacket, headWord, laneWord, hslot, hsize]

theorem dispatchChannelMessage_eq :
    p.dispatchChannelMessage =
      ⟨[p.messagePacket (if p.cvBuffer[0] < midiSystemCommonEnd then 0x2 else 0x1)
        p.cvBuffer[0] (p.messageData p.expectedLen).1 (p.messageData p.expectedLen).2], p⟩ := by
  unfold dispatchChannelMessage messagePacket messageWord messageData
  by_cases h1 : 1 ≤ p.expectedLen <;> by_cases h2 : p.expectedLen = 2 <;> simp [h1, h2]

/-! ### What `ProcessUmp` makes of a packet -/

theorem processUmp_nil : p.processUmp [] = .silent p := by
  unfold processUmp processUmpFrom
  rfl

theorem processUmp_system {word0 : UInt32} (h : messageType word0 = 0x1) (rest : List UInt32) :
    p.processUmp (word0 :: rest) =
      Emission.andThen ⟨processUmpType1 word0, p⟩ fun p => p.processUmp rest := by
  rw [processUmp, processUmpFrom, if_pos h]
  rfl

theorem processUmp_channel {word0 : UInt32} (h : messageType word0 = 0x2) (rest : List UInt32) :
    p.processUmp (word0 :: rest) =
      Emission.andThen ⟨processUmpType2 word0, p⟩ fun p => p.processUmp rest := by
  have hne : messageType word0 ≠ 0x1 := by
    rw [h]
    decide
  rw [processUmp, processUmpFrom, if_neg hne, if_pos h]
  rfl

theorem processUmp_data {word0 : UInt32} (h : messageType word0 = 0x3) (word1 : UInt32)
    (rest : List UInt32) :
    p.processUmp (word0 :: word1 :: rest) =
      (p.processUmpType3 word0 word1).andThen fun p => p.processUmp rest := by
  have h1 : messageType word0 ≠ 0x1 := by
    rw [h]
    decide
  have h2 : messageType word0 ≠ 0x2 := by
    rw [h]
    decide
  rw [processUmp, processUmpFrom, if_neg h1, if_neg h2, if_pos h]
  rfl

/-- Words that end where a packet ends, so that a call may be split after them. -/
def Framed (words : List UInt32) : Prop :=
  ∀ (p : UmpProcessor) (rest : List UInt32),
    p.processUmp (words ++ rest) = (p.processUmp words).andThen fun p => p.processUmp rest

theorem framed_nil : Framed [] := by
  intro p rest
  rw [processUmp_nil]
  rfl

theorem framed_system {word0 : UInt32} (h : messageType word0 = 0x1) : Framed [word0] := by
  intro p rest
  rw [List.singleton_append, processUmp_system h, processUmp_system h, Emission.andThen_assoc]
  simp only [processUmp_nil, Emission.silent_andThen]

theorem framed_channel {word0 : UInt32} (h : messageType word0 = 0x2) : Framed [word0] := by
  intro p rest
  rw [List.singleton_append, processUmp_channel h, processUmp_channel h, Emission.andThen_assoc]
  simp only [processUmp_nil, Emission.silent_andThen]

theorem framed_data {word0 : UInt32} (h : messageType word0 = 0x3) (word1 : UInt32) :
    Framed [word0, word1] := by
  intro p rest
  rw [List.cons_append, List.singleton_append, processUmp_data h, processUmp_data h,
    Emission.andThen_assoc]
  simp only [processUmp_nil, Emission.silent_andThen]

theorem Framed.append {xs ys : List UInt32} (hx : Framed xs) (hy : Framed ys) :
    Framed (xs ++ ys) := by
  intro p rest
  rw [List.append_assoc, hx, hx p ys, Emission.andThen_assoc]
  simp only [hy _ rest]

/-- How whole packets are grouped into calls does not matter. -/
theorem processUmp_calls (p : UmpProcessor) {calls : List (List UInt32)}
    (h : ∀ words ∈ calls, Framed words) :
    feed processUmp p calls = p.processUmp calls.flatten :=
  feed_flatten processUmp Framed (fun _ => processUmp_nil) (fun p _ rest hw => hw p rest) p h

/-- What a data message does, by its status and the bytes it carries. -/
def sysexEffect (p : UmpProcessor) (status : UInt8) (data : List UInt8) :
    Emission UmpProcessor UInt8 :=
  if status = sysexStatusComplete then
    ⟨midiSysexStart :: data ++ [midiSysexEnd], { p with reverseSysexActive := false }⟩
  else if status = sysexStatusStart then
    ⟨midiSysexStart :: data, { p with reverseSysexActive := true }⟩
  else if status = sysexStatusContinue then
    ⟨if p.reverseSysexActive then data else [], p⟩
  else if status = sysexStatusEnd then
    ⟨data ++ [midiSysexEnd], { p with reverseSysexActive := false }⟩
  else ⟨[], { p with reverseSysexActive := false }⟩

theorem processUmpType3_eq (word0 word1 : UInt32) :
    p.processUmpType3 word0 word1 =
      p.sysexEffect (nibbleField word0 20)
        ((sysexData word0 word1).take (nibbleField word0 16).toNat) := rfl

variable {data : List UInt8}

@[simp] theorem sysexEffect_complete :
    p.sysexEffect sysexStatusComplete data =
      ⟨midiSysexStart :: data ++ [midiSysexEnd], { p with reverseSysexActive := false }⟩ := rfl

@[simp] theorem sysexEffect_start :
    p.sysexEffect sysexStatusStart data =
      ⟨midiSysexStart :: data, { p with reverseSysexActive := true }⟩ := rfl

@[simp] theorem sysexEffect_continue :
    p.sysexEffect sysexStatusContinue data =
      ⟨if p.reverseSysexActive then data else [], p⟩ := rfl

@[simp] theorem sysexEffect_end :
    p.sysexEffect sysexStatusEnd data =
      ⟨data ++ [midiSysexEnd], { p with reverseSysexActive := false }⟩ := rfl

end UmpProcessor

end MidiFramework.Ump
