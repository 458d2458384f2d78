import MidiFramework.SharedRing.Basic
import MidiFramework.Ump.Packets

/-!
# Packing a system exclusive into packets

`SendSysEx` cuts a payload into packets of six bytes and packs each of them
into two words. The byte at the lowest address goes to the lowest lane of its
word.

## Implementation notes

`SendSysEx` accepts at most `MAX_SYSEX_BYTE_SIZE` bytes, so the offsets of
`PrepareSysExPackets` do not wrap and are natural numbers here.
-/

namespace MidiFramework.Client

open Foundation Ump SharedRing

/-- `MAX_PACKET_BYTES`. -/
def maxPacketBytes : Nat := 6

/-- `UMP_TYPE_3`. -/
def umpType3 : UInt32 := 0x3

/-- `UMP_MASK`. -/
def umpMask : UInt32 := 0xF

/-- `GetSysexStatus`. -/
def getSysexStatus (pktIndex totalPkts : Nat) : UInt8 :=
  if totalPkts = 1 then sysexStatusComplete
  else if pktIndex = 0 then sysexStatusStart
  else if pktIndex + 1 = totalPkts then sysexStatusEnd
  else sysexStatusContinue

/-- The byte at index `i`, where bytes past the end are zero. -/
def byteAt (bytes : List UInt8) (i : Nat) : UInt8 := bytes.getD i 0

/-- `PackSysEx7Ump64`. -/
def packSysEx7Ump64 (group status : UInt8) (bytes : List UInt8) : UInt32 × UInt32 :=
  let b (i : Nat) : UInt32 := (byteAt bytes i).toUInt32
  let nbytes : UInt32 := bytes.length.toUInt32
  let w0 := (umpType3 &&& umpMask) <<< 28 ||| (group.toUInt32 &&& umpMask) <<< 24 |||
    (status.toUInt32 &&& umpMask) <<< 20 ||| (nbytes &&& umpMask) <<< 16 |||
    b 0 <<< 0 ||| b 1 <<< 8
  let w1 := b 2 <<< 0 ||| b 3 <<< 8 ||| b 4 <<< 16 ||| b 5 <<< 24
  (w0, w1)

/-- The events of a system exclusive and the words they point at. -/
structure SysExPacketData where
  payloadWords : List (UInt32 × UInt32)
  innerEvents : List MidiEventInner

/-- The words of several packets, one packet after the other. -/
def pairWords (packets : List (UInt32 × UInt32)) : List UInt32 :=
  packets.flatMap fun packet => [packet.1, packet.2]

/-- The bytes of packet `i`. -/
def packetBytes (data : List UInt8) (i : Nat) : List UInt8 :=
  let offset := i * maxPacketBytes
  let remain := data.length - offset
  (data.drop offset).take (min maxPacketBytes remain)

/-- `PrepareSysExPackets`. -/
def prepareSysExPackets (group : UInt8) (data : List UInt8) (totalPkts : Nat) :
    SysExPacketData where
  payloadWords := (List.range totalPkts).map fun i =>
    packSysEx7Ump64 group (getSysexStatus i totalPkts) (packetBytes data i)
  innerEvents := (List.range totalPkts).map fun i =>
    let packet := packSysEx7Ump64 group (getSysexStatus i totalPkts) (packetBytes data i)
    { timestamp := 0, length := 2, data := some [packet.1, packet.2], covers := by simp }

/-- The number of packets `SendSysEx` asks for. -/
def sysExPacketCount (byteSize : Nat) : Nat := (byteSize + (maxPacketBytes - 1)) / maxPacketBytes

/-! ### The fields of a packet -/

section Packing

variable {group status : UInt8} {bytes : List UInt8}

theorem and_umpMask {x : UInt32} (h : x.toNat < 2 ^ 4) : x &&& umpMask = x := by
  apply UInt32.toNat_inj.mp
  rw [UInt32.toNat_and]
  exact (Nat.and_two_pow_sub_one_eq_mod _ 4).trans (Nat.mod_eq_of_lt h)

theorem or_swap_last (a b c : UInt32) : a ||| b ||| c = a ||| c ||| b := by
  rw [UInt32.or_assoc, UInt32.or_comm b c, UInt32.or_assoc]

theorem or_reverse (a b c d : UInt32) : a ||| b ||| c ||| d = d ||| c ||| b ||| a := by
  ac_rfl

theorem packSysEx7Ump64_eq (hgroup : group.toNat < 2 ^ 4) (hstatus : status.toNat < 2 ^ 4)
    (hlen : bytes.length ≤ 6) :
    packSysEx7Ump64 group status bytes =
      (headWord group status bytes.length.toUInt8 (byteAt bytes 1) (byteAt bytes 0),
        laneWord (byteAt bytes 5) (byteAt bytes 4) (byteAt bytes 3) (byteAt bytes 2)) := by
  have hn : bytes.length.toUInt32 = bytes.length.toUInt8.toUInt32 := by
    apply UInt32.toNat_inj.mp
    simp only [UInt8.toNat_toUInt32, Nat.toUInt8, Nat.toUInt32, UInt32.toNat_ofNat',
      UInt8.toNat_ofNat']
    omega
  have hcount : bytes.length.toUInt8.toNat < 2 ^ 4 := by
    simp only [Nat.toUInt8, UInt8.toNat_ofNat']
    omega
  have htype : (umpType3 &&& umpMask) <<< 28 = (0x3 : UInt32) <<< 28 := by decide
  unfold packSysEx7Ump64 headWord laneWord
  dsimp only
  rw [hn, htype, and_umpMask (by rwa [UInt8.toNat_toUInt32]),
    and_umpMask (by rwa [UInt8.toNat_toUInt32]), and_umpMask (by rwa [UInt8.toNat_toUInt32])]
  exact Prod.ext (or_swap_last _ _ _) (or_reverse _ _ _ _)

/-- The data bytes of a packet, in the order in which `ProcessUmpType3` reads them. -/
def lanes (bytes : List UInt8) : List UInt8 :=
  [byteAt bytes 1, byteAt bytes 0, byteAt bytes 5, byteAt bytes 4, byteAt bytes 3,
    byteAt bytes 2]

/-- What the fields of a packed packet are. -/
theorem packSysEx7Ump64_fields (hgroup : group.toNat < 2 ^ 4) (hstatus : status.toNat < 2 ^ 4)
    (hlen : bytes.length ≤ 6) :
    HeadFields (packSysEx7Ump64 group status bytes).1 status bytes.length.toUInt8
        (byteAt bytes 1) (byteAt bytes 0) ∧
      UmpProcessor.sysexData (packSysEx7Ump64 group status bytes).1
        (packSysEx7Ump64 group status bytes).2 = lanes bytes := by
  have hcount : bytes.length.toUInt8.toNat < 2 ^ 4 := by
    simp only [Nat.toUInt8, UInt8.toNat_ofNat']
    omega
  have hfields := headFields (byteAt bytes 1) (byteAt bytes 0) hgroup hstatus hcount
  rw [packSysEx7Ump64_eq hgroup hstatus hlen]
  exact ⟨hfields, hfields.sysexData _ _ _ _⟩

theorem getSysexStatus_lt (i total : Nat) : (getSysexStatus i total).toNat < 2 ^ 4 := by
  unfold getSysexStatus
  repeat' split
  all_goals decide

end Packing

end MidiFramework.Client
