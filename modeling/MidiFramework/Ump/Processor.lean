import MidiFramework.Foundation.BitFields
import MidiFramework.Foundation.Transducer

/-!
# The UMP processor

`UmpProcessor` turns a MIDI 1.0 byte stream into UMP packets and UMP packets
into MIDI 1.0 bytes. The two directions share one object but no state. A
callback is modelled by the list of what it is given.

## Implementation notes

`cv_pos_`, `expected_len_` and `sysex_pos_` stay below 8 and are natural numbers
here. The index into the packet words is the remaining list; a packet that is
skipped leaves a count of words still to be passed over.
-/

namespace MidiFramework.Ump

open Foundation

/-- `MIDI_REALTIME_START`. -/
def midiRealtimeStart : UInt8 := 0xF8

/-- `MIDI_STATUS_START`. -/
def midiStatusStart : UInt8 := 0x80

/-- `MIDI_SYSEX_START`. -/
def midiSysexStart : UInt8 := 0xF0

/-- `MIDI_SYSEX_END`. -/
def midiSysexEnd : UInt8 := 0xF7

/-- `MIDI_SYSTEM_COMMON_END`. -/
def midiSystemCommonEnd : UInt8 := 0xF0

/-- `MIDI_STATUS_PROG_CHANGE`. -/
def midiStatusProgChange : UInt8 := 0xC0

/-- `MIDI_STATUS_CHAN_PRESSURE`. -/
def midiStatusChanPressure : UInt8 := 0xD0

/-- `SYSEX_STATUS_COMPLETE`. -/
def sysexStatusComplete : UInt8 := 0

/-- `SYSEX_STATUS_START`. -/
def sysexStatusStart : UInt8 := 1

/-- `SYSEX_STATUS_CONTINUE`. -/
def sysexStatusContinue : UInt8 := 2

/-- `SYSEX_STATUS_END`. -/
def sysexStatusEnd : UInt8 := 3

/-- `MAX_GROUP_ID`. -/
def maxGroupId : UInt8 := 0x0F

/-- `CV_BUFFER_SIZE`. -/
abbrev cvBufferSize : Nat := 3

/-- `SYSEX_BUFFER_SIZE`, which is also `SYSEX_DATA_BYTES_PER_PACKET`. -/
abbrev sysexBufferSize : Nat := 6

/-- `UmpPacket`: at most `MAX_WORD_COUNT` words. -/
structure UmpPacket where
  words : List UInt32
  atMost : words.length ≤ 4
  deriving DecidableEq, Repr

/-- The constructor from a list of words, which drops the words after the fourth. -/
def UmpPacket.ofWords (words : List UInt32) : UmpPacket :=
  ⟨words.take 4, List.length_take_le 4 words⟩

/-- The words of several packets, one packet after the other. -/
def packetWords (packets : List UmpPacket) : List UInt32 := packets.flatMap UmpPacket.words

/-- `UmpConverter::MessageType`. -/
def messageType (word0 : UInt32) : UInt8 := nibbleField word0 28

/-- `UMP_WORD_COUNT`, by message type. -/
def umpWordCount : List Nat := [1, 1, 1, 2, 2, 4, 1, 1, 2, 2, 2, 3, 3, 4, 4, 4]

/-- `UmpConverter::GetUmpWordCount`. -/
def getUmpWordCount (word0 : UInt32) : Nat :=
  if messageType word0 = 0xD then if nibbleField word0 20 < 8 then 2 else 4
  else umpWordCount.getD (messageType word0).toNat 0

structure UmpProcessor where
  group : UInt8
  cvBuffer : Vector UInt8 cvBufferSize
  cvPos : Nat
  runningStatus : UInt8
  expectedLen : Nat
  inSysex : Bool
  sysexBuffer : Vector UInt8 sysexBufferSize
  sysexPos : Nat
  sysexHasStarted : Bool
  reverseSysexActive : Bool
  validGroup : group ≤ maxGroupId
  deriving DecidableEq

namespace UmpProcessor

/-- The constructor. -/
def fresh : UmpProcessor where
  group := 0
  cvBuffer := Vector.replicate cvBufferSize 0
  cvPos := 0
  runningStatus := 0
  expectedLen := 0
  inSysex := false
  sysexBuffer := Vector.replicate sysexBufferSize 0
  sysexPos := 0
  sysexHasStarted := false
  reverseSysexActive := false
  validGroup := by decide

/-- `SetGroup`. -/
def setGroup (p : UmpProcessor) (group : UInt8) : UmpProcessor :=
  if h : group ≤ maxGroupId then { p with group := group, validGroup := h } else p

/-- `GetExpectedDataLength`. -/
def getExpectedDataLength (status : UInt8) : Nat :=
  if status < midiSystemCommonEnd then
    if status &&& 0xF0 = midiStatusProgChange ∨ status &&& 0xF0 = midiStatusChanPressure then 1
    else 2
  else if status = 0xF1 ∨ status = 0xF3 then 1
  else if status = 0xF2 then 2
  else 0

/-! ### From MIDI 1.0 bytes to packets -/

/-- `HandleRealTime`, with `none` for a byte it does not handle. -/
def handleRealTime (p : UmpProcessor) (byte : UInt8) :
    Option (Emission UmpProcessor UmpPacket) :=
  if byte < midiRealtimeStart then none
  else some ⟨[.ofWords [(0x1 : UInt32) <<< 28 ||| p.group.toUInt32 <<< 24 ||| byte.toUInt32 <<< 16]], p⟩

/-- `DispatchChannelMessage`. -/
def dispatchChannelMessage (p : UmpProcessor) : Emission UmpProcessor UmpPacket :=
  let status := p.cvBuffer[0]
  let mt : UInt32 := if status < midiSystemCommonEnd then 0x2 else 0x1
  let w0 := mt <<< 28 ||| p.group.toUInt32 <<< 24 ||| status.toUInt32 <<< 16
  let w1 := if 1 ≤ p.expectedLen then w0 ||| p.cvBuffer[1].toUInt32 <<< 8 else w0
  let w2 := if p.expectedLen = 2 then w1 ||| p.cvBuffer[2].toUInt32 <<< 0 else w1
  ⟨[.ofWords [w2]], p⟩

/-- `DispatchSysExPacket`. -/
def dispatchSysExPacket (p : UmpProcessor) (statusCode : UInt8) (byteCount : Nat) :
    Emission UmpProcessor UmpPacket :=
  let byte (i : Fin 6) (shift : UInt32) : UInt32 :=
    if i.val < byteCount then p.sysexBuffer[i].toUInt32 <<< shift else 0
  let w0 := (0x3 : UInt32) <<< 28 ||| p.group.toUInt32 <<< 24 ||| statusCode.toUInt32 <<< 20 |||
    byteCount.toUInt32 <<< 16 ||| byte 0 8 ||| byte 1 0
  let w1 := byte 2 24 ||| byte 3 16 ||| byte 4 8 ||| byte 5 0
  ⟨[.ofWords [w0, w1]], p⟩

/-- `ProcessSysExData`. -/
def processSysExData (p : UmpProcessor) (byte : UInt8) : Emission UmpProcessor UmpPacket :=
  let p := if h : p.sysexPos < sysexBufferSize then
      { p with sysexBuffer := p.sysexBuffer.set p.sysexPos byte h, sysexPos := p.sysexPos + 1 }
    else p
  if p.sysexPos = sysexBufferSize then
    let status := if p.sysexHasStarted then sysexStatusContinue else sysexStatusStart
    (p.dispatchSysExPacket status sysexBufferSize).andThen fun p =>
      .silent { p with sysexPos := 0, sysexHasStarted := true }
  else .silent p

/-- `FinalizeSysEx`. -/
def finalizeSysEx (p : UmpProcessor) : Emission UmpProcessor UmpPacket :=
  let status := if p.sysexHasStarted then sysexStatusEnd else sysexStatusComplete
  (p.dispatchSysExPacket status p.sysexPos).andThen fun p =>
    .silent { p with sysexPos := 0, sysexHasStarted := false }

/-- `HandleStatusByte`. -/
def handleStatusByte (p : UmpProcessor) (byte : UInt8) : Emission UmpProcessor UmpPacket :=
  let p := { p with cvPos := 0 }
  if byte = midiSysexStart then
    .silent { p with inSysex := true, sysexPos := 0, sysexHasStarted := false, runningStatus := 0 }
  else if byte = midiSysexEnd then
    if p.inSysex then
      p.finalizeSysEx.andThen fun p => .silent { p with inSysex := false, runningStatus := 0 }
    else .silent { p with runningStatus := 0 }
  else
    let p := { p with
      inSysex := false
      cvBuffer := p.cvBuffer.set 0 byte
      cvPos := 1
      expectedLen := getExpectedDataLength byte
      runningStatus := if byte < midiSystemCommonEnd then byte else 0 }
    if p.expectedLen = 0 then
      p.dispatchChannelMessage.andThen fun p => .silent { p with cvPos := 0 }
    else .silent p

/-- The end of `HandleChannelData`: a message that is complete is handed out. -/
def dispatchWhenComplete (p : UmpProcessor) : Emission UmpProcessor UmpPacket :=
  if p.cvPos = p.expectedLen + 1 then
    p.dispatchChannelMessage.andThen fun p => .silent { p with cvPos := 0 }
  else .silent p

/-- `HandleChannelData`. -/
def handleChannelData (p : UmpProcessor) (byte : UInt8) : Emission UmpProcessor UmpPacket :=
  if p.cvPos = 0 ∧ p.runningStatus ≠ 0 then
    dispatchWhenComplete { p with
      cvBuffer := (p.cvBuffer.set 0 p.runningStatus).set 1 byte
      cvPos := 2
      expectedLen := getExpectedDataLength p.runningStatus }
  else if h : 0 < p.cvPos ∧ p.cvPos < cvBufferSize then
    dispatchWhenComplete { p with
      cvBuffer := p.cvBuffer.set p.cvPos byte h.2
      cvPos := p.cvPos + 1 }
  else .silent p

/-- `HandleDataByte`. -/
def handleDataByte (p : UmpProcessor) (byte : UInt8) : Emission UmpProcessor UmpPacket :=
  if p.inSysex then p.processSysExData byte else p.handleChannelData byte

/-- What the loop of `ProcessBytes` does with a byte at or above `MIDI_STATUS_START`. -/
def handleHighByte (p : UmpProcessor) (byte : UInt8) : Emission UmpProcessor UmpPacket :=
  match p.handleRealTime byte with
  | some emitted => emitted
  | none => p.handleStatusByte byte

/-- `ProcessBytes`: of two high bytes in a row the first is passed over. -/
def processBytes (p : UmpProcessor) : List UInt8 → Emission UmpProcessor UmpPacket
  | [] => .silent p
  | [b] => if midiStatusStart ≤ b then p.handleHighByte b else p.handleDataByte b
  | b :: next :: rest =>
      if midiStatusStart ≤ b then
        if midiStatusStart ≤ next then
          (p.handleHighByte next).andThen fun p => processBytes p rest
        else (p.handleHighByte b).andThen fun p => processBytes p (next :: rest)
      else (p.handleDataByte b).andThen fun p => processBytes p (next :: rest)

/-! ### From packets to MIDI 1.0 bytes -/

/-- `ProcessUmpType1`: system common and real-time messages. -/
def processUmpType1 (word0 : UInt32) : List UInt8 :=
  let status := byteField word0 16
  let data1 := byteField word0 8
  let data2 := byteField word0 0
  if status = 0xF1 then [status, data1]
  else if status = 0xF2 then [status, data1, data2]
  else if status = 0xF3 then [status, data1]
  else if status = 0xF6 then [status]
  else if midiRealtimeStart ≤ status then [status]
  else []

/-- `ProcessUmpType2`: channel voice messages. -/
def processUmpType2 (word0 : UInt32) : List UInt8 :=
  let status := byteField word0 16
  let data1 := byteField word0 8
  let data2 := byteField word0 0
  if status &&& 0xF0 = midiStatusProgChange ∨ status &&& 0xF0 = midiStatusChanPressure then
    [status, data1]
  else [status, data1, data2]

/-- The data bytes of a packet of `ProcessUmpType3`. -/
def sysexData (word0 word1 : UInt32) : List UInt8 :=
  [byteField word0 8, byteField word0 0, byteField word1 24, byteField word1 16,
    byteField word1 8, byteField word1 0]

/-- `ProcessUmpType3`: the data messages of a system exclusive. -/
def processUmpType3 (p : UmpProcessor) (word0 word1 : UInt32) : Emission UmpProcessor UInt8 :=
  let status := nibbleField word0 20
  let count := nibbleField word0 16
  let data := (sysexData word0 word1).take count.toNat
  if status = sysexStatusComplete then
    ⟨midiSysexStart :: data ++ [midiSysexEnd], { p with reverseSysexActive := false }⟩
  else if status = sysexStatusStart then
    ⟨midiSysexStart :: data, { p with reverseSysexActive := true }⟩
  else if status = sysexStatusContinue then
    ⟨if p.reverseSysexActive then data else [], p⟩
  else if status = sysexStatusEnd then
    ⟨data ++ [midiSysexEnd], { p with reverseSysexActive := false }⟩
  else ⟨[], { p with reverseSysexActive := false }⟩

/-- The loop of `ProcessUmp`, with the number of words still to be passed over. -/
def processUmpFrom (p : UmpProcessor) : Nat → List UInt32 → Emission UmpProcessor UInt8
  | _, [] => .silent p
  | passing + 1, _ :: rest => processUmpFrom p passing rest
  | 0, word0 :: rest =>
      if messageType word0 = 0x1 then
        Emission.andThen ⟨processUmpType1 word0, p⟩ fun p => processUmpFrom p 0 rest
      else if messageType word0 = 0x2 then
        Emission.andThen ⟨processUmpType2 word0, p⟩ fun p => processUmpFrom p 0 rest
      else if messageType word0 = 0x3 then
        -- a packet cut off after its first word is read with a second word of zero
        (p.processUmpType3 word0 (rest.headD 0)).andThen fun p => processUmpFrom p 1 rest
      else processUmpFrom p (max 1 (getUmpWordCount word0) - 1) rest

/-- `ProcessUmp`. -/
def processUmp (p : UmpProcessor) (words : List UInt32) : Emission UmpProcessor UInt8 :=
  p.processUmpFrom 0 words

/-- `ProcessUmpPacket`. -/
def processUmpPacket (p : UmpProcessor) (packet : UmpPacket) : Emission UmpProcessor UInt8 :=
  p.processUmp packet.words

end UmpProcessor

/-! ### The packets that are emitted, by their fields -/

/-- The second word of a data message. -/
def laneWord (d0 d1 d2 d3 : UInt8) : UInt32 :=
  d0.toUInt32 <<< 24 ||| d1.toUInt32 <<< 16 ||| d2.toUInt32 <<< 8 ||| d3.toUInt32 <<< 0

/-- The first word of a data message. -/
def headWord (group status count d0 d1 : UInt8) : UInt32 :=
  (0x3 : UInt32) <<< 28 ||| group.toUInt32 <<< 24 ||| status.toUInt32 <<< 20 |||
    count.toUInt32 <<< 16 ||| d0.toUInt32 <<< 8 ||| d1.toUInt32 <<< 0

/-- The word of a message that has a status byte. -/
def messageWord (mt : UInt32) (group status d0 d1 : UInt8) : UInt32 :=
  mt <<< 28 ||| group.toUInt32 <<< 24 ||| status.toUInt32 <<< 16 ||| d0.toUInt32 <<< 8 |||
    d1.toUInt32 <<< 0

namespace UmpProcessor

/-- The packet of a message with a status byte. -/
def messagePacket (p : UmpProcessor) (mt : UInt32) (status d0 d1 : UInt8) : UmpPacket :=
  .ofWords [messageWord mt p.group status d0 d1]

/-- The byte of the buffer that a packet with `count` bytes carries at `i`. -/
def sysexSlot (p : UmpProcessor) (count : Nat) (i : Fin 6) : UInt8 :=
  if i.val < count then p.sysexBuffer[i] else 0

/-- The packet of a data message with the first `count` bytes of the buffer. -/
def sysexPacket (p : UmpProcessor) (statusCode : UInt8) (count : Nat) : UmpPacket :=
  .ofWords [headWord p.group statusCode count.toUInt8 (p.sysexSlot count 0) (p.sysexSlot count 1),
    laneWord (p.sysexSlot count 2) (p.sysexSlot count 3) (p.sysexSlot count 4)
      (p.sysexSlot count 5)]

/-- The data bytes of a message that takes `len` of them. -/
def messageData (p : UmpProcessor) (len : Nat) : UInt8 × UInt8 :=
  (if 1 ≤ len then p.cvBuffer[1] else 0, if len = 2 then p.cvBuffer[2] else 0)

/-- The state in which a message waits for its data. -/
def begun (p : UmpProcessor) (s : UInt8) : UmpProcessor :=
  { p with
    inSysex := false
    cvBuffer := p.cvBuffer.set 0 s
    cvPos := 1
    expectedLen := getExpectedDataLength s
    runningStatus := if s < midiSystemCommonEnd then s else 0 }

end UmpProcessor

end MidiFramework.Ump
