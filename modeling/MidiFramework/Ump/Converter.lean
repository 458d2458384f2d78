import MidiFramework.Ump.Framing

/-!
# Conversion between MIDI 1.0 and MIDI 2.0 packets

Channel voice messages change their form: the seven and fourteen bit values of
MIDI 1.0 are scaled up to 32 bits and rounded on the way down. System and data
messages are the same in both protocols.

## Implementation notes

A converter appends to its output or drops the packet; a result is the list of
the words appended, or `none` for a packet that is dropped.
-/

namespace MidiFramework.Ump

open Foundation UmpProcessor

/-- `UmpConverter::Direction`. -/
inductive Direction
  | midi1ToMidi2
  | midi2ToMidi1
  deriving DecidableEq

structure Midi2ChannelVoiceMsg where
  group : UInt8 := 0
  statusNibble : UInt8 := 0
  channel : UInt8 := 0
  data1 : UInt8 := 0
  data2 : UInt8 := 0
  value32 : UInt32 := 0

structure Midi1ChannelVoiceMsg where
  group : UInt8 := 0
  statusByte : UInt8 := 0
  data1 : UInt8 := 0
  data2 : UInt8 := 0

namespace UmpConverter

/-- `MASK_NIBBLE`. -/
def maskNibble : UInt8 := 0x0F

/-- `MASK_7BIT`. -/
def mask7Bit : UInt8 := 0x7F

/-- `MASK_14BIT`. -/
def mask14Bit : UInt16 := 0x3FFF

/-- `ROUND_U32_TO_U7`. -/
def roundU32ToU7 : UInt32 := (1 : UInt32) <<< (25 - 1 : UInt32)

/-- `ROUND_U32_TO_U14`. -/
def roundU32ToU14 : UInt32 := (1 : UInt32) <<< (18 - 1 : UInt32)

/-- `MIDI2_NOTE_ATTR_NONE`. -/
def midi2NoteAttrNone : UInt8 := 0

/-! ### Scaling -/

def u7ToU32 (v7 : UInt8) : UInt32 := v7.toUInt32 <<< 25

def u14ToU32 (v14 : UInt16) : UInt32 := v14.toUInt32 <<< 18

def u32ToU7 (v32 : UInt32) : UInt8 := ((v32 + roundU32ToU7) >>> 25).toUInt8

def u32ToU14 (v32 : UInt32) : UInt16 := ((v32 + roundU32ToU14) >>> 18).toUInt16

/-! ### Builders -/

def pushMidi2ChannelVoice (msg : Midi2ChannelVoiceMsg) : List UInt32 :=
  [(0x4 : UInt32) <<< 28 ||| (msg.group &&& maskNibble).toUInt32 <<< 24 |||
      (msg.statusNibble &&& maskNibble).toUInt32 <<< 20 |||
      (msg.channel &&& maskNibble).toUInt32 <<< 16 ||| msg.data1.toUInt32 <<< 8 |||
      msg.data2.toUInt32 <<< 0,
    msg.value32]

def pushMidi1ChannelVoice (msg : Midi1ChannelVoiceMsg) : List UInt32 :=
  [(0x2 : UInt32) <<< 28 ||| (msg.group &&& maskNibble).toUInt32 <<< 24 |||
    msg.statusByte.toUInt32 <<< 16 ||| msg.data1.toUInt32 <<< 8 ||| msg.data2.toUInt32 <<< 0]

/-! ### Channel voice messages -/

def convertMidi1ChannelVoiceToMidi2Inner (statusNibble data1 data2 : UInt8)
    (m : Midi2ChannelVoiceMsg) : Option (List UInt32) :=
  if statusNibble = 0x8 ∨ statusNibble = 0x9 then
    some (pushMidi2ChannelVoice { m with
      data1 := data1 &&& mask7Bit
      data2 := midi2NoteAttrNone
      value32 := u7ToU32 (data2 &&& mask7Bit) })
  else if statusNibble = 0xA then
    some (pushMidi2ChannelVoice { m with
      data1 := data1 &&& mask7Bit
      data2 := 0
      value32 := u7ToU32 (data2 &&& mask7Bit) })
  else if statusNibble = 0xB then
    some (pushMidi2ChannelVoice { m with
      data1 := data1
      data2 := 0
      value32 := u7ToU32 (data2 &&& mask7Bit) })
  else if statusNibble = 0xC then
    some (pushMidi2ChannelVoice { m with
      data1 := data1 &&& mask7Bit
      data2 := 0
      value32 := u7ToU32 (data1 &&& mask7Bit) })
  else if statusNibble = 0xD then
    some (pushMidi2ChannelVoice { m with
      data1 := 0
      data2 := 0
      value32 := u7ToU32 (data1 &&& mask7Bit) })
  else if statusNibble = 0xE then
    let lsb7 := (data1 &&& mask7Bit).toUInt16
    let msb7 := (data2 &&& mask7Bit).toUInt16
    let pb14 := msb7 <<< 7 ||| lsb7
    some (pushMidi2ChannelVoice { m with
      data1 := 0
      data2 := 0
      value32 := u14ToU32 (pb14 &&& mask14Bit) })
  else none

def convertMidi1ChannelVoiceToMidi2 (inWords : List UInt32) : Option (List UInt32) :=
  match inWords with
  | [w0] =>
      let status := byteField w0 16
      let statusNibble := (status >>> 4) &&& maskNibble
      convertMidi1ChannelVoiceToMidi2Inner statusNibble (byteField w0 8) (byteField w0 0)
        { group := nibbleField w0 24, statusNibble, channel := status &&& maskNibble }
  | _ => none

def convertMidi2ChannelVoiceToMidi1Inner (statusNibble data1 : UInt8) (w1 : UInt32)
    (m : Midi1ChannelVoiceMsg) : Option (List UInt32) :=
  if statusNibble = 0x8 ∨ statusNibble = 0x9 ∨ statusNibble = 0xA then
    some (pushMidi1ChannelVoice { m with
      data1 := data1 &&& mask7Bit
      data2 := u32ToU7 w1 &&& mask7Bit })
  else if statusNibble = 0xB then
    some (pushMidi1ChannelVoice { m with
      data1 := data1
      data2 := u32ToU7 w1 &&& mask7Bit })
  else if statusNibble = 0xC then
    some (pushMidi1ChannelVoice { m with
      data1 := data1 &&& mask7Bit
      data2 := 0 })
  else if statusNibble = 0xD then
    some (pushMidi1ChannelVoice { m with
      data1 := u32ToU7 w1 &&& mask7Bit
      data2 := 0 })
  else if statusNibble = 0xE then
    let pb14 := u32ToU14 w1 &&& mask14Bit
    some (pushMidi1ChannelVoice { m with
      data1 := (pb14 &&& mask7Bit.toUInt16).toUInt8
      data2 := ((pb14 >>> 7) &&& mask7Bit.toUInt16).toUInt8 })
  else none

def convertMidi2ChannelVoiceToMidi1 (inWords : List UInt32) : Option (List UInt32) :=
  match inWords with
  | [w0, w1] =>
      let statusNibble := nibbleField w0 20
      let channel := nibbleField w0 16
      convertMidi2ChannelVoiceToMidi1Inner statusNibble (byteField w0 8) w1
        { group := nibbleField w0 24
          statusByte := (statusNibble <<< 4) ||| (channel &&& maskNibble) }
  | _ => none

/-! ### Public entry -/

def convertOne (dir : Direction) (inWords : List UInt32) : Option (List UInt32) :=
  match inWords with
  | [] => none
  | w0 :: _ =>
      let mt := messageType w0
      if mt = 0x1 then
        if inWords.length ≠ 1 then none else some [w0]
      else if mt = 0x3 then
        if inWords.length % 2 ≠ 0 then none else some inWords
      else
        match dir with
        | .midi1ToMidi2 => if mt ≠ 0x2 then none else convertMidi1ChannelVoiceToMidi2 inWords
        | .midi2ToMidi1 => if mt ≠ 0x4 then none else convertMidi2ChannelVoiceToMidi1 inWords

def convertMidi1ToMidi2 (inWords : List UInt32) : Option (List UInt32) :=
  convertOne .midi1ToMidi2 inWords

def convertMidi2ToMidi1 (inWords : List UInt32) : Option (List UInt32) :=
  convertOne .midi2ToMidi1 inWords

end UmpConverter

end MidiFramework.Ump
