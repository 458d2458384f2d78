import MidiFramework.Foundation.ByteMemory
import MidiFramework.Foundation.Program
import MidiFramework.SharedRing.Basic

/-!
# The operations of the shared ring

Each function is a program over single loads and stores of the shared memory,
in the order of the source. Positions are the two words of the control header;
data offsets count from `ringBase_`. A `uint32_t` sum or difference is a
command of its own that carries the exact value, so wrap-around is visible.

## Implementation notes

A position store carries a note that says why the position moves. No response
depends on a note; the notes only name the steps of the protocol. Futex words
and wake-ups are not part of the ring's memory here, and a loop without a bound
in the source (`DrainToBatch`, the flush flag) takes the number of rounds it may
still run.
-/

namespace MidiFramework.SharedRing

open Foundation Program

/-- The two positions of `ControlHeader`. -/
inductive Position
  | readPosition
  | writePosition
  deriving DecidableEq, Repr

/-- Why a position is stored. -/
inductive Note
  | wrap
  | append (x : Record)
  | commit
  | reset
  deriving DecidableEq, Repr

/-- One access to the shared memory, or one `uint32_t` computation. -/
inductive RingCmd
  | loadPosition (p : Position)
  | storePosition (p : Position) (v : UInt32) (note : Note)
  | load32 (off : Nat)
  | load64 (off : Nat)
  | store32 (off : Nat) (v : UInt32)
  | store64 (off : Nat) (v : UInt64)
  | arith (exact : Int)
  | acquireFlushFlag
  | releaseFlushFlag
  | memset (len : Nat)

/-- Response types of the commands. -/
def RingCmd.Resp : RingCmd → Type
  | .loadPosition _ => UInt32
  | .load32 _ => UInt32
  | .load64 _ => UInt64
  | .acquireFlushFlag => Bool
  | _ => Unit

abbrev ringInterface : Interface := ⟨RingCmd, RingCmd.Resp⟩

abbrev RingProgram := Program ringInterface

/-- The part of the shared memory the ring operations use. -/
structure RingMemory where
  readPosition : UInt32
  writePosition : UInt32
  flushFlag : UInt32
  data : ByteMemory

/-- Sequentially consistent meaning of one access. -/
def exec : (c : RingCmd) → RingMemory → c.Resp × RingMemory
  | .loadPosition .readPosition, m => (m.readPosition, m)
  | .loadPosition .writePosition, m => (m.writePosition, m)
  | .storePosition .readPosition v _, m => ((), { m with readPosition := v })
  | .storePosition .writePosition v _, m => ((), { m with writePosition := v })
  | .load32 off, m => (m.data.load32 off, m)
  | .load64 off, m => (m.data.load64 off, m)
  | .store32 off v, m => ((), { m with data := m.data.store32 off v })
  | .store64 off v, m => ((), { m with data := m.data.store64 off v })
  | .arith _, m => ((), m)
  | .acquireFlushFlag, m =>
      if m.flushFlag = 0 then (true, { m with flushFlag := 1 }) else (false, m)
  | .releaseFlushFlag, m => ((), { m with flushFlag := 0 })
  | .memset len, m => ((), { m with data := m.data.clear len })

/-- Issue one access. -/
def access (c : RingCmd) : RingProgram c.Resp := perform (I := ringInterface) c

def loadPosition (p : Position) : RingProgram Nat := do
  let v ← access (.loadPosition p)
  return UInt32.toNat v

def storePosition (p : Position) (v : Nat) (note : Note) : RingProgram Unit :=
  access (.storePosition p (UInt32.ofNat v) note)

def load32 (off : Nat) : RingProgram UInt32 := access (.load32 off)

def load64 (off : Nat) : RingProgram UInt64 := access (.load64 off)

def store32 (off : Nat) (v : UInt32) : RingProgram Unit := access (.store32 off v)

def store64 (off : Nat) (v : UInt64) : RingProgram Unit := access (.store64 off v)

/-- `a - b` in `uint32_t`. -/
def sub32 (a b : Nat) : RingProgram Nat := do
  let _ ← access (.arith ((a : Int) - b))
  return wrap32 ((a : Int) - b)

/-- `a + b` in `uint32_t`. -/
def add32 (a b : Nat) : RingProgram Nat := do
  let _ ← access (.arith ((a : Int) + b))
  return wrap32 ((a : Int) + b)

section RingMath

def ringUsed (r w cap : Nat) : RingProgram Nat :=
  if r ≤ w then sub32 w r
  else do
    let gap ← sub32 r w
    sub32 cap gap

def ringFree (r w cap : Nat) : RingProgram Nat := do
  let used ← ringUsed r w cap
  let limit ← sub32 cap 1
  sub32 limit used

def isValidOffset (off cap : Nat) : Bool := decide (off < cap)

end RingMath

section HeaderFields

/-- Offsets of the fields of `ShmMidiEventHeader` from the header. -/
def timestampField (header : Nat) : Nat := header
def lengthField (header : Nat) : Nat := header + 8
def flagsField (header : Nat) : Nat := header + 12
def sequenceField (header : Nat) : Nat := header + 16
def payloadField (header : Nat) : Nat := header + sizeofEventHeader

/-- The value `seq` a writer computes from the word it finds in the sequence
field: an odd word is made even first. -/
def writerSequence (found : UInt32) : UInt32 :=
  if found &&& 1 ≠ 0 then found + seqWriteStartIncrement else found

end HeaderFields

section WriteSide

def validateWriteArgs (cap : Nat) (events : Option (List MidiEventInner)) (eventCount : Nat) :
    MidiStatusCode :=
  if eventCount = 0 then .ok
  else if events.isNone then .invalidArgument
  else if cap < sizeofEventHeader + 1 then .shmBroken
  else .ok

def validateOneEvent (cap : Nat) (event : MidiEventInner) : Bool :=
  event.data.isSome &&
    match getEventRecordSize event.length with
    | none => false
    | some size => decide (size ≤ wrap32 ((cap : Int) - 1))

/-- A valid event has its words behind the pointer, and `needed` is their record's size. -/
theorem validateOneEvent_size {cap : Nat} {event : MidiEventInner} {needed : Nat}
    (hvalid : validateOneEvent cap event = true)
    (hneeded : getEventRecordSize event.length = some needed) :
    needed = recordSize event.words.length ∧ event.words.length = event.length := by
  simp only [validateOneEvent, Bool.and_eq_true] at hvalid
  obtain ⟨ws, hws⟩ := Option.isSome_iff_exists.mp hvalid.1
  have hlen : event.words.length = event.length := by
    simp only [MidiEventInner.words, hws, Option.getD_some]
    exact event.covers ws hws
  exact ⟨hlen ▸ (getEventRecordSize_eq_some.mp hneeded).1, hlen⟩

/-- Mark the header as being written and return `seq`. -/
def beginSequence (header : Nat) : RingProgram UInt32 := do
  let found ← load32 (sequenceField header)
  let _ ← store32 (sequenceField header) (writerSequence found + seqWriteStartIncrement)
  return writerSequence found

/-- Returns whether the writer wrapped, and the updated `writeIndex`. -/
def updateWriteIndexIfNeed (cap writeIndex totalBytes : Nat) : RingProgram (Bool × Nat) := do
  let tail ← sub32 cap writeIndex
  if tail ≥ totalBytes then return (false, writeIndex)
  else
    let _ ← (if tail ≥ sizeofEventHeader then do
        let seq ← beginSequence writeIndex
        let _ ← store64 (timestampField writeIndex) 0
        let _ ← store32 (lengthField writeIndex) 0
        let _ ← store32 (flagsField writeIndex) flagWrap
        store32 (sequenceField writeIndex) (seq + seqWriteCompleteTotal)
      else return ())
    let _ ← storePosition .writePosition 0 .wrap
    return (true, 0)

/-- `memcpy_s` of the payload words. -/
def copyWords (off : Nat) : List UInt32 → RingProgram Unit
  | [] => return ()
  | w :: ws => do
      let _ ← store32 off w
      copyWords (off + 4) ws

def writeEvent (cap writeIndex : Nat) (event : MidiEventInner) : RingProgram Bool :=
  if writeIndex ≥ cap then return false
  else do
    let seq ← beginSequence writeIndex
    let _ ← store64 (timestampField writeIndex) event.timestamp
    let _ ← store32 (lengthField writeIndex) (UInt32.ofNat event.length)
    let _ ← store32 (flagsField writeIndex) flagNone
    let _ ← copyWords (payloadField writeIndex) event.words
    let _ ← store32 (sequenceField writeIndex) (seq + seqWriteCompleteTotal)
    return true

/-- Returns the status and the updated `writeIndex`. -/
def tryWriteOneEvent (cap : Nat) (event : MidiEventInner)
    (totalBytes readIndex writeIndex : Nat) : RingProgram (MidiStatusCode × Nat) :=
  if ¬ writeIndex < cap then return (.shmBroken, writeIndex)
  else do
    let freeSize ← ringFree readIndex writeIndex cap
    if ¬ freeSize ≥ totalBytes then return (.wouldBlock, writeIndex)
    else
      let wrapped ← updateWriteIndexIfNeed cap writeIndex totalBytes
      let writeIndex := wrapped.2
      let writeSize ← (if writeIndex < readIndex then do
          let gap ← sub32 readIndex writeIndex
          sub32 gap 1
        else sub32 cap writeIndex)
      if ¬ writeSize ≥ totalBytes then return (.wouldBlock, writeIndex)
      else
        let written ← writeEvent cap writeIndex event
        if !written then return (.shmBroken, writeIndex)
        else
          let next ← add32 writeIndex totalBytes
          let next := if next = cap then 0 else next
          let _ ← storePosition .writePosition next
            (.append ⟨writeIndex, event.timestamp, event.words⟩)
          return (.ok, next)

/-- The loop of `TryWriteEvents`; returns `localWritten`. -/
def writeLoop (cap : Nat) : List MidiEventInner → (readIndex writeIndex localWritten : Nat) →
    RingProgram Nat
  | [], _, _, localWritten => return localWritten
  | event :: rest, readIndex, writeIndex, localWritten =>
      if ¬ validateOneEvent cap event then return localWritten
      else
        match getEventRecordSize event.length with
        | none => return localWritten
        | some needed => do
            let ret ← tryWriteOneEvent cap event needed readIndex writeIndex
            if ret.1 ≠ .ok then return localWritten
            else
              let readIndex ← loadPosition .readPosition
              if !isValidOffset readIndex cap then return localWritten + 1
              else writeLoop cap rest readIndex ret.2 (localWritten + 1)

/-- The status, `*eventsWritten`, and whether the consumer was notified. -/
structure WriteResult where
  status : MidiStatusCode
  eventsWritten : Nat
  notified : Bool
  deriving DecidableEq, Repr

def tryWriteEvents (cap : Nat) (events : Option (List MidiEventInner)) (eventCount : Nat)
    (notify : Bool) : RingProgram WriteResult :=
  let status := validateWriteArgs cap events eventCount
  if status ≠ .ok then return ⟨status, 0, false⟩
  else do
    let readIndex ← loadPosition .readPosition
    let writeIndex ← loadPosition .writePosition
    if !isValidOffset readIndex cap || !isValidOffset writeIndex cap then
      return ⟨.shmBroken, 0, false⟩
    else
      let localWritten ← writeLoop cap ((events.getD []).take eventCount) readIndex writeIndex 0
      if localWritten = 0 then
        return ⟨if eventCount = 0 then .ok else .wouldBlock, 0, false⟩
      else
        return ⟨if localWritten = eventCount then .ok else .wouldBlock, localWritten, notify⟩

def tryWriteEvent (cap : Nat) (event : MidiEventInner) (notify : Bool) :
    RingProgram WriteResult :=
  tryWriteEvents cap (some [event]) 1 notify

end WriteSide

section ReadSide

/-- The local copy of a `ShmMidiEventHeader`. -/
structure EventHeader where
  timestamp : UInt64 := 0
  length : UInt32 := 0
  flags : UInt32 := 0
  sequence : UInt32 := 0
  deriving DecidableEq, Repr

/-- `PeekedEvent`; the payload pointer is an offset from `ringBase_`. -/
structure PeekedEvent where
  localHeader : EventHeader := {}
  payloadPtr : Option Nat := none
  beginOffset : Nat := 0
  endOffset : Nat := 0
  sequence : UInt32 := 0
  deriving DecidableEq, Repr

/-- The header and its sequence, or `none` when the read must be retried. -/
def readHeaderSafely (header : Nat) : RingProgram (Option (EventHeader × UInt32)) := do
  let seq1 ← load32 (sequenceField header)
  if seq1 = 0 then return none
  else if seq1 &&& 1 ≠ 0 then return none
  else
    let timestamp ← load64 (timestampField header)
    let length ← load32 (lengthField header)
    let flags ← load32 (flagsField header)
    let seq2 ← load32 (sequenceField header)
    if seq1 ≠ seq2 then return none
    else return some (⟨timestamp, length, flags, seq1⟩, seq1)

/-- The status and the updated `readIndex`; the position itself is not moved. -/
def updateReadIndexIfNeed (cap readIndex writeIndex : Nat) :
    RingProgram (MidiStatusCode × Nat) :=
  if !isValidOffset readIndex cap || !isValidOffset writeIndex cap then
    return (.shmBroken, readIndex)
  else if readIndex = writeIndex then return (.wouldBlock, readIndex)
  else do
    let tail ← sub32 cap readIndex
    if tail < sizeofEventHeader then
      if (0 : Nat) = writeIndex then return (.wouldBlock, 0) else return (.ok, 0)
    else return (.ok, readIndex)

/-- `wouldBlock` means that the header is no wrap marker. -/
def handleWrapIfNeeded (header : EventHeader) : RingProgram MidiStatusCode :=
  if header.flags &&& flagWrap = 0 then return .wouldBlock
  else if header.length ≠ 0 then return .shmBroken
  else do
    let _ ← storePosition .readPosition 0 .wrap
    return .ok

def buildPeekedEvent (cap : Nat) (header : EventHeader) (readIndex : Nat)
    (outEvent : PeekedEvent) : RingProgram (MidiStatusCode × PeekedEvent) :=
  match getEventRecordSize header.length.toNat with
  | none => return (.shmBroken, outEvent)
  | some needed => do
      let limit ← sub32 cap 1
      if needed > limit then return (.shmBroken, outEvent)
      else
        let recordEnd ← add32 readIndex needed
        if recordEnd > cap then return (.shmBroken, outEvent)
        else
          let gEnd := if recordEnd = cap then 0 else recordEnd
          return (.ok, { outEvent with
            payloadPtr := some (payloadField readIndex)
            beginOffset := readIndex
            endOffset := gEnd })

/-- The retry loop of `PeekNext`. -/
def peekLoop (cap : Nat) : (retryCount : Nat) → PeekedEvent →
    RingProgram (MidiStatusCode × PeekedEvent)
  | 0, outEvent => return (.wouldBlock, outEvent)
  | retryCount + 1, outEvent => do
      let readPosition ← loadPosition .readPosition
      let writeIndex ← loadPosition .writePosition
      let updated ← updateReadIndexIfNeed cap readPosition writeIndex
      if updated.1 ≠ .ok then return (updated.1, outEvent)
      else
        let readIndex := updated.2
        let read ← readHeaderSafely readIndex
        match read with
        | none => peekLoop cap retryCount outEvent
        | some (localHeader, seq) =>
            let ret ← handleWrapIfNeeded localHeader
            if ret = .ok then peekLoop cap retryCount outEvent
            else if ret = .shmBroken then return (ret, outEvent)
            else
              let outEvent := { outEvent with localHeader := localHeader, sequence := seq }
              let writeIndexNow ← loadPosition .writePosition
              if readIndex = writeIndexNow then peekLoop cap retryCount outEvent
              else buildPeekedEvent cap localHeader readIndex outEvent

def peekNext (cap : Nat) : RingProgram (MidiStatusCode × PeekedEvent) :=
  if ¬ cap ≥ sizeofEventHeader + 1 then return (.shmBroken, {})
  else peekLoop cap 3 {}

def commitRead (cap : Nat) (ev : PeekedEvent) : RingProgram Bool := do
  let currentSeq ← load32 (sequenceField ev.beginOffset)
  if currentSeq ≠ ev.sequence then return false
  else
    let recordEnd := if ev.endOffset ≥ cap then 0 else ev.endOffset
    let _ ← storePosition .readPosition recordEnd .commit
    return true

/-- `memcpy_s` of `n` payload words out of the ring. -/
def readWords (off : Nat) : Nat → RingProgram (List UInt32)
  | 0 => return []
  | n + 1 => do
      let w ← load32 off
      let ws ← readWords (off + 4) n
      return w :: ws

/-- A null payload pointer makes `memcpy_s` fail and leaves the resized buffer
as zeros. -/
def copyOut (ev : PeekedEvent) : RingProgram MidiEvent :=
  match ev.payloadPtr with
  | none => return ⟨ev.localHeader.timestamp, List.replicate ev.localHeader.length.toNat 0⟩
  | some payload => do
      let words ← readWords payload ev.localHeader.length.toNat
      return ⟨ev.localHeader.timestamp, words⟩

/-- The loop of `DrainToBatch` for at most `fuel` rounds: whether it ended by
itself, and the events put into the batch. -/
def drainLoop (cap maxEvents : Nat) : (fuel count : Nat) → RingProgram (Bool × List MidiEvent)
  | 0, _ => return (false, [])
  | fuel + 1, count =>
      if ¬ (maxEvents = 0 ∨ count < maxEvents) then return (true, [])
      else do
        let peeked ← peekNext cap
        if peeked.1 ≠ .ok then return (true, [])
        else
          let copied ← copyOut peeked.2
          let committed ← commitRead cap peeked.2
          if committed then
            let rest ← drainLoop cap maxEvents fuel (count + 1)
            return (rest.1, copied :: rest.2)
          else drainLoop cap maxEvents fuel count

def drainToBatch (cap maxEvents fuel : Nat) : RingProgram (Bool × List MidiEvent) :=
  drainLoop cap maxEvents fuel 0

/-- `Flush` with the number of tries for the flag that fit before the deadline. -/
def flush (cap : Nat) : (tries : Nat) → RingProgram Unit
  | 0 => return ()
  | tries + 1 => do
      let acquired : Bool ← access .acquireFlushFlag
      if acquired then
        let _ ← storePosition .readPosition 0 .reset
        let _ ← storePosition .writePosition 0 .reset
        let _ ← access (.memset cap)
        access .releaseFlushFlag
      else flush cap tries

end ReadSide

end MidiFramework.SharedRing
