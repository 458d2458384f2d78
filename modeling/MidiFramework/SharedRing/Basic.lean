import Mathlib.Data.Nat.Basic
import Mathlib.Tactic.Ring

/-!
# Sizes, capacities and events of the shared ring

A ring is a control header followed by `capacity_` bytes of data. An event is
stored as a record: a 24-byte header and the payload words, rounded up to the
alignment of the header. Lengths are in 32-bit words, offsets and sizes in
bytes.
-/

namespace MidiFramework.SharedRing

/-- `MidiStatusCode` of the ring operations. -/
inductive MidiStatusCode
  | ok
  | wouldBlock
  | invalidArgument
  | shmBroken
  | internalError
  deriving DecidableEq, Repr

/-- `sizeof(ControlHeader)`; the structure is aligned to a cache line. -/
def sizeofControlHeader : Nat := 64

/-- `sizeof(ShmMidiEventHeader)`. -/
def sizeofEventHeader : Nat := 24

/-- `alignof(ShmMidiEventHeader)`. -/
def alignofEventHeader : Nat := 8

/-- `MAX_MMAP_BUFFER_SIZE`. -/
def maxMmapBufferSize : Nat := 0x2000

/-- `SHM_EVENT_FLAG_NONE`. -/
def flagNone : UInt32 := 0

/-- `SHM_EVENT_FLAG_WRAP`. -/
def flagWrap : UInt32 := 1

/-- `SEQ_WRITE_START_INCREMENT`. -/
def seqWriteStartIncrement : UInt32 := 1

/-- `SEQ_WRITE_COMPLETE_TOTAL`. -/
def seqWriteCompleteTotal : UInt32 := 2

/-- The result of a `uint32_t` computation whose exact value is `x`. -/
def wrap32 (x : Int) : Nat := (x % 2 ^ 32).toNat

theorem wrap32_sub {a b : Nat} (hb : b ≤ a) (ha : a < 2 ^ 32) :
    wrap32 ((a : Int) - b) = a - b := by
  unfold wrap32
  omega

theorem wrap32_add {a b : Nat} (h : a + b < 2 ^ 32) : wrap32 ((a : Int) + b) = a + b := by
  unfold wrap32
  omega

def alignUpToHeader (value : Nat) : Nat :=
  if value % alignofEventHeader = 0 then value
  else value + (alignofEventHeader - value % alignofEventHeader)

/-- The size of a record with `wordCount` payload words, or `none` when the
size would not fit `size_t` or `uint32_t`. -/
def getEventRecordSize (wordCount : Nat) : Option Nat :=
  if wordCount > (2 ^ 64 - 1 - sizeofEventHeader - (alignofEventHeader - 1)) / 4 then none
  else
    let rawSize := sizeofEventHeader + wordCount * 4
    let alignedSize := alignUpToHeader rawSize
    if alignedSize > 2 ^ 32 - 1 then none else some alignedSize

/-- The bytes of a record with `wordCount` payload words. -/
def recordSize (wordCount : Nat) : Nat := 8 * ((wordCount + 1) / 2) + 24

theorem alignUpToHeader_eq (wordCount : Nat) :
    alignUpToHeader (sizeofEventHeader + wordCount * 4) = recordSize wordCount := by
  unfold alignUpToHeader recordSize
  split <;> simp only [sizeofEventHeader, alignofEventHeader] at * <;> omega

theorem payload_le_recordSize (wordCount : Nat) :
    24 + 4 * wordCount ≤ recordSize wordCount := by
  unfold recordSize
  omega

theorem getEventRecordSize_eq_some {wordCount size : Nat} :
    getEventRecordSize wordCount = some size ↔
      size = recordSize wordCount ∧ recordSize wordCount < 2 ^ 32 := by
  have hle := payload_le_recordSize wordCount
  have hlimit : (2 ^ 64 - 1 - sizeofEventHeader - (alignofEventHeader - 1)) / 4 =
      4611686018427387896 := rfl
  simp only [getEventRecordSize, hlimit, alignUpToHeader_eq]
  constructor
  · intro h
    split at h
    · simp at h
    · split at h
      · simp at h
      · rename_i hfit
        simp only [Option.some.injEq] at h
        exact ⟨h.symm, by omega⟩
  · rintro ⟨rfl, h⟩
    rw [if_neg (by omega), if_neg (by omega)]

theorem recordSize_dvd (wordCount : Nat) : 8 ∣ recordSize wordCount :=
  ⟨(wordCount + 1) / 2 + 3, by unfold recordSize; omega⟩

/-- The bytes in use between two positions. -/
def usedBytes (r w cap : Nat) : Nat := if r ≤ w then w - r else cap - (r - w)

/-- The bytes a writer may still use; one byte stays unused. -/
def freeBytes (r w cap : Nat) : Nat := cap - 1 - usedBytes r w cap

theorem usedBytes_lt {r w cap : Nat} (hr : r < cap) (hw : w < cap) :
    usedBytes r w cap < cap := by
  unfold usedBytes
  split <;> omega

/-- The check of `capacity_` and of the size of the mapping made by `Init`
and by the memory it maps. -/
def initAccepts (capacity : Nat) : Bool :=
  decide (capacity ≤ maxMmapBufferSize - sizeofControlHeader) &&
    decide (sizeofControlHeader + capacity ≤ maxMmapBufferSize) &&
    (decide (0 < sizeofControlHeader + capacity) &&
      decide (sizeofControlHeader + capacity < maxMmapBufferSize))

/-- A ring capacity that `Init` accepts. -/
structure Capacity where
  bytes : Nat
  accepted : initAccepts bytes = true

theorem Capacity.lt (cap : Capacity) : cap.bytes < 8128 := by
  have h := cap.accepted
  simp only [initAccepts, Bool.and_eq_true, decide_eq_true_eq] at h
  simp only [maxMmapBufferSize, sizeofControlHeader] at h
  omega

/-- `MidiEventInner`: a timestamp, a length in words and the data pointer. The
pointed-to buffer of a caller holds exactly `length` words. -/
structure MidiEventInner where
  timestamp : UInt64
  length : Nat
  data : Option (List UInt32)
  covers : ∀ ws, data = some ws → ws.length = length

namespace MidiEventInner

/-- An event whose buffer is the given list. -/
def ofWords (timestamp : UInt64) (ws : List UInt32) : MidiEventInner where
  timestamp := timestamp
  length := ws.length
  data := some ws
  covers := by simp

/-- The payload words the data pointer gives access to. -/
def words (e : MidiEventInner) : List UInt32 := e.data.getD []

end MidiEventInner

/-- `MidiEvent`: a timestamp and the words copied out of the ring. -/
structure MidiEvent where
  timestamp : UInt64
  words : List UInt32
  deriving DecidableEq, Repr

/-- What a reader should get for a written event. -/
def MidiEventInner.toMidiEvent (e : MidiEventInner) : MidiEvent := ⟨e.timestamp, e.words⟩

/-- A record of the ring: where its header is and what it holds. -/
structure Record where
  offset : Nat
  timestamp : UInt64
  words : List UInt32
  deriving DecidableEq, Repr

namespace Record

def size (x : Record) : Nat := recordSize x.words.length

def toMidiEvent (x : Record) : MidiEvent := ⟨x.timestamp, x.words⟩

end Record

end MidiFramework.SharedRing
