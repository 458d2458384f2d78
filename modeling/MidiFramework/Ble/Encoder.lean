import MidiFramework.Ump.Stream

/-!
# BLE packets

`EncodeEvent` puts a header byte and a timestamp byte before the bytes of an
event and repeats the timestamp byte before every later status byte. The
receiver passes over the header and takes the first of two high bytes in a row
for a timestamp. `EncodeEvents` puts several events, each with its own
timestamp, behind one header byte.
-/

namespace MidiFramework.Ble

open Foundation Ump UmpProcessor

/-- `BleMidiConstants::TIMESTAMP_MASK`. -/
def timestampMask : UInt16 := 0x1FFF

/-- `BleMidiConstants::NANOSECONDS_PER_MILLISECOND`. -/
def nanosecondsPerMillisecond : UInt64 := 1000000

/-- `GetBleTimestampMs`; `curNs` is what `GetCurNano` returns. -/
def getBleTimestampMs (eventTimestampNs : UInt64) (curNs : Int64) : UInt16 :=
  let ns := if eventTimestampNs ≠ 0 then eventTimestampNs
    else if curNs < 0 then 0 else curNs.toUInt64
  (ns / nanosecondsPerMillisecond &&& timestampMask.toUInt64).toUInt16

/-- The header byte of a BLE packet. -/
def headerByte (timestampMs : UInt16) : UInt8 :=
  let ts := timestampMs &&& timestampMask
  (0x80 : UInt8) ||| ((ts >>> 7) &&& 0x3F).toUInt8

/-- The timestamp byte of a BLE packet. -/
def timestampByte (timestampMs : UInt16) : UInt8 :=
  let ts := timestampMs &&& timestampMask
  (0x80 : UInt8) ||| (ts &&& 0x7F).toUInt8

/-- The loop of `EncodeEvent` over the bytes after the first one. -/
def stampStatusBytes (stamp : UInt8) : List UInt8 → List UInt8
  | [] => []
  | byte :: rest =>
      if byte &&& 0x80 ≠ 0 then stamp :: byte :: stampStatusBytes stamp rest
      else byte :: stampStatusBytes stamp rest

/-- `BleMidiPacketEncoder::EncodeEvent`. -/
def encodeEvent (midiData : List UInt8) (timestampMs : UInt16) : List UInt8 :=
  match midiData with
  | [] => []
  | first :: rest =>
      headerByte timestampMs :: timestampByte timestampMs :: first ::
        stampStatusBytes (timestampByte timestampMs) rest

/-- The loop of `EncodeEvents`, with `firstEvent`. -/
def encodeEventsFrom (firstEvent : Bool) : List (List UInt8 × UInt16) → List UInt8
  | [] => []
  | ([], _) :: rest => encodeEventsFrom firstEvent rest
  | (first :: bytes, timestampMs) :: rest =>
      (if firstEvent then [headerByte timestampMs] else []) ++
        timestampByte timestampMs :: first ::
          (stampStatusBytes (timestampByte timestampMs) bytes ++ encodeEventsFrom false rest)

/-- `BleMidiPacketEncoder::EncodeEvents`. -/
def encodeEvents (events : List (List UInt8 × UInt16)) : List UInt8 := encodeEventsFrom true events

/-- The bytes are none or begin with a status byte. -/
def BeginsWithStatus (midiData : List UInt8) : Prop := ∀ b ∈ midiData.head?, midiStatusStart ≤ b

section Parsing

variable {p : UmpProcessor} {stamp first d : UInt8}

theorem midiStatusStart_le_iff (b : UInt8) : b &&& 0x80 ≠ 0 ↔ midiStatusStart ≤ b := by
  have hlt := b.toNat_lt
  have hstart : midiStatusStart.toNat = 2 ^ 7 := rfl
  have hmask : (b &&& 0x80).toNat = (b.toNat.testBit 7).toNat * 2 ^ 7 := by
    rw [UInt8.toNat_and]
    exact Nat.and_two_pow b.toNat 7
  rw [UInt8.le_iff_toNat_le, ne_eq, ← UInt8.toNat_inj, hmask, hstart,
    Nat.testBit_eq_decide_div_mod_eq]
  by_cases hbit : b.toNat / 2 ^ 7 % 2 = 1
  · simp only [hbit, decide_true]
    simp
    omega
  · simp only [hbit, decide_false]
    simp
    omega

theorem timestampByte_high (timestampMs : UInt16) :
    midiStatusStart ≤ timestampByte timestampMs := by
  rw [UInt8.le_iff_toNat_le, timestampByte, UInt8.toNat_or]
  exact Nat.left_le_or

theorem stampStatusBytes_append (stamp : UInt8) (xs ys : List UInt8) :
    stampStatusBytes stamp (xs ++ ys) = stampStatusBytes stamp xs ++ stampStatusBytes stamp ys := by
  induction xs with
  | nil => rfl
  | cons byte xs ih =>
      rw [List.cons_append, stampStatusBytes, stampStatusBytes, ih]
      split <;> rfl

theorem length_stampStatusBytes_status (hfirst : midiStatusStart ≤ first) (rest : List UInt8) :
    (stampStatusBytes stamp (first :: rest)).length =
      (stampStatusBytes stamp rest).length + 2 := by
  rw [stampStatusBytes, if_pos ((midiStatusStart_le_iff first).mpr hfirst)]
  rfl

theorem length_stampStatusBytes_data {data : List UInt8} (hdata : ∀ d ∈ data, d < midiStatusStart) :
    (stampStatusBytes stamp data).length = data.length := by
  induction data with
  | nil => rfl
  | cons d data ih =>
      obtain ⟨hd, hrest⟩ := List.forall_mem_cons.mp hdata
      have hlow := (midiStatusStart_le_iff d).not.mpr (UInt8.not_le.mpr hd)
      rw [stampStatusBytes, if_neg hlow, List.length_cons, ih hrest, List.length_cons]

/-- A BLE packet is its header byte and the bytes of the event, each status byte with a timestamp
byte before it. -/
theorem length_encodeEvent (hfirst : midiStatusStart ≤ first) (rest : List UInt8)
    (timestampMs : UInt16) : (encodeEvent (first :: rest) timestampMs).length =
      1 + (stampStatusBytes (timestampByte timestampMs) (first :: rest)).length := by
  rw [length_stampStatusBytes_status hfirst]
  simp [encodeEvent]
  omega

theorem processBytes_data (hd : d < midiStatusStart) (rest : List UInt8) :
    p.processBytes (d :: rest) = (p.handleByte d).andThen fun p => p.processBytes rest := by
  have hlow : ¬ midiStatusStart ≤ d := UInt8.not_le.mpr hd
  rw [handleByte_data hd]
  cases rest with
  | nil =>
      rw [processBytes, if_neg hlow]
      exact (Emission.andThen_silent _).symm
  | cons next rest => rw [processBytes, if_neg hlow]

/-- The first of two high bytes in a row is not handled. -/
theorem processBytes_stamp (hstamp : midiStatusStart ≤ stamp) (hfirst : midiStatusStart ≤ first)
    (rest : List UInt8) :
    p.processBytes (stamp :: first :: rest) =
      (p.handleByte first).andThen fun p => p.processBytes rest := by
  rw [processBytes, if_pos hstamp, if_pos hfirst, handleByte, if_pos hfirst]

/-- What stands behind a stamped event is handled in the state that the event leaves. -/
theorem processBytes_stamped (hstamp : midiStatusStart ≤ stamp) (bytes rest : List UInt8) :
    p.processBytes (stampStatusBytes stamp bytes ++ rest) =
      (feed handleByte p bytes).andThen fun p => p.processBytes rest := by
  induction bytes generalizing p with
  | nil => rfl
  | cons byte bytes ih =>
      rw [stampStatusBytes, feed_cons, Emission.andThen_assoc]
      by_cases hhigh : midiStatusStart ≤ byte
      · rw [if_pos ((midiStatusStart_le_iff byte).mpr hhigh), List.cons_append, List.cons_append,
          processBytes_stamp hstamp hhigh]
        simp only [ih]
      · rw [if_neg ((midiStatusStart_le_iff byte).not.mpr hhigh), List.cons_append,
          processBytes_data (UInt8.not_le.mp hhigh)]
        simp only [ih]

theorem processBytes_stampStatusBytes (hstamp : midiStatusStart ≤ stamp) (bytes : List UInt8) :
    p.processBytes (stampStatusBytes stamp bytes) = feed handleByte p bytes := by
  have hstamped := processBytes_stamped (p := p) hstamp bytes []
  rw [List.append_nil] at hstamped
  rw [hstamped]
  exact Emission.andThen_silent _

/-- When the bytes of a packet begin with a status byte, the receiver handles exactly these
bytes. -/
theorem processBytes_encodeEvent (hfirst : midiStatusStart ≤ first) (rest : List UInt8)
    (timestampMs : UInt16) :
    p.processBytes ((encodeEvent (first :: rest) timestampMs).drop 1) =
      feed handleByte p (first :: rest) := by
  have hstamp := timestampByte_high timestampMs
  change p.processBytes (timestampByte timestampMs :: first :: stampStatusBytes _ rest) = _
  rw [processBytes_stamp hstamp hfirst, feed_cons]
  simp only [processBytes_stampStatusBytes hstamp]

theorem processBytes_encodeEventsFrom {events : List (List UInt8 × UInt16)}
    (hevents : ∀ event ∈ events, BeginsWithStatus event.1) :
    p.processBytes (encodeEventsFrom false events) = feed handleByte p (events.flatMap Prod.fst) := by
  induction events generalizing p with
  | nil => rfl
  | cons event events ih =>
      obtain ⟨hevent, hrest⟩ := List.forall_mem_cons.mp hevents
      obtain ⟨midiData, timestampMs⟩ := event
      rw [List.flatMap_cons]
      cases midiData with
      | nil => exact ih hrest
      | cons first bytes =>
          have hstamp := timestampByte_high timestampMs
          rw [encodeEventsFrom, if_neg Bool.false_ne_true, List.nil_append,
            processBytes_stamp hstamp (hevent first rfl), List.cons_append, feed_cons]
          simp only [processBytes_stamped hstamp, feed_append, ih hrest]

/-- Without the header byte a packet of several events is as if every event had been encoded
without one. -/
theorem encodeEventsFrom_drop (events : List (List UInt8 × UInt16)) :
    (encodeEventsFrom true events).drop 1 = encodeEventsFrom false events := by
  induction events with
  | nil => rfl
  | cons event events ih =>
      obtain ⟨midiData, timestampMs⟩ := event
      cases midiData with
      | nil => exact ih
      | cons first bytes => rfl

/-- The receiver handles exactly the bytes of the events, whatever their timestamps are. -/
theorem timestamps_invisible :
    (∀ (p : UmpProcessor) (timestampMs : UInt16) (midiData : List UInt8),
      BeginsWithStatus midiData →
        p.processBytes ((encodeEvent midiData timestampMs).drop 1) = feed handleByte p midiData) ∧
    ∀ (p : UmpProcessor) (events : List (List UInt8 × UInt16)),
      (∀ event ∈ events, BeginsWithStatus event.1) →
        p.processBytes ((encodeEvents events).drop 1) =
          feed handleByte p (events.flatMap Prod.fst) := by
  refine ⟨fun p timestampMs midiData hbegins => ?_, fun p events hbegins => ?_⟩
  · cases midiData with
    | nil => rfl
    | cons first rest => exact processBytes_encodeEvent (hbegins first rfl) rest timestampMs
  · rw [encodeEvents, encodeEventsFrom_drop, processBytes_encodeEventsFrom hbegins]

/-- A note, a clock inside a message and an empty event. -/
theorem timestamps_invisible_note :
    (UmpProcessor.fresh.processBytes ((encodeEvent [0x90, 0x3C, 0xF8, 0x64] 0x1FFF).drop 1) =
      feed handleByte fresh [0x90, 0x3C, 0xF8, 0x64]) ∧
    UmpProcessor.fresh.processBytes
        ((encodeEvents [([0x90, 0x3C, 0x64], 0x0078), ([], 5), ([0xF8, 0xC0, 0x07], 0x1F80)]).drop 1) =
      feed handleByte fresh [0x90, 0x3C, 0x64, 0xF8, 0xC0, 0x07] :=
  ⟨timestamps_invisible.1 fresh 0x1FFF [0x90, 0x3C, 0xF8, 0x64] (by simp [BeginsWithStatus]; decide),
    timestamps_invisible.2 fresh _ (by simp [BeginsWithStatus]; decide)⟩

end Parsing

end MidiFramework.Ble
