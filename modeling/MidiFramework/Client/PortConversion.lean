import MidiFramework.SharedRing.Code
import MidiFramework.Ump.Downscaling

/-!
# Conversion at the ports

A port between an application and a device of different protocols converts on
the way. The input port splits the drained events into packets and converts them
one by one; the output port converts whole events before they go to the ring.

## Implementation notes

An event that `Send` hands over points into a buffer of its own, and its length
is set apart from the buffer, so both are kept. The ring reads as many words as
the length says; when the buffer is shorter there is no event to write.
-/

namespace MidiFramework.Client

open Foundation Ump UmpConverter SharedRing

inductive ProtocolDirection
  | none
  | midi1ToMidi2
  | midi2ToMidi1
  deriving DecidableEq

/-- The part of `OH_MIDIStatusCode` that the output port answers with. -/
inductive OHMIDIStatusCode
  | ok
  | genericInvalidArgument
  | wouldBlock
  | timeout
  | systemError
  deriving DecidableEq

def getStatusCode : MidiStatusCode → OHMIDIStatusCode
  | .ok => .ok
  | .wouldBlock => .wouldBlock
  | _ => .systemError

/-! ### Input -/

namespace MidiInputPort

/-- The event that goes to the callback for a packet. -/
def callbackEvent (direction : ProtocolDirection) (timestamp : UInt64) (packet : List UInt32) :
    MidiEvent :=
  match direction with
  | .none => ⟨timestamp, packet⟩
  | .midi1ToMidi2 => ⟨timestamp, (convertMidi1ToMidi2 packet).getD packet⟩
  | .midi2ToMidi1 => ⟨timestamp, (convertMidi2ToMidi1 packet).getD packet⟩

/-- What `DrainRingAndDispatch` calls the callback with after it drained the events. -/
def drainRingAndDispatch (direction : ProtocolDirection) (midiEvents : List MidiEvent) :
    Option (List MidiEvent) :=
  if midiEvents.isEmpty then none
  else
    let callbackEvents := midiEvents.flatMap fun event =>
      (splitUmpPackets event.words).map (callbackEvent direction event.timestamp)
    if callbackEvents.isEmpty then none else some callbackEvents

/-- The events of the callback, none where it is not called. -/
def received (direction : ProtocolDirection) (midiEvents : List MidiEvent) : List MidiEvent :=
  (drainRingAndDispatch direction midiEvents).getD []

theorem received_eq (direction : ProtocolDirection) (midiEvents : List MidiEvent) :
    received direction midiEvents = midiEvents.flatMap fun event =>
      (splitUmpPackets event.words).map (callbackEvent direction event.timestamp) := by
  unfold received drainRingAndDispatch
  dsimp only
  split
  · next h =>
      rw [List.isEmpty_iff.mp h]
      rfl
  split
  · next h => exact (List.isEmpty_iff.mp h).symm
  · rfl

end MidiInputPort

section Midi1View

variable {midiEvents : List MidiEvent}

/-- The packets of the events, each with the timestamp of its event. -/
def splitEvents (midiEvents : List MidiEvent) : List MidiEvent :=
  midiEvents.flatMap fun event => (splitUmpPackets event.words).map (MidiEvent.mk event.timestamp)

/-- A packet in its MIDI 1.0 form. -/
def midi1Event (packet : MidiEvent) : Option MidiEvent :=
  (convertMidi2ToMidi1 packet.words).map (MidiEvent.mk packet.timestamp)

/-- An application with MIDI 1.0 receives the packets that have a MIDI 1.0 form, in that form, and
nothing else. -/
structure Midi1View (midiEvents received : List MidiEvent) : Prop where
  entries : received = (splitEvents midiEvents).filterMap midi1Event
  types : ∀ entry ∈ received, ∃ w ∈ entry.words.head?,
    messageType w ∈ ([0x0, 0x1, 0x2, 0x3] : List UInt8)

theorem messageType_of_convert {words out : List UInt32}
    (h : convertMidi2ToMidi1 words = some out) :
    ∃ w ∈ out.head?, messageType w ∈ ([0x0, 0x1, 0x2, 0x3] : List UInt8) := by
  cases downgraded_of_convert h with
  | system htype => exact ⟨_, rfl, by simp [htype]⟩
  | data htype heven => exact ⟨_, rfl, by simp [htype]⟩
  | voice htype htype' => exact ⟨_, rfl, by simp [htype']⟩

theorem received_midi2ToMidi1 (midiEvents : List MidiEvent) :
    MidiInputPort.received .midi2ToMidi1 midiEvents =
      (splitEvents midiEvents).map fun packet =>
        MidiInputPort.callbackEvent .midi2ToMidi1 packet.timestamp packet.words := by
  rw [MidiInputPort.received_eq, splitEvents, List.map_flatMap]
  simp only [List.map_map, Function.comp_def]

theorem isPacket_of_mem_splitEvents {packet : MidiEvent} (h : packet ∈ splitEvents midiEvents) :
    IsPacket packet.words := by
  obtain ⟨event, hevent, hmem⟩ := List.mem_flatMap.mp h
  obtain ⟨words, hwords, rfl⟩ := List.mem_map.mp hmem
  exact (splitUmpPackets_covers event.words).1 words hwords

/-- The callback sees the events as MIDI 1.0 exactly if every packet in them has a MIDI 1.0 form;
the others are passed on raw. -/
theorem midi1View_iff (midiEvents : List MidiEvent) :
    Midi1View midiEvents (MidiInputPort.received .midi2ToMidi1 midiEvents) ↔
      ∀ event ∈ midiEvents, ∀ packet ∈ splitUmpPackets event.words, HasMidi1Form packet := by
  have hall : (∀ event ∈ midiEvents, ∀ packet ∈ splitUmpPackets event.words, HasMidi1Form packet) ↔
      ∀ packet ∈ splitEvents midiEvents, HasMidi1Form packet.words := by
    simp only [splitEvents, List.mem_flatMap, List.mem_map]
    constructor
    · rintro h _ ⟨event, hevent, packet, hpacket, rfl⟩
      exact h event hevent packet hpacket
    · intro h event hevent packet hpacket
      exact h ⟨event.timestamp, packet⟩ ⟨event, hevent, packet, hpacket, rfl⟩
  rw [hall, received_midi2ToMidi1]
  constructor
  · intro h packet hpacket
    have hsome := List.filterMap_eq_map_iff_forall_eq_some.mp h.entries.symm packet hpacket
    obtain ⟨out, hout, -⟩ := Option.map_eq_some_iff.mp hsome
    exact (convertMidi2ToMidi1_isSome (isPacket_of_mem_splitEvents hpacket)).mp
      (Option.isSome_iff_exists.mpr ⟨out, hout⟩)
  · intro h
    have hconvert : ∀ packet ∈ splitEvents midiEvents, ∃ out,
        convertMidi2ToMidi1 packet.words = some out := fun packet hpacket =>
      Option.isSome_iff_exists.mp <|
        (convertMidi2ToMidi1_isSome (isPacket_of_mem_splitEvents hpacket)).mpr (h packet hpacket)
    constructor
    · apply (List.filterMap_eq_map_iff_forall_eq_some.mpr _).symm
      intro packet hpacket
      obtain ⟨out, hout⟩ := hconvert packet hpacket
      rw [midi1Event, MidiInputPort.callbackEvent, hout]
      rfl
    · intro entry hentry
      obtain ⟨packet, hpacket, rfl⟩ := List.mem_map.mp hentry
      obtain ⟨out, hout⟩ := hconvert packet hpacket
      have htypes := messageType_of_convert hout
      rw [MidiInputPort.callbackEvent, hout]
      exact htypes

/-- A registered per-note controller has no MIDI 1.0 form; the callback gets its two words. -/
theorem perNote_controller_raw :
    ¬∀ midiEvents : List MidiEvent,
      Midi1View midiEvents (MidiInputPort.received .midi2ToMidi1 midiEvents) := by
  intro h
  have hpacket : IsPacket [0x40003C00, 0] := ⟨_, _, rfl, by decide⟩
  have hsplit : splitUmpPackets [[0x40003C00, 0]].flatten = [[0x40003C00, 0]] :=
    splitUmpPackets_flatten (by simpa using hpacket)
  have hmem : ⟨7, [0x40003C00, 0]⟩ ∈
      MidiInputPort.received .midi2ToMidi1 [⟨7, [[0x40003C00, 0]].flatten⟩] := by
    rw [MidiInputPort.received_eq, List.flatMap_singleton, hsplit]
    exact List.mem_singleton.mpr rfl
  obtain ⟨w, hw, htype⟩ := (h _).types _ hmem
  obtain rfl : 0x40003C00 = w := Option.some.inj hw
  exact absurd htype (by decide +kernel)

end Midi1View

/-! ### Output -/

/-- What `Send` fills in for an event; nothing ties the length to the buffer. -/
structure HandedEvent where
  timestamp : UInt64
  length : Nat
  data : Option (List UInt32)

/-- The event that the ring reads, unless the length leads past the end of the buffer. -/
def HandedEvent.readable (handed : HandedEvent) : Option MidiEventInner :=
  match handed.data with
  | none => some { timestamp := handed.timestamp, length := handed.length, data := none
                   covers := by simp }
  | some buffer =>
      if h : handed.length ≤ buffer.length then
        some { timestamp := handed.timestamp, length := handed.length
               data := some (buffer.take handed.length), covers := by simp [h] }
      else none

namespace MidiOutputPort

/-- `MAX_EVENTS_NUMS`. -/
def maxEventsNums : Nat := 1000

/-- `innerEvents[i]` at the end of round `i` of the loop. -/
def innerEvent (direction : ProtocolDirection) (event : MidiEventInner) : HandedEvent :=
  let inner : HandedEvent := ⟨event.timestamp, event.length, event.data⟩
  if direction = .midi2ToMidi1 then
    match convertMidi2ToMidi1 event.words with
    | none => inner
    | some out => { inner with data := some out }
  else inner

/-- The events that `Send` hands to the ring, after the checks of its arguments. -/
def sendArguments (direction : ProtocolDirection) (events : Option (List MidiEventInner))
    (eventCount : Nat) (eventsWritten : Bool) : Except OHMIDIStatusCode (List HandedEvent) :=
  match events with
  | none => .error .genericInvalidArgument
  | some events =>
      if !eventsWritten then .error .genericInvalidArgument
      else if ¬(0 < eventCount ∧ eventCount ≤ maxEventsNums) then .error .genericInvalidArgument
      else .ok ((events.take eventCount).map (innerEvent direction))

/-- `Send`: the status and `*eventsWritten`; there is no result if the ring would read past the end
of a buffer. -/
def send (direction : ProtocolDirection) (cap : Nat) (notify : Bool)
    (events : Option (List MidiEventInner)) (eventCount : Nat) (eventsWritten : Bool) :
    Option (RingProgram (OHMIDIStatusCode × Nat)) :=
  match sendArguments direction events eventCount eventsWritten with
  | .error status => some (return (status, 0))
  | .ok handed =>
      (handed.mapM HandedEvent.readable).map fun innerEvents => do
        let ret ← tryWriteEvents cap (some innerEvents) eventCount notify
        return (getStatusCode ret.status, ret.eventsWritten)

end MidiOutputPort

section ConvertedSend

variable {direction : ProtocolDirection} {events : List MidiEventInner}

/-- The event that should go to the ring: the converted packet, where there is one. -/
def convertedEvent (direction : ProtocolDirection) (event : MidiEventInner) : MidiEventInner :=
  if direction = .midi2ToMidi1 then
    match convertMidi2ToMidi1 event.words with
    | none => event
    | some out => .ofWords event.timestamp out
  else event

/-- Every event is handed over with the data and the length of its converted packet, or unchanged
if it is not converted, and these are the events that the ring is called with. -/
structure SendsConverted (direction : ProtocolDirection) (events : List MidiEventInner) : Prop where
  handed : MidiOutputPort.sendArguments direction (some events) events.length true =
    .ok (events.map fun event =>
      ⟨event.timestamp, (convertedEvent direction event).length,
        (convertedEvent direction event).data⟩)
  received : ∀ cap notify,
    MidiOutputPort.send direction cap notify (some events) events.length true = some (do
      let ret ← tryWriteEvents cap (some (events.map (convertedEvent direction))) events.length
        notify
      return (getStatusCode ret.status, ret.eventsWritten))

theorem readable_event (event : MidiEventInner) :
    HandedEvent.readable ⟨event.timestamp, event.length, event.data⟩ = some event := by
  obtain ⟨timestamp, length, data, hcovers⟩ := event
  cases data with
  | none => rfl
  | some buffer =>
      have hlen : buffer.length = length := hcovers buffer rfl
      simp [HandedEvent.readable, ← hlen]

@[simp] theorem convertedEvent_timestamp (direction : ProtocolDirection) (event : MidiEventInner) :
    (convertedEvent direction event).timestamp = event.timestamp := by
  unfold convertedEvent
  split
  · split <;> rfl
  · rfl

theorem mapM_readable (direction : ProtocolDirection) (events : List MidiEventInner) :
    (events.map fun event => (⟨event.timestamp, (convertedEvent direction event).length,
      (convertedEvent direction event).data⟩ : HandedEvent)).mapM HandedEvent.readable =
      some (events.map (convertedEvent direction)) := by
  have hread : (HandedEvent.readable ∘ fun event => (⟨event.timestamp,
      (convertedEvent direction event).length, (convertedEvent direction event).data⟩ :
        HandedEvent)) = fun event => pure (convertedEvent direction event) := by
    funext event
    have h := readable_event (convertedEvent direction event)
    rw [convertedEvent_timestamp] at h
    exact h
  rw [List.mapM_map, hread]
  exact List.mapM_pure

/-- The words of an event that is converted are all the words its length counts. -/
theorem words_length_of_convert {event : MidiEventInner} {out : List UInt32}
    (h : convertMidi2ToMidi1 event.words = some out) : event.words.length = event.length := by
  obtain ⟨timestamp, length, data, hcovers⟩ := event
  cases data with
  | none => contradiction
  | some buffer => exact hcovers buffer rfl

/-- An event is handed over as it should be unless it shrinks on the way. -/
theorem innerEvent_eq_iff (direction : ProtocolDirection) (event : MidiEventInner) :
    MidiOutputPort.innerEvent direction event = ⟨event.timestamp,
        (convertedEvent direction event).length, (convertedEvent direction event).data⟩ ↔
      (direction = .midi2ToMidi1 → ¬IsMidi2Voice event.words) := by
  unfold MidiOutputPort.innerEvent convertedEvent
  by_cases hdirection : direction = .midi2ToMidi1
  · simp only [hdirection, if_true, forall_const]
    cases hout : convertMidi2ToMidi1 event.words with
    | none =>
        refine iff_of_true rfl ?_
        rintro ⟨w0, w1, hwords, htype, hstatus⟩
        rw [hwords] at hout
        have hsome := (convertMidi2ToMidi1_voice_isSome htype w1).mpr hstatus
        rw [hout] at hsome
        contradiction
    | some out =>
        have hlen := words_length_of_convert hout
        have heq : (⟨event.timestamp, event.length, some out⟩ : HandedEvent) =
            ⟨event.timestamp, out.length, some out⟩ ↔ event.length = out.length := by simp
        change (⟨event.timestamp, event.length, some out⟩ : HandedEvent) =
          ⟨event.timestamp, out.length, some out⟩ ↔ _
        rw [heq, ← hlen]
        obtain ⟨hvoice, hone⟩ | ⟨hvoice, hsame⟩ := length_of_convert hout
        · refine iff_of_false ?_ (not_not.mpr hvoice)
          obtain ⟨w0, w1, hwords, -⟩ := hvoice
          rw [hwords, hone]
          exact Nat.succ_succ_ne_one 0
        · exact iff_of_true (congrArg List.length hsame.symm) hvoice
  · simp [hdirection]

/-- A port that converts to MIDI 1.0 hands over the converted packets exactly if no event is a MIDI
2.0 channel voice message; such an event keeps the length of two words for a buffer of one. -/
theorem sendsConverted_iff (hne : events ≠ []) (hle : events.length ≤ MidiOutputPort.maxEventsNums) :
    SendsConverted direction events ↔
      (direction = .midi2ToMidi1 → ∀ event ∈ events, ¬IsMidi2Voice event.words) := by
  have harguments : MidiOutputPort.sendArguments direction (some events) events.length true =
      .ok (events.map (MidiOutputPort.innerEvent direction)) := by
    have hpos := List.length_pos_iff.mpr hne
    simp [MidiOutputPort.sendArguments, hpos, hle]
  constructor
  · rintro ⟨hhanded, -⟩ hdirection event hevent
    have hmaps := Except.ok.inj (harguments.symm.trans hhanded)
    have heq := List.map_inj_left.mp hmaps event hevent
    exact (innerEvent_eq_iff direction event).mp heq hdirection
  · intro h
    have hmaps : events.map (MidiOutputPort.innerEvent direction) = events.map fun event =>
        ⟨event.timestamp, (convertedEvent direction event).length,
          (convertedEvent direction event).data⟩ :=
      List.map_inj_left.mpr fun event hevent =>
        (innerEvent_eq_iff direction event).mpr fun hdirection => h hdirection event hevent
    refine ⟨harguments.trans (congrArg _ hmaps), ?_⟩
    intro cap notify
    rw [MidiOutputPort.send, harguments, hmaps]
    dsimp only
    rw [mapM_readable]
    rfl

/-- A timing clock, a MIDI 1.0 note on and the two packets of a system exclusive. -/
def passedOn : List MidiEventInner :=
  [.ofWords 7 [0x10F80000], .ofWords 7 [0x20903C7F], .ofWords 8 [0x30160102, 0x03040506],
    .ofWords 9 [0x30310700, 0]]

theorem sendsConverted_passedOn : SendsConverted .midi2ToMidi1 passedOn :=
  (sendsConverted_iff (by decide) (by decide)).mpr fun _ => by decide

/-- A note on is handed over with two words, and its buffer has one. -/
theorem converted_length_kept :
    ¬∀ (direction : ProtocolDirection) (events : List MidiEventInner), events ≠ [] →
      events.length ≤ MidiOutputPort.maxEventsNums → SendsConverted direction events := by
  intro h
  have hsend := (h .midi2ToMidi1 [.ofWords 7 [0x40903C00, 0x80000000]] (by decide)
    (by decide)).received 2048 true
  have hnone : MidiOutputPort.send .midi2ToMidi1 2048 true
      (some [.ofWords 7 [0x40903C00, 0x80000000]]) 1 true = none := rfl
  exact Option.some_ne_none _ (hsend.symm.trans hnone)

end ConvertedSend

end MidiFramework.Client
