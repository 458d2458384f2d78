import MidiFramework.Ble.Encoder

/-!
# A BLE session

The driver converts each output event with one processor and sends it as one
BLE packet. A receiver feeds the packets to a processor of its own. What it
receives is what was sent as long as no packet begins with a data byte and none
is longer than the receiver takes.
-/

namespace MidiFramework.Ble

open Foundation Ump UmpProcessor

/-- An output event, with the reading of the clock that is used when its timestamp is zero. -/
structure OutputEvent where
  timestamp : UInt64
  curNs : Int64
  packets : List (List UInt32)

/-- The words of an event. -/
def OutputEvent.words (e : OutputEvent) : List UInt32 := e.packets.flatten

/-- `HandleUmpInput` for one event, with the BLE packet it sends. -/
def handleUmpInput (p : UmpProcessor) (e : OutputEvent) : Emission UmpProcessor (List UInt8) :=
  let converted := p.processUmp e.words
  let midi1Buffer := converted.out
  if midi1Buffer = [] then .silent converted.state
  else
    let timestampMs := getBleTimestampMs e.timestamp e.curNs
    let blePacket := encodeEvent midi1Buffer timestampMs
    if blePacket = [] then .silent converted.state
    else ⟨[blePacket], converted.state⟩

/-- `MAX_BLE_MIDI_DATA_SIZE`. -/
def maxBleMidiDataSize : Nat := 512

/-- `OnNotification`, with the UMP packets it parses. -/
def onNotification (p : UmpProcessor) (src : List UInt8) : Emission UmpProcessor UmpPacket :=
  if 1 < src.length ∧ src.length ≤ maxBleMidiDataSize then p.processBytes (src.drop 1)
  else .silent p

/-- The MIDI 1.0 bytes the sender's `ProcessUmp` gives for the events. -/
def sentBytes (p : UmpProcessor) (events : List OutputEvent) : Emission UmpProcessor UInt8 :=
  feed (fun p e => p.processUmp e.words) p events

/-- The UMP packets that the receiver parses. -/
def receivedPackets (p r : UmpProcessor) (events : List OutputEvent) :
    Emission UmpProcessor UmpPacket :=
  feed onNotification r (feed handleUmpInput p events).out

/-! ### Well-formed events -/

/-- A data message with this status, at most six bytes and 7-bit data. -/
structure IsDataPacket (w0 w1 : UInt32) (status : UInt8) : Prop where
  type : messageType w0 = 0x3
  status : nibbleField w0 20 = status
  count : (nibbleField w0 16).toNat ≤ 6
  data : ∀ d ∈ (sysexData w0 w1).take (nibbleField w0 16).toNat, d < midiStatusStart

/-- A complete packet. The flags say whether a system exclusive is open before it and after it. -/
inductive Packet : Bool → List UInt32 → Bool → Prop
  | message {w : UInt32} (hw : IsMessageWord w)
      (hdata : ∀ d ∈ (messageBytes w).tail, d < midiStatusStart) : Packet false [w] false
  | complete {w0 w1 : UInt32} (h : IsDataPacket w0 w1 sysexStatusComplete) :
      Packet false [w0, w1] false
  | start {w0 w1 : UInt32} (h : IsDataPacket w0 w1 sysexStatusStart) : Packet false [w0, w1] true
  | middle {w0 w1 : UInt32} (h : IsDataPacket w0 w1 sysexStatusContinue) :
      Packet true [w0, w1] true
  | last {w0 w1 : UInt32} (h : IsDataPacket w0 w1 sysexStatusEnd) : Packet true [w0, w1] false

/-- Packets in a row, with nothing between the packets of a system exclusive. -/
inductive Packets : Bool → List (List UInt32) → Bool → Prop
  | nil (b : Bool) : Packets b [] b
  | cons {b c d : Bool} {packet : List UInt32} {packets : List (List UInt32)}
      (hpacket : Packet b packet c) (hpackets : Packets c packets d) :
      Packets b (packet :: packets) d

/-- The events of a session. A system exclusive may go on from one event to the next. -/
inductive Session : Bool → List OutputEvent → Bool → Prop
  | nil (b : Bool) : Session b [] b
  | cons {b c d : Bool} {e : OutputEvent} {events : List OutputEvent} (hne : e.packets ≠ [])
      (hpackets : Packets b e.packets c) (hevents : Session c events d) :
      Session b (e :: events) d

/-- A data message with this status, by its first word. -/
def HasStatus (packet : List UInt32) (status : UInt8) : Prop :=
  messageType (packet.headD 0) = 0x3 ∧ nibbleField (packet.headD 0) 20 = status

instance (packet : List UInt32) (status : UInt8) : Decidable (HasStatus packet status) :=
  inferInstanceAs (Decidable (_ ∧ _))

/-- The number of data bytes of a data message. -/
def dataCount (packet : List UInt32) : UInt8 := nibbleField (packet.headD 0) 16

/-- No data of a system exclusive that an earlier event began comes first. Continue packets
without data have no bytes at all. -/
def StatusFirst : List (List UInt32) → Prop
  | [] => True
  | packet :: packets =>
      (HasStatus packet sysexStatusContinue → dataCount packet = 0 ∧ StatusFirst packets) ∧
        (HasStatus packet sysexStatusEnd → dataCount packet = 0)

/-- What a packet adds to a BLE packet: its bytes, and a timestamp byte for each status byte. -/
def packetSize (packet : List UInt32) : Nat :=
  if messageType (packet.headD 0) = 0x3 then
    if HasStatus packet sysexStatusContinue then (dataCount packet).toNat
    else if HasStatus packet sysexStatusComplete then (dataCount packet).toNat + 4
    else (dataCount packet).toNat + 2
  else getExpectedDataLength (byteField (packet.headD 0) 16) + 2

/-- The bytes of the BLE packet of an event that begins with a status byte. -/
def OutputEvent.bleSize (e : OutputEvent) : Nat := 1 + (e.packets.map packetSize).sum

/-! ### What the sender converts -/

section Sender

variable {b c d : Bool} {p : UmpProcessor}

/-- The state of the sender knows of the open system exclusive. -/
def Knows (b : Bool) (p : UmpProcessor) : Prop := b = true → p.reverseSysexActive = true

theorem midi1_data {data : List UInt8} (hdata : ∀ d ∈ data, d < midiStatusStart) :
    Midi1 true data true := by
  induction data with
  | nil => exact .nil true
  | cons d data ih =>
      obtain ⟨hd, hrest⟩ := List.forall_mem_cons.mp hdata
      exact .data hd (ih hrest)

theorem IsDataPacket.processUmp {w0 w1 : UInt32} {status : UInt8}
    (h : IsDataPacket w0 w1 status) :
    p.processUmp [w0, w1] = p.sysexEffect status
      ((sysexData w0 w1).take (nibbleField w0 16).toNat) := by
  rw [processUmp_data h.type, processUmpType3_eq, h.status]
  simp [Emission.andThen, processUmp_nil]

theorem processUmp_messageWord {w : UInt32} (hw : IsMessageWord w) :
    p.processUmp [w] = ⟨messageBytes w, p⟩ := by
  rw [processUmp_message hw]
  simp [Emission.andThen, processUmp_nil]

theorem Packet.framed {packet : List UInt32} (h : Packet b packet c) : Framed packet := by
  cases h with
  | @message w hw hdata =>
      have htype := hw.type
      by_cases hlow : byteField w 16 < midiSystemCommonEnd
      · rw [if_pos hlow] at htype
        exact framed_channel htype
      · rw [if_neg hlow] at htype
        exact framed_system htype
  | complete h => exact framed_data h.type _
  | start h => exact framed_data h.type _
  | middle h => exact framed_data h.type _
  | last h => exact framed_data h.type _

/-- The bytes of a packet are a stretch of a stream. -/
theorem Packet.midi1 {packet : List UInt32} (h : Packet b packet c) (hp : Knows b p) :
    Midi1 b (p.processUmp packet).out c ∧ Knows c (p.processUmp packet).state := by
  cases h with
  | @message w hw hdata =>
      rw [processUmp_messageWord hw]
      have hbytes : messageBytes w = byteField w 16 :: ((messageBytes w).tail ++ []) := by
        rw [List.append_nil]
        rfl
      refine ⟨?_, hp⟩
      change Midi1 false (messageBytes w) false
      rw [hbytes]
      apply Midi1.message hw.status ?_ hdata (.nil false)
      have hle := getExpectedDataLength_le (byteField w 16)
      simp only [messageBytes, List.tail_cons, List.length_take, List.length_cons, List.length_nil]
      omega
  | @complete w0 w1 h =>
      rw [h.processUmp, sysexEffect_complete]
      exact ⟨.sysex ((midi1_data h.data).append (.close (.nil false))), by simp [Knows]⟩
  | @start w0 w1 h =>
      rw [h.processUmp, sysexEffect_start]
      exact ⟨.sysex (midi1_data h.data), fun _ => rfl⟩
  | @middle w0 w1 h =>
      rw [h.processUmp, sysexEffect_continue, hp rfl, if_pos rfl]
      exact ⟨midi1_data h.data, hp⟩
  | @last w0 w1 h =>
      rw [h.processUmp, sysexEffect_end]
      exact ⟨(midi1_data h.data).append (.close (.nil false)), by simp [Knows]⟩

theorem Packets.midi1 {packets : List (List UInt32)} (h : Packets b packets c) (hp : Knows b p) :
    Midi1 b (p.processUmp packets.flatten).out c ∧ Knows c (p.processUmp packets.flatten).state := by
  induction h generalizing p with
  | nil b =>
      rw [List.flatten_nil, processUmp_nil]
      exact ⟨.nil b, hp⟩
  | cons hpacket _ ih =>
      obtain ⟨hbytes, hknows⟩ := hpacket.midi1 hp
      obtain ⟨hrest, hknows'⟩ := ih hknows
      rw [List.flatten_cons, hpacket.framed]
      exact ⟨hbytes.append hrest, hknows'⟩

/-- No bytes, or a status byte first. -/
def BeginsHigh (bytes : List UInt8) : Prop :=
  bytes = [] ∨ ∃ first rest, bytes = first :: rest ∧ midiStatusStart ≤ first

theorem BeginsHigh.append {xs : List UInt8} (ys : List UInt8) (hx : BeginsHigh xs)
    (hne : xs ≠ []) : BeginsHigh (xs ++ ys) := by
  rcases hx with rfl | ⟨first, rest, rfl, hfirst⟩
  · exact absurd rfl hne
  · exact .inr ⟨first, rest ++ ys, rfl, hfirst⟩

theorem IsDataPacket.hasStatus {w0 w1 : UInt32} {status : UInt8}
    (h : IsDataPacket w0 w1 status) : HasStatus [w0, w1] status := ⟨h.type, h.status⟩

/-- What a packet begins with when it does not begin with data. -/
theorem Packet.beginsHigh {packet : List UInt32} (h : Packet b packet c) (hp : Knows b p)
    (hmiddle : HasStatus packet sysexStatusContinue → dataCount packet = 0)
    (hlast : HasStatus packet sysexStatusEnd → dataCount packet = 0) :
    BeginsHigh (p.processUmp packet).out ∧
      ((p.processUmp packet).out = [] → HasStatus packet sysexStatusContinue) := by
  cases h with
  | @message w hw hdata =>
      rw [processUmp_messageWord hw]
      exact ⟨.inr ⟨_, _, rfl, hw.status.1⟩, by simp [messageBytes]⟩
  | complete h =>
      rw [h.processUmp, sysexEffect_complete]
      exact ⟨.inr ⟨_, _, rfl, by decide⟩, by simp⟩
  | start h =>
      rw [h.processUmp, sysexEffect_start]
      exact ⟨.inr ⟨_, _, rfl, by decide⟩, by simp⟩
  | @middle w0 w1 h =>
      have hzero : nibbleField w0 16 = 0 := hmiddle h.hasStatus
      rw [h.processUmp, sysexEffect_continue, hp rfl, hzero]
      exact ⟨.inl rfl, fun _ => h.hasStatus⟩
  | @last w0 w1 h =>
      have hzero : nibbleField w0 16 = 0 := hlast h.hasStatus
      rw [h.processUmp, sysexEffect_end, hzero]
      exact ⟨.inr ⟨_, _, rfl, by decide⟩, by simp⟩

theorem Packets.beginsHigh {packets : List (List UInt32)} (h : Packets b packets c)
    (hp : Knows b p) (hfirst : StatusFirst packets) :
    BeginsHigh (p.processUmp packets.flatten).out := by
  induction h generalizing p with
  | nil b =>
      rw [List.flatten_nil, processUmp_nil]
      exact .inl rfl
  | @cons b c d packet packets hpacket _ ih =>
      obtain ⟨hmiddle, hlast⟩ := hfirst
      obtain ⟨hbytes, hempty⟩ := hpacket.beginsHigh hp (fun hs => (hmiddle hs).1) hlast
      obtain ⟨-, hknows⟩ := hpacket.midi1 hp
      rw [List.flatten_cons, hpacket.framed]
      by_cases hne : (p.processUmp packet).out = []
      · -- the packet has no bytes, so the next one comes first
        rw [Emission.andThen, hne, List.nil_append]
        exact ih hknows (hmiddle (hempty hne)).2
      · exact hbytes.append _ hne

/-! ### How long the BLE packets are -/

theorem messageBytes_tail_length (w : UInt32) :
    (messageBytes w).tail.length = getExpectedDataLength (byteField w 16) := by
  have hle := getExpectedDataLength_le (byteField w 16)
  simp only [messageBytes, List.tail_cons, List.length_take, List.length_cons, List.length_nil]
  omega

theorem packetSize_message {w : UInt32} (hw : IsMessageWord w) :
    packetSize [w] = getExpectedDataLength (byteField w 16) + 2 := by
  have htype : messageType w ≠ 0x3 := by
    rw [hw.type]
    split <;> decide
  exact if_neg htype

theorem IsDataPacket.taken {w0 w1 : UInt32} {status : UInt8} (h : IsDataPacket w0 w1 status) :
    ((sysexData w0 w1).take (nibbleField w0 16).toNat).length = (nibbleField w0 16).toNat := by
  rw [List.length_take]
  exact Nat.min_eq_left h.count

/-- The stamped bytes of a packet have its size. -/
theorem Packet.stamped {packet : List UInt32} (h : Packet b packet c) (hp : Knows b p)
    (stamp : UInt8) :
    (stampStatusBytes stamp (p.processUmp packet).out).length = packetSize packet := by
  have hstart : midiStatusStart ≤ midiSysexStart := by decide
  have hend (data : List UInt8) (hdata : ∀ d ∈ data, d < midiStatusStart) :
      (stampStatusBytes stamp (data ++ [midiSysexEnd])).length = data.length + 2 := by
    rw [stampStatusBytes_append, List.length_append, length_stampStatusBytes_data hdata,
      length_stampStatusBytes_status (by decide)]
    rfl
  cases h with
  | @message w hw hdata =>
      rw [processUmp_messageWord hw, packetSize_message hw]
      change (stampStatusBytes stamp (byteField w 16 :: (messageBytes w).tail)).length = _
      rw [length_stampStatusBytes_status hw.status.1, length_stampStatusBytes_data hdata,
        messageBytes_tail_length]
  | @complete w0 w1 h =>
      rw [h.processUmp, sysexEffect_complete, List.cons_append,
        length_stampStatusBytes_status hstart, hend _ h.data, h.taken]
      simp [packetSize, HasStatus, dataCount, h.type, h.status, sysexStatusComplete,
        sysexStatusContinue]
  | @start w0 w1 h =>
      rw [h.processUmp, sysexEffect_start, length_stampStatusBytes_status hstart,
        length_stampStatusBytes_data h.data, h.taken]
      simp [packetSize, HasStatus, dataCount, h.type, h.status, sysexStatusComplete,
        sysexStatusContinue, sysexStatusStart]
  | @middle w0 w1 h =>
      rw [h.processUmp, sysexEffect_continue, hp rfl, if_pos rfl,
        length_stampStatusBytes_data h.data, h.taken]
      simp [packetSize, HasStatus, dataCount, h.type, h.status]
  | @last w0 w1 h =>
      rw [h.processUmp, sysexEffect_end, hend _ h.data, h.taken]
      simp [packetSize, HasStatus, dataCount, h.type, h.status, sysexStatusComplete,
        sysexStatusContinue, sysexStatusEnd]

theorem Packets.stamped {packets : List (List UInt32)} (h : Packets b packets c) (hp : Knows b p)
    (stamp : UInt8) : (stampStatusBytes stamp (p.processUmp packets.flatten).out).length =
      (packets.map packetSize).sum := by
  induction h generalizing p with
  | nil b =>
      rw [List.flatten_nil, processUmp_nil]
      rfl
  | cons hpacket _ ih =>
      obtain ⟨-, hknows⟩ := hpacket.midi1 hp
      rw [List.flatten_cons, hpacket.framed, Emission.andThen, stampStatusBytes_append,
        List.length_append, hpacket.stamped hp, ih hknows, List.map_cons, List.sum_cons]

end Sender

/-! ### The session -/

section Session

variable {b c : Bool} {p r : UmpProcessor} {events : List OutputEvent}

/-- An event whose bytes begin with a status byte is handled by the receiver byte by byte, unless
its BLE packet is too long. -/
theorem onNotification_event {e : OutputEvent} (h : BeginsHigh (p.processUmp e.words).out)
    (hsize : ∀ stamp, 1 + (stampStatusBytes stamp (p.processUmp e.words).out).length ≤
      maxBleMidiDataSize) :
    feed onNotification r (handleUmpInput p e).out = feed handleByte r (p.processUmp e.words).out ∧
      (handleUmpInput p e).state = (p.processUmp e.words).state := by
  rcases h with hempty | ⟨first, rest, hbytes, hfirst⟩
  · rw [handleUmpInput, if_pos hempty, hempty]
    exact ⟨rfl, rfl⟩
  · have hne : (p.processUmp e.words).out ≠ [] := by simp [hbytes]
    have hpacket (ts : UInt16) : encodeEvent (p.processUmp e.words).out ts ≠ [] := by
      rw [hbytes]
      simp [encodeEvent]
    rw [hbytes] at hsize
    have hpasses (ts : UInt16) : 1 < (encodeEvent (first :: rest) ts).length ∧
        (encodeEvent (first :: rest) ts).length ≤ maxBleMidiDataSize := by
      rw [length_encodeEvent hfirst]
      refine ⟨?_, hsize _⟩
      rw [length_stampStatusBytes_status hfirst]
      omega
    rw [handleUmpInput, if_neg hne]
    dsimp only
    rw [if_neg (hpacket _), feed_singleton, onNotification, hbytes, if_pos (hpasses _),
      processBytes_encodeEvent hfirst]
    exact ⟨rfl, rfl⟩

/-- The receiver handles the bytes that the sender converted, and they are a stream. -/
theorem Session.received (h : Session b events c) (hp : Knows b p)
    (hfirst : ∀ e ∈ events, StatusFirst e.packets)
    (hsize : ∀ e ∈ events, e.bleSize ≤ maxBleMidiDataSize) :
    receivedPackets p r events = feed handleByte r (sentBytes p events).out ∧
      Midi1 b (sentBytes p events).out c := by
  induction h generalizing p r with
  | nil b => exact ⟨rfl, .nil b⟩
  | @cons b c d e events _ hpackets _ ih =>
      obtain ⟨he, hrest⟩ := List.forall_mem_cons.mp hfirst
      obtain ⟨hshort, hshorts⟩ := List.forall_mem_cons.mp hsize
      obtain ⟨hbytes, hknows⟩ :
          Midi1 b (p.processUmp e.words).out c ∧ Knows c (p.processUmp e.words).state :=
        hpackets.midi1 hp
      have hpasses (stamp : UInt8) : 1 + (stampStatusBytes stamp (p.processUmp e.words).out).length ≤
          maxBleMidiDataSize := by
        rw [OutputEvent.words, hpackets.stamped hp]
        exact hshort
      obtain ⟨hfeed, hstate⟩ :=
        onNotification_event (r := r) (hpackets.beginsHigh hp he) hpasses
      obtain ⟨hreceived, hstream⟩ := ih (r := (feed handleByte r (p.processUmp e.words).out).state)
        hknows hrest hshorts
      constructor
      · change feed onNotification r ((handleUmpInput p e).out ++
          (feed handleUmpInput (handleUmpInput p e).state events).out) =
          feed handleByte r ((p.processUmp e.words).out ++
            (sentBytes (p.processUmp e.words).state events).out)
        rw [feed_append, feed_append, hfeed, hstate]
        simp only [Emission.andThen]
        rw [← receivedPackets, hreceived]
      · exact hbytes.append hstream

/-- Sender and receiver agree on the bytes of the session. -/
def RoundTrip (events : List OutputEvent) : Prop :=
  (UmpProcessor.fresh.processUmp (packetWords (receivedPackets .fresh .fresh events).out)).out =
    (sentBytes .fresh events).out

/-- A session is received as it was sent when no event begins with data of a system exclusive
that an earlier event began, and every BLE packet is short enough for the receiver. -/
theorem session_roundTrip (h : Session false events false)
    (hfirst : ∀ e ∈ events, StatusFirst e.packets)
    (hsize : ∀ e ∈ events, e.bleSize ≤ maxBleMidiDataSize) : RoundTrip events := by
  obtain ⟨hreceived, hstream⟩ :=
    h.received (r := .fresh) (p := .fresh) (by simp [Knows]) hfirst hsize
  have hframed : ∀ packet ∈ (receivedPackets .fresh .fresh events).out, Framed packet.words := by
    rw [hreceived]
    exact feed_out handleByte (I := fun r => r.sysexPos ≤ 6) (fun r b hr => whole_handleByte hr b)
      (Nat.zero_le 6) _
  rw [RoundTrip, ← processUmp_packetWords _ hframed, hreceived]
  have hrelay := relay_stream (r := .fresh) (q := .fresh) hstream rfl
  rw [relay, feed_pipe] at hrelay
  exact hrelay

/-- A system exclusive of six bytes that ends in an event of its own, and a note behind it. -/
theorem session_roundTrip_sysEx :
    RoundTrip [⟨1, 0, [[0x30160102, 0x03040506]]⟩,
      ⟨2, 0, [[0x30300000, 0x00000000], [0x20903C64]]⟩] := by
  apply session_roundTrip
  · refine .cons (c := true) (by simp) (.cons (c := true) (.start ⟨?_, ?_, ?_, ?_⟩) (.nil true))
      (.cons (c := false) (by simp) (.cons (c := false) (.last ⟨?_, ?_, ?_, ?_⟩)
        (.cons (.message ⟨?_, ?_⟩ ?_) (.nil false))) (.nil false))
    all_goals decide +kernel
  · refine List.forall_mem_cons.mpr ⟨?_, List.forall_mem_cons.mpr ⟨?_, List.forall_mem_nil _⟩⟩
    · simp only [StatusFirst]
      decide
    · simp only [StatusFirst]
      decide
  · decide

/-- A system exclusive of seven bytes, sent as one event for each packet. -/
def splitSysEx : List OutputEvent :=
  [⟨1, 0, [[0x30160102, 0x03040506]]⟩, ⟨1, 0, [[0x30310700, 0x00000000]]⟩]

/-- The end of a system exclusive is lost when it is an event of its own: the timestamp byte is
taken for a status byte. -/
theorem session_not_roundTrip : Session false splitSysEx false ∧ ¬ RoundTrip splitSysEx := by
  constructor
  · apply Session.cons (by simp) ?_ (Session.cons (c := false) (by simp) ?_ (.nil false))
    · exact true
    · exact .cons (.start ⟨by decide, by decide, by decide, by decide +kernel⟩) (.nil true)
    · exact .cons (.last ⟨by decide, by decide, by decide, by decide +kernel⟩) (.nil false)
  · unfold RoundTrip
    decide +kernel

end Session

end MidiFramework.Ble
