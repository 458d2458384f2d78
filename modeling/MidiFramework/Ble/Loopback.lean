import MidiFramework.Ble.Session

/-!
# One BLE packet there and back

Any messages are put into one BLE packet, parsed into UMP packets and turned
back into bytes. Real-time bytes may come back earlier than they were sent,
since the data of a system exclusive is collected before it is passed on. In
every other respect the bytes are the same.
-/

namespace MidiFramework.Ble

open Foundation Ump UmpProcessor

/-- Whether a byte is a message of its own that may interrupt any other message. -/
def isRealTime (b : UInt8) : Bool := decide (midiRealtimeStart ≤ b)

/-- A complete MIDI 1.0 message with its status byte. Real-time bytes may lie inside a system
exclusive. -/
inductive Message
  | plain (status : UInt8) (data : List UInt8) (isStatus : IsMessageStatus status)
      (complete : data.length = getExpectedDataLength status)
      (low : ∀ d ∈ data, d < midiStatusStart)
  | sysex (body : List UInt8) (low : ∀ b ∈ body, b < midiStatusStart ∨ isRealTime b = true)

namespace Message

def bytes : Message → List UInt8
  | plain status data _ _ _ => status :: data
  | sysex body _ => midiSysexStart :: body ++ [midiSysexEnd]

/-- No real-time byte lies inside the message. -/
def Uninterrupted : Message → Prop
  | plain _ _ _ _ _ => True
  | sysex body _ => ∀ b ∈ body, b < midiStatusStart

end Message

/-- The bytes of several messages, one message after the other. -/
def messagesBytes (messages : List Message) : List UInt8 := messages.flatMap Message.bytes

section Streams

variable {r q : UmpProcessor} {messages : List Message}

theorem low_not_realTime {b : UInt8} (h : b < midiStatusStart) : isRealTime b = false := by
  simp only [isRealTime, midiRealtimeStart, midiStatusStart] at *
  grind

theorem filter_low {bytes : List UInt8} (h : ∀ b ∈ bytes, b < midiStatusStart) :
    bytes.filter (fun b => !isRealTime b) = bytes := by
  apply List.filter_eq_self.mpr
  intro b hb
  rw [low_not_realTime (h b hb)]
  rfl

theorem Message.bytes_high (m : Message) : ∃ first rest, m.bytes = first :: rest ∧
    midiStatusStart ≤ first := by
  cases m with
  | plain status data isStatus complete low => exact ⟨status, data, rfl, isStatus.1⟩
  | sysex body low => exact ⟨midiSysexStart, body ++ [midiSysexEnd], rfl, by decide⟩

theorem messagesBytes_high : BeginsHigh (messagesBytes messages) := by
  cases messages with
  | nil => exact .inl rfl
  | cons m messages =>
      obtain ⟨first, rest, hbytes, hfirst⟩ := m.bytes_high
      exact .inr ⟨first, rest ++ messagesBytes messages, by simp [messagesBytes, hbytes], hfirst⟩

/-- Without its real-time bytes a message is a stretch of a stream. -/
theorem Message.midi1_filter (m : Message) :
    Midi1 false (m.bytes.filter fun b => !isRealTime b) false := by
  cases m with
  | plain status data isStatus complete low =>
      by_cases hrt : isRealTime status = true
      · have hzero : getExpectedDataLength status = 0 := by
          simp only [isRealTime, decide_eq_true_eq] at hrt
          simp only [getExpectedDataLength, midiRealtimeStart, midiSystemCommonEnd] at *
          grind
        obtain rfl : data = [] := List.eq_nil_of_length_eq_zero (complete.trans hzero)
        rw [bytes, List.filter_cons_of_neg (by simp [hrt])]
        exact .nil false
      · rw [bytes, List.filter_cons_of_pos (by simpa using hrt), filter_low low,
          ← List.append_nil data]
        exact .message isStatus complete low (.nil false)
  | sysex body low =>
      have hdata : ∀ d ∈ body.filter (fun b => !isRealTime b), d < midiStatusStart := by
        intro d hd
        obtain ⟨hmem, hrt⟩ := List.mem_filter.mp hd
        rcases low d hmem with h | h
        · exact h
        · simp [h] at hrt
      change Midi1 false (List.filter _ ([midiSysexStart] ++ body ++ [midiSysexEnd])) false
      rw [List.filter_append, List.filter_append]
      exact (Midi1.sysex (.nil true)).append (midi1_data hdata)
        |>.append (.close (.nil false))

theorem midi1_filter :
    Midi1 false ((messagesBytes messages).filter fun b => !isRealTime b) false := by
  induction messages with
  | nil => exact .nil false
  | cons m messages ih =>
      rw [messagesBytes, List.flatMap_cons, List.filter_append]
      exact m.midi1_filter.append ih

theorem Message.midi1 (m : Message) (h : m.Uninterrupted) : Midi1 false m.bytes false := by
  cases m with
  | plain status data isStatus complete low =>
      rw [bytes, ← List.append_nil data]
      exact .message isStatus complete low (.nil false)
  | sysex body low => exact .sysex ((midi1_data h).append (.close (.nil false)))

theorem midi1_messages (h : ∀ m ∈ messages, m.Uninterrupted) :
    Midi1 false (messagesBytes messages) false := by
  induction messages with
  | nil => exact .nil false
  | cons m messages ih =>
      obtain ⟨hm, hrest⟩ := List.forall_mem_cons.mp h
      exact (m.midi1 hm).append (ih hrest)

/-- A real-time byte comes back at once, whatever is going on. -/
theorem relay_transparent : Transparent relay isRealTime isRealTime id where
  step := by
    rintro ⟨r, q⟩ b hb
    have hle : midiRealtimeStart ≤ b := by simpa [isRealTime] using hb
    have hhigh : ¬ b < midiSystemCommonEnd := by
      simp only [midiRealtimeStart, midiSystemCommonEnd] at *
      grind
    have hstatus : IsMessageStatus b := by
      simp only [IsMessageStatus, midiStatusStart, midiSysexStart, midiSysexEnd,
        midiRealtimeStart] at *
      grind
    have hzero : getExpectedDataLength b = 0 := by
      simp only [getExpectedDataLength, midiRealtimeStart, midiSystemCommonEnd] at *
      grind
    have hpacket : r.messagePacket 0x1 b 0 0 = r.voicePacket b 0 0 := by
      rw [voicePacket, if_neg hhigh]
    rw [relay, pipe, handleByte_realTime hle, hpacket]
    dsimp only
    rw [feed_singleton, processUmpPacket_voice hstatus, hzero]
    rfl
  shown _ hb := hb

end Streams

section Main

variable (messages : List Message) (timestampMs : UInt16) (group : UInt8)

/-- The UMP packets that the receiver of the BLE packet parses. -/
def parsedPackets : List UmpPacket :=
  ((fresh.setGroup group).processBytes
    ((encodeEvent (messagesBytes messages) timestampMs).drop 1)).out

/-- The bytes that another processor turns these packets into. -/
def returnedBytes : List UInt8 :=
  (fresh.processUmp (packetWords (parsedPackets messages timestampMs group))).out

theorem setGroup_closed : (fresh.setGroup group).inSysex = false ∧
    (fresh.setGroup group).sysexPos ≤ 6 := by
  unfold setGroup
  split
  · exact ⟨rfl, Nat.zero_le 6⟩
  · exact ⟨rfl, Nat.zero_le 6⟩

theorem returnedBytes_eq : returnedBytes messages timestampMs group =
    (feed relay (fresh.setGroup group, fresh) (messagesBytes messages)).out := by
  have hparsed : parsedPackets messages timestampMs group =
      (feed handleByte (fresh.setGroup group) (messagesBytes messages)).out := by
    rcases @messagesBytes_high messages with hnil | ⟨first, rest, hbytes, hfirst⟩
    · rw [parsedPackets, hnil]
      rfl
    · rw [parsedPackets, hbytes, processBytes_encodeEvent hfirst]
  have hframed : ∀ packet ∈ parsedPackets messages timestampMs group, Framed packet.words := by
    rw [hparsed]
    exact feed_out handleByte (I := fun r => r.sysexPos ≤ 6) (fun r b hr => whole_handleByte hr b)
      (setGroup_closed group).2 _
  rw [returnedBytes, ← processUmp_packetWords _ hframed, hparsed, relay, feed_pipe]

/-- Apart from the place of real-time bytes inside a system exclusive, the bytes come back as
they were. -/
theorem loopback :
    (returnedBytes messages timestampMs group).filter (fun b => !isRealTime b) =
        (messagesBytes messages).filter (fun b => !isRealTime b) ∧
      (returnedBytes messages timestampMs group).filter isRealTime =
        (messagesBytes messages).filter isRealTime ∧
      ((∀ m ∈ messages, m.Uninterrupted) →
        returnedBytes messages timestampMs group = messagesBytes messages) := by
  have hclosed := (setGroup_closed group).1
  have hothers : (feed relay (fresh.setGroup group, fresh)
      ((messagesBytes messages).filter fun b => !isRealTime b)).out =
      (messagesBytes messages).filter fun b => !isRealTime b :=
    relay_stream midi1_filter hclosed
  rw [returnedBytes_eq]
  refine ⟨?_, ?_, ?_⟩
  · rw [(relay_transparent.feed_filter _ _).2, hothers, List.filter_filter]
    simp only [Bool.and_self]
  · rw [relay_transparent.feed_shown, List.map_id]
    rw [hothers]
    intro b hb
    simpa using (List.mem_filter.mp hb).2
  · intro huninterrupted
    exact relay_stream (midi1_messages huninterrupted) hclosed

/-- A clock byte inside a system exclusive comes back before it. -/
example : returnedBytes [.sysex [0x01, 0xF8, 0x02] (by decide +kernel)] 0 0 =
    [0xF8, 0xF0, 0x01, 0x02, 0xF7] := by decide +kernel

end Main

end MidiFramework.Ble
