import MidiFramework.Ump.Packets

/-!
# MIDI 1.0 byte streams

A stream of complete messages is fed to the processor byte by byte, and the
packets it emits are turned back into bytes. The bytes that come back lag
behind the stream by the data of an open system exclusive that has not been
sent yet, and by nothing once every message is complete.
-/

namespace MidiFramework.Ump

open Foundation

/-- The status bytes of the messages that have a MIDI 1.0 form, system exclusive aside. -/
def IsMessageStatus (s : UInt8) : Prop :=
  midiStatusStart ≤ s ∧ s ≠ midiSysexStart ∧ s ≠ 0xF4 ∧ s ≠ 0xF5 ∧ s ≠ midiSysexEnd

instance (s : UInt8) : Decidable (IsMessageStatus s) :=
  inferInstanceAs (Decidable (_ ∧ _ ∧ _ ∧ _ ∧ _))

/-- The bytes of the message in a word. -/
def messageBytes (w : UInt32) : List UInt8 :=
  byteField w 16 ::
    [byteField w 8, byteField w 0].take (UmpProcessor.getExpectedDataLength (byteField w 16))

/-- A word with a message type that goes with its status byte. -/
structure IsMessageWord (w : UInt32) : Prop where
  status : IsMessageStatus (byteField w 16)
  type : messageType w = if byteField w 16 < midiSystemCommonEnd then 0x2 else 0x1

namespace UmpProcessor

variable {p r q : UmpProcessor} {w : UInt32} {s : UInt8} {data : List UInt8}

/-! ### From a packet to its bytes -/

theorem processUmpType1_eq (h : IsMessageStatus (byteField w 16))
    (hhigh : ¬ byteField w 16 < midiSystemCommonEnd) : processUmpType1 w = messageBytes w := by
  unfold processUmpType1 messageBytes getExpectedDataLength
  generalize byteField w 16 = s at h hhigh
  obtain ⟨-, h0, h4, h5, h7⟩ := h
  rw [if_neg hhigh]
  by_cases h1 : s = 0xF1
  · simp [h1]
  by_cases h2 : s = 0xF2
  · simp [h2]
  by_cases h3 : s = 0xF3
  · simp [h3]
  have hrest : s = 0xF6 ∨ midiRealtimeStart ≤ s := by
    simp only [midiSystemCommonEnd, midiSysexStart, midiSysexEnd, midiRealtimeStart] at *
    grind
  simp [h1, h2, h3]
  tauto

theorem processUmpType2_eq (hlow : byteField w 16 < midiSystemCommonEnd) :
    processUmpType2 w = messageBytes w := by
  unfold processUmpType2 messageBytes getExpectedDataLength
  rw [if_pos hlow]
  dsimp only
  split <;> rfl

theorem processUmp_message (h : IsMessageWord w) (rest : List UInt32) :
    p.processUmp (w :: rest) =
      Emission.andThen ⟨messageBytes w, p⟩ fun p => p.processUmp rest := by
  have htype := h.type
  by_cases hlow : byteField w 16 < midiSystemCommonEnd
  · rw [if_pos hlow] at htype
    rw [processUmp_channel htype, processUmpType2_eq hlow]
  · rw [if_neg hlow] at htype
    rw [processUmp_system htype, processUmpType1_eq h.status hlow]

/-- The packet of a message, with the message type that goes with the status byte. -/
def voicePacket (p : UmpProcessor) (s d0 d1 : UInt8) : UmpPacket :=
  p.messagePacket (if s < midiSystemCommonEnd then 0x2 else 0x1) s d0 d1

theorem voicePacket_fields (p : UmpProcessor) (s d0 d1 : UInt8) :
    MessageFields (messageWord (if s < midiSystemCommonEnd then 0x2 else 0x1) p.group s d0 d1)
      (if s < midiSystemCommonEnd then 0x2 else 0x1) s d0 d1 := by
  split
  · exact messageFields s d0 d1 rfl p.group_lt
  · exact messageFields s d0 d1 rfl p.group_lt

theorem processUmpPacket_voice (hs : IsMessageStatus s) (d0 d1 : UInt8) :
    q.processUmpPacket (p.voicePacket s d0 d1) =
      ⟨s :: [d0, d1].take (getExpectedDataLength s), q⟩ := by
  have hfields := voicePacket_fields p s d0 d1
  have hword : IsMessageWord
      (messageWord (if s < midiSystemCommonEnd then 0x2 else 0x1) p.group s d0 d1) := by
    constructor
    · rw [hfields.status]
      exact hs
    · rw [hfields.mt, hfields.status]
  change q.processUmp [_] = _
  rw [processUmp_message hword, messageBytes, hfields.status, hfields.d0, hfields.d1]
  simp [Emission.andThen, processUmp_nil]

theorem sysexSlots_take (p : UmpProcessor) (count : Nat) :
    [p.sysexSlot count 0, p.sysexSlot count 1, p.sysexSlot count 2, p.sysexSlot count 3,
      p.sysexSlot count 4, p.sysexSlot count 5].take count = p.sysexBuffer.toList.take count := by
  have hslots : [p.sysexSlot count 0, p.sysexSlot count 1, p.sysexSlot count 2,
      p.sysexSlot count 3, p.sysexSlot count 4, p.sysexSlot count 5] =
      List.ofFn (p.sysexSlot count) := by
    simp [List.ofFn_succ]
  rw [hslots]
  apply List.ext_getElem
  · simp
  · intro i hi _
    have hlt : i < count := by
      simp only [List.length_take] at hi
      omega
    rw [List.getElem_take, List.getElem_ofFn, List.getElem_take, sysexSlot, if_pos hlt]
    rfl

theorem processUmpPacket_sysex {statusCode : UInt8} (hstatus : statusCode.toNat < 2 ^ 4)
    {count : Nat} (hcount : count ≤ 6) :
    q.processUmpPacket (p.sysexPacket statusCode count) =
      q.sysexEffect statusCode (p.sysexBuffer.toList.take count) := by
  have hsize : count.toUInt8.toNat = count := by
    simp only [Nat.toUInt8, UInt8.toNat_ofNat']
    omega
  have hlt : count.toUInt8.toNat < 2 ^ 4 := by omega
  have hfields := headFields (p.sysexSlot count 0) (p.sysexSlot count 1) p.group_lt hstatus hlt
  change q.processUmp [_, _] = _
  rw [processUmp_data hfields.mt, processUmpType3_eq, hfields.status, hfields.count,
    hfields.sysexData, hsize, sysexSlots_take p count]
  simp [Emission.andThen, processUmp_nil]

/-! ### From bytes to packets -/

/-- A byte handled by itself. -/
def handleByte (p : UmpProcessor) (byte : UInt8) : Emission UmpProcessor UmpPacket :=
  if midiStatusStart ≤ byte then p.handleHighByte byte else p.handleDataByte byte

theorem handleByte_realTime (h : midiRealtimeStart ≤ s) :
    p.handleByte s = ⟨[p.messagePacket 0x1 s 0 0], p⟩ := by
  have hhigh : midiStatusStart ≤ s := by
    simp only [midiStatusStart, midiRealtimeStart] at *
    grind
  rw [handleByte, if_pos hhigh, handleHighByte, handleRealTime_of_le h]

theorem handleByte_status (hhigh : midiStatusStart ≤ s) (h : s < midiRealtimeStart) :
    p.handleByte s = p.handleStatusByte s := by
  rw [handleByte, if_pos hhigh, handleHighByte, handleRealTime_of_lt h]

theorem handleByte_data {d : UInt8} (h : d < midiStatusStart) :
    p.handleByte d = p.handleDataByte d := if_neg (UInt8.not_le.mpr h)

theorem handleStatusByte_message (hstart : s ≠ midiSysexStart) (hend : s ≠ midiSysexEnd) :
    p.handleStatusByte s =
      if getExpectedDataLength s = 0 then
        (p.begun s).dispatchChannelMessage.andThen fun p => .silent { p with cvPos := 0 }
      else .silent (p.begun s) := by
  rw [handleStatusByte, if_neg hstart, if_neg hend]
  rfl

theorem handleDataByte_message {d : UInt8} (hclosed : p.inSysex = false) (hpos : 0 < p.cvPos)
    (hlt : p.cvPos < cvBufferSize) :
    p.handleDataByte d = dispatchWhenComplete { p with
      cvBuffer := p.cvBuffer.set p.cvPos d hlt
      cvPos := p.cvPos + 1 } := by
  have hne : ¬ (p.cvPos = 0 ∧ p.runningStatus ≠ 0) := by omega
  rw [handleDataByte, if_neg (by simp [hclosed]), handleChannelData, if_neg hne,
    dif_pos ⟨hpos, hlt⟩]

theorem dispatchWhenComplete_of_eq (h : p.cvPos = p.expectedLen + 1) :
    p.dispatchWhenComplete =
      ⟨[p.voicePacket p.cvBuffer[0] (p.messageData p.expectedLen).1
        (p.messageData p.expectedLen).2], { p with cvPos := 0 }⟩ := by
  rw [dispatchWhenComplete, if_pos h, dispatchChannelMessage_eq]
  rfl

theorem dispatchWhenComplete_of_ne (h : p.cvPos ≠ p.expectedLen + 1) :
    p.dispatchWhenComplete = .silent p := if_neg h

theorem getExpectedDataLength_le (s : UInt8) : getExpectedDataLength s ≤ 2 := by
  unfold getExpectedDataLength
  repeat' split
  all_goals omega

/-- A complete message is emitted as one packet. -/
theorem feed_message (hs : IsMessageStatus s) (hlow : s < midiRealtimeStart)
    (hlen : data.length = getExpectedDataLength s) (hdata : ∀ d ∈ data, d < midiStatusStart) :
    ∃ r' : UmpProcessor, r'.inSysex = false ∧ feed handleByte r (s :: data) =
      ⟨[r.voicePacket s (data.getD 0 0) (data.getD 1 0)], r'⟩ := by
  obtain ⟨hhigh, hstart, -, -, hend⟩ := hs
  have hlt : (r.begun s).cvPos < cvBufferSize := by
    change 1 < 3
    omega
  rw [feed_cons, handleByte_status hhigh hlow, handleStatusByte_message hstart hend]
  match data with
  | [] =>
      have hzero : getExpectedDataLength s = 0 := hlen.symm
      refine ⟨{ r.begun s with cvPos := 0 }, rfl, ?_⟩
      rw [if_pos hzero, dispatchChannelMessage_eq]
      simp [begun, hzero, messageData, Emission.andThen, voicePacket, messagePacket]
  | [d0] =>
      have hone : getExpectedDataLength s = 1 := hlen.symm
      refine ⟨{ r.begun s with cvBuffer := (r.begun s).cvBuffer.set 1 d0, cvPos := 0 }, rfl, ?_⟩
      rw [if_neg (by omega), Emission.silent_andThen, feed_singleton,
        handleByte_data (hdata d0 (by simp)), handleDataByte_message rfl Nat.one_pos hlt,
        dispatchWhenComplete_of_eq (by simp [begun, hone])]
      simp [begun, hone, messageData, voicePacket, messagePacket]
  | [d0, d1] =>
      have htwo : getExpectedDataLength s = 2 := hlen.symm
      let waiting : UmpProcessor := { r.begun s with
        cvBuffer := (r.begun s).cvBuffer.set 1 d0 (by decide)
        cvPos := 2 }
      have hlt' : waiting.cvPos < cvBufferSize := by
        change 2 < 3
        omega
      refine ⟨{ waiting with cvBuffer := waiting.cvBuffer.set 2 d1, cvPos := 0 }, rfl, ?_⟩
      rw [if_neg (by omega), Emission.silent_andThen, feed_cons,
        handleByte_data (hdata d0 (by simp)), handleDataByte_message rfl Nat.one_pos hlt,
        dispatchWhenComplete_of_ne (by simp [begun, htwo]), Emission.silent_andThen,
        feed_singleton, handleByte_data (hdata d1 (by simp))]
      change waiting.handleDataByte d1 = _
      rw [handleDataByte_message rfl Nat.two_pos hlt',
        dispatchWhenComplete_of_eq (by simp [waiting, begun, htwo])]
      simp [waiting, begun, htwo, messageData, voicePacket, messagePacket]
  | _ :: _ :: _ :: _ =>
      have hle := getExpectedDataLength_le s
      simp only [List.length_cons] at hlen
      omega

end UmpProcessor

/-! ### Streams of messages -/

open UmpProcessor

/-- A stretch of a stream of complete messages. The flags say whether a system exclusive is open
before it and after it. -/
inductive Midi1 : Bool → List UInt8 → Bool → Prop
  | nil (b : Bool) : Midi1 b [] b
  | message {s : UInt8} {data rest : List UInt8} {b : Bool} (hs : IsMessageStatus s)
      (hlen : data.length = getExpectedDataLength s) (hdata : ∀ d ∈ data, d < midiStatusStart)
      (hrest : Midi1 false rest b) : Midi1 false (s :: (data ++ rest)) b
  | sysex {rest : List UInt8} {b : Bool} (hrest : Midi1 true rest b) :
      Midi1 false (midiSysexStart :: rest) b
  | data {d : UInt8} {rest : List UInt8} {b : Bool} (hd : d < midiStatusStart)
      (hrest : Midi1 true rest b) : Midi1 true (d :: rest) b
  | close {rest : List UInt8} {b : Bool} (hrest : Midi1 false rest b) :
      Midi1 true (midiSysexEnd :: rest) b

theorem Midi1.append {b c d : Bool} {xs ys : List UInt8} (hx : Midi1 b xs c) (hy : Midi1 c ys d) :
    Midi1 b (xs ++ ys) d := by
  induction hx with
  | nil b => exact hy
  | message hs hlen hdata _ ih =>
      rw [List.cons_append, List.append_assoc]
      exact .message hs hlen hdata (ih hy)
  | sysex _ ih => exact .sysex (ih hy)
  | data hd _ ih => exact .data hd (ih hy)
  | close _ ih => exact .close (ih hy)

/-- A byte fed to the first processor, whose packets are fed to the second one. -/
def relay : UmpProcessor × UmpProcessor → UInt8 → Emission (UmpProcessor × UmpProcessor) UInt8 :=
  pipe handleByte processUmpPacket

/-- The bytes that were fed and have not come back. -/
inductive Lag : Bool → UmpProcessor × UmpProcessor → List UInt8 → Prop
  | closed {r q : UmpProcessor} (hin : r.inSysex = false) : Lag false (r, q) []
  | unsent {r q : UmpProcessor} (hin : r.inSysex = true) (hstarted : r.sysexHasStarted = false)
      (hpos : r.sysexPos < 6) :
      Lag true (r, q) (midiSysexStart :: r.sysexBuffer.toList.take r.sysexPos)
  | started {r q : UmpProcessor} (hin : r.inSysex = true) (hstarted : r.sysexHasStarted = true)
      (hpos : r.sysexPos < 6) (hactive : q.reverseSysexActive = true) :
      Lag true (r, q) (r.sysexBuffer.toList.take r.sysexPos)

/-- The bytes come back, up to the lag. -/
def Echoes (s : UmpProcessor × UmpProcessor) (pending bytes : List UInt8) (b : Bool) : Prop :=
  ∃ pending' : List UInt8, Lag b (feed relay s bytes).state pending' ∧
    pending ++ bytes = (feed relay s bytes).out ++ pending'

section Relay

variable {r q : UmpProcessor} {s : UmpProcessor × UmpProcessor} {pending : List UInt8}
  {b c : Bool}

theorem Echoes.append {xs ys : List UInt8} (hx : Echoes s pending xs b)
    (hy : ∀ {s' : UmpProcessor × UmpProcessor} {pending' : List UInt8},
      Lag b s' pending' → Echoes s' pending' ys c) : Echoes s pending (xs ++ ys) c := by
  obtain ⟨pending', hlag, hxs⟩ := hx
  obtain ⟨pending'', hlag', hys⟩ := hy hlag
  refine ⟨pending'', ?_, ?_⟩
  · rw [feed_append]
    exact hlag'
  · calc pending ++ (xs ++ ys) = ((feed relay s xs).out ++ pending') ++ ys := by
          rw [← hxs, List.append_assoc]
      _ = (feed relay s xs).out ++ ((feed relay (feed relay s xs).state ys).out ++ pending'') := by
          rw [List.append_assoc, hys]
      _ = (feed relay s (xs ++ ys)).out ++ pending'' := by
          rw [feed_append, ← List.append_assoc]
          rfl

theorem take_getD {data : List UInt8} {n : Nat} (hlen : data.length = n) (hle : n ≤ 2) :
    [data.getD 0 0, data.getD 1 0].take n = data := by
  match data with
  | [] => simp [← hlen]
  | [_] => simp [← hlen]
  | [_, _] => simp [← hlen]
  | _ :: _ :: _ :: _ =>
      simp only [List.length_cons] at hlen
      omega

/-- A message comes back as soon as its last byte is fed. -/
theorem feed_relay_message {m : UInt8} {data : List UInt8} (hs : IsMessageStatus m)
    (hlen : data.length = getExpectedDataLength m) (hdata : ∀ d ∈ data, d < midiStatusStart)
    (hin : r.inSysex = false) :
    ∃ r' : UmpProcessor, r'.inSysex = false ∧
      feed relay (r, q) (m :: data) = ⟨m :: data, (r', q)⟩ := by
  obtain ⟨r', hin', hfeed⟩ : ∃ r' : UmpProcessor, r'.inSysex = false ∧
      feed handleByte r (m :: data) =
        ⟨[r.voicePacket m (data.getD 0 0) (data.getD 1 0)], r'⟩ := by
    by_cases hrt : midiRealtimeStart ≤ m
    · have hhigh : ¬ m < midiSystemCommonEnd := by
        simp only [midiRealtimeStart, midiSystemCommonEnd] at *
        grind
      have hzero : getExpectedDataLength m = 0 := by
        simp only [getExpectedDataLength, midiRealtimeStart, midiSystemCommonEnd] at *
        grind
      obtain rfl : data = [] := List.eq_nil_of_length_eq_zero (hlen.trans hzero)
      refine ⟨r, hin, ?_⟩
      rw [feed_singleton, handleByte_realTime hrt, voicePacket, if_neg hhigh]
      rfl
    · exact feed_message hs (UInt8.not_le.mp hrt) hlen hdata
  refine ⟨r', hin', ?_⟩
  rw [relay, feed_pipe, hfeed, feed_singleton, processUmpPacket_voice hs,
    take_getD hlen (getExpectedDataLength_le m)]

theorem echoes_message {m : UInt8} {data : List UInt8} (hlag : Lag false s pending)
    (hs : IsMessageStatus m) (hlen : data.length = getExpectedDataLength m)
    (hdata : ∀ d ∈ data, d < midiStatusStart) : Echoes s pending (m :: data) false := by
  cases hlag with
  | @closed r q hin =>
      obtain ⟨r', hin', hfeed⟩ := feed_relay_message (q := q) hs hlen hdata hin
      refine ⟨[], ?_, ?_⟩
      · rw [hfeed]
        exact .closed hin'
      · rw [hfeed, List.nil_append, List.append_nil]

theorem echoes_sysex (hlag : Lag false s pending) : Echoes s pending [midiSysexStart] true := by
  cases hlag with
  | @closed r q hin =>
      have hbyte : r.handleByte midiSysexStart = .silent { r with
          cvPos := 0
          inSysex := true
          sysexPos := 0
          sysexHasStarted := false
          runningStatus := 0 } := by
        rw [handleByte_status (by decide) (by decide), handleStatusByte, if_pos rfl]
      refine ⟨[midiSysexStart], ?_, ?_⟩
      · rw [relay, feed_pipe, feed_singleton, hbyte]
        exact .unsent rfl rfl (Nat.succ_pos 5)
      · rw [relay, feed_pipe, feed_singleton, hbyte]
        rfl

/-- A data byte goes to the buffer, and a full buffer is sent. -/
theorem processSysExData_eq (d : UInt8) (hpos : r.sysexPos < 6) :
    r.processSysExData d =
      let r' : UmpProcessor := { r with
        sysexBuffer := r.sysexBuffer.set r.sysexPos d hpos
        sysexPos := r.sysexPos + 1 }
      if r.sysexPos = 5 then
        ⟨[r'.sysexPacket (if r.sysexHasStarted then sysexStatusContinue else sysexStatusStart) 6],
          { r' with sysexPos := 0, sysexHasStarted := true }⟩
      else .silent r' := by
  have hsize : sysexBufferSize = 6 := rfl
  rw [processSysExData, dif_pos hpos]
  dsimp only
  by_cases hfull : r.sysexPos = 5
  · rw [if_pos (by omega), if_pos hfull, dispatchSysExPacket_eq _ (le_refl 6)]
    rfl
  · rw [if_neg (by omega), if_neg hfull]

theorem take_set {v : Vector UInt8 6} {i : Nat} (d : UInt8) (hi : i < 6) :
    (v.set i d hi).toList.take (i + 1) = v.toList.take i ++ [d] := by
  have hlen : i < v.toList.length := by simpa using hi
  rw [Vector.toList_set, List.take_add_one, List.take_set_of_le (le_refl i),
    List.getElem?_set_self hlen]
  rfl

/-- The state after a data byte that does not fill the buffer. -/
def buffered (r : UmpProcessor) (d : UInt8) (hpos : r.sysexPos < 6) : UmpProcessor :=
  { r with sysexBuffer := r.sysexBuffer.set r.sysexPos d hpos, sysexPos := r.sysexPos + 1 }

theorem relay_data {d : UInt8} (hd : d < midiStatusStart) (hin : r.inSysex = true)
    (hpos : r.sysexPos < 6) :
    feed relay (r, q) [d] =
      if r.sysexPos = 5 then
        let sent := q.sysexEffect
          (if r.sysexHasStarted then sysexStatusContinue else sysexStatusStart)
          (r.sysexBuffer.toList.take r.sysexPos ++ [d])
        ⟨sent.out, ({ buffered r d hpos with sysexPos := 0, sysexHasStarted := true }, sent.state)⟩
      else .silent (buffered r d hpos, q) := by
  have hbyte : r.handleByte d = r.processSysExData d := by
    rw [handleByte_data hd, handleDataByte, if_pos hin]
  rw [relay, feed_pipe, feed_singleton, hbyte, processSysExData_eq d hpos]
  by_cases hfull : r.sysexPos = 5
  · have hstatus : (if r.sysexHasStarted then sysexStatusContinue else sysexStatusStart).toNat <
        2 ^ 4 := by
      split <;> decide
    have hdata : (buffered r d hpos).sysexBuffer.toList.take 6 =
        r.sysexBuffer.toList.take r.sysexPos ++ [d] := by
      have hsix : 6 = r.sysexPos + 1 := by omega
      rw [← take_set d hpos]
      exact congrArg (fun n => List.take n _) hsix
    rw [if_pos hfull, if_pos hfull, feed_singleton, processUmpPacket_sysex hstatus (le_refl 6)]
    rw [← hdata]
    rfl
  · rw [if_neg hfull, if_neg hfull]
    rfl

theorem echoes_data {d : UInt8} (hlag : Lag true s pending) (hd : d < midiStatusStart) :
    Echoes s pending [d] true := by
  unfold Echoes
  cases hlag with
  | @unsent r q hin hstarted hpos =>
      have hdata := take_set (v := r.sysexBuffer) d hpos
      rw [relay_data hd hin hpos, hstarted]
      by_cases hfull : r.sysexPos = 5
      · rw [if_pos hfull]
        exact ⟨[], .started hin rfl (Nat.succ_pos 5) rfl, by simp⟩
      · rw [if_neg hfull]
        refine ⟨_, .unsent hin hstarted (?_ : r.sysexPos + 1 < 6), ?_⟩
        · omega
        · change _ = [] ++ (midiSysexStart :: List.take (r.sysexPos + 1) _)
          rw [buffered, hdata]
          rfl
  | @started r q hin hstarted hpos hactive =>
      have hdata := take_set (v := r.sysexBuffer) d hpos
      rw [relay_data hd hin hpos, hstarted]
      by_cases hfull : r.sysexPos = 5
      · rw [if_pos hfull]
        refine ⟨[], .started hin rfl (Nat.succ_pos 5) hactive, ?_⟩
        simp [hactive]
      · rw [if_neg hfull]
        refine ⟨_, .started hin hstarted (?_ : r.sysexPos + 1 < 6) hactive, ?_⟩
        · omega
        · change _ = [] ++ List.take (r.sysexPos + 1) _
          rw [buffered, hdata]
          rfl

/-- The state after a system exclusive has been closed. -/
def finished (r : UmpProcessor) : UmpProcessor :=
  { r with
    cvPos := 0
    sysexPos := 0
    sysexHasStarted := false
    inSysex := false
    runningStatus := 0 }

theorem relay_close (hin : r.inSysex = true) (hpos : r.sysexPos < 6) :
    feed relay (r, q) [midiSysexEnd] =
      let sent := q.sysexEffect (if r.sysexHasStarted then sysexStatusEnd else sysexStatusComplete)
        (r.sysexBuffer.toList.take r.sysexPos)
      ⟨sent.out, (finished r, sent.state)⟩ := by
  have hbyte : r.handleByte midiSysexEnd =
      ⟨[r.sysexPacket (if r.sysexHasStarted then sysexStatusEnd else sysexStatusComplete)
        r.sysexPos], finished r⟩ := by
    rw [handleByte_status (by decide) (by decide), handleStatusByte, if_neg (by decide),
      if_pos rfl, if_pos hin, finalizeSysEx]
    dsimp only
    rw [dispatchSysExPacket_eq _ hpos.le]
    rfl
  have hstatus : (if r.sysexHasStarted then sysexStatusEnd else sysexStatusComplete).toNat <
      2 ^ 4 := by
    split <;> decide
  rw [relay, feed_pipe, feed_singleton, hbyte, feed_singleton,
    processUmpPacket_sysex hstatus hpos.le]

theorem echoes_close (hlag : Lag true s pending) : Echoes s pending [midiSysexEnd] false := by
  unfold Echoes
  cases hlag with
  | @unsent r q hin hstarted hpos =>
      rw [relay_close hin hpos, hstarted]
      exact ⟨[], .closed rfl, by simp⟩
  | @started r q hin hstarted hpos hactive =>
      rw [relay_close hin hpos, hstarted]
      exact ⟨[], .closed rfl, by simp⟩

/-- A stream of messages comes back, up to the lag. -/
theorem echoes_stream {bytes : List UInt8} (hbytes : Midi1 b bytes c) (hlag : Lag b s pending) :
    Echoes s pending bytes c := by
  induction hbytes generalizing s pending with
  | nil b => exact ⟨pending, hlag, by simp⟩
  | message hs hlen hdata _ ih => exact (echoes_message hlag hs hlen hdata).append ih
  | sysex _ ih => exact (echoes_sysex hlag).append ih
  | data hd _ ih => exact (echoes_data hlag hd).append ih
  | close _ ih => exact (echoes_close hlag).append ih

/-- Once every message of a stream is complete, all of it has come back. -/
theorem relay_stream {bytes : List UInt8} (hbytes : Midi1 false bytes false)
    (hin : r.inSysex = false) : (feed relay (r, q) bytes).out = bytes := by
  obtain ⟨pending, hlag, hout⟩ := echoes_stream hbytes (.closed (q := q) hin)
  generalize (feed relay (r, q) bytes).state = s at hlag
  cases hlag with
  | closed _ => simpa using hout.symm

end Relay

/-! ### Emitted packets are whole -/

section Whole

variable {p : UmpProcessor}

/-- The buffer is not past its end, and every packet is whole. -/
def Whole (e : Emission UmpProcessor UmpPacket) : Prop :=
  e.state.sysexPos ≤ 6 ∧ ∀ packet ∈ e.out, Framed packet.words

theorem whole_silent (hpos : p.sysexPos ≤ 6) : Whole (.silent p) := ⟨hpos, by simp⟩

theorem framed_voicePacket (s d0 d1 : UInt8) : Framed (p.voicePacket s d0 d1).words := by
  have hfields := voicePacket_fields p s d0 d1
  by_cases hlow : s < midiSystemCommonEnd
  · rw [if_pos hlow, if_pos hlow] at hfields
    rw [voicePacket, if_pos hlow]
    exact framed_channel hfields.mt
  · rw [if_neg hlow, if_neg hlow] at hfields
    rw [voicePacket, if_neg hlow]
    exact framed_system hfields.mt

theorem framed_sysexPacket {statusCode : UInt8} (hstatus : statusCode.toNat < 2 ^ 4) {count : Nat}
    (hcount : count ≤ 6) : Framed (p.sysexPacket statusCode count).words := by
  have hlt : count.toUInt8.toNat < 2 ^ 4 := by
    simp only [Nat.toUInt8, UInt8.toNat_ofNat']
    omega
  exact framed_data (headFields _ _ p.group_lt hstatus hlt).mt _

theorem whole_dispatchWhenComplete (hpos : p.sysexPos ≤ 6) : Whole p.dispatchWhenComplete := by
  by_cases h : p.cvPos = p.expectedLen + 1
  · rw [dispatchWhenComplete_of_eq h]
    exact ⟨hpos, by simpa using framed_voicePacket _ _ _⟩
  · rw [dispatchWhenComplete_of_ne h]
    exact whole_silent hpos

theorem whole_handleChannelData (hpos : p.sysexPos ≤ 6) (d : UInt8) :
    Whole (p.handleChannelData d) := by
  unfold handleChannelData
  split
  · exact whole_dispatchWhenComplete hpos
  · split
    · exact whole_dispatchWhenComplete hpos
    · exact whole_silent hpos

theorem whole_processSysExData (hpos : p.sysexPos ≤ 6) (d : UInt8) :
    Whole (p.processSysExData d) := by
  have hafter {p : UmpProcessor} (hpos : p.sysexPos ≤ 6) :
      Whole (if p.sysexPos = sysexBufferSize then
        (p.dispatchSysExPacket (if p.sysexHasStarted then sysexStatusContinue else sysexStatusStart)
          sysexBufferSize).andThen fun p => .silent { p with sysexPos := 0, sysexHasStarted := true }
        else .silent p) := by
    split
    · rw [dispatchSysExPacket_eq _ (le_refl 6)]
      refine ⟨Nat.zero_le 6, ?_⟩
      simp only [Emission.andThen, Emission.silent_out, List.append_nil, List.forall_mem_singleton]
      apply framed_sysexPacket ?_ (le_refl 6)
      split <;> decide
    · exact whole_silent hpos
  unfold processSysExData
  apply hafter
  split
  · rename_i hlt
    exact hlt
  · exact hpos

theorem whole_handleStatusByte (hpos : p.sysexPos ≤ 6) (s : UInt8) :
    Whole (p.handleStatusByte s) := by
  by_cases hstart : s = midiSysexStart
  · rw [handleStatusByte, if_pos hstart]
    exact whole_silent (Nat.zero_le 6)
  by_cases hend : s = midiSysexEnd
  · rw [handleStatusByte, if_neg hstart, if_pos hend]
    split
    · rw [finalizeSysEx]
      dsimp only
      rw [dispatchSysExPacket_eq _ (by exact hpos)]
      refine ⟨Nat.zero_le 6, ?_⟩
      simp only [Emission.andThen, Emission.silent_out, List.append_nil, List.forall_mem_singleton]
      apply framed_sysexPacket ?_ hpos
      split <;> decide
    · exact whole_silent hpos
  · rw [handleStatusByte_message hstart hend]
    split
    · rw [dispatchChannelMessage_eq]
      refine ⟨hpos, ?_⟩
      simp only [Emission.andThen, Emission.silent_out, List.append_nil, List.forall_mem_singleton]
      exact framed_voicePacket _ _ _
    · exact whole_silent hpos

theorem whole_handleByte (hpos : p.sysexPos ≤ 6) (b : UInt8) : Whole (p.handleByte b) := by
  by_cases hrt : midiRealtimeStart ≤ b
  · have hhigh : ¬ b < midiSystemCommonEnd := by
      simp only [midiRealtimeStart, midiSystemCommonEnd] at *
      grind
    rw [handleByte_realTime hrt]
    refine ⟨hpos, ?_⟩
    have hframed := framed_voicePacket (p := p) b 0 0
    rw [voicePacket, if_neg hhigh] at hframed
    simpa using hframed
  by_cases hhigh : midiStatusStart ≤ b
  · rw [handleByte_status hhigh (UInt8.not_le.mp hrt)]
    exact whole_handleStatusByte hpos b
  · rw [handleByte_data (UInt8.not_le.mp hhigh), handleDataByte]
    split
    · exact whole_processSysExData hpos b
    · exact whole_handleChannelData hpos b

theorem processUmp_packetWords (q : UmpProcessor) {packets : List UmpPacket}
    (h : ∀ packet ∈ packets, Framed packet.words) :
    feed processUmpPacket q packets = q.processUmp (packetWords packets) := by
  have hcalls : ∀ words ∈ packets.map UmpPacket.words, Framed words := by
    intro words hwords
    obtain ⟨packet, hpacket, rfl⟩ := List.mem_map.mp hwords
    exact h packet hpacket
  calc feed processUmpPacket q packets = feed processUmp q (packets.map UmpPacket.words) :=
        (feed_map processUmp UmpPacket.words q packets).symm
    _ = q.processUmp (packets.map UmpPacket.words).flatten := processUmp_calls q hcalls
    _ = q.processUmp (packetWords packets) := by rw [packetWords, List.flatMap_def]

end Whole

end MidiFramework.Ump
