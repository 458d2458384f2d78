import MidiFramework.Ble.Session
import MidiFramework.SharedRing.Progress
import MidiFramework.Ump.WellFormed

/-!
# Events made from BLE notifications

All words that are parsed from a notification go to the clients as one event. A
message is one word, and the data of a system exclusive are two words for every
six bytes and at its end. With a running status every byte can be a message, so
the longest notifications make events that no ring of the default capacity can
hold.

## Implementation notes

How many words come out depends on the processor only through what it takes the
next byte for. `surplus` bounds the words beyond one for each byte.
-/

namespace MidiFramework.Ble

open Foundation Ump UmpProcessor SharedRing

/-- `DEFAULT_RING_BUFFER_SIZE`. -/
def defaultRingBufferSize : Nat := 2048

/-- The event that `OnNotification` gives to the callback. -/
def notificationEvent (p : UmpProcessor) (src : List UInt8) (curNs : Int64) :
    Option MidiEventInner :=
  let midi2 := packetWords (onNotification p src).out
  if midi2 = [] then none
  else some (.ofWords (if curNs < 0 then 0 else curNs.toUInt64) midi2)

/-! ### Counting words -/

/-- What data bytes are taken for: data of a message that lacks `left` of them and is followed by
messages of `again` data bytes each, or data of a system exclusive with `held` bytes in the buffer.
They are for nothing when `left` is zero. -/
inductive Expected
  | message (left again : Nat)
  | sysex (held : Nat)

namespace Expected

/-- A data byte: the words that it completes, and what the next one is taken for. -/
def data : Expected → Nat × Expected
  | .message 0 again => (0, .message 0 again)
  | .message 1 again => (1, .message again again)
  | .message (left + 2) again => (0, .message (left + 1) again)
  | .sysex held =>
      if held < 5 then (0, .sysex (held + 1))
      else if held ≤ 6 then (2, .sysex 0)
      else (0, .sysex held)

/-- The words of the last packet of a system exclusive. -/
def closing : Expected → Nat
  | .message _ _ => 0
  | .sysex _ => 2

/-- The same for a high byte. -/
def high (e : Expected) (b : UInt8) : Nat × Expected :=
  if midiRealtimeStart ≤ b then (1, e)
  else if b = midiSysexStart then (0, .sysex 0)
  else if b = midiSysexEnd then (e.closing, .message 0 0)
  else if getExpectedDataLength b = 0 then (1, .message 0 0)
  else (0, .message (getExpectedDataLength b)
    (if b < midiSystemCommonEnd then getExpectedDataLength b else 0))

def byte (e : Expected) (b : UInt8) : Nat × Expected :=
  if midiStatusStart ≤ b then e.high b else e.data

/-- The words that the bytes complete. -/
def words : Expected → List UInt8 → Nat
  | _, [] => 0
  | e, b :: bytes => (e.byte b).1 + words (e.byte b).2 bytes

end Expected

/-- The data bytes of a message under the running status. -/
def runningLength (p : UmpProcessor) : Nat :=
  if p.runningStatus = 0 then 0 else getExpectedDataLength p.runningStatus

/-- What the processor takes the next data byte for. -/
def expectedOf (p : UmpProcessor) : Expected :=
  if p.inSysex then .sysex p.sysexPos
  else if p.cvPos = 0 then .message (runningLength p) (runningLength p)
  else if p.cvPos ≤ p.expectedLen ∧ p.expectedLen ≤ 2 then
    .message (p.expectedLen + 1 - p.cvPos) (runningLength p)
  else .message 0 0

/-- The words of a notification: those that its bytes after the header complete. -/
def notificationWords (p : UmpProcessor) (src : List UInt8) : Nat :=
  (expectedOf p).words (handledBytes (src.drop 1))

section Counting

variable {p : UmpProcessor} {b : UInt8}

/-- How many words a call gives. -/
def wordCount (e : Emission UmpProcessor UmpPacket) : Nat := (packetWords e.out).length

@[simp] theorem wordCount_silent (p : UmpProcessor) : wordCount (.silent p) = 0 := rfl

theorem wordCount_andThen (e : Emission UmpProcessor UmpPacket)
    (next : UmpProcessor → Emission UmpProcessor UmpPacket) :
    wordCount (e.andThen next) = wordCount e + wordCount (next e.state) := by
  simp [wordCount, packetWords, Emission.andThen]

/-- The words that are given and what is expected then. -/
def outcome (e : Emission UmpProcessor UmpPacket) : Nat × Expected :=
  (wordCount e, expectedOf e.state)

theorem outcome_silent (p : UmpProcessor) : outcome (.silent p) = (0, expectedOf p) := rfl

theorem expectedOf_sysex (h : p.inSysex = true) : expectedOf p = .sysex p.sysexPos := if_pos h

theorem expectedOf_idle (hout : p.inSysex = false) (hpos : p.cvPos = 0) :
    expectedOf p = .message (runningLength p) (runningLength p) := by
  rw [expectedOf, if_neg (by simp [hout]), if_pos hpos]

theorem expectedOf_waiting (hout : p.inSysex = false) (hpos : 0 < p.cvPos)
    (hlen : p.cvPos ≤ p.expectedLen) (hle : p.expectedLen ≤ 2) :
    expectedOf p = .message (p.expectedLen + 1 - p.cvPos) (runningLength p) := by
  rw [expectedOf, if_neg (by simp [hout]), if_neg hpos.ne', if_pos ⟨hlen, hle⟩]

theorem expectedOf_dead (hout : p.inSysex = false) (hpos : 0 < p.cvPos)
    (h : ¬(p.cvPos ≤ p.expectedLen ∧ p.expectedLen ≤ 2)) : expectedOf p = .message 0 0 := by
  rw [expectedOf, if_neg (by simp [hout]), if_neg hpos.ne', if_neg h]

/-- A message that is complete is one word, and the running status goes on behind it. -/
theorem outcome_dispatch (hout : p.inSysex = false) (h : p.cvPos = p.expectedLen + 1) :
    outcome p.dispatchWhenComplete = (1, .message (runningLength p) (runningLength p)) := by
  rw [dispatchWhenComplete_of_eq h]
  exact congrArg (Prod.mk 1) (expectedOf_idle hout rfl)

theorem data_sysex_room {held : Nat} (h : held < 5) :
    (Expected.sysex held).data = (0, .sysex (held + 1)) := if_pos h

theorem data_sysex_last {held : Nat} (h : 5 ≤ held) (hle : held ≤ 6) :
    (Expected.sysex held).data = (2, .sysex 0) := by
  rw [Expected.data, if_neg (Nat.not_lt.mpr h), if_pos hle]

theorem data_sysex_stuck {held : Nat} (h : 6 < held) :
    (Expected.sysex held).data = (0, .sysex held) := by
  rw [Expected.data, if_neg (by omega), if_neg (by omega)]

theorem outcome_processSysExData (hin : p.inSysex = true) (b : UInt8) :
    outcome (p.processSysExData b) = (Expected.sysex p.sysexPos).data := by
  rcases Nat.lt_or_ge p.sysexPos 6 with hroom | hfull
  · rw [processSysExData_eq b hroom]
    dsimp only
    by_cases hlast : p.sysexPos = 5
    · rw [if_pos hlast, data_sysex_last hlast.ge hroom.le]
      refine congrArg (Prod.mk 2) (expectedOf_sysex ?_)
      exact hin
    · rw [if_neg hlast, data_sysex_room (by omega), outcome_silent]
      refine congrArg (Prod.mk 0) (expectedOf_sysex ?_)
      exact hin
  · rw [processSysExData, dif_neg (Nat.not_lt.mpr hfull)]
    by_cases hlast : p.sysexPos = sysexBufferSize
    · rw [if_pos hlast, data_sysex_last (Nat.le_of_succ_le hfull) hlast.le]
      refine congrArg (Prod.mk 2) (expectedOf_sysex ?_)
      exact hin
    · rw [if_neg hlast, data_sysex_stuck (Nat.lt_of_le_of_ne hfull (Ne.symm hlast)), outcome_silent,
        expectedOf_sysex hin]

/-- The first data byte under a running status. -/
theorem outcome_running (hout : p.inSysex = false) (hpos : p.cvPos = 0)
    (hrunning : p.runningStatus ≠ 0) (b : UInt8) :
    outcome (p.handleChannelData b) = (expectedOf p).data := by
  have hle := getExpectedDataLength_le p.runningStatus
  have hlen : runningLength p = getExpectedDataLength p.runningStatus := if_neg hrunning
  rw [expectedOf_idle hout hpos, handleChannelData, if_pos ⟨hpos, hrunning⟩, ← hlen]
  rw [← hlen] at hle
  generalize hq : ({ p with
    cvBuffer := (p.cvBuffer.set 0 p.runningStatus).set 1 b
    cvPos := 2
    expectedLen := runningLength p } : UmpProcessor) = q
  obtain ⟨hqout, hqpos, hqlen, hqrun⟩ : q.inSysex = false ∧ q.cvPos = 2 ∧
      q.expectedLen = runningLength p ∧ runningLength q = runningLength p := by
    subst hq
    exact ⟨hout, rfl, rfl, rfl⟩
  obtain hn | hn | hn : runningLength p = 0 ∨ runningLength p = 1 ∨ runningLength p = 2 := by
    omega
  · rw [dispatchWhenComplete_of_ne (by omega), outcome_silent,
      expectedOf_dead hqout (by omega) (by omega), hn]
    rfl
  · rw [outcome_dispatch hqout (by omega), hqrun, hn]
    rfl
  · rw [dispatchWhenComplete_of_ne (by omega), outcome_silent,
      expectedOf_waiting hqout (by omega) (by omega) (by omega), hqlen, hqpos, hqrun, hn]
    rfl

/-- A data byte of a message that has begun. -/
theorem outcome_collecting (hout : p.inSysex = false) (hpos : 0 < p.cvPos) (b : UInt8) :
    outcome (p.handleChannelData b) = (expectedOf p).data := by
  rw [handleChannelData, if_neg fun h => hpos.ne' h.1]
  split
  swap
  · next hfull =>
      have hthree : ¬p.cvPos < 3 := fun h => hfull ⟨hpos, h⟩
      rw [outcome_silent, expectedOf_dead hout hpos (by omega)]
      rfl
  next hroom =>
    have hthree : p.cvPos < 3 := hroom.2
    generalize hq : ({ p with
      cvBuffer := p.cvBuffer.set p.cvPos b hroom.2
      cvPos := p.cvPos + 1 } : UmpProcessor) = q
    obtain ⟨hqout, hqpos, hqlen, hqrun⟩ : q.inSysex = false ∧ q.cvPos = p.cvPos + 1 ∧
        q.expectedLen = p.expectedLen ∧ runningLength q = runningLength p := by
      subst hq
      exact ⟨hout, rfl, rfl, rfl⟩
    by_cases hlen : p.cvPos ≤ p.expectedLen ∧ p.expectedLen ≤ 2
    · rw [expectedOf_waiting hout hpos hlen.1 hlen.2]
      by_cases hlast : p.cvPos = p.expectedLen
      · have hone : p.expectedLen + 1 - p.cvPos = 1 := by omega
        rw [outcome_dispatch hqout (by omega), hone, hqrun]
        rfl
      · have htwo : p.expectedLen + 1 - p.cvPos = 2 := by omega
        have hone : q.expectedLen + 1 - q.cvPos = 1 := by omega
        rw [dispatchWhenComplete_of_ne (by omega), outcome_silent,
          expectedOf_waiting hqout (by omega) (by omega) (by omega), hone, htwo, hqrun]
        rfl
    · rw [expectedOf_dead hout hpos hlen, dispatchWhenComplete_of_ne (by omega), outcome_silent,
        expectedOf_dead hqout (by omega) (by omega)]
      rfl

theorem outcome_handleDataByte (p : UmpProcessor) (b : UInt8) :
    outcome (p.handleDataByte b) = (expectedOf p).data := by
  unfold handleDataByte
  split
  · next hin =>
      rw [expectedOf_sysex hin]
      exact outcome_processSysExData hin b
  · next hin =>
      have hout : p.inSysex = false := Bool.eq_false_of_not_eq_true hin
      rcases Nat.eq_zero_or_pos p.cvPos with hpos | hpos
      · by_cases hrunning : p.runningStatus = 0
        · have hnone : runningLength p = 0 := if_pos hrunning
          have hbegun : ¬(0 < p.cvPos ∧ p.cvPos < cvBufferSize) := fun h => h.1.ne' hpos
          rw [handleChannelData, if_neg fun h => h.2 hrunning, dif_neg hbegun, outcome_silent,
            expectedOf_idle hout hpos, hnone]
          rfl
        · exact outcome_running hout hpos hrunning b
      · exact outcome_collecting hout hpos b

theorem closing_of_outside (hout : p.inSysex = false) : (expectedOf p).closing = 0 := by
  rw [expectedOf, if_neg (by simp [hout])]
  split
  · rfl
  split <;> rfl

/-- An end of system exclusive gives the last packet of an open one. -/
theorem outcome_sysexEnd (p : UmpProcessor) :
    outcome (p.handleStatusByte midiSysexEnd) = ((expectedOf p).closing, .message 0 0) := by
  rw [handleStatusByte, if_neg (by decide), if_pos rfl]
  dsimp only
  split
  · next hin =>
      rw [expectedOf_sysex hin]
      rfl
  · next hin =>
      have hout : p.inSysex = false := Bool.eq_false_of_not_eq_true hin
      rw [outcome_silent, closing_of_outside hout]
      refine congrArg (Prod.mk 0) (expectedOf_idle ?_ ?_)
      · exact hout
      · rfl

/-- A status byte begins a message, or is one. -/
theorem outcome_begun (hb : midiStatusStart ≤ b) (hstart : b ≠ midiSysexStart)
    (hend : b ≠ midiSysexEnd) : outcome (p.handleStatusByte b) =
      if getExpectedDataLength b = 0 then (1, .message 0 0)
      else (0, .message (getExpectedDataLength b)
        (if b < midiSystemCommonEnd then getExpectedDataLength b else 0)) := by
  have hle := getExpectedDataLength_le b
  rw [handleStatusByte_message hstart hend]
  split
  · next hnone =>
      have hsystem : ¬b < midiSystemCommonEnd := by
        intro hvoice
        rw [getExpectedDataLength, if_pos hvoice] at hnone
        split at hnone <;> contradiction
      have hrunning : runningLength (p.begun b) = 0 := by
        rw [runningLength, UmpProcessor.begun, if_neg hsystem, if_pos rfl]
      refine congrArg (Prod.mk 1) ((expectedOf_idle ?_ ?_).trans ?_)
      · rfl
      · rfl
      · exact congrArg (fun k => Expected.message k k) hrunning
  · next hsome =>
      have hrunning : runningLength (p.begun b) =
          if b < midiSystemCommonEnd then getExpectedDataLength b else 0 := by
        rw [runningLength, UmpProcessor.begun]
        by_cases hvoice : b < midiSystemCommonEnd
        · have hne : b ≠ 0 := fun hzero => absurd (hzero ▸ hb) (by decide)
          rw [if_pos hvoice, if_neg hne, if_pos hvoice]
        · rw [if_neg hvoice, if_pos rfl, if_neg hvoice]
      have hwaiting : expectedOf (p.begun b) =
          .message (getExpectedDataLength b + 1 - 1) (runningLength (p.begun b)) :=
        expectedOf_waiting rfl Nat.one_pos (Nat.one_le_iff_ne_zero.mpr hsome) hle
      rw [outcome_silent, hwaiting, hrunning, Nat.add_sub_cancel]

theorem outcome_handleStatusByte (p : UmpProcessor) (hb : midiStatusStart ≤ b)
    (hlow : b < midiRealtimeStart) : outcome (p.handleStatusByte b) = (expectedOf p).high b := by
  rw [Expected.high, if_neg (UInt8.not_le.mpr hlow)]
  by_cases hstart : b = midiSysexStart
  · rw [if_pos hstart, handleStatusByte, if_pos hstart]
    rfl
  rw [if_neg hstart]
  by_cases hend : b = midiSysexEnd
  · rw [if_pos hend, hend]
    exact outcome_sysexEnd p
  · rw [if_neg hend]
    exact outcome_begun hb hstart hend

/-- The count of a byte is what the processor gives for it. -/
theorem outcome_handleByte (p : UmpProcessor) (b : UInt8) :
    outcome (p.handleByte b) = (expectedOf p).byte b := by
  unfold Expected.byte
  split
  · next hb =>
      by_cases hrt : midiRealtimeStart ≤ b
      · rw [handleByte_realTime hrt, Expected.high, if_pos hrt]
        rfl
      · rw [handleByte_status hb (UInt8.not_le.mp hrt)]
        exact outcome_handleStatusByte p hb (UInt8.not_le.mp hrt)
  · next hb =>
      rw [handleByte_data (UInt8.not_le.mp hb)]
      exact outcome_handleDataByte p b

theorem feed_words (p : UmpProcessor) (bytes : List UInt8) :
    wordCount (feed handleByte p bytes) = (expectedOf p).words bytes := by
  induction bytes generalizing p with
  | nil => rfl
  | cons b bytes ih =>
      obtain ⟨hcount, hnext⟩ := Prod.ext_iff.mp (outcome_handleByte p b)
      rw [feed_cons, wordCount_andThen, ih, Expected.words, ← hcount, ← hnext]
      rfl

theorem processBytes_words (p : UmpProcessor) (bytes : List UInt8) :
    wordCount (p.processBytes bytes) = (expectedOf p).words (handledBytes bytes) := by
  rw [processBytes_handled, feed_words]

end Counting

/-! ### The worst case -/

section Bound

/-- How many words `n` bytes give beyond one for each byte, with so many bytes of a system exclusive
in the buffer: a full buffer and the end of the message give two words each. -/
def sysexSurplus (held n : Nat) : Int :=
  if n = 0 then 0
  else if n = 1 then 1
  else if held = 5 ∨ held = 6 then if n ≤ 3 then 2 else if n ≤ 5 then 1 else 0
  else if held = 4 then if 3 ≤ n ∧ n ≤ 5 then 1 else 0
  else if held = 3 ∨ n ≤ 3 then 0
  else -1

/-- The same when data bytes are for nothing. -/
def deadSurplus (n : Nat) : Int := if n ≤ 1 then 0 else -1

def surplus : Expected → Nat → Int
  | .message left _, n => if left = 0 then deadSurplus n else 0
  | .sysex held, n => sysexSurplus held n

/-- The same for a data byte and `n` bytes after it. -/
def surplusAfterData : Expected → Nat → Int
  | .message left _, n => if left = 0 then deadSurplus n - 1 else 0
  | .sysex held, n =>
      if held < 5 then sysexSurplus (held + 1) n - 1
      else if held ≤ 6 then sysexSurplus 0 n + 1
      else sysexSurplus held n - 1

/-- What a high byte does: the words it gives and what is expected after it. -/
inductive HighStep : Expected → Nat → Expected → Prop
  | realTime (e : Expected) : HighStep e 1 e
  | sysexStart (e : Expected) : HighStep e 0 (.sysex 0)
  | sysexEnd (held : Nat) : HighStep (.sysex held) 2 (.message 0 0)
  | stray (e : Expected) : HighStep e 0 (.message 0 0)
  | complete (e : Expected) : HighStep e 1 (.message 0 0)
  | begun (e : Expected) {left : Nat} (again : Nat) (h : left ≠ 0) :
      HighStep e 0 (.message left again)

variable {e e' : Expected} {words : Nat}

theorem surplus_live {left : Nat} (h : left ≠ 0) (again n : Nat) :
    surplus (.message left again) n = 0 := if_neg h

theorem deadSurplus_le (n : Nat) : deadSurplus n ≤ 0 := by
  unfold deadSurplus
  split <;> omega

theorem neg_one_le_deadSurplus (n : Nat) : -1 ≤ deadSurplus n := by
  unfold deadSurplus
  split <;> omega

theorem surplus_message_le (left again n : Nat) : surplus (.message left again) n ≤ 0 := by
  rw [surplus]
  split
  · exact deadSurplus_le n
  · exact Int.le_refl 0

theorem surplus_le_two (e : Expected) (n : Nat) : surplus e n ≤ 2 := by
  cases e with
  | message left again => exact (surplus_message_le left again n).trans (by decide)
  | sysex held =>
      change sysexSurplus held n ≤ 2
      unfold sysexSurplus
      grind

theorem surplus_le_zero (e : Expected) {n : Nat} (h : 6 ≤ n) : surplus e n ≤ 0 := by
  cases e with
  | message left again => exact surplus_message_le left again n
  | sysex held =>
      change sysexSurplus held n ≤ 0
      unfold sysexSurplus
      grind

theorem neg_one_le_surplus (e : Expected) (n : Nat) : -1 ≤ surplus e n := by
  cases e with
  | message left again =>
      rw [surplus]
      split
      · exact neg_one_le_deadSurplus n
      · decide
  | sysex held =>
      change -1 ≤ sysexSurplus held n
      unfold sysexSurplus
      grind

theorem surplus_zero (e : Expected) : surplus e 0 = 0 := by
  cases e with
  | message left again =>
      rw [surplus]
      split <;> rfl
  | sysex held => rfl

theorem zero_le_surplus_one (e : Expected) : 0 ≤ surplus e 1 := by
  cases e with
  | message left again =>
      rw [surplus]
      split
      · exact Int.le_refl 0
      · exact Int.le_refl 0
  | sysex held => exact Int.one_nonneg

theorem surplusAfterData_le (e : Expected) (n : Nat) : surplusAfterData e n ≤ surplus e (n + 1) := by
  cases e with
  | message left again =>
      rw [surplusAfterData, surplus]
      split
      · unfold deadSurplus
        grind
      · exact Int.le_refl 0
  | sysex held =>
      change (if held < 5 then sysexSurplus (held + 1) n - 1
        else if held ≤ 6 then sysexSurplus 0 n + 1
        else sysexSurplus held n - 1) ≤ sysexSurplus held (n + 1)
      unfold sysexSurplus
      grind

/-- Few bytes of a system exclusive are far from the end of a packet. -/
theorem sysexSurplus_le_one {held : Nat} (hheld : held ≤ 4) (n : Nat) : sysexSurplus held n ≤ 1 := by
  unfold sysexSurplus
  grind

/-- A system exclusive that has just ended leaves no more than the bytes after it. -/
theorem deadSurplus_le_sysexSurplus (held n : Nat) :
    deadSurplus n ≤ sysexSurplus held (n + 2) := by
  unfold deadSurplus sysexSurplus
  grind

/-- What a data byte gives, with the surplus that it leaves. -/
theorem data_surplus (e : Expected) (n : Nat) :
    e.data.1 + surplus e.data.2 n ≤ 1 + surplusAfterData e n := by
  match e with
  | .message 0 again =>
      change 0 + deadSurplus n ≤ 1 + (deadSurplus n - 1)
      omega
  | .message 1 again =>
      have hle := surplus_message_le again again n
      change 1 + surplus (.message again again) n ≤ 1 + 0
      omega
  | .message (left + 2) again =>
      change (0 : Int) + 0 ≤ 1 + 0
      decide
  | .sysex held =>
      rw [Expected.data, surplusAfterData]
      split
      · change 0 + sysexSurplus (held + 1) n ≤ _
        omega
      split
      · change 2 + sysexSurplus 0 n ≤ _
        omega
      · change 0 + sysexSurplus held n ≤ _
        omega

theorem high_step (e : Expected) (b : UInt8) : HighStep e (e.high b).1 (e.high b).2 := by
  unfold Expected.high
  split
  · exact .realTime e
  split
  · exact .sysexStart e
  split
  · cases e with
    | message left again => exact .stray _
    | sysex held => exact .sysexEnd held
  split
  · exact .complete e
  · next hsome => exact .begun e _ hsome

theorem HighStep.last (h : HighStep e words e') : (words : Int) ≤ 1 + surplus e 1 := by
  have hsurplus := zero_le_surplus_one e
  cases h with
  | sysexEnd held => exact Int.le_refl 2
  | realTime | sysexStart | stray | complete | begun => omega

/-- Two high bytes give no more than the second one alone. -/
theorem HighStep.pair (h : HighStep e words e') (n : Nat) :
    words + surplus e' n ≤ 2 + surplus e (n + 2) := by
  have hleast := neg_one_le_surplus e (n + 2)
  have hdead := deadSurplus_le n
  cases h with
  | realTime =>
      cases e with
      | message left again =>
          have hle := surplus_message_le left again n
          omega
      | sysex held =>
          change 1 + sysexSurplus held n ≤ 2 + sysexSurplus held (n + 2)
          unfold sysexSurplus
          grind
  | sysexStart =>
      have hstart := sysexSurplus_le_one (Nat.zero_le 4) n
      change 0 + sysexSurplus 0 n ≤ _
      omega
  | sysexEnd held =>
      have hend := deadSurplus_le_sysexSurplus held n
      change 2 + deadSurplus n ≤ 2 + sysexSurplus held (n + 2)
      omega
  | stray =>
      change 0 + deadSurplus n ≤ _
      omega
  | complete =>
      change 1 + deadSurplus n ≤ _
      omega
  | begun _ again hleft =>
      rw [surplus_live hleft]
      omega

/-- A high byte and a data byte. -/
theorem HighStep.afterData (h : HighStep e words e') (n : Nat) :
    words + surplusAfterData e' n ≤ 1 + surplus e (n + 2) := by
  have hleast := neg_one_le_surplus e (n + 2)
  have hdead := deadSurplus_le n
  cases h with
  | realTime =>
      cases e with
      | message left again =>
          rw [surplusAfterData]
          split
          · omega
          · next hleft =>
              rw [surplus_live hleft]
              decide
      | sysex held =>
          change 1 + (if held < 5 then sysexSurplus (held + 1) n - 1
            else if held ≤ 6 then sysexSurplus 0 n + 1
            else sysexSurplus held n - 1) ≤ 1 + sysexSurplus held (n + 2)
          unfold sysexSurplus
          grind
  | sysexStart =>
      have hstart : sysexSurplus 1 n ≤ 1 := sysexSurplus_le_one (by omega) n
      change 0 + (sysexSurplus 1 n - 1) ≤ _
      omega
  | sysexEnd held =>
      have hend := deadSurplus_le_sysexSurplus held n
      change 2 + (deadSurplus n - 1) ≤ 1 + sysexSurplus held (n + 2)
      omega
  | stray =>
      change 0 + (deadSurplus n - 1) ≤ _
      omega
  | complete =>
      change 1 + (deadSurplus n - 1) ≤ _
      omega
  | begun _ again hleft =>
      rw [surplusAfterData, if_neg hleft]
      omega

theorem byte_high {b : UInt8} (hb : midiStatusStart ≤ b) (e : Expected) : e.byte b = e.high b :=
  if_pos hb

theorem byte_data {b : UInt8} (hb : ¬midiStatusStart ≤ b) (e : Expected) : e.byte b = e.data :=
  if_neg hb

/-- The words of all bytes: the surplus bounds what goes beyond one for each, and that after data
bounds it where the first byte is one. -/
theorem words_surplus (e : Expected) (bytes : List UInt8) :
    e.words (handledBytes bytes) ≤ bytes.length + surplus e bytes.length ∧
      ∀ b rest, bytes = b :: rest → b < midiStatusStart →
        e.words (handledBytes bytes) ≤ bytes.length + surplusAfterData e rest.length := by
  induction bytes using handledBytes.induct generalizing e with
  | case1 =>
      refine ⟨?_, by simp⟩
      have hnone := surplus_zero e
      change 0 ≤ 0 + surplus e 0
      omega
  | case2 b =>
      have hone : e.words (handledBytes [b]) = (e.byte b).1 := rfl
      rw [hone]
      by_cases hb : midiStatusStart ≤ b
      · rw [byte_high hb]
        have hlast := (high_step e b).last
        refine ⟨hlast, ?_⟩
        rintro _ _ ⟨rfl, rfl⟩ hlow
        exact absurd hlow (UInt8.not_lt.mpr hb)
      · rw [byte_data hb]
        have hdata := data_surplus e 0
        have hnone := surplus_zero e.data.2
        have hafter := surplusAfterData_le e 0
        constructor
        · change _ ≤ 1 + surplus e (0 + 1)
          omega
        · rintro _ _ ⟨rfl, rfl⟩ -
          change _ ≤ 1 + surplusAfterData e 0
          omega
  | case3 b next rest hb hnext ih =>
      rw [handledBytes, if_pos hb, if_pos hnext, Expected.words, byte_high hnext]
      have hpair := (high_step e next).pair rest.length
      have hrest := (ih (e.high next).2).1
      have hlen : (b :: next :: rest).length = rest.length + 2 := rfl
      constructor
      · rw [hlen]
        omega
      · rintro _ _ ⟨rfl, rfl⟩ hlow
        exact absurd hlow (UInt8.not_lt.mpr hb)
  | case4 b next rest hb hnext ih =>
      rw [handledBytes, if_pos hb, if_neg hnext, Expected.words, byte_high hb]
      have hpair := (high_step e b).afterData rest.length
      have hrest := (ih (e.high b).2).2 next rest rfl (UInt8.not_le.mp hnext)
      have hlen : (b :: next :: rest).length = rest.length + 2 := rfl
      have hlen' : (next :: rest).length = rest.length + 1 := rfl
      constructor
      · rw [hlen]
        rw [hlen'] at hrest
        omega
      · rintro _ _ ⟨rfl, rfl⟩ hlow
        exact absurd hlow (UInt8.not_lt.mpr hb)
  | case5 b next rest hb ih =>
      rw [handledBytes, if_neg hb, Expected.words, byte_data hb]
      have hdata := data_surplus e (next :: rest).length
      have hafter := surplusAfterData_le e (next :: rest).length
      have hrest := (ih e.data.2).1
      constructor
      · simp only [List.length_cons, Nat.cast_add, Nat.cast_one] at hdata hafter hrest ⊢
        omega
      · rintro _ _ ⟨rfl, rfl⟩ -
        simp only [List.length_cons, Nat.cast_add, Nat.cast_one] at hdata hrest ⊢
        omega

/-- Six bytes and more give no more words than bytes, and fewer at most two more. -/
theorem words_handledBytes_le (e : Expected) (bytes : List UInt8) :
    (6 ≤ bytes.length → e.words (handledBytes bytes) ≤ bytes.length) ∧
      e.words (handledBytes bytes) ≤ bytes.length + 2 := by
  have hwords := (words_surplus e bytes).1
  constructor
  · intro h
    have hsurplus := surplus_le_zero e h
    omega
  · have hsurplus := surplus_le_two e bytes.length
    omega

end Bound

/-! ### The client ring -/

section Deliverable

variable {p : UmpProcessor} {src : List UInt8} {curNs : Int64} {σ : SharedRing.Session} {n : Nat}

theorem validateOneEvent_ofWords (timestamp : UInt64) (ws : List UInt32) :
    validateOneEvent defaultRingBufferSize (.ofWords timestamp ws) = true ↔ ws.length ≤ 504 := by
  have hlimit : wrap32 ((defaultRingBufferSize : Int) - 1) = 2047 := by decide
  constructor
  · intro hvalid
    have hlt := (valid_size (by decide) (by decide) hvalid).2.2
    change recordSize ws.length < 2048 at hlt
    unfold recordSize at hlt
    omega
  · intro hle
    have hfits : recordSize ws.length ≤ 2047 := by
      unfold recordSize
      omega
    have hsize : getEventRecordSize (MidiEventInner.ofWords timestamp ws).length =
        some (recordSize ws.length) :=
      getEventRecordSize_eq_some.mpr ⟨rfl, Nat.lt_of_le_of_lt hfits (by decide)⟩
    rw [validateOneEvent, hlimit, hsize]
    exact decide_eq_true hfits

theorem onNotification_words (hmin : 1 < src.length) (hmax : src.length ≤ maxBleMidiDataSize) :
    (packetWords (onNotification p src).out).length = notificationWords p src := by
  rw [onNotification, if_pos ⟨hmin, hmax⟩]
  exact processBytes_words p (src.drop 1)

/-- What holds of events by their number of words holds of the event of a notification exactly if it
holds of the words that are counted. Without words there is no event. -/
theorem forall_notificationEvent {P : MidiEventInner → Prop} {Q : Nat → Prop}
    (h : ∀ timestamp ws, P (.ofWords timestamp ws) ↔ Q ws.length) (hmin : 1 < src.length)
    (hmax : src.length ≤ maxBleMidiDataSize) :
    (∀ event ∈ notificationEvent p src curNs, P event) ↔
      notificationWords p src = 0 ∨ Q (notificationWords p src) := by
  have hwords := onNotification_words (p := p) hmin hmax
  rw [notificationEvent]
  by_cases hnone : packetWords (onNotification p src).out = []
  · rw [hnone] at hwords
    rw [if_pos hnone]
    exact iff_of_true (fun _ hevent => by cases hevent) (.inl hwords.symm)
  · have hsome : notificationWords p src ≠ 0 := by
      rw [← hwords]
      exact fun hzero => hnone (List.length_eq_zero_iff.mp hzero)
    rw [if_neg hnone, or_iff_right hsome, ← hwords, ← h]
    exact ⟨fun hall => hall _ rfl, fun hevent _ heq => Option.some.inj heq ▸ hevent⟩

theorem validEvent_iff (hmin : 1 < src.length) (hmax : src.length ≤ maxBleMidiDataSize) :
    (∀ event ∈ notificationEvent p src curNs,
      validateOneEvent defaultRingBufferSize event = true) ↔ notificationWords p src ≤ 504 := by
  rw [forall_notificationEvent (Q := fun n => n ≤ 504) validateOneEvent_ofWords hmin hmax]
  omega

/-- A ring without unread records has a place for so many bytes in one piece: before the read
position, or behind it when the writer has not turned back. -/
def HasPlace (σ : SharedRing.Session) (total : Nat) : Prop :=
  total < σ.mem.readPosition.toNat ∨ σ.mem.readPosition = σ.mem.writePosition ∧
    total ≤ defaultRingBufferSize - σ.mem.readPosition.toNat

instance (σ : SharedRing.Session) (total : Nat) : Decidable (HasPlace σ total) :=
  inferInstanceAs (Decidable (_ ∨ _))

/-- Without unread records the positions are equal, or the writer stands at the start. -/
theorem positions_of_empty {ok : UInt32 → Prop} {cap r w : Nat} {d : ByteMemory}
    (h : Layout ok cap d r w []) : r = w ∨ w = 0 := by
  cases h.shape with
  | inl straight => exact .inl straight
  | inr wrapped =>
      obtain ⟨e, ys, zs, hparts, -, -, -, hzs⟩ := wrapped.parts
      rw [(List.append_eq_nil_iff.mp hparts.symm).2] at hzs
      exact .inr hzs.symm

theorem accepts_drained_iff (hreach : (sessionMachine defaultRingBufferSize).Reachable σ)
    (hdrained : σ.delivered = σ.accepted) (timestamp : UInt64) {ws : List UInt32}
    (hvalid : validateOneEvent defaultRingBufferSize (.ofWords timestamp ws) = true) :
    accepts defaultRingBufferSize (.ofWords timestamp ws) true σ = true ↔
      HasPlace σ (recordSize ws.length) := by
  have hshort := (validateOneEvent_ofWords timestamp ws).mp hvalid
  obtain ⟨s, hs⟩ := session_tracks (fun _ => True) (by decide) (by decide)
    (fun σ call _ => slotsFind_of_all (fun _ => trivial) _ _) hreach
  have hlayout := hs.settled.inv.layout
  rw [hs.unread_nil.mpr hdrained] at hlayout
  have hstands := positions_of_empty hlayout
  have hr := hlayout.read_lt
  have hsame : σ.mem.readPosition = σ.mem.writePosition ↔ s.readIndex = s.writeIndex := by
    rw [RingState.readIndex, RingState.writeIndex, hs.mem, UInt32.toNat_inj]
  have hread : σ.mem.readPosition.toNat = s.readIndex := by rw [RingState.readIndex, hs.mem]
  rw [accepts_iff (by decide) (by decide) hs hvalid, HasPlace, hsame, hread]
  change recordSize ws.length ≤ freeBytes s.readIndex s.writeIndex 2048 ∧
    (recordSize ws.length ≤ 2048 - s.writeIndex ∨ recordSize ws.length < s.readIndex) ↔
      recordSize ws.length < s.readIndex ∨
        s.readIndex = s.writeIndex ∧ recordSize ws.length ≤ 2048 - s.readIndex
  change s.readIndex < 2048 at hr
  have hsize : recordSize ws.length ≤ 2040 := by
    unfold recordSize
    omega
  unfold freeBytes usedBytes
  rcases hstands with hstands | hstands
  · rw [← hstands, if_pos (Nat.le_refl _)]
    omega
  · rw [hstands]
    split <;> omega

/-- Whatever state the processor is in, the event of a notification that passes the length check
fits into the ring exactly if the notification completes at most 504 words, and a ring without
unread records takes it exactly if it also has a place for the record in one piece. -/
theorem notification_fits_iff (hmin : 1 < src.length) (hmax : src.length ≤ maxBleMidiDataSize) :
    ((∀ event ∈ notificationEvent p src curNs,
        validateOneEvent defaultRingBufferSize event = true) ↔ notificationWords p src ≤ 504) ∧
      ∀ σ, (sessionMachine defaultRingBufferSize).Reachable σ → σ.delivered = σ.accepted →
        ((∀ event ∈ notificationEvent p src curNs,
          validateOneEvent defaultRingBufferSize event = true ∧
            accepts defaultRingBufferSize event true σ = true) ↔
          notificationWords p src = 0 ∨ notificationWords p src ≤ 504 ∧
            HasPlace σ (recordSize (notificationWords p src))) := by
  constructor
  · exact validEvent_iff hmin hmax
  · intro σ hreach hdrained
    apply forall_notificationEvent (Q := fun n => n ≤ 504 ∧ HasPlace σ (recordSize n)) ?_ hmin hmax
    intro timestamp ws
    rw [← validateOneEvent_ofWords timestamp ws]
    exact and_congr_right (accepts_drained_iff hreach hdrained timestamp)

/-- A client that has read an event without words, and a writer that has turned back for a record
that then found no place. -/
def markerLeft : SharedRing.Session :=
  [SessionOp.write (.tryWriteEvent (.ofWords 0 []) true), .readNext,
    .write (.tryWriteEvent (.ofWords 0 (List.replicate 502 0)) true)].foldl
    (fun σ op => σ.after defaultRingBufferSize op) ⟨zeroRing, [], []⟩

theorem markerLeft_reachable : (sessionMachine defaultRingBufferSize).Reachable markerLeft := by
  refine reachable_foldl ?_ (.init rfl)
  intro op hop σ
  rcases List.mem_cons.mp hop with rfl | hop
  · exact trivial
  rcases List.mem_cons.mp hop with rfl | hop
  · exact trivial
  · rw [List.mem_singleton.mp hop]
    exact trivial

/-- A note and a timing clock. -/
def noteAndClock : List UInt8 := [0x80, 0x80, 0x90, 0x3C, 0x64, 0xF8]

theorem notification_fits_note :
    (∀ event ∈ notificationEvent fresh noteAndClock 0,
      validateOneEvent defaultRingBufferSize event = true) ∧
    ¬∀ event ∈ notificationEvent fresh noteAndClock 0,
      validateOneEvent defaultRingBufferSize event = true ∧
        accepts defaultRingBufferSize event true markerLeft = true := by
  have hdrained : markerLeft.delivered = markerLeft.accepted := by decide +kernel
  obtain ⟨hvalid, htaken⟩ := @notification_fits_iff fresh noteAndClock 0 (by decide) (by decide)
  refine ⟨hvalid.mpr (by decide +kernel), ?_⟩
  rw [htaken markerLeft markerLeft_reachable hdrained]
  decide +kernel

/-- Program change with the running status `0xC0`, which takes one data byte a message. -/
def programChanges : UmpProcessor := (fresh.processBytes [0xC0, 0x00]).state

/-- A notification of zero bytes makes one word a byte out of a running program change. -/
theorem notificationWords_programChanges (n : Nat) :
    notificationWords programChanges (0x80 :: List.replicate n 0) = n := by
  have hstep : programChanges.handleByte 0 =
      ⟨[programChanges.voicePacket 0xC0 0 0], programChanges⟩ := by
    decide +kernel
  rw [notificationWords, ← processBytes_words]
  change wordCount (programChanges.processBytes (List.replicate n 0)) = n
  induction n with
  | zero => rfl
  | succ n ih =>
      rw [List.replicate_succ, processBytes_data (by decide), wordCount_andThen, hstep, ih]
      exact Nat.add_comm 1 n

/-- By the length alone, every notification fits exactly up to 505 bytes. -/
theorem notification_length_fits_iff (hmin : 1 < n) (hmax : n ≤ maxBleMidiDataSize) :
    (∀ p src curNs, src.length = n → ∀ event ∈ notificationEvent p src curNs,
      validateOneEvent defaultRingBufferSize event = true) ↔ n ≤ 505 := by
  have hfits (p : UmpProcessor) (src : List UInt8) (curNs : Int64) (hlen : src.length = n) :
      (∀ event ∈ notificationEvent p src curNs,
        validateOneEvent defaultRingBufferSize event = true) ↔ notificationWords p src ≤ 504 :=
    validEvent_iff (hlen ▸ hmin) (hlen ▸ hmax)
  constructor
  · intro h
    have hlen : (0x80 :: List.replicate (n - 1) 0 : List UInt8).length = n := by
      rw [List.length_cons, List.length_replicate]
      omega
    have hwords := (hfits programChanges _ 0 hlen).mp (h _ _ 0 hlen)
    rw [notificationWords_programChanges] at hwords
    omega
  · intro hle p src curNs hlen
    rw [hfits p src curNs hlen]
    obtain ⟨hlong, hshort⟩ := words_handledBytes_le (expectedOf p) (src.drop 1)
    rw [List.length_drop] at hlong hshort
    rw [notificationWords]
    omega

/-- The longest notification makes an event of 511 words. -/
theorem longest_notification_refused : ¬∀ (p : UmpProcessor) (src : List UInt8) (curNs : Int64),
    ∀ event ∈ notificationEvent p src curNs,
      validateOneEvent defaultRingBufferSize event = true := by
  intro h
  have hlen : (0x80 :: List.replicate 511 0 : List UInt8).length = maxBleMidiDataSize := by
    rw [List.length_cons, List.length_replicate]
    rfl
  have hwords := (validEvent_iff (by rw [hlen]; decide) hlen.le).mp
    (h programChanges (0x80 :: List.replicate 511 0) 0)
  rw [notificationWords_programChanges] at hwords
  omega

end Deliverable

end MidiFramework.Ble
