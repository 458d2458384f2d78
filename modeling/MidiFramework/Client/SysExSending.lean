import MidiFramework.Client.PortConversion
import MidiFramework.Common.FutexTool
import MidiFramework.SharedRing.Concurrent

/-!
# The send loop of a SysEx message

`SendSysExPackets` offers the packets it has not written yet, counts those that
the ring took, and waits for space when it took none. A consumer takes events
from the ring at the same time. Whatever the clock and the waits answer, the
ring has received the packets up to the count.

## Implementation notes

One round of the loop is one call of the sender, with the answers of the clock
and of the futex in its arguments. The futex word is not part of the ring's
memory, so a wait is a number of looks at the predicate and the code it ends
with when no look found space.
-/

namespace MidiFramework.Client

open Foundation Program Discipline SharedRing Common

/-- The code of a wait with a timeout. -/
inductive TimedFutexCode
  | timeout
  | code (c : FutexCode)

/-- What the clock and the futex answer in one round of the loop. -/
structure RoundAnswers where
  expired : Bool
  looks : Nat
  unavailing : TimedFutexCode

/-- `SYSEX7_WORD_COUNT`. -/
def sysex7WordCount : Nat := 2

/-- The predicate of `WaitForSpace`. -/
def hasSpace (cap neededBytes : Nat) : RingProgram Bool := do
  let r ← loadPosition .readPosition
  let w ← loadPosition .writePosition
  let free ← ringFree r w cap
  return decide (free ≥ neededBytes)

/-- `FutexWait` with a predicate that is looked at so many times. -/
def futexWait (pred : RingProgram Bool) (unavailing : TimedFutexCode) :
    (looks : Nat) → RingProgram TimedFutexCode
  | 0 => return unavailing
  | looks + 1 => do
      let found ← pred
      if found then return .code .success else futexWait pred unavailing looks

/-- What the looks at a predicate find, up to the first that finds something. -/
def looksAt (pred : RingProgram Bool) : (looks : Nat) → RingProgram (List Bool)
  | 0 => return []
  | looks + 1 => do
      let found ← pred
      if found then return [true]
      else do
        let rest ← looksAt pred looks
        return false :: rest

/-- The code of a wait whose looks found this. -/
def lookedCode (unavailing : TimedFutexCode) (found : List Bool) : TimedFutexCode :=
  if true ∈ found then .code .success else unavailing

/-- A wait is its looks. -/
theorem futexWait_eq_looksAt (pred : RingProgram Bool) (unavailing : TimedFutexCode) (looks : Nat) :
    futexWait pred unavailing looks = (do
      let found ← looksAt pred looks
      return lookedCode unavailing found) := by
  induction looks with
  | zero => rfl
  | succ looks ih =>
      rw [futexWait, looksAt, bind_bind]
      congr 1
      funext found
      cases found with
      | true => rfl
      | false =>
          simp only [Bool.false_eq_true, if_false, bind_bind]
          rw [ih]
          congr 1
          funext rest
          simp [lookedCode]

def waitForSpace (cap neededBytes : Nat) (answers : RoundAnswers) : RingProgram TimedFutexCode :=
  if neededBytes = 0 then return .code .invalidParams
  else futexWait (hasSpace cap neededBytes) answers.unavailing answers.looks

/-- Before a round, or after the loop. -/
inductive SendLoop
  | round (writtenInBatch : Nat)
  | returned (status : OHMIDIStatusCode)
  deriving DecidableEq

/-- The condition of the loop. -/
def SendLoop.enter (pktCount writtenInBatch : Nat) : SendLoop :=
  if writtenInBatch < pktCount then .round writtenInBatch else .returned .ok

/-- One round of the loop of `SendSysExPackets`. -/
def sendSysExRound (cap : Nat) (innerEvents : List MidiEventInner) (pktCount : Nat)
    (answers : RoundAnswers) (writtenInBatch : Nat) : RingProgram SendLoop :=
  if answers.expired then return .returned .timeout
  else do
    let written ← tryWriteEvents cap (some (innerEvents.drop writtenInBatch))
      (pktCount - writtenInBatch) true
    let writtenInBatch := writtenInBatch + written.eventsWritten
    if writtenInBatch = pktCount then return .returned .ok
    else if written.status ≠ .wouldBlock then return .returned (getStatusCode written.status)
    else if written.eventsWritten = 0 then
      let wret ← waitForSpace cap (sizeofEventHeader + sysex7WordCount * 4) answers
      match wret with
      | .timeout => return .enter pktCount writtenInBatch
      | .code .success => return .enter pktCount writtenInBatch
      | .code _ => return .returned .systemError
    else return .enter pktCount writtenInBatch

/-- Where the loop goes on after `TryWriteEvents`, if it does not wait for space. -/
def SendLoop.afterWrite (pktCount writtenInBatch writtenThis : Nat) (ret : MidiStatusCode) :
    Option SendLoop :=
  if writtenInBatch + writtenThis = pktCount then some (.returned .ok)
  else if ret ≠ .wouldBlock then some (.returned (getStatusCode ret))
  else if writtenThis = 0 then none
  else some (.enter pktCount (writtenInBatch + writtenThis))

/-- Where the loop goes on after `WaitForSpace`. -/
def SendLoop.afterWait (pktCount writtenInBatch : Nat) : TimedFutexCode → SendLoop
  | .timeout | .code .success => .enter pktCount writtenInBatch
  | .code _ => .returned .systemError

/-- What a round does with the answers of the ring and of the futex. -/
theorem sendSysExRound_eq (cap : Nat) (innerEvents : List MidiEventInner) (pktCount : Nat)
    (answers : RoundAnswers) (n : Nat) :
    sendSysExRound cap innerEvents pktCount answers n =
      if answers.expired then return .returned .timeout
      else do
        let written ← tryWriteEvents cap (some (innerEvents.drop n)) (pktCount - n) true
        match SendLoop.afterWrite pktCount n written.eventsWritten written.status with
        | some next => return next
        | none => do
            let wret ← waitForSpace cap (sizeofEventHeader + sysex7WordCount * 4) answers
            return SendLoop.afterWait pktCount n wret := by
  unfold sendSysExRound SendLoop.afterWrite
  congr 1
  congr 1
  funext written
  dsimp only
  by_cases hall : n + written.eventsWritten = pktCount
  · rw [if_pos hall, if_pos hall]
  rw [if_neg hall, if_neg hall]
  by_cases hstatus : written.status ≠ .wouldBlock
  · rw [if_pos hstatus, if_pos hstatus]
  rw [if_neg hstatus, if_neg hstatus]
  by_cases hnone : written.eventsWritten = 0
  · rw [if_pos hnone, if_pos hnone, hnone]
    dsimp only [Nat.add_zero]
    congr 1
    funext wret
    cases wret with
    | timeout => rfl
    | code c => cases c <;> rfl
  · rw [if_neg hnone, if_neg hnone]

/-- `SendSysExPackets` as a user of the ring. -/
def sysExSender (cap : Nat) (packets : List MidiEventInner) : Party ringInterface where
  Local := SendLoop
  Call := RoundAnswers × Nat
  Result _ := SendLoop
  program call := sendSysExRound cap packets packets.length call.1 call.2
  enabled l call := l = .round call.2
  finish _ _ next := next

/-- The ring with the sender and a consumer. -/
def sendingSystem (cap : Nat) (packets : List MidiEventInner) : TwoParty ringInterface RingState where
  exec := execTraced
  left := sysExSender cap packets
  right := consumer cap

/-- All interleavings of the sender and a consumer on a ring that received the records `before`. -/
def sendingMachine (cap : Nat) (packets : List MidiEventInner) (before : List Record) :
    Machine (sendingSystem cap packets).State
      (Party.Action ringInterface ⊕ Party.Action ringInterface) :=
  (sendingSystem cap packets).machine fun loop l s =>
    loop = .enter packets.length 0 ∧ l = ⟨none, s.removed⟩ ∧ s.appended = before ∧
      s.Inv (fun _ => True) cap

section Programs

variable {ok : UInt32 → Prop} {cap w : Nat} {A : List Record} {d : ByteMemory}

theorem triple_hasSpace (hcap : cap < 2 ^ 32) (neededBytes : Nat) :
    (writerRole ok cap).Triple (Writing ok cap w A d) (hasSpace cap neededBytes)
      fun _ s => Writing ok cap w A d s := by
  refine Triple.bind triple_loadReadPosition fun r => ?_
  refine Triple.pure fun hr => ?_
  refine Triple.bind triple_loadWritePosition fun v => ?_
  refine Triple.pure ?_
  rintro rfl
  refine Triple.given (fun s h => h.write_lt) fun hv => ?_
  refine Triple.bind (triple_ringFree (writerRole_reads ok cap) owning_stable hr hv hcap)
    fun free => ?_
  exact Triple.pure fun _ => Triple.ret owning_stable fun s h => h.toWriting

/-- Waiting leaves the ring to the consumer. -/
theorem triple_waitForSpace (hcap : cap < 2 ^ 32) (neededBytes : Nat) (answers : RoundAnswers) :
    (writerRole ok cap).Triple (Writing ok cap w A d) (waitForSpace cap neededBytes answers)
      fun _ s => Writing ok cap w A d s := by
  refine Triple.ite (fun _ => Triple.ret writing_stable fun s h => h) fun _ => ?_
  induction answers.looks with
  | zero => exact Triple.ret writing_stable fun s h => h
  | succ looks ih =>
      refine Triple.bind (triple_hasSpace hcap neededBytes) fun found => ?_
      exact Triple.ite (fun _ => Triple.ret writing_stable fun s h => h) fun _ => ih

theorem getStatusCode_eq_ok {status : MidiStatusCode} :
    getStatusCode status = .ok ↔ status = .ok := by
  cases status <;> simp [getStatusCode]

/-- `TryWriteEvents` reports success only if it wrote all events. -/
theorem tryWriteEvents_always (cap : Nat) (events : Option (List MidiEventInner))
    (eventCount : Nat) (notify : Bool) :
    (tryWriteEvents cap events eventCount notify).Always (fun _ => True)
      fun r => r.status = .ok → r.eventsWritten = eventCount := by
  unfold tryWriteEvents
  dsimp only
  split
  · next hstatus => exact Always.ret fun h => absurd h hstatus
  refine Always.bind (Always.trivial _) fun r _ => Always.bind (Always.trivial _) fun v _ => ?_
  split
  · exact Always.ret nofun
  refine Always.bind (Always.trivial _) fun m _ => ?_
  split
  · next hzero =>
      refine Always.ret fun h => ?_
      by_contra hne
      rw [if_neg (Ne.symm hne)] at h
      cases h
  · refine Always.ret fun h => ?_
    by_contra hne
    rw [if_neg hne] at h
    cases h

end Programs

section Rounds

variable {cap : Nat} {packets : List MidiEventInner} {before : List Record}

/-- The loop stands where `n` of `pktCount` packets are written, and ended with success only if
that is all of them. -/
def SendLoop.At (pktCount n : Nat) : SendLoop → Prop
  | .round writtenInBatch => writtenInBatch = n ∧ n < pktCount
  | .returned status => status = .ok ↔ n = pktCount

theorem SendLoop.at_enter {pktCount n : Nat} (h : n ≤ pktCount) :
    (SendLoop.enter pktCount n).At pktCount n := by
  unfold SendLoop.enter
  split
  · next hlt => exact ⟨rfl, hlt⟩
  · exact iff_of_true rfl (by omega)

theorem SendLoop.at_returned {pktCount n : Nat} {status : OHMIDIStatusCode}
    (h : status = .ok ↔ n = pktCount) : (SendLoop.returned status).At pktCount n := h

/-- After the records `before`, the ring has received the first `n` packets. -/
def Received (cap : Nat) (packets : List MidiEventInner) (before : List Record) (n : Nat)
    (s : RingState) : Prop :=
  ∃ A w d, Writing (fun _ => True) cap w (before ++ A) d s ∧ n ≤ packets.length ∧
    A.map Record.toMidiEvent = (packets.take n).map MidiEventInner.toMidiEvent

/-- The packets received and the place of the loop fit together. -/
def Sending (cap : Nat) (packets : List MidiEventInner) (before : List Record) (loop : SendLoop)
    (s : RingState) : Prop :=
  ∃ n, loop.At packets.length n ∧ Received cap packets before n s

theorem received_stable {n : Nat} :
    (writerRole (fun _ => True) cap).Stable (Received cap packets before n) := by
  rintro s t hr ⟨A, w, d, h, hn, hA⟩
  exact ⟨A, w, d, writing_stable s t hr h, hn, hA⟩

theorem sending_stable {loop : SendLoop} :
    (writerRole (fun _ => True) cap).Stable (Sending cap packets before loop) := by
  rintro s t hr ⟨n, hloop, h⟩
  exact ⟨n, hloop, received_stable s t hr h⟩

/-- The packets of one more call come right after those received so far. -/
theorem received_of_wrote {n k : Nat} {A : List Record} {s : RingState}
    (hn : n ≤ packets.length)
    (hA : A.map Record.toMidiEvent = (packets.take n).map MidiEventInner.toMidiEvent)
    (h : Wrote (fun _ => True) cap (before ++ A) (packets.drop n) k s) :
    Received cap packets before (n + k) s := by
  obtain ⟨hk, B, w, d, hs, hB⟩ := h
  rw [List.length_drop] at hk
  rw [List.append_assoc] at hs
  refine ⟨A ++ B, w, d, hs, by omega, ?_⟩
  calc (A ++ B).map Record.toMidiEvent
      = (packets.take n).map MidiEventInner.toMidiEvent ++
          ((packets.drop n).take k).map MidiEventInner.toMidiEvent := by
        rw [List.map_append, hA, hB]
    _ = (packets.take (n + k)).map MidiEventInner.toMidiEvent := by
        rw [← List.map_append, List.take_add]

/-- A round goes on behind the packets it wrote. -/
theorem triple_sendSysExRound (hcap : cap < 2 ^ 32) (answers : RoundAnswers) {n : Nat}
    (hn : n < packets.length) :
    (writerRole (fun _ => True) cap).Triple (Received cap packets before n)
      (sendSysExRound cap packets packets.length answers n) (Sending cap packets before) := by
  have hstop : ∀ {m : Nat} {next : SendLoop}, next.At packets.length m →
      (writerRole (fun _ => True) cap).Triple (Received cap packets before m) (ret next)
        (Sending cap packets before) :=
    fun hnext => Triple.ret received_stable fun s h => ⟨_, hnext, h⟩
  unfold sendSysExRound
  refine Triple.ite (fun _ => hstop (SendLoop.at_returned (iff_of_false nofun hn.ne))) fun _ => ?_
  rintro s ⟨A, w, d, hs, hle, hA⟩
  have hwrite := (triple_tryWriteEvents hcap (fun _ => True.intro)
    (some (packets.drop n)) (packets.length - n) true s hs).always
      (tryWriteEvents_always cap _ _ true)
  refine Sat.bind hwrite ?_
  rintro written t ⟨hok, hwrote⟩
  have htake : (packets.drop n).take (packets.length - n) = packets.drop n := by
    rw [← List.length_drop, List.take_length]
  rw [Option.getD_some, htake] at hwrote
  have hreceived := received_of_wrote hle hA hwrote
  have hle' : n + written.eventsWritten ≤ packets.length := by
    obtain ⟨_, _, _, _, hle', _⟩ := hreceived
    exact hle'
  have henter := hstop (SendLoop.at_enter hle')
  by_cases hall : n + written.eventsWritten = packets.length
  · rw [if_pos hall]
    exact hstop (SendLoop.at_returned (iff_of_true rfl hall)) t hreceived
  rw [if_neg hall]
  by_cases hstatus : written.status = .wouldBlock
  swap
  · rw [if_pos hstatus]
    refine hstop (SendLoop.at_returned (iff_of_false ?_ hall)) t hreceived
    intro hcode
    have hwritten := hok (getStatusCode_eq_ok.mp hcode)
    omega
  rw [if_neg (not_not.mpr hstatus)]
  by_cases hnone : written.eventsWritten = 0
  swap
  · rw [if_neg hnone]
    exact henter t hreceived
  rw [if_pos hnone]
  obtain ⟨B, v, e, ht, -, hB⟩ := hreceived
  refine Sat.bind (triple_waitForSpace hcap _ answers t ht) ?_
  intro wret u hu
  have hwaited : Received cap packets before (n + written.eventsWritten) u :=
    ⟨B, v, e, hu, hle', hB⟩
  split
  · exact henter u hwaited
  · exact henter u hwaited
  · refine hstop (SendLoop.at_returned (iff_of_false ?_ hall)) u hwaited
    decide

def sysExSenderProof (hcap : cap < 2 ^ 32) (packets : List MidiEventInner)
    (before : List Record) :
    TwoParty.Proof (sysExSender cap packets) (writerRole (fun _ => True) cap) where
  At := Sending cap packets before
  post _ _ next s := Sending cap packets before next s
  stable _ := sending_stable
  call := by
    rintro loop ⟨answers, n⟩ rfl s ⟨m, ⟨rfl, hn⟩, hs⟩
    exact triple_sendSysExRound hcap answers hn s hs
  back _ _ _ _ h := h

end Rounds

section Interleavings

variable {cap : Nat} {packets : List MidiEventInner} {before : List Record}

theorem sendingMachine_sound (hcap : cap < 2 ^ 31) (σ : (sendingSystem cap packets).State)
    (reach : (sendingMachine cap packets before).Reachable σ) :
    TwoParty.Holds (W := sendingSystem cap packets)
      (sysExSenderProof (by omega) packets before) (consumerProof (fun _ => True) hcap) σ := by
  refine TwoParty.sound rfl rfl
    (fun c s t (h : WriterGuarantee (fun _ => True) cap c s t) => h.moves)
    (fun c s t (h : ReaderGuarantee (fun _ => True) cap c s t) => h.moves) ?_ reach
  rintro loop l s ⟨rfl, rfl, rfl, hinv⟩
  refine ⟨⟨0, SendLoop.at_enter (Nat.zero_le _), [], s.writeIndex, s.mem.data, ?_,
    Nat.zero_le _, rfl⟩, s.readIndex, s.appended.take s.removed, ?_, ?_, nofun⟩
  · exact ⟨hinv, rfl, (List.append_nil _).symm, rfl⟩
  · exact ⟨hinv, rfl, rfl, List.nil_prefix⟩
  · exact List.length_take_of_le hinv.removed_le

variable {loop : SendLoop} {s : RingState} {sent : List Record}

/-- Between the rounds the place of the loop is the number of packets received. -/
theorem Sending.at_length (h : Sending cap packets before loop s)
    (hsent : s.appended = before ++ sent) : loop.At packets.length sent.length := by
  obtain ⟨n, hloop, A, w, d, hw, hn, hA⟩ := h
  obtain rfl : A = sent := List.append_cancel_left (hw.appended.symm.trans hsent)
  have hlength := congrArg List.length hA
  rw [List.length_map, List.length_map, List.length_take_of_le hn] at hlength
  rwa [hlength]

/-- In the middle of a round, the rest of it would only add to what the ring has received. -/
theorem sent_of_sat {rest : RingProgram SendLoop}
    (h : (writerRole (fun _ => True) cap).Sat (Sending cap packets before) rest s)
    (hsent : s.appended = before ++ sent) :
    sent.map Record.toMidiEvent <+: packets.map MidiEventInner.toMidiEvent := by
  obtain ⟨n, -, A, w, d, hend, -, hA⟩ := h.run
  have hgrown : s.appended <+: _ := (h.run_within (R := WriterMoves (fun _ => True) cap)
    WriterMoves.refl WriterMoves.trans fun c s t hg => hg.moves).appended
  rw [hend.appended, hsent, List.prefix_append_right_inj] at hgrown
  refine (hgrown.map _).trans ?_
  rw [hA, List.map_take]
  exact List.take_prefix _ _

theorem sendingMachine_grows (hcap : cap < 2 ^ 31) {σ : (sendingSystem cap packets).State}
    (reach : (sendingMachine cap packets before).Reachable σ) :
    before <+: σ.shared.appended := by
  refine TwoParty.shared_invariant (J := fun s => before <+: s.appended) rfl rfl
    (sendingMachine_sound hcap) ?_ ?_ ?_ reach
  · rintro loop l s ⟨-, -, rfl, -⟩
    exact List.prefix_refl _
  · intro c s t (h : WriterGuarantee (fun _ => True) cap c s t) hs
    exact hs.trans h.moves.appended
  · intro c s t (h : ReaderGuarantee (fun _ => True) cap c s t) hs
    rwa [h.moves.appended]

/-- While `SendSysExPackets` and a consumer use the ring in any order, and whatever the clock and
the futex answer, the ring has received the first packets of the list, in order and each once. When
the loop goes round again some packet is missing, and it returns with success exactly if none is. -/
theorem sendSysExPackets_sends_first (capacity : Capacity) (packets : List MidiEventInner)
    (before : List Record) (σ : (sendingSystem capacity.bytes packets).State)
    (reach : (sendingMachine capacity.bytes packets before).Reachable σ) :
    ∃ sent, σ.shared.appended = before ++ sent ∧ sent.length ≤ packets.length ∧
      sent.map Record.toMidiEvent =
        (packets.take sent.length).map MidiEventInner.toMidiEvent ∧
      (∀ n, σ.left = .idle (.round n) → sent.length = n ∧ n < packets.length) ∧
      ∀ status, σ.left = .idle (.returned status) →
        (status = .ok ↔ sent.length = packets.length) := by
  have hlt := capacity.lt
  have hcap : capacity.bytes < 2 ^ 31 := by omega
  obtain ⟨sent, hsent⟩ := sendingMachine_grows hcap reach
  obtain ⟨control, right, s⟩ := σ
  have hsender := (sendingMachine_sound hcap _ reach).1
  have hsat : ∃ rest, (writerRole (fun _ => True) capacity.bytes).Sat
      (Sending capacity.bytes packets before) rest s := by
    cases control with
    | idle loop => exact ⟨ret loop, Triple.ret sending_stable (fun _ h => h) s hsender⟩
    | busy loop call rest => exact ⟨rest, hsender⟩
  obtain ⟨rest, hrest⟩ := hsat
  have hprefix := sent_of_sat hrest hsent.symm
  have hlength := hprefix.length_le
  have htake := List.prefix_iff_eq_take.mp hprefix
  rw [List.length_map, List.length_map] at hlength
  rw [List.length_map, ← List.map_take] at htake
  refine ⟨sent, hsent.symm, hlength, htake, ?_, ?_⟩
  · rintro n rfl
    obtain ⟨rfl, hlt⟩ := Sending.at_length hsender hsent.symm
    exact ⟨rfl, hlt⟩
  · rintro status rfl
    exact Sending.at_length hsender hsent.symm

/-- A SysEx of four packets. -/
def fourPackets : List MidiEventInner :=
  [.ofWords 0 [0x30160102, 0x03040506], .ofWords 0 [0x30260708, 0x090A0B0C],
    .ofWords 0 [0x30260D0E, 0x0F101112], .ofWords 0 [0x30311300, 0]]

/-- A ring for three records that was not used yet. -/
def unusedSystem : (sendingSystem 128 fourPackets).State :=
  ⟨.idle (.round 0), .idle ⟨none, 0⟩, ⟨⟨0, 0, 0, fun _ => 0⟩, [], 0⟩⟩

/-- A round in which the clock has not run out, with so many looks at the space. -/
def roundFrom (writtenInBatch looks : Nat) : RoundAnswers × Nat :=
  ⟨⟨false, looks, .timeout⟩, writtenInBatch⟩

/-- Three packets fill the ring. The sender has waited for space and found none when the consumer
has peeked at the first of them. -/
def waitingSender : (sendingSystem 128 fourPackets).State :=
  ((unusedSystem.callLeft (roundFrom 0 0)).beginLeft (roundFrom 3 2) 10).callRight
    ConsumerCall.peekNext

/-- The consumer takes the packet, the sender looks again, and goes on with the fourth. -/
def resumedSender : (sendingSystem 128 fourPackets).State :=
  (waitingSender.callRight (takeHeld waitingSender.right)).finishLeft.callLeft (roundFrom 3 0)

/-- The place of the loop between two rounds. -/
def loopOf {cap : Nat} {packets : List MidiEventInner} :
    (sysExSender cap packets).Control → Option SendLoop
  | .idle loop => some loop
  | .busy .. => none

theorem enabled_roundFrom {cap : Nat} {packets : List MidiEventInner}
    {c : (sysExSender cap packets).Control} (n looks : Nat) (hloop : loopOf c = some (.round n))
    (l : SendLoop) (hidle : c = .idle l) :
    (sysExSender cap packets).enabled l (roundFrom n looks) := by
  subst hidle
  exact Option.some.inj hloop

theorem resumedSender_reachable : (sendingMachine 128 fourPackets []).Reachable resumedSender := by
  have hinv : unusedSystem.shared.Inv (fun _ => True) 128 :=
    EmptyRing.inv ⟨rfl, by decide, by decide, rfl, rfl⟩
  have hstart : (sendingMachine 128 fourPackets []).Reachable unusedSystem :=
    .init ⟨.round 0, ⟨none, 0⟩, rfl, rfl, rfl, rfl, rfl, hinv⟩
  have hfull := TwoParty.reachable_callLeft hstart (enabled_roundFrom 0 0 rfl)
  have hlooked := TwoParty.reachable_beginLeft 10 hfull (enabled_roundFrom 3 2 (by decide +kernel))
  have hwaiting : (sendingMachine 128 fourPackets []).Reachable waitingSender :=
    TwoParty.reachable_callRight hlooked fun _ _ => trivial
  have htaken := TwoParty.reachable_callRight hwaiting (enabled_takeHeld (by decide +kernel))
  exact TwoParty.reachable_callLeft (TwoParty.reachable_finishLeft htaken)
    (enabled_roundFrom 3 0 (by decide +kernel))

/-- The message of four packets went through a ring for three. -/
theorem sendSysExPackets_sends_first_resumed :
    resumedSender.shared.removed = 1 ∧ resumedSender.shared.appended.length = 4 := by
  have hloop : loopOf resumedSender.left = some (.returned .ok) := by decide +kernel
  have hreturned : resumedSender.left = .idle (.returned .ok) := by
    cases hleft : resumedSender.left with
    | idle loop =>
        rw [hleft] at hloop
        exact congrArg _ (Option.some.inj hloop)
    | busy => exact nomatch hleft ▸ hloop
  obtain ⟨sent, happended, -, -, -, hok⟩ := sendSysExPackets_sends_first ⟨128, by decide⟩
    fourPackets [] resumedSender resumedSender_reachable
  have hall : sent.length = 4 := (hok .ok hreturned).mp rfl
  exact ⟨by decide +kernel, (congrArg List.length happended).trans hall⟩

end Interleavings

end MidiFramework.Client
