import MidiFramework.Foundation.Pairing
import MidiFramework.Ump.WellFormed

/-!
# Calls of `ProcessBytes`

The processor keeps what it knows of an unfinished message between calls, but a
call looks one byte ahead, and of two high bytes in a row the first is passed
over only when both are in the same call. So it matters where a stream is cut,
and where a real-time byte is inserted.
-/

namespace MidiFramework.Ump

open Foundation UmpProcessor

/-- The bytes at or above `MIDI_STATUS_START`. -/
def IsHigh (b : UInt8) : Prop := midiStatusStart ≤ b

instance : DecidablePred IsHigh := fun b => inferInstanceAs (Decidable (midiStatusStart ≤ b))

theorem isHigh_realTime {r : UInt8} (h : midiRealtimeStart ≤ r) : IsHigh r := by
  simp only [IsHigh, midiStatusStart, midiRealtimeStart] at *
  grind

theorem handledBytes_eq (bytes : List UInt8) : handledBytes bytes = seconds IsHigh bytes := by
  induction bytes using handledBytes.induct with
  | case1 => rfl
  | case2 b => rfl
  | case3 b next rest hb hnext ih =>
      have hpair : seconds IsHigh (b :: next :: rest) = next :: seconds IsHigh rest :=
        seconds_pair hb hnext
      rw [handledBytes, if_pos hb, if_pos hnext, hpair, ih]
  | case4 b next rest hb hnext ih =>
      rw [handledBytes, if_pos hb, if_neg hnext, seconds, if_neg fun h => hnext h.2, ih]
  | case5 b next rest hb ih =>
      rw [handledBytes, if_neg hb, seconds, if_neg fun h => hb h.1, ih]

theorem processBytes_eq (p : UmpProcessor) (bytes : List UInt8) :
    p.processBytes bytes = feed handleByte p (seconds IsHigh bytes) := by
  rw [processBytes_handled, handledBytes_eq]

/-! ### Cutting a stream -/

section Cut

variable {p : UmpProcessor} {xs ys : List UInt8}

/-- Two calls do what one call with all bytes does. -/
def Chunks (p : UmpProcessor) (xs ys : List UInt8) : Prop :=
  (p.processBytes xs).andThen (fun p => p.processBytes ys) = p.processBytes (xs ++ ys)

theorem two_calls (p : UmpProcessor) (xs ys : List UInt8) :
    (p.processBytes xs).andThen (fun p => p.processBytes ys) =
      feed handleByte p (seconds IsHigh xs ++ seconds IsHigh ys) := by
  simp only [processBytes_eq]
  exact (feed_append handleByte p _ _).symm

/-- A stream may be cut where no pair of high bytes is. -/
theorem chunks_of_paired (h : trailing IsHigh xs % 2 = 1 → leading IsHigh ys = 0) :
    Chunks p xs ys := by
  rw [Chunks, two_calls, processBytes_eq, seconds_append fun hodd => h (unpaired_iff.mp hodd)]

theorem feed_realTimes (p : UmpProcessor) {bytes : List UInt8}
    (h : ∀ b ∈ bytes, midiRealtimeStart ≤ b) :
    feed handleByte p bytes = ⟨bytes.map fun b => p.messagePacket 0x1 b 0 0, p⟩ := by
  induction bytes with
  | nil => rfl
  | cons b bytes ih =>
      obtain ⟨hb, hbytes⟩ := List.forall_mem_cons.mp h
      rw [feed_cons, handleByte_realTime hb, Emission.andThen, ih hbytes]
      rfl

/-- After an unpaired high byte there is a continuation that must not be cut off: what the byte
hands out decides whether it has one timing clock or two. -/
theorem exists_not_chunks (p : UmpProcessor) (h : trailing IsHigh xs % 2 = 1) :
    ∃ ys, ¬Chunks p xs ys := by
  obtain ⟨kept, b, hkept, -, hcut⟩ := seconds_append_pair (unpaired_iff.mpr h)
  have hclock : IsHigh 0xF8 := isHigh_realTime (by decide)
  have hstart : midiRealtimeStart ≤ 0xF8 := by decide
  -- the number of packets with one and with two timing clocks, for any state
  have hone : ∀ q : UmpProcessor, (feed handleByte q [0xF8]).out.length = 1 := by
    intro q
    rw [feed_realTimes q (List.forall_mem_singleton.mpr hstart)]
    rfl
  have htwo : ∀ q : UmpProcessor, (feed handleByte q [0xF8, 0xF8]).out.length = 2 := by
    intro q
    rw [feed_realTimes q
      (List.forall_mem_cons.mpr ⟨hstart, List.forall_mem_singleton.mpr hstart⟩)]
    rfl
  have hlen : ∀ (q : UmpProcessor) (us vs : List UInt8), (feed handleByte q (us ++ vs)).out.length =
      (feed handleByte q us).out.length +
        (feed handleByte (feed handleByte q us).state vs).out.length := by
    intro q us vs
    rw [feed_append, Emission.andThen, List.length_append]
  have hsplit : ∀ ys : List UInt8, ((p.processBytes xs).andThen
      (fun p => p.processBytes ys)).out.length = (feed handleByte p kept).out.length +
        ((feed handleByte p kept).state.handleByte b).out.length +
        (feed handleByte (feed handleByte p (kept ++ [b])).state (seconds IsHigh ys)).out.length := by
    intro ys
    rw [two_calls, hkept, hlen, hlen, feed_singleton]
  by_cases hout : ((feed handleByte p kept).state.handleByte b).out.length = 0
  · refine ⟨[0xF8, 0xF8], fun hchunks => ?_⟩
    have heq : _ = (p.processBytes _).out.length := congrArg (fun e => e.out.length) hchunks
    rw [hsplit, hout, processBytes_eq, hcut _ _ hclock, hlen, seconds_pair hclock hclock] at heq
    change _ + (feed handleByte _ [0xF8]).out.length =
      _ + (feed handleByte _ [0xF8, 0xF8]).out.length at heq
    rw [hone, htwo] at heq
    omega
  · refine ⟨[0xF8], fun hchunks => ?_⟩
    have heq : _ = (p.processBytes _).out.length := congrArg (fun e => e.out.length) hchunks
    rw [hsplit, processBytes_eq, hcut _ _ hclock, hlen] at heq
    change _ + (feed handleByte _ [0xF8]).out.length =
      _ + (feed handleByte _ [0xF8]).out.length at heq
    rw [hone, hone] at heq
    omega

/-- Chunking does not matter unless a cut divides a pair of high bytes, and after an unpaired high
byte it does matter for some continuation, in every state. -/
theorem chunking_iff (p : UmpProcessor) (xs : List UInt8) :
    (∀ ys, ¬(trailing IsHigh xs % 2 = 1 ∧ 0 < leading IsHigh ys) → Chunks p xs ys) ∧
      ((∀ ys, Chunks p xs ys) ↔ trailing IsHigh xs % 2 = 0) := by
  refine ⟨fun ys h => chunks_of_paired fun hodd => ?_, fun h => ?_, fun heven ys => ?_⟩
  · exact Nat.eq_zero_of_not_pos fun hpos => h ⟨hodd, hpos⟩
  · by_contra hne
    obtain ⟨ys, hys⟩ := exists_not_chunks p (Nat.mod_two_ne_zero.mp hne)
    exact hys (h ys)
  · exact chunks_of_paired fun hodd => absurd (heven.symm.trans hodd) Nat.zero_ne_one

/-- Of two timing clocks in one call only one is emitted. -/
theorem timing_clocks_cut : ¬∀ (p : UmpProcessor) (xs ys : List UInt8), Chunks p xs ys := by
  intro h
  have heq := congrArg (fun e => e.out.length) (h fresh [0xF8] [0xF8])
  exact absurd heq (by decide +kernel)

end Cut

/-! ### Real-time bytes -/

section RealTime

variable {p : UmpProcessor} {pre post : List UInt8} {r : UInt8}

theorem dispatchWhenComplete_group (p : UmpProcessor) :
    p.dispatchWhenComplete.state.group = p.group := by
  unfold dispatchWhenComplete
  split <;> rfl

theorem handleDataByte_group (p : UmpProcessor) (b : UInt8) :
    (p.handleDataByte b).state.group = p.group := by
  unfold handleDataByte
  split
  · unfold processSysExData
    split <;> dsimp only <;> split <;> rfl
  · unfold handleChannelData
    split
    · exact dispatchWhenComplete_group _
    split
    · exact dispatchWhenComplete_group _
    · rfl

theorem handleStatusByte_group (p : UmpProcessor) (b : UInt8) :
    (p.handleStatusByte b).state.group = p.group := by
  unfold handleStatusByte
  dsimp only
  split
  · rfl
  split
  · split <;> rfl
  split <;> rfl

theorem handleByte_group (p : UmpProcessor) (b : UInt8) : (p.handleByte b).state.group = p.group := by
  by_cases hhigh : midiStatusStart ≤ b
  · by_cases hrt : midiRealtimeStart ≤ b
    · rw [handleByte_realTime hrt]
    · rw [handleByte_status hhigh (UInt8.not_le.mp hrt)]
      exact handleStatusByte_group p b
  · rw [handleByte_data (UInt8.not_le.mp hhigh)]
    exact handleDataByte_group p b

theorem feed_group (p : UmpProcessor) (bytes : List UInt8) :
    (feed handleByte p bytes).state.group = p.group := by
  induction bytes generalizing p with
  | nil => rfl
  | cons b bytes ih => exact (ih _).trans (handleByte_group p b)

/-- The packet of a real-time byte. -/
def realTimePacket (group r : UInt8) : UmpPacket :=
  .ofWords [(0x1 : UInt32) <<< 28 ||| group.toUInt32 <<< 24 ||| r.toUInt32 <<< 16]

/-- A real-time byte that is inserted gives one more packet and changes nothing else. -/
structure RealTimeTransparent (p : UmpProcessor) (pre post : List UInt8) (r : UInt8) : Prop where
  packets : ∃ before after, (p.processBytes (pre ++ post)).out = before ++ after ∧
    (p.processBytes (pre ++ r :: post)).out = before ++ realTimePacket p.group r :: after
  state : (p.processBytes (pre ++ r :: post)).state = (p.processBytes (pre ++ post)).state

theorem handleByte_realTimePacket (p : UmpProcessor) (hr : midiRealtimeStart ≤ r) :
    p.handleByte r = ⟨[realTimePacket p.group r], p⟩ := by
  have hhigh : midiStatusStart ≤ r := isHigh_realTime hr
  rw [handleByte, if_pos hhigh, handleHighByte, handleRealTime, if_neg (UInt8.not_lt.mpr hr)]
  rfl

theorem transparent_of_handled {before after : List UInt8} (hr : midiRealtimeStart ≤ r)
    (h : seconds IsHigh (pre ++ post) = before ++ after)
    (h' : seconds IsHigh (pre ++ r :: post) = before ++ r :: after) :
    RealTimeTransparent p pre post r := by
  have hgroup := feed_group p before
  constructor
  · refine ⟨(feed handleByte p before).out,
      (feed handleByte (feed handleByte p before).state after).out, ?_, ?_⟩
    · rw [processBytes_eq, h, feed_append]
      rfl
    · rw [processBytes_eq, h', feed_append]
      simp only [Emission.andThen, feed_cons, handleByte_realTimePacket _ hr, hgroup]
      rfl
  · rw [processBytes_eq, processBytes_eq, h, h', feed_append, feed_append]
    simp only [Emission.andThen, feed_cons, handleByte_realTimePacket _ hr]

/-- Between pairs of high bytes, or inside of a pair that nothing follows, the byte is
transparent. -/
theorem realTimeTransparent_of_runs (hr : midiRealtimeStart ≤ r)
    (hlead : leading IsHigh post ≤ 1)
    (heven : (trailing IsHigh pre + leading IsHigh post) % 2 = 0) :
    RealTimeTransparent p pre post r := by
  have hhigh : IsHigh r := isHigh_realTime hr
  rcases Nat.le_one_iff_eq_zero_or_eq_one.mp hlead with hzero | hone
  · have hpaired : ¬Unpaired IsHigh pre := by
      rw [unpaired_iff]
      omega
    apply transparent_of_handled hr (seconds_append fun _ => hzero)
    rw [seconds_append fun h => absurd h hpaired, seconds_cons_of_leading hzero]
  · obtain ⟨g, rest, rfl, hg, hrest⟩ := exists_cons_of_leading hone
    have hodd : Unpaired IsHigh pre := by
      rw [unpaired_iff]
      omega
    obtain ⟨kept, b, -, -, hcut⟩ := seconds_append_pair hodd
    apply transparent_of_handled hr (hcut g rest hg)
    rw [hcut r _ hhigh, seconds_cons_of_leading hrest]

theorem realTimePacket_injective (p : UmpProcessor) {x y : UInt8} (hx : midiRealtimeStart ≤ x)
    (hy : midiRealtimeStart ≤ y) (h : realTimePacket p.group x = realTimePacket p.group y) :
    x = y := by
  have hform : ∀ s : UInt8, midiRealtimeStart ≤ s →
      realTimePacket p.group s = p.messagePacket 0x1 s 0 0 := by
    intro s hs
    have hstep := (handleByte_realTimePacket p hs).symm.trans (handleByte_realTime hs)
    rw [Emission.mk.injEq] at hstep
    exact List.head_eq_of_cons_eq hstep.1
  have hfields : ∀ s : UInt8, MessageFields (messageWord 0x1 p.group s 0 0) 0x1 s 0 0 :=
    fun s => messageFields s 0 0 rfl p.group_lt
  rw [hform x hx, hform y hy] at h
  have hwords := congrArg UmpPacket.words h
  simp only [messagePacket, UmpPacket.ofWords, List.take_succ_cons, List.take_nil] at hwords
  rw [← (hfields x).status, List.head_eq_of_cons_eq hwords, (hfields y).status]

theorem processBytes_realTimes (p : UmpProcessor) {bytes : List UInt8}
    (h : ∀ b ∈ bytes, midiRealtimeStart ≤ b) :
    (p.processBytes bytes).out = (seconds IsHigh bytes).map (realTimePacket p.group) := by
  have hkept : ∀ b ∈ seconds IsHigh bytes, midiRealtimeStart ≤ b := fun b hb =>
    h b (seconds_subset hb)
  rw [processBytes_eq]
  generalize seconds IsHigh bytes = kept at hkept
  induction kept with
  | nil => rfl
  | cons b kept ih =>
      obtain ⟨hb, hrest⟩ := List.forall_mem_cons.mp hkept
      rw [feed_cons, handleByte_realTimePacket p hb, List.map_cons, ← ih hrest]
      rfl

/-- In a stream of real-time bytes, the byte that is inserted is not passed over, and neither is one
that was handled without it. -/
theorem RealTimeTransparent.kept (h : RealTimeTransparent p pre post r)
    (hpre : ∀ b ∈ pre, midiRealtimeStart ≤ b) (hr : midiRealtimeStart ≤ r)
    (hpost : ∀ b ∈ post, midiRealtimeStart ≤ b) :
    r ∈ seconds IsHigh (pre ++ r :: post) ∧
      seconds IsHigh (pre ++ post) ⊆ seconds IsHigh (pre ++ r :: post) := by
  have hold : ∀ b ∈ pre ++ post, midiRealtimeStart ≤ b :=
    List.forall_mem_append.mpr ⟨hpre, hpost⟩
  have hnew : ∀ b ∈ pre ++ r :: post, midiRealtimeStart ≤ b :=
    List.forall_mem_append.mpr ⟨hpre, List.forall_mem_cons.mpr ⟨hr, hpost⟩⟩
  obtain ⟨before, after, hbefore, hafter⟩ := h.packets
  rw [processBytes_realTimes p hold] at hbefore
  rw [processBytes_realTimes p hnew] at hafter
  have hback : ∀ b, midiRealtimeStart ≤ b →
      realTimePacket p.group b ∈ before ++ realTimePacket p.group r :: after →
        b ∈ seconds IsHigh (pre ++ r :: post) := by
    intro b hb hmem
    rw [← hafter] at hmem
    obtain ⟨c, hc, heq⟩ := List.mem_map.mp hmem
    exact realTimePacket_injective p (hnew c (seconds_subset hc)) hb heq ▸ hc
  refine ⟨hback r hr (by simp), fun b hb => hback b (hold b (seconds_subset hb)) ?_⟩
  have hmem : realTimePacket p.group b ∈ before ++ after := hbefore ▸ List.mem_map_of_mem hb
  rcases List.mem_append.mp hmem with hmem | hmem
  · exact List.mem_append_left _ hmem
  · exact List.mem_append_right _ (List.mem_cons_of_mem _ hmem)

/-- A run of active sensing. -/
def sensings (n : Nat) : List UInt8 := List.replicate n 0xFE

theorem isHigh_sensings (n : Nat) : ∀ b ∈ sensings n, IsHigh b := by
  intro b hb
  rw [List.eq_of_mem_replicate hb]
  decide

theorem realTime_sensings (n : Nat) : ∀ b ∈ sensings n, midiRealtimeStart ≤ b := by
  intro b hb
  rw [List.eq_of_mem_replicate hb]
  decide

theorem trailing_sensings (n : Nat) : trailing IsHigh (sensings n) = n :=
  (trailing_of_forall (isHigh_sensings n)).trans List.length_replicate

theorem not_mem_seconds_sensings {b : UInt8} (hb : b ≠ 0xFE) (n : Nat) :
    b ∉ seconds IsHigh (sensings n) :=
  fun h => hb (List.eq_of_mem_replicate (seconds_subset h))

theorem seconds_sensings_append {n : Nat} (heven : n % 2 = 0) (rest : List UInt8) :
    seconds IsHigh (sensings n ++ rest) =
      seconds IsHigh (sensings n) ++ seconds IsHigh rest := by
  apply seconds_append
  rw [unpaired_iff, trailing_sensings]
  omega

theorem realTime_sensings_append (n : Nat) {b : UInt8} (hb : midiRealtimeStart ≤ b) :
    ∀ c ∈ sensings n ++ [b], midiRealtimeStart ≤ c :=
  List.forall_mem_append.mpr ⟨realTime_sensings n, by simpa using hb⟩

theorem trailing_realTimes (n : Nat) {b : UInt8}
    (h : ∀ c ∈ sensings n ++ [b], midiRealtimeStart ≤ c) :
    trailing IsHigh (sensings n ++ [b]) = n + 1 := by
  rw [trailing_of_forall fun c hc => isHigh_realTime (h c hc), List.length_append, sensings,
    List.length_replicate, List.length_singleton]

/-- In every state, inserting a real-time byte between runs of high bytes of these lengths is
transparent whatever the bytes are exactly if at most one high byte follows and the number of high
bytes around it is even. -/
theorem realTime_transparent_iff (p : UmpProcessor) (a b : Nat) :
    (∀ pre post r, midiRealtimeStart ≤ r → trailing IsHigh pre = a → leading IsHigh post = b →
      RealTimeTransparent p pre post r) ↔ b ≤ 1 ∧ (a + b) % 2 = 0 := by
  constructor
  · intro h
    have hclock : midiRealtimeStart ≤ 0xF8 := by decide
    rcases Nat.mod_two_eq_zero_or_one a with heven | hodd
    · cases b with
      | zero => omega
      | succ b =>
          -- the byte is the first one of a pair
          have hkept := (h (sensings a) (sensings (b + 1)) 0xF8 hclock (trailing_sensings a)
            ((leading_of_forall (isHigh_sensings _)).trans List.length_replicate)).kept
            (realTime_sensings a) hclock (realTime_sensings _)
          have hmem := hkept.1
          rw [seconds_sensings_append heven] at hmem
          change _ ∈ _ ++ seconds IsHigh (0xF8 :: 0xFE :: sensings b) at hmem
          rw [seconds_pair (by decide) (by decide), List.mem_append, List.mem_cons] at hmem
          rcases hmem with hmem | hmem | hmem
          · exact absurd hmem (not_mem_seconds_sensings (by decide) a)
          · exact absurd hmem (by decide)
          · exact absurd hmem (not_mem_seconds_sensings (by decide) b)
    · obtain ⟨n, rfl⟩ : ∃ n, a = n + 1 := ⟨a - 1, by omega⟩
      have heven : n % 2 = 0 := by omega
      match b with
      | 1 => omega
      | 0 =>
          -- the byte before it is the first one of a pair
          have hpre := realTime_sensings_append n (b := 0xFA) (by decide)
          have hkept := (h (sensings n ++ [0xFA]) [] 0xF8 hclock (trailing_realTimes n hpre) rfl).kept
            hpre hclock (by simp)
          have hold : 0xFA ∈ seconds IsHigh (sensings n ++ [0xFA] ++ []) := by
            rw [List.append_nil, seconds_sensings_append heven]
            exact List.mem_append_right _ (List.mem_singleton.mpr rfl)
          have hlast := hkept.2 hold
          rw [List.append_assoc, seconds_sensings_append heven] at hlast
          rcases List.mem_append.mp hlast with hlast | hlast
          · exact absurd hlast (not_mem_seconds_sensings (by decide) n)
          · exact absurd hlast (by decide)
      | b + 2 =>
          -- the byte after it is the first one of a pair
          have hpre := realTime_sensings_append n (b := 0xFE) (by decide)
          have hpost : ∀ c ∈ 0xFA :: sensings (b + 1), midiRealtimeStart ≤ c :=
            List.forall_mem_cons.mpr ⟨by decide, realTime_sensings _⟩
          have hlead : leading IsHigh (0xFA :: sensings (b + 1)) = b + 2 :=
            (leading_of_forall fun c hc => isHigh_realTime (hpost c hc)).trans
              (congrArg (· + 1) List.length_replicate)
          have hkept := (h (sensings n ++ [0xFE]) (0xFA :: sensings (b + 1)) 0xF8 hclock
            (trailing_realTimes n hpre) hlead).kept hpre hclock hpost
          have hold : 0xFA ∈ seconds IsHigh (sensings n ++ [0xFE] ++ 0xFA :: sensings (b + 1)) := by
            rw [List.append_assoc, seconds_sensings_append heven, List.singleton_append,
              seconds_pair (by decide) (by decide)]
            exact List.mem_append_right _ List.mem_cons_self
          have hlast := hkept.2 hold
          rw [List.append_assoc, seconds_sensings_append heven] at hlast
          change _ ∈ _ ++ seconds IsHigh (0xFE :: 0xF8 :: 0xFA :: 0xFE :: sensings b) at hlast
          rw [seconds_pair (by decide) (by decide), seconds_pair (by decide) (by decide),
            List.mem_append, List.mem_cons, List.mem_cons] at hlast
          rcases hlast with hlast | hlast | hlast | hlast
          · exact absurd hlast (not_mem_seconds_sensings (by decide) n)
          · exact absurd hlast (by decide)
          · exact absurd hlast (by decide)
          · exact absurd hlast (not_mem_seconds_sensings (by decide) b)
  · rintro ⟨hlead, heven⟩ pre post r hr rfl rfl
    exact realTimeTransparent_of_runs hr hlead heven

/-- A timing clock between a note and the next status byte is lost. -/
theorem clock_before_status_lost : ¬∀ (p : UmpProcessor) (pre post : List UInt8) (r : UInt8),
    midiRealtimeStart ≤ r → RealTimeTransparent p pre post r := by
  intro h
  have htransparent := h fresh [0x90, 0x3C, 0x64] [0x80, 0x3C, 0x00] 0xF8 (by decide)
  obtain ⟨before, after, hold, hnew⟩ := htransparent.packets
  have hlen := congrArg List.length hold
  have hlen' := congrArg List.length hnew
  rw [List.length_append] at hlen
  rw [List.length_append, List.length_cons] at hlen'
  have htwo : (fresh.processBytes ([0x90, 0x3C, 0x64] ++ [0x80, 0x3C, 0x00])).out.length = 2 := by
    decide +kernel
  have htwo' :
      (fresh.processBytes ([0x90, 0x3C, 0x64] ++ 0xF8 :: [0x80, 0x3C, 0x00])).out.length = 2 := by
    decide +kernel
  omega

end RealTime

end MidiFramework.Ump
