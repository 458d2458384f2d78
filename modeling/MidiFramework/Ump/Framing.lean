import MidiFramework.Ump.Stream

/-!
# Packets in a row

The length of a UMP packet follows from its first word. `SplitUmpPackets` cuts
a buffer into packets by that length, and `ProcessUmp` walks over a buffer by
it, so the walk may be interrupted after every packet.

## Implementation notes

A slice of the buffer is the list of its words; what comes after the slices is
the rest of the buffer.
-/

namespace MidiFramework.Ump

open Foundation UmpProcessor

/-- `UmpConverter::SplitUmpPackets`. -/
def splitUmpPackets : List UInt32 → List (List UInt32)
  | [] => []
  | word0 :: rest =>
      let pktLen := getUmpWordCount word0
      if pktLen = 0 then splitUmpPackets rest
      else if pktLen > (word0 :: rest).length then []
      else (word0 :: rest).take pktLen :: splitUmpPackets ((word0 :: rest).drop pktLen)
  termination_by words => words.length
  decreasing_by
    · simp only [List.length_cons]
      omega
    · simp only [List.length_drop, List.length_cons]
      omega

section WordCount

theorem getUmpWordCount_pos (word0 : UInt32) : 0 < getUmpWordCount word0 := by
  have hnibble : (messageType word0).toNat < 16 := by
    rw [messageType, nibbleField_toNat (by decide)]
    exact Nat.mod_lt _ (by decide)
  have htable : ∀ n < 16, 0 < umpWordCount.getD n 0 := by decide
  unfold getUmpWordCount
  split
  · split
    · exact Nat.two_pos
    · exact Nat.succ_pos 3
  · exact htable _ hnibble

theorem getUmpWordCount_le (word0 : UInt32) : getUmpWordCount word0 ≤ 4 := by
  have hnibble : (messageType word0).toNat < 16 := by
    rw [messageType, nibbleField_toNat (by decide)]
    exact Nat.mod_lt _ (by decide)
  have htable : ∀ n < 16, umpWordCount.getD n 0 ≤ 4 := by decide
  unfold getUmpWordCount
  split
  · split <;> decide
  · exact htable _ hnibble

theorem getUmpWordCount_of_type {word0 : UInt32} {mt : UInt8} (h : messageType word0 = mt)
    (hmt : mt ≠ 0xD) : getUmpWordCount word0 = umpWordCount.getD mt.toNat 0 := by
  rw [getUmpWordCount, if_neg (h ▸ hmt), h]

end WordCount

section Slices

/-- A whole packet: as many words as the first one announces. -/
def IsPacket (words : List UInt32) : Prop :=
  ∃ word0 rest, words = word0 :: rest ∧ words.length = getUmpWordCount word0

/-- Words that end before the packet they begin with is complete. -/
def CutOff (words : List UInt32) : Prop :=
  ∀ word0 ∈ words.head?, words.length < getUmpWordCount word0

theorem splitUmpPackets_nil : splitUmpPackets [] = [] := by
  rw [splitUmpPackets]

theorem splitUmpPackets_cutOff {words : List UInt32} (h : CutOff words) :
    splitUmpPackets words = [] := by
  cases words with
  | nil => exact splitUmpPackets_nil
  | cons word0 rest =>
      have hlt := h word0 rfl
      have hpos := getUmpWordCount_pos word0
      rw [splitUmpPackets, if_neg (by omega), if_pos hlt]

theorem splitUmpPackets_append {packet : List UInt32} (h : IsPacket packet) (rest : List UInt32) :
    splitUmpPackets (packet ++ rest) = packet :: splitUmpPackets rest := by
  obtain ⟨word0, tail, rfl, hlen⟩ := h
  have hpos := getUmpWordCount_pos word0
  have hfits : getUmpWordCount word0 ≤ (word0 :: (tail ++ rest)).length := by
    rw [← hlen, ← List.cons_append, List.length_append]
    exact Nat.le_add_right _ _
  rw [List.cons_append, splitUmpPackets, if_neg (by omega), if_neg (by omega), ← hlen,
    ← List.cons_append, List.take_left, List.drop_left]

/-- Every buffer is packets in a row and a tail that is cut off, and the packets are what
`SplitUmpPackets` returns. -/
theorem splitUmpPackets_covers (words : List UInt32) :
    (∀ slice ∈ splitUmpPackets words, IsPacket slice) ∧
      ∃ tail, CutOff tail ∧ words = (splitUmpPackets words).flatten ++ tail := by
  induction words using splitUmpPackets.induct with
  | case1 =>
      rw [splitUmpPackets_nil]
      exact ⟨by simp, [], by simp [CutOff], rfl⟩
  | case2 word0 rest pktLen hzero ih => exact absurd hzero (getUmpWordCount_pos word0).ne'
  | case3 word0 rest pktLen hzero hlong =>
      have hcut : CutOff (word0 :: rest) := by
        rintro _ ⟨⟩
        exact hlong
      rw [splitUmpPackets_cutOff hcut]
      exact ⟨by simp, word0 :: rest, hcut, rfl⟩
  | case4 word0 rest pktLen hzero hfits ih =>
      have hpacket : IsPacket ((word0 :: rest).take pktLen) := by
        refine ⟨word0, rest.take (pktLen - 1), ?_, ?_⟩
        · exact List.take_cons (Nat.pos_of_ne_zero hzero)
        · rw [List.length_take, Nat.min_eq_left (Nat.not_lt.mp hfits)]
      have hsplit := splitUmpPackets_append hpacket ((word0 :: rest).drop pktLen)
      rw [List.take_append_drop] at hsplit
      obtain ⟨hslices, tail, htail, hrest⟩ := ih
      rw [hsplit]
      constructor
      · exact List.forall_mem_cons.mpr ⟨hpacket, hslices⟩
      · refine ⟨tail, htail, ?_⟩
        rw [List.flatten_cons, List.append_assoc, ← hrest, List.take_append_drop]

/-- Packets in a row are split where they were joined. -/
theorem splitUmpPackets_flatten {packets : List (List UInt32)} (h : ∀ p ∈ packets, IsPacket p) :
    splitUmpPackets packets.flatten = packets := by
  induction packets with
  | nil => exact splitUmpPackets_nil
  | cons packet packets ih =>
      obtain ⟨hpacket, hrest⟩ := List.forall_mem_cons.mp h
      rw [List.flatten_cons, splitUmpPackets_append hpacket, ih hrest]

end Slices

section Walk

variable {p : UmpProcessor}

/-- The words of a packet that is passed over give nothing. -/
theorem processUmpFrom_passing (words rest : List UInt32) :
    p.processUmpFrom words.length (words ++ rest) = p.processUmpFrom 0 rest := by
  induction words with
  | nil => rfl
  | cons word words ih =>
      rw [List.length_cons, List.cons_append, processUmpFrom]
      exact ih

/-- A packet of another type is passed over as a whole. -/
theorem processUmp_other {word0 : UInt32} (h1 : messageType word0 ≠ 0x1)
    (h2 : messageType word0 ≠ 0x2) (h3 : messageType word0 ≠ 0x3) {tail : List UInt32}
    (hlen : (word0 :: tail).length = getUmpWordCount word0) (rest : List UInt32) :
    p.processUmp (word0 :: (tail ++ rest)) = p.processUmp rest := by
  have hskip : max 1 (getUmpWordCount word0) - 1 = tail.length := by
    rw [← hlen, List.length_cons]
    omega
  rw [processUmp, processUmpFrom, if_neg h1, if_neg h2, if_neg h3, hskip, processUmpFrom_passing]
  rfl

theorem IsPacket.framed {words : List UInt32} (h : IsPacket words) : Framed words := by
  obtain ⟨word0, tail, rfl, hlen⟩ := h
  by_cases h1 : messageType word0 = 0x1
  · rw [getUmpWordCount_of_type h1 (by decide)] at hlen
    obtain rfl : tail = [] := List.eq_nil_of_length_eq_zero (Nat.succ.inj hlen)
    exact framed_system h1
  by_cases h2 : messageType word0 = 0x2
  · rw [getUmpWordCount_of_type h2 (by decide)] at hlen
    obtain rfl : tail = [] := List.eq_nil_of_length_eq_zero (Nat.succ.inj hlen)
    exact framed_channel h2
  by_cases h3 : messageType word0 = 0x3
  · rw [getUmpWordCount_of_type h3 (by decide)] at hlen
    obtain ⟨word1, rfl⟩ := List.length_eq_one_iff.mp (Nat.succ.inj hlen)
    exact framed_data h3 word1
  · intro p rest
    have hnil := processUmp_other (p := p) h1 h2 h3 hlen []
    rw [List.append_nil, processUmp_nil] at hnil
    rw [List.cons_append, processUmp_other h1 h2 h3 hlen, hnil, Emission.silent_andThen]

theorem framed_flatten {packets : List (List UInt32)} (h : ∀ packet ∈ packets, IsPacket packet) :
    Framed packets.flatten := by
  induction packets with
  | nil => exact framed_nil
  | cons packet packets ih =>
      obtain ⟨hpacket, hrest⟩ := List.forall_mem_cons.mp h
      rw [List.flatten_cons]
      exact hpacket.framed.append (ih hrest)

/-- A packet object holds a whole packet. -/
theorem IsPacket.ofWords {words : List UInt32} (h : IsPacket words) :
    (UmpPacket.ofWords words).words = words := by
  obtain ⟨word0, tail, rfl, hlen⟩ := h
  exact List.take_of_length_le (hlen ▸ getUmpWordCount_le word0)

end Walk

section Main

variable (words : List UInt32)

/-- `SplitUmpPackets` and `ProcessUmp` agree on where packets begin and end. The slices follow one
another from the first word on, each as long as its first word says, up to a tail that is
shorter than the packet it begins with. The processor gives the same bytes and reaches the same
state for the covered words, for the packets one by one and for every grouping into calls. -/
theorem framing_agrees :
    (∃ tail, CutOff tail ∧ words = (splitUmpPackets words).flatten ++ tail) ∧
      (∀ slice ∈ splitUmpPackets words, IsPacket slice) ∧
      ∀ p : UmpProcessor,
        feed processUmpPacket p ((splitUmpPackets words).map UmpPacket.ofWords) =
          p.processUmp (splitUmpPackets words).flatten ∧
        ∀ calls : List (List (List UInt32)), calls.flatten = splitUmpPackets words →
          feed processUmp p (calls.map List.flatten) =
            p.processUmp (splitUmpPackets words).flatten := by
  obtain ⟨hslices, hcovers⟩ := splitUmpPackets_covers words
  generalize splitUmpPackets words = slices at hslices hcovers ⊢
  refine ⟨hcovers, hslices, fun p => ⟨?_, ?_⟩⟩
  · have hframed : ∀ packet ∈ slices.map UmpPacket.ofWords, Framed packet.words := by
      intro packet hpacket
      obtain ⟨slice, hslice, rfl⟩ := List.mem_map.mp hpacket
      rw [(hslices slice hslice).ofWords]
      exact (hslices slice hslice).framed
    have hwords : packetWords (slices.map UmpPacket.ofWords) = slices.flatten := by
      rw [packetWords, List.flatMap_map, List.flatMap_def]
      have hsame : slices.map (fun slice => (UmpPacket.ofWords slice).words) = slices.map id :=
        List.map_congr_left fun slice hslice => (hslices slice hslice).ofWords
      rw [hsame, List.map_id]
    rw [processUmp_packetWords p hframed, hwords]
  · intro calls hcalls
    have hflat : (calls.map List.flatten).flatten = slices.flatten := by
      rw [← hcalls, List.flatten_flatten]
    rw [← hflat]
    apply processUmp_calls
    intro call hcall
    obtain ⟨packets, hpackets, rfl⟩ := List.mem_map.mp hcall
    apply framed_flatten
    intro packet hpacket
    have hmem : packet ∈ calls.flatten := List.mem_flatten_of_mem hpackets hpacket
    rw [hcalls] at hmem
    exact hslices packet hmem

end Main

end MidiFramework.Ump
