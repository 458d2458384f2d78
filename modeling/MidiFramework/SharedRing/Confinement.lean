import MidiFramework.SharedRing.Code

/-!
# Confinement against a hostile peer

The control header and the data area are mapped by another process, which may
change any word between two loads. Here every response is arbitrary: whatever
the loads return, the operations touch only bytes of the data area, and no
`uint32_t` offset or free-space computation wraps around.
-/

namespace MidiFramework.SharedRing

open Foundation Program

/-- The access stays within `cap` bytes of data and the computation does not
wrap around. -/
def Confined (cap : Nat) : RingCmd → Prop
  | .load32 off => off + 4 ≤ cap
  | .load64 off => off + 8 ≤ cap
  | .store32 off _ => off + 4 ≤ cap
  | .store64 off _ => off + 8 ≤ cap
  | .arith exact => 0 ≤ exact ∧ exact < 2 ^ 32
  | .memset len => len ≤ cap
  | _ => True

/-- Every path of the program is confined and every result meets `Q`. -/
abbrev ConfinedTo {α : Type} (cap : Nat) (Q : α → Prop) (p : RingProgram α) : Prop :=
  p.Always (I := ringInterface) (Confined cap) Q

theorem confinedTo_access {cap : Nat} {c : RingCmd} (h : Confined cap c) :
    ConfinedTo cap (fun _ => True) (access c) :=
  ⟨h, fun _ => trivial⟩

section Arithmetic

variable {cap a b : Nat}

theorem confinedTo_sub32 (hb : b ≤ a) (ha : a < 2 ^ 32) :
    ConfinedTo cap (fun v => v = a - b) (sub32 a b) := by
  have hexact : Confined cap (.arith ((a : Int) - b)) := ⟨by omega, by omega⟩
  refine Always.bind (confinedTo_access hexact) ?_
  intro _ _
  exact wrap32_sub hb ha

theorem confinedTo_add32 (h : a + b < 2 ^ 32) :
    ConfinedTo cap (fun v => v = a + b) (add32 a b) := by
  have hexact : Confined cap (.arith ((a : Int) + b)) := ⟨by omega, by omega⟩
  refine Always.bind (confinedTo_access hexact) ?_
  intro _ _
  exact wrap32_add h

variable {r w : Nat}

theorem confinedTo_ringUsed (hr : r < cap) (hw : w < cap) (hcap : cap < 2 ^ 32) :
    ConfinedTo cap (fun v => v = usedBytes r w cap) (ringUsed r w cap) := by
  unfold ringUsed usedBytes
  split
  · exact confinedTo_sub32 (by omega) (by omega)
  · refine Always.bind (confinedTo_sub32 (a := r) (b := w) (by omega) (by omega)) ?_
    rintro gap rfl
    exact confinedTo_sub32 (by omega) (by omega)

theorem confinedTo_ringFree (hr : r < cap) (hw : w < cap) (hcap : cap < 2 ^ 32) :
    ConfinedTo cap (fun v => v = cap - 1 - usedBytes r w cap) (ringFree r w cap) := by
  have hused := usedBytes_lt hr hw
  refine Always.bind (confinedTo_ringUsed hr hw hcap) ?_
  rintro used rfl
  refine Always.bind (confinedTo_sub32 (a := cap) (b := 1) (by omega) hcap) ?_
  rintro limit rfl
  exact confinedTo_sub32 (by omega) (by omega)

end Arithmetic

section Accesses

variable {cap : Nat}

theorem confinedTo_loadPosition (p : Position) :
    ConfinedTo cap (fun _ => True) (loadPosition p) :=
  Always.bind (confinedTo_access trivial) fun _ _ => trivial

theorem confinedTo_storePosition (p : Position) (v : Nat) (note : Note) :
    ConfinedTo cap (fun _ => True) (storePosition p v note) :=
  confinedTo_access trivial

theorem confinedTo_load32 {off : Nat} (h : off + 4 ≤ cap) :
    ConfinedTo cap (fun _ => True) (load32 off) :=
  confinedTo_access h

theorem confinedTo_load64 {off : Nat} (h : off + 8 ≤ cap) :
    ConfinedTo cap (fun _ => True) (load64 off) :=
  confinedTo_access h

theorem confinedTo_store32 {off : Nat} {v : UInt32} (h : off + 4 ≤ cap) :
    ConfinedTo cap (fun _ => True) (store32 off v) :=
  confinedTo_access h

theorem confinedTo_store64 {off : Nat} {v : UInt64} (h : off + 8 ≤ cap) :
    ConfinedTo cap (fun _ => True) (store64 off v) :=
  confinedTo_access h

/-- A confined first part makes its results irrelevant for what follows. -/
theorem ConfinedTo.andThen {α β : Type} {p : RingProgram α} {f : α → RingProgram β}
    {Q : β → Prop} (hp : ConfinedTo cap (fun _ => True) p) (hf : ∀ a, ConfinedTo cap Q (f a)) :
    ConfinedTo cap Q (p >>= f) :=
  Always.bind hp fun a _ => hf a

theorem confinedTo_copyWords {off : Nat} {ws : List UInt32} (h : off + 4 * ws.length ≤ cap) :
    ConfinedTo cap (fun _ => True) (copyWords off ws) := by
  induction ws generalizing off with
  | nil => trivial
  | cons w ws ih =>
      simp only [List.length_cons] at h
      exact (confinedTo_store32 (by omega)).andThen fun _ => ih (by omega)

theorem confinedTo_readWords {off n : Nat} (h : off + 4 * n ≤ cap) :
    ConfinedTo cap (fun _ => True) (readWords off n) := by
  induction n generalizing off with
  | zero => trivial
  | succ n ih =>
      refine (confinedTo_load32 (by omega)).andThen fun w => ?_
      have hrest : ConfinedTo cap (fun _ => True) (readWords (off + 4) n) := ih (by omega)
      exact hrest.andThen fun ws => trivial

/-- All fields of a header fit when the header does. -/
theorem header_fields_fit {header : Nat} (h : header + 24 ≤ cap) :
    timestampField header + 8 ≤ cap ∧ lengthField header + 4 ≤ cap ∧
      flagsField header + 4 ≤ cap ∧ sequenceField header + 4 ≤ cap := by
  simp only [timestampField, lengthField, flagsField, sequenceField]
  omega

theorem confinedTo_beginSequence {header : Nat} (h : header + 24 ≤ cap) :
    ConfinedTo cap (fun _ => True) (beginSequence header) := by
  obtain ⟨_, _, _, hseq⟩ := header_fields_fit h
  refine (confinedTo_load32 hseq).andThen fun found => ?_
  exact (confinedTo_store32 hseq).andThen fun _ => trivial

end Accesses

section WriteSide

variable {cap : Nat}

/-- After the wrap decision the record either fits the tail or starts over. -/
theorem confinedTo_updateWriteIndexIfNeed {writeIndex totalBytes : Nat}
    (hw : writeIndex < cap) (hcap : cap < 2 ^ 32) :
    ConfinedTo cap (fun r : Bool × Nat => r.2 = writeIndex ∨ r.2 = 0)
      (updateWriteIndexIfNeed cap writeIndex totalBytes) := by
  refine Always.bind (confinedTo_sub32 (a := cap) (b := writeIndex) (by omega) hcap) ?_
  rintro tail rfl
  by_cases hfit : cap - writeIndex ≥ totalBytes
  · simp only [if_pos hfit]
    exact .inl rfl
  · simp only [if_neg hfit]
    refine ConfinedTo.andThen ?_ fun _ =>
      (confinedTo_storePosition _ _ _).andThen fun _ => .inr rfl
    by_cases htail : cap - writeIndex ≥ sizeofEventHeader
    · have hheader : writeIndex + 24 ≤ cap := by
        simp only [sizeofEventHeader] at htail
        omega
      obtain ⟨hts, hlen, hflags, hseq⟩ := header_fields_fit hheader
      simp only [if_pos htail]
      refine (confinedTo_beginSequence hheader).andThen fun seq => ?_
      refine (confinedTo_store64 hts).andThen fun _ => ?_
      refine (confinedTo_store32 hlen).andThen fun _ => ?_
      refine (confinedTo_store32 hflags).andThen fun _ => ?_
      exact confinedTo_store32 hseq
    · simp only [if_neg htail]
      trivial

theorem confinedTo_writeEvent {writeIndex : Nat} {event : MidiEventInner}
    (h : writeIndex + 24 + 4 * event.words.length ≤ cap) :
    ConfinedTo cap (fun _ => True) (writeEvent cap writeIndex event) := by
  have hheader : writeIndex + 24 ≤ cap := by omega
  obtain ⟨hts, hlen, hflags, hseq⟩ := header_fields_fit hheader
  unfold writeEvent
  split
  · trivial
  · refine (confinedTo_beginSequence (by omega)).andThen fun seq => ?_
    refine (confinedTo_store64 hts).andThen fun _ => ?_
    refine (confinedTo_store32 hlen).andThen fun _ => ?_
    refine (confinedTo_store32 hflags).andThen fun _ => ?_
    refine (confinedTo_copyWords ?_).andThen fun _ => ?_
    · simp only [payloadField, sizeofEventHeader]
      omega
    · exact (confinedTo_store32 hseq).andThen fun _ => trivial

/-- The updated write index stays a valid offset, also against a read index
that is any valid offset. -/
theorem confinedTo_tryWriteOneEvent {event : MidiEventInner}
    {totalBytes readIndex writeIndex : Nat} (hr : readIndex < cap) (hw : writeIndex < cap)
    (hcap : cap < 2 ^ 31) (hsize : 24 + 4 * event.words.length ≤ totalBytes) :
    ConfinedTo cap (fun r : MidiStatusCode × Nat => r.2 < cap)
      (tryWriteOneEvent cap event totalBytes readIndex writeIndex) := by
  unfold tryWriteOneEvent
  rw [if_neg (by omega)]
  refine Always.bind (confinedTo_ringFree hr hw (by omega)) ?_
  rintro freeSize rfl
  split
  · exact hw
  refine Always.bind (confinedTo_updateWriteIndexIfNeed hw (by omega)) ?_
  rintro ⟨wrapped, index⟩ hindex
  have hindex : index < cap := by
    rcases hindex with h | h <;> simp only at h <;> omega
  have hspace : ConfinedTo cap (fun v => v ≤ cap - index)
      (if index < readIndex then do
          let gap ← sub32 readIndex index
          sub32 gap 1
        else sub32 cap index) := by
    split
    · refine Always.bind (confinedTo_sub32 (a := readIndex) (b := index) (by omega) (by omega)) ?_
      rintro gap rfl
      exact (confinedTo_sub32 (by omega) (by omega)).mono fun v hv => by omega
    · exact (confinedTo_sub32 (by omega) (by omega)).mono fun v hv => by omega
  refine Always.bind hspace ?_
  intro writeSize hwriteSize
  split
  · exact hindex
  refine (confinedTo_writeEvent (by omega)).andThen fun written => ?_
  split
  · exact hindex
  refine Always.bind (confinedTo_add32 (a := index) (b := totalBytes) (by omega)) ?_
  rintro next rfl
  refine (confinedTo_storePosition _ _ _).andThen fun _ => ?_
  change (if index + totalBytes = cap then 0 else index + totalBytes) < cap
  split <;> omega

theorem confinedTo_writeLoop (hcap : cap < 2 ^ 31) :
    ∀ (events : List MidiEventInner) (readIndex writeIndex localWritten : Nat),
      readIndex < cap → writeIndex < cap →
      ConfinedTo cap (fun _ => True) (writeLoop cap events readIndex writeIndex localWritten) := by
  intro events
  induction events with
  | nil =>
      intro _ _ _ _ _
      trivial
  | cons event rest ih =>
      intro readIndex writeIndex localWritten hr hw
      unfold writeLoop
      split
      · trivial
      · rename_i hvalid
        split
        · trivial
        · rename_i needed hneeded
          have hsize : 24 + 4 * event.words.length ≤ needed := by
            rw [(validateOneEvent_size (by simpa using hvalid) hneeded).1]
            exact payload_le_recordSize _
          refine Always.bind (confinedTo_tryWriteOneEvent hr hw hcap hsize) ?_
          intro ret hret
          split
          · trivial
          · refine (confinedTo_loadPosition _).andThen fun index => ?_
            split
            · trivial
            · rename_i hindex
              apply ih index ret.2 _ _ hret
              simpa [isValidOffset] using hindex

theorem confinedTo_tryWriteEvents (hcap : cap < 2 ^ 31) (events : Option (List MidiEventInner))
    (eventCount : Nat) (notify : Bool) :
    ConfinedTo cap (fun _ => True) (tryWriteEvents cap events eventCount notify) := by
  unfold tryWriteEvents
  dsimp only
  split
  · trivial
  · refine (confinedTo_loadPosition _).andThen fun readIndex => ?_
    refine (confinedTo_loadPosition _).andThen fun writeIndex => ?_
    split
    · trivial
    · rename_i hvalid
      simp only [isValidOffset, Bool.or_eq_true, Bool.not_eq_eq_eq_not, Bool.not_true,
        decide_eq_false_iff_not, not_or, not_not] at hvalid
      refine ConfinedTo.andThen (confinedTo_writeLoop hcap _ _ _ _ hvalid.1 hvalid.2) fun n => ?_
      split <;> trivial

end WriteSide

section ReadSide

variable {cap : Nat}

theorem confinedTo_readHeaderSafely {header : Nat} (h : header + 24 ≤ cap) :
    ConfinedTo cap (fun _ => True) (readHeaderSafely header) := by
  obtain ⟨hts, hlen, hflags, hseq⟩ := header_fields_fit h
  refine (confinedTo_load32 hseq).andThen fun seq1 => ?_
  split
  · trivial
  · split
    · trivial
    · refine (confinedTo_load64 hts).andThen fun timestamp => ?_
      refine (confinedTo_load32 hlen).andThen fun length => ?_
      refine (confinedTo_load32 hflags).andThen fun flags => ?_
      refine (confinedTo_load32 hseq).andThen fun seq2 => ?_
      split <;> trivial

/-- A read index that passes the check leaves room for a whole header. -/
theorem confinedTo_updateReadIndexIfNeed {readIndex writeIndex : Nat} (hcap : cap < 2 ^ 31)
    (hroom : 25 ≤ cap) :
    ConfinedTo cap (fun r : MidiStatusCode × Nat => r.1 = .ok → r.2 + 24 ≤ cap)
      (updateReadIndexIfNeed cap readIndex writeIndex) := by
  unfold updateReadIndexIfNeed
  split
  · exact fun h => by simp at h
  · rename_i hvalid
    simp only [isValidOffset, Bool.or_eq_true, Bool.not_eq_eq_eq_not, Bool.not_true,
      decide_eq_false_iff_not, not_or, not_not] at hvalid
    split
    · exact fun h => by simp at h
    · refine Always.bind (confinedTo_sub32 (a := cap) (b := readIndex) (by omega) (by omega)) ?_
      rintro tail rfl
      split
      · split
        · exact fun h => by simp at h
        · exact fun _ => by simp only; omega
      · rename_i htail
        simp only [sizeofEventHeader] at htail
        exact fun _ => by simp only; omega

theorem confinedTo_handleWrapIfNeeded (header : EventHeader) :
    ConfinedTo cap (fun _ => True) (handleWrapIfNeeded header) := by
  unfold handleWrapIfNeeded
  split
  · trivial
  · split
    · trivial
    · exact (confinedTo_storePosition _ _ _).andThen fun _ => trivial

/-- What holds of an event that `PeekNext` returned `OK`, whatever it loaded. -/
def PeekConfined (cap : Nat) (ev : PeekedEvent) : Prop :=
  ev.beginOffset + 24 ≤ cap ∧ ev.payloadPtr = some (payloadField ev.beginOffset) ∧
    payloadField ev.beginOffset + 4 * ev.localHeader.length.toNat ≤ cap ∧ ev.endOffset < cap

theorem confinedTo_buildPeekedEvent {header : EventHeader} {readIndex : Nat}
    {outEvent : PeekedEvent} (hcap : cap < 2 ^ 31) (hroom : 25 ≤ cap)
    (hread : readIndex + 24 ≤ cap) (hout : outEvent.localHeader = header) :
    ConfinedTo cap (fun r : MidiStatusCode × PeekedEvent => r.1 = .ok → PeekConfined cap r.2)
      (buildPeekedEvent cap header readIndex outEvent) := by
  unfold buildPeekedEvent
  split
  · exact fun h => by simp at h
  · rename_i needed hneeded
    have hsize := payload_le_recordSize header.length.toNat
    rw [← (getEventRecordSize_eq_some.mp hneeded).1] at hsize
    refine Always.bind (confinedTo_sub32 (a := cap) (b := 1) (by omega) (by omega)) ?_
    rintro limit rfl
    split
    · exact fun h => by simp at h
    refine Always.bind (confinedTo_add32 (a := readIndex) (b := needed) (by omega)) ?_
    rintro recordEnd rfl
    split
    · exact fun h => by simp at h
    · intro _
      refine ⟨hread, rfl, ?_, ?_⟩
      · simp only [hout, payloadField, sizeofEventHeader]
        omega
      · simp only
        split <;> omega

theorem confinedTo_peekLoop (hcap : cap < 2 ^ 31) (hroom : 25 ≤ cap) (retryCount : Nat)
    (outEvent : PeekedEvent) :
    ConfinedTo cap (fun r : MidiStatusCode × PeekedEvent => r.1 = .ok → PeekConfined cap r.2)
      (peekLoop cap retryCount outEvent) := by
  induction retryCount generalizing outEvent with
  | zero => exact fun h => by simp at h
  | succ retryCount ih =>
      refine (confinedTo_loadPosition _).andThen fun readPosition => ?_
      refine (confinedTo_loadPosition _).andThen fun writeIndex => ?_
      refine Always.bind (confinedTo_updateReadIndexIfNeed hcap hroom) ?_
      intro updated hupdated
      split
      · rename_i hne
        exact fun h => absurd h hne
      rename_i hok
      have hread : updated.2 + 24 ≤ cap := hupdated (by simpa using hok)
      refine (confinedTo_readHeaderSafely hread).andThen fun read => ?_
      split
      · exact ih _
      · refine (confinedTo_handleWrapIfNeeded _).andThen fun ret => ?_
        split
        · exact ih _
        split
        · rename_i hne _
          exact fun h => absurd h hne
        refine (confinedTo_loadPosition _).andThen fun writeIndexNow => ?_
        split
        · exact ih _
        · exact confinedTo_buildPeekedEvent hcap hroom hread rfl

theorem confinedTo_peekNext (hcap : cap < 2 ^ 31) :
    ConfinedTo cap (fun r : MidiStatusCode × PeekedEvent => r.1 = .ok → PeekConfined cap r.2)
      (peekNext cap) := by
  unfold peekNext
  split
  · exact fun h => by simp at h
  · rename_i hroom
    simp only [sizeofEventHeader] at hroom
    exact confinedTo_peekLoop hcap (by omega) _ _

theorem confinedTo_commitRead {ev : PeekedEvent} (hev : PeekConfined cap ev) :
    ConfinedTo cap (fun _ => True) (commitRead cap ev) := by
  obtain ⟨_, _, _, hseq⟩ := header_fields_fit hev.1
  refine (confinedTo_load32 hseq).andThen fun currentSeq => ?_
  split
  · trivial
  · exact (confinedTo_storePosition _ _ _).andThen fun _ => trivial

theorem confinedTo_copyOut {ev : PeekedEvent} (hev : PeekConfined cap ev) :
    ConfinedTo cap (fun _ => True) (copyOut ev) := by
  unfold copyOut
  rw [hev.2.1]
  exact (confinedTo_readWords hev.2.2.1).andThen fun _ => trivial

theorem confinedTo_drainLoop (hcap : cap < 2 ^ 31) (maxEvents fuel count : Nat) :
    ConfinedTo cap (fun _ => True) (drainLoop cap maxEvents fuel count) := by
  induction fuel generalizing count with
  | zero => trivial
  | succ fuel ih =>
      unfold drainLoop
      split
      · trivial
      refine Always.bind (confinedTo_peekNext hcap) ?_
      intro peeked hpeeked
      split
      · trivial
      rename_i hok
      have hev : PeekConfined cap peeked.2 := hpeeked (by simpa using hok)
      refine (confinedTo_copyOut hev).andThen fun copied => ?_
      refine (confinedTo_commitRead hev).andThen fun committed => ?_
      split
      · exact (ih (count + 1)).andThen fun _ => trivial
      · exact ih count

end ReadSide

/-- For every accepted capacity and whatever each load returns, every access of
`PeekNext`, of `CopyOut` and `CommitRead` of an event it returned `OK`, of
`DrainToBatch` and of `TryWriteEvents` is within the data area, and no
`uint32_t` offset or free-space computation wraps around. -/
theorem hostile_peer_confined (cap : Capacity) :
    (∀ c, (peekNext cap.bytes).Issues c → Confined cap.bytes c) ∧
    (∀ ev, (peekNext cap.bytes).Returns (.ok, ev) →
      (∀ c, (copyOut ev).Issues c → Confined cap.bytes c) ∧
      (∀ c, (commitRead cap.bytes ev).Issues c → Confined cap.bytes c)) ∧
    (∀ maxEvents fuel c, (drainToBatch cap.bytes maxEvents fuel).Issues c →
      Confined cap.bytes c) ∧
    (∀ events eventCount notify c,
      (tryWriteEvents cap.bytes events eventCount notify).Issues c → Confined cap.bytes c) := by
  have hlt := cap.lt
  have hcap : cap.bytes < 2 ^ 31 := by omega
  refine ⟨fun c hc => (confinedTo_peekNext hcap).issues hc, fun ev hev => ?_,
    fun maxEvents fuel c hc => (confinedTo_drainLoop hcap maxEvents fuel 0).issues hc,
    fun events eventCount notify c hc =>
      (confinedTo_tryWriteEvents hcap events eventCount notify).issues hc⟩
  have hpeek : PeekConfined cap.bytes ev := (confinedTo_peekNext hcap).returns hev rfl
  exact ⟨fun c hc => (confinedTo_copyOut hpeek).issues hc,
    fun c hc => (confinedTo_commitRead hpeek).issues hc⟩

end MidiFramework.SharedRing
