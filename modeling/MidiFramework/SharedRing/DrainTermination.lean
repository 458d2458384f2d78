import MidiFramework.SharedRing.Space

/-!
# Drains over any memory

`PeekNext` gives up after three tries. `DrainToBatch` without a limit goes on
until `PeekNext` returns no event, and the lengths that move the reader come
from the memory. Here a drain is compared with the rows of records that the
memory holds, from the reader and from the start of the ring.
-/

namespace MidiFramework.SharedRing

open Foundation Program

section Accesses

theorem access_atMost (c : RingCmd) : (access c).AtMost 1 := fun r => .ret 0 r

theorem loadPosition_atMost (p : Position) : (loadPosition p).AtMost 1 := fun _ => .ret 0 _

theorem sub32_atMost (a b : Nat) : (sub32 a b).AtMost 1 := fun _ => .ret 0 _

theorem add32_atMost (a b : Nat) : (add32 a b).AtMost 1 := fun _ => .ret 0 _

theorem readHeaderSafely_atMost (header : Nat) : (readHeaderSafely header).AtMost 5 := by
  refine AtMost.bind (m := 1) (n := 4) (access_atMost _) fun seq1 => ?_
  refine AtMost.ite (.ret _ _) (AtMost.ite (.ret _ _) ?_)
  refine AtMost.bind (m := 1) (n := 3) (access_atMost _) fun timestamp => ?_
  refine AtMost.bind (m := 1) (n := 2) (access_atMost _) fun length => ?_
  refine AtMost.bind (m := 1) (n := 1) (access_atMost _) fun flags => ?_
  refine AtMost.bind (m := 1) (n := 0) (access_atMost _) fun seq2 => ?_
  exact AtMost.ite (.ret _ _) (.ret _ _)

theorem updateReadIndexIfNeed_atMost (cap readIndex writeIndex : Nat) :
    (updateReadIndexIfNeed cap readIndex writeIndex).AtMost 1 := by
  refine AtMost.ite (.ret _ _) (AtMost.ite (.ret _ _) ?_)
  refine AtMost.bind (m := 1) (n := 0) (sub32_atMost _ _) fun tail => ?_
  exact AtMost.ite (AtMost.ite (.ret _ _) (.ret _ _)) (.ret _ _)

theorem handleWrapIfNeeded_atMost (header : EventHeader) :
    (handleWrapIfNeeded header).AtMost 1 := by
  refine AtMost.ite (.ret _ _) (AtMost.ite (.ret _ _) ?_)
  exact AtMost.bind (m := 1) (n := 0) (access_atMost _) fun _ => .ret _ _

theorem buildPeekedEvent_atMost (cap : Nat) (header : EventHeader) (readIndex : Nat)
    (outEvent : PeekedEvent) : (buildPeekedEvent cap header readIndex outEvent).AtMost 2 := by
  rw [buildPeekedEvent]
  split
  · exact .ret _ _
  · refine AtMost.bind (m := 1) (n := 1) (sub32_atMost _ _) fun limit => ?_
    refine AtMost.ite (.ret _ _) ?_
    refine AtMost.bind (m := 1) (n := 0) (add32_atMost _ _) fun recordEnd => ?_
    exact AtMost.ite (.ret _ _) (.ret _ _)

/-- A try of `PeekNext` makes at most twelve accesses. -/
theorem peekLoop_atMost (cap retryCount : Nat) (outEvent : PeekedEvent) :
    (peekLoop cap retryCount outEvent).AtMost (12 * retryCount) := by
  induction retryCount generalizing outEvent with
  | zero => exact .ret _ _
  | succ retryCount ih =>
      have hretry : ∀ n outEvent, 12 * retryCount ≤ n → (peekLoop cap retryCount outEvent).AtMost n :=
        fun n outEvent hle => (ih outEvent).mono hle
      have htotal : 1 + (1 + (1 + (5 + (1 + (1 + (2 + 12 * retryCount)))))) =
          12 * (retryCount + 1) := by omega
      rw [← htotal]
      refine AtMost.bind (loadPosition_atMost _) fun readPosition => ?_
      refine AtMost.bind (loadPosition_atMost _) fun writeIndex => ?_
      refine AtMost.bind (updateReadIndexIfNeed_atMost _ _ _) fun updated => ?_
      refine AtMost.ite (.ret _ _) ?_
      refine AtMost.bind (readHeaderSafely_atMost _) fun read => ?_
      cases read with
      | none => exact hretry _ _ (by omega)
      | some header =>
          refine AtMost.bind (handleWrapIfNeeded_atMost _) fun ret => ?_
          refine AtMost.ite (hretry _ _ (by omega)) (AtMost.ite (.ret _ _) ?_)
          refine AtMost.bind (loadPosition_atMost _) fun writeIndexNow => ?_
          exact AtMost.ite (hretry _ _ (by omega)) ((buildPeekedEvent_atMost _ _ _ _).mono (by omega))

theorem peekNext_atMost (cap : Nat) : (peekNext cap).AtMost 36 :=
  AtMost.ite (.ret _ _) (peekLoop_atMost cap 3 {})

end Accesses

section Places

/-- The reader is moved to a place. -/
def RingMemory.readAt (m : RingMemory) (p : Nat) : RingMemory :=
  { m with readPosition := UInt32.ofNat p }

/-- A record that the reader takes lies between `p` and `e`. -/
structure ReadableAt (cap : Nat) (d : ByteMemory) (p e : Nat) : Prop where
  published : Published (d.load32 (sequenceField p))
  plain : d.load32 (flagsField p) &&& flagWrap = 0
  ends : e = p + recordSize (d.load32 (lengthField p)).toNat
  fits : e ≤ cap
  small : recordSize (d.load32 (lengthField p)).toNat < cap

/-- The reader takes the header at `p` for a wrap marker. -/
structure WrapAt (d : ByteMemory) (p : Nat) : Prop where
  published : Published (d.load32 (sequenceField p))
  wraps : d.load32 (flagsField p) &&& flagWrap ≠ 0
  empty : d.load32 (lengthField p) = 0

/-- From `p` to `q` there are `n` records, one behind the other, and the writer is at the begin of
none of them. -/
inductive Row (cap : Nat) (d : ByteMemory) (w : Nat) : Nat → Nat → Nat → Prop
  | nil (p) : Row cap d w p 0 p
  | cons {p e n q} (ahead : p ≠ w) (record : ReadableAt cap d p e) (rest : Row cap d w e n q) :
      Row cap d w p (n + 1) q

/-- The reader goes on at the start: it is at the end, in a tail too short for a header, or at a
wrap marker. -/
def TurnsAt (cap : Nat) (d : ByteMemory) (w q : Nat) : Prop :=
  q ≠ w ∧ q ≠ 0 ∧ (cap - q < 24 ∨ WrapAt d q)

/-- The reader finds nothing and stays: it has met the writer, or there is nothing it can read. -/
def HaltsAt (cap : Nat) (d : ByteMemory) (w q : Nat) : Prop :=
  ¬ TurnsAt cap d w q ∧ (q = w ∨ ∀ e, ¬ ReadableAt cap d q e)

variable {cap w p e q n k : Nat} {d : ByteMemory}

theorem ReadableAt.room (h : ReadableAt cap d p e) : p + 24 ≤ e := by
  have hsize := payload_le_recordSize (d.load32 (lengthField p)).toNat
  have hends := h.ends
  omega

/-- Every record of a row has at least a header's bytes. -/
theorem Row.length_le (h : Row cap d w p n q) : p + 24 * n ≤ q ∧ (p ≤ cap → q ≤ cap) := by
  induction h with
  | nil p => exact ⟨Nat.le_refl _, id⟩
  | cons ahead record rest ih =>
      have hroom := record.room
      have hfits := record.fits
      omega

theorem exists_row (cap : Nat) (d : ByteMemory) (w p : Nat) (hp : p ≤ cap) :
    ∃ n q, Row cap d w p n q ∧ (TurnsAt cap d w q ∨ HaltsAt cap d w q) := by
  induction hroom : cap - p using Nat.strongRecOn generalizing p with
  | ind room ih =>
      by_cases hturns : TurnsAt cap d w p
      · exact ⟨0, p, .nil p, .inl hturns⟩
      by_cases hmet : p = w
      · exact ⟨0, p, .nil p, .inr ⟨hturns, .inl hmet⟩⟩
      by_cases hread : ∃ e, ReadableAt cap d p e
      · obtain ⟨e, hrecord⟩ := hread
        have hlonger := hrecord.room
        have hfits := hrecord.fits
        obtain ⟨n, q, hrow, hend⟩ := ih (cap - e) (by omega) e hfits rfl
        exact ⟨n + 1, q, .cons hmet hrecord hrow, hend⟩
      · exact ⟨0, p, .nil p, .inr ⟨hturns, .inr fun e he => hread ⟨e, he⟩⟩⟩

end Places

section Peeks

variable {cap p e : Nat} {m : RingMemory}

theorem wouldBlock_ne_ok : MidiStatusCode.wouldBlock ≠ .ok := by decide

theorem shmBroken_ne_ok : MidiStatusCode.shmBroken ≠ .ok := by decide

/-- Capacity and write position are such that `PeekNext` looks at the ring. -/
structure Looks (cap : Nat) (m : RingMemory) : Prop where
  room : 25 ≤ cap
  small : cap < 2 ^ 31
  write : m.writePosition.toNat < cap

/-- What `PeekNext` returns for a record between `p` and `e`. -/
def peekedIn (cap : Nat) (d : ByteMemory) (p e : Nat) : PeekedEvent where
  localHeader := ⟨d.load64 (timestampField p), d.load32 (lengthField p), d.load32 (flagsField p),
    d.load32 (sequenceField p)⟩
  payloadPtr := some (payloadField p)
  beginOffset := p
  endOffset := advance cap e
  sequence := d.load32 (sequenceField p)

theorem Looks.readAt (h : Looks cap m) (p : Nat) : Looks cap (m.readAt p) := ⟨h.room, h.small, h.write⟩

theorem readAt_toNat (h : Looks cap m) (hp : p < cap) : (m.readAt p).readPosition.toNat = p := by
  have hsmall := h.small
  exact UInt32.toNat_ofNat_of_lt' (show p < 2 ^ 32 by omega)

theorem headIndex_lt (hp : p < cap) : headIndex cap p < cap := by
  rw [headIndex]
  split <;> omega

/-- The reader looks at the place where it stands or, in a short tail, at the start. -/
theorem run_update (h : Looks cap m) (hp : p < cap) (hne : p ≠ m.writePosition.toNat)
    (hhead : headIndex cap p ≠ m.writePosition.toNat) :
    (updateReadIndexIfNeed cap p m.writePosition.toNat).run exec m =
      ((.ok, headIndex cap p), m) := by
  have hsmall := h.small
  have hwrite := h.write
  rw [updateReadIndexIfNeed, if_neg (by simp [isValidOffset, hp, hwrite]), if_neg hne, run_bind,
    run_sub32_of_le hp.le (by omega)]
  dsimp only
  rw [headIndex] at hhead ⊢
  by_cases hshort : cap - p < 24
  · rw [if_pos hshort] at hhead ⊢
    rw [if_pos (show cap - p < sizeofEventHeader from hshort), if_neg hhead]
    rfl
  · rw [if_neg hshort] at hhead ⊢
    rw [if_neg (show ¬ cap - p < sizeofEventHeader from hshort)]
    rfl

theorem run_update_blocked (h : Looks cap m) (hp : p < cap)
    (hmet : p = m.writePosition.toNat ∨ headIndex cap p = m.writePosition.toNat) :
    ((updateReadIndexIfNeed cap p m.writePosition.toNat).run exec m).1.1 = .wouldBlock := by
  have hsmall := h.small
  have hwrite := h.write
  rw [updateReadIndexIfNeed, if_neg (by simp [isValidOffset, hp, hwrite])]
  by_cases hne : p = m.writePosition.toNat
  · rw [if_pos hne]
    rfl
  · have hhead := hmet.resolve_left hne
    rw [headIndex] at hhead
    rw [if_neg hne, run_bind, run_sub32_of_le hp.le (by omega)]
    dsimp only
    by_cases hshort : cap - p < 24
    · rw [if_pos hshort] at hhead
      rw [if_pos (show cap - p < sizeofEventHeader from hshort), if_pos hhead]
      rfl
    · rw [if_neg hshort] at hhead
      exact absurd hhead hne

theorem run_add32_of_lt {a b : Nat} (h : a + b < 2 ^ 32) (m : RingMemory) :
    (add32 a b).run exec m = (a + b, m) := by
  have hsum := wrap32_add h
  change (wrap32 _, m) = _
  rw [hsum]

theorem run_readHeaderSafely_none {header : Nat}
    (h : ¬ Published (m.data.load32 (sequenceField header))) :
    (readHeaderSafely header).run exec m = (none, m) := by
  rw [readHeaderSafely, run_bind, run_load32]
  dsimp only
  by_cases hzero : m.data.load32 (sequenceField header) = 0
  · rw [if_pos hzero]
    rfl
  · have hodd : m.data.load32 (sequenceField header) &&& 1 ≠ 0 := fun heven => h ⟨hzero, heven⟩
    rw [if_neg hzero, if_pos hodd]
    rfl

/-- A try that finds nothing it can read is repeated. -/
theorem run_peekLoop_unpublished (h : Looks cap m) (hp : m.readPosition.toNat = p) (hlt : p < cap)
    (hne : p ≠ m.writePosition.toNat) (hhead : headIndex cap p ≠ m.writePosition.toNat)
    (hunpublished : ¬ Published (m.data.load32 (sequenceField (headIndex cap p)))) (k : Nat)
    (outEvent : PeekedEvent) :
    (peekLoop cap (k + 1) outEvent).run exec m = (peekLoop cap k outEvent).run exec m := by
  rw [peekLoop, run_bind, run_loadRead, run_bind, run_loadWrite, run_bind]
  dsimp only
  rw [hp, run_update h hlt hne hhead]
  dsimp only
  rw [if_neg (not_not.mpr rfl), run_bind, run_readHeaderSafely_none hunpublished]

/-- A try that finds a header goes on with it. -/
theorem run_peekLoop_header (h : Looks cap m) (hp : m.readPosition.toNat = p) (hlt : p < cap)
    (hne : p ≠ m.writePosition.toNat) (hhead : headIndex cap p ≠ m.writePosition.toNat)
    (hpublished : Published (m.data.load32 (sequenceField (headIndex cap p)))) (k : Nat)
    (outEvent : PeekedEvent) :
    (peekLoop cap (k + 1) outEvent).run exec m =
      (do
        let header : EventHeader := (peekedIn cap m.data (headIndex cap p) e).localHeader
        let ret ← handleWrapIfNeeded header
        if ret = .ok then peekLoop cap k outEvent
        else if ret = .shmBroken then return (ret, outEvent)
        else
          let outEvent := { outEvent with localHeader := header, sequence := header.sequence }
          let writeIndexNow ← loadPosition .writePosition
          if headIndex cap p = writeIndexNow then peekLoop cap k outEvent
          else buildPeekedEvent cap header (headIndex cap p) outEvent : RingProgram _).run exec m := by
  rw [peekLoop, run_bind, run_loadRead, run_bind, run_loadWrite, run_bind]
  dsimp only
  rw [hp, run_update h hlt hne hhead]
  dsimp only
  rw [if_neg (not_not.mpr rfl), run_bind, run_readHeaderSafely hpublished]
  rfl

/-- The header of no wrap marker is handled without a store. -/
theorem run_handleWrap_plain {header : EventHeader} (hplain : header.flags &&& flagWrap = 0) :
    (handleWrapIfNeeded header).run exec m = (.wouldBlock, m) := by
  rw [handleWrapIfNeeded, if_pos hplain]
  rfl

theorem run_handleWrap_wrap {header : EventHeader} (hwraps : header.flags &&& flagWrap ≠ 0)
    (hempty : header.length = 0) : (handleWrapIfNeeded header).run exec m = (.ok, m.readAt 0) := by
  rw [handleWrapIfNeeded, if_neg hwraps, if_neg (not_not.mpr hempty)]
  rfl

theorem run_handleWrap_broken {header : EventHeader} (hwraps : header.flags &&& flagWrap ≠ 0)
    (hfilled : header.length ≠ 0) : (handleWrapIfNeeded header).run exec m = (.shmBroken, m) := by
  rw [handleWrapIfNeeded, if_neg hwraps, if_pos hfilled]
  rfl

/-- A header whose record does not fit the ring gives no event. -/
theorem run_buildPeekedEvent_broken {header : EventHeader} (hcap : cap < 2 ^ 31) (hroom : 25 ≤ cap)
    (hp : p < cap) (hbig : cap ≤ recordSize header.length.toNat ∨
      cap < p + recordSize header.length.toNat) (outEvent : PeekedEvent) :
    ((buildPeekedEvent cap header p outEvent).run exec m).1.1 = .shmBroken := by
  rw [buildPeekedEvent]
  split
  · rfl
  next needed hneeded =>
    obtain ⟨rfl, -⟩ := getEventRecordSize_eq_some.mp hneeded
    rw [run_bind, run_sub32_of_le (by omega) (by omega)]
    dsimp only
    by_cases hless : recordSize header.length.toNat > cap - 1
    · rw [if_pos hless]
      rfl
    · rw [if_neg hless, run_bind, run_add32_of_lt (by omega)]
      dsimp only
      rw [if_pos (by omega)]
      rfl

/-- The reader takes the record that it looks at. -/
theorem run_peekLoop_record (h : Looks cap m) (hp : m.readPosition.toNat = p) (hlt : p < cap)
    (hne : p ≠ m.writePosition.toNat) (hhead : headIndex cap p ≠ m.writePosition.toNat)
    (record : ReadableAt cap m.data (headIndex cap p) e) (k : Nat) (outEvent : PeekedEvent) :
    (peekLoop cap (k + 1) outEvent).run exec m =
      ((.ok, peekedIn cap m.data (headIndex cap p) e), m) := by
  have hsmall := h.small
  have hsize : getEventRecordSize (m.data.load32 (lengthField (headIndex cap p))).toNat =
      some (recordSize (m.data.load32 (lengthField (headIndex cap p))).toNat) :=
    getEventRecordSize_eq_some.mpr ⟨rfl, by have := record.small; omega⟩
  have hfits := record.fits
  have hless := record.small
  have hends := record.ends
  have hplain : (handleWrapIfNeeded (peekedIn cap m.data (headIndex cap p) e).localHeader).run
      exec m = (.wouldBlock, m) := run_handleWrap_plain record.plain
  rw [run_peekLoop_header (e := e) h hp hlt hne hhead record.published]
  dsimp only
  rw [run_bind, hplain]
  dsimp only
  rw [if_neg (by decide), if_neg (by decide), run_bind, run_loadWrite]
  dsimp only
  rw [if_neg hhead, buildPeekedEvent]
  simp only [peekedIn, hsize]
  rw [run_bind, run_sub32_of_le (by omega) (by omega)]
  dsimp only
  rw [if_neg (by omega), run_bind, run_add32_of_lt (by omega), ← hends]
  dsimp only
  rw [if_neg (by omega)]
  rfl

/-- Past a wrap marker the reader goes on at the start. -/
theorem run_peekLoop_wrap (h : Looks cap m) (hp : m.readPosition.toNat = p) (hlt : p < cap)
    (hne : p ≠ m.writePosition.toNat) (hhead : headIndex cap p ≠ m.writePosition.toNat)
    (wrap : WrapAt m.data (headIndex cap p)) (k : Nat) (outEvent : PeekedEvent) :
    (peekLoop cap (k + 1) outEvent).run exec m =
      (peekLoop cap k outEvent).run exec (m.readAt 0) := by
  have hturned : (handleWrapIfNeeded (peekedIn cap m.data (headIndex cap p) 0).localHeader).run
      exec m = (.ok, m.readAt 0) := run_handleWrap_wrap wrap.wraps wrap.empty
  rw [run_peekLoop_header (e := 0) h hp hlt hne hhead wrap.published]
  dsimp only
  rw [run_bind, hturned, if_pos rfl]

/-- With nothing to read there `PeekNext` returns no event. -/
theorem run_peekLoop_nothing (h : Looks cap m) (hp : m.readPosition.toNat = p) (hlt : p < cap)
    (hnone : p = m.writePosition.toNat ∨ headIndex cap p = m.writePosition.toNat ∨
      ¬ WrapAt m.data (headIndex cap p) ∧ ∀ e, ¬ ReadableAt cap m.data (headIndex cap p) e)
    (k : Nat) (outEvent : PeekedEvent) :
    ((peekLoop cap k outEvent).run exec m).1.1 ≠ .ok := by
  have hsmall := h.small
  induction k generalizing outEvent with
  | zero => exact wouldBlock_ne_ok
  | succ k ih =>
      by_cases hmet : p = m.writePosition.toNat ∨ headIndex cap p = m.writePosition.toNat
      · have hblocked := run_update_blocked h hlt hmet
        rw [peekLoop, run_bind, run_loadRead, run_bind, run_loadWrite, run_bind]
        dsimp only
        rw [hp]
        generalize (updateReadIndexIfNeed cap p m.writePosition.toNat).run exec m = out at hblocked ⊢
        have hnone : out.1.1 ≠ .ok := by
          rw [hblocked]
          exact wouldBlock_ne_ok
        rw [if_pos hnone]
        exact hnone
      obtain ⟨hne, hhead⟩ := not_or.mp hmet
      obtain ⟨hwrap, hread⟩ := (hnone.resolve_left hne).resolve_left hhead
      by_cases hpublished : Published (m.data.load32 (sequenceField (headIndex cap p)))
      swap
      · rw [run_peekLoop_unpublished h hp hlt hne hhead hpublished]
        exact ih outEvent
      rw [run_peekLoop_header (e := 0) h hp hlt hne hhead hpublished]
      dsimp only
      rw [run_bind]
      by_cases hplain : m.data.load32 (flagsField (headIndex cap p)) &&& flagWrap = 0
      · have hstays : (handleWrapIfNeeded (peekedIn cap m.data (headIndex cap p) 0).localHeader).run
            exec m = (.wouldBlock, m) := run_handleWrap_plain hplain
        rw [hstays]
        dsimp only
        rw [if_neg (by decide), if_neg (by decide), run_bind, run_loadWrite]
        dsimp only
        rw [if_neg hhead, run_buildPeekedEvent_broken hsmall h.room (headIndex_lt hlt) ?_]
        · exact shmBroken_ne_ok
        by_contra hfits
        obtain ⟨hless, hends⟩ := not_or.mp hfits
        exact hread _ ⟨hpublished, hplain, rfl, Nat.not_lt.mp hends, Nat.not_le.mp hless⟩
      · have hlength : m.data.load32 (lengthField (headIndex cap p)) ≠ 0 :=
          fun hempty => hwrap ⟨hpublished, hplain, hempty⟩
        have hbroken : (handleWrapIfNeeded (peekedIn cap m.data (headIndex cap p) 0).localHeader).run
            exec m = (.shmBroken, m) := run_handleWrap_broken hplain hlength
        rw [hbroken]
        exact shmBroken_ne_ok

end Peeks

section Rounds

variable {cap p q e n : Nat} {m : RingMemory}

theorem readAt_readAt (m : RingMemory) (p q : Nat) : (m.readAt p).readAt q = m.readAt q := rfl

theorem headIndex_zero (cap : Nat) : headIndex cap 0 = 0 := by
  rw [headIndex]
  split <;> rfl

/-- The start is never a place to turn back from. -/
theorem haltsAt_zero {d : ByteMemory} {w : Nat}
    (hnone : 0 = w ∨ ∀ e, ¬ ReadableAt cap d 0 e) : HaltsAt cap d w 0 :=
  ⟨fun hturns => hturns.2.1 rfl, hnone⟩

/-- Where the reader halts, `PeekNext` returns no event. -/
theorem peek_halts (h : Looks cap m) (hp : p < cap)
    (hhalts : HaltsAt cap m.data m.writePosition.toNat p) (k : Nat) (outEvent : PeekedEvent) :
    ((peekLoop cap k outEvent).run exec (m.readAt p)).1.1 ≠ .ok := by
  have hposition := readAt_toNat h hp
  have hlooks := h.readAt p
  obtain ⟨hturns, hnone⟩ := hhalts
  by_cases hmet : p = m.writePosition.toNat
  · exact run_peekLoop_nothing hlooks hposition hp (.inl hmet) k outEvent
  have hread := hnone.resolve_left hmet
  by_cases hzero : p = 0
  · subst hzero
    have hhead := headIndex_zero cap
    by_cases hwrap : WrapAt m.data 0
    · -- a wrap marker at the start is passed over until the tries are used up
      induction k generalizing outEvent with
      | zero => exact wouldBlock_ne_ok
      | succ k ih =>
          rw [run_peekLoop_wrap hlooks hposition hp hmet (by rw [hhead]; exact hmet)
            (by rw [hhead]; exact hwrap), readAt_readAt]
          exact ih outEvent
    · refine run_peekLoop_nothing hlooks hposition hp (.inr (.inr ?_)) k outEvent
      rw [hhead]
      exact ⟨hwrap, hread⟩
  · have hhead : headIndex cap p = p := if_neg fun hshort => hturns ⟨hmet, hzero, .inl hshort⟩
    have hwrap : ¬ WrapAt m.data p := fun hwrap => hturns ⟨hmet, hzero, .inr hwrap⟩
    refine run_peekLoop_nothing hlooks hposition hp (.inr (.inr ?_)) k outEvent
    rw [hhead]
    exact ⟨hwrap, hread⟩

theorem peek_record (h : Looks cap m) (hne : p ≠ m.writePosition.toNat)
    (record : ReadableAt cap m.data p e) (k : Nat) (outEvent : PeekedEvent) :
    (peekLoop cap (k + 1) outEvent).run exec (m.readAt p) =
      ((.ok, peekedIn cap m.data p e), m.readAt p) := by
  have hroom := record.room
  have hfits := record.fits
  have hhead : headIndex cap p = p := if_neg (by omega)
  have hlt : p < cap := by omega
  have hrun := run_peekLoop_record (h.readAt p) (readAt_toNat h hlt) hlt hne (hhead.symm ▸ hne)
    (hhead.symm ▸ record) k outEvent
  rw [hhead] at hrun
  exact hrun

/-- From a place where the reader turns back it finds what it finds at the start. -/
theorem peek_turns (h : Looks cap m) (hq : q < cap)
    (hturns : TurnsAt cap m.data m.writePosition.toNat q) (k : Nat) (outEvent : PeekedEvent) :
    (HaltsAt cap m.data m.writePosition.toNat 0 →
      ((peekLoop cap (k + 2) outEvent).run exec (m.readAt q)).1.1 ≠ .ok) ∧
    ∀ e, 0 ≠ m.writePosition.toNat → ReadableAt cap m.data 0 e → ∃ p',
      (peekLoop cap (k + 2) outEvent).run exec (m.readAt q) =
        ((.ok, peekedIn cap m.data 0 e), m.readAt p') := by
  have hposition := readAt_toNat h hq
  have hlooks := h.readAt q
  have hpos : 0 < cap := Nat.lt_of_le_of_lt (Nat.zero_le q) hq
  obtain ⟨hmet, hzero, hplace⟩ := hturns
  by_cases hshort : cap - q < 24
  · have hhead : headIndex cap q = 0 := if_pos hshort
    refine ⟨fun hhalts => ?_, fun e hne record => ⟨q, ?_⟩⟩
    · by_cases hstart : 0 = m.writePosition.toNat
      · exact run_peekLoop_nothing hlooks hposition hq (.inr (.inl (hhead.trans hstart))) _ outEvent
      by_cases hwrap : WrapAt m.data 0
      · rw [run_peekLoop_wrap hlooks hposition hq hmet (by rw [hhead]; exact hstart)
          (by rw [hhead]; exact hwrap)]
        exact peek_halts h hpos hhalts _ outEvent
      · have hread := hhalts.2.resolve_left hstart
        refine run_peekLoop_nothing hlooks hposition hq (.inr (.inr ?_)) _ outEvent
        rw [hhead]
        exact ⟨hwrap, hread⟩
    · have hrun := run_peekLoop_record hlooks hposition hq hmet (hhead.symm ▸ hne)
        (hhead.symm ▸ record) (k + 1) outEvent
      rw [hhead] at hrun
      exact hrun
  · have hhead : headIndex cap q = q := if_neg hshort
    have hwrap := hplace.resolve_left hshort
    have hturned := run_peekLoop_wrap hlooks hposition hq hmet (hhead.symm ▸ hmet)
      (hhead.symm ▸ hwrap) (k + 1) outEvent
    rw [hturned, readAt_readAt]
    exact ⟨fun hhalts => peek_halts h hpos hhalts _ outEvent,
      fun e hne record => ⟨0, peek_record h hne record k outEvent⟩⟩

end Rounds

section Drains

variable {cap p q e n k rounds : Nat} {m : RingMemory}

/-- Whether a drain without a limit ends in so many rounds, and how many events it has returned. -/
def drained (cap rounds : Nat) (m : RingMemory) : Bool × Nat :=
  let out := ((drainToBatch cap 0 rounds).run exec m).1
  (out.1, out.2.length)

/-- One event more. -/
def oneMore (result : Bool × Nat) : Bool × Nat := (result.1, result.2 + 1)

theorem iterate_oneMore (n : Nat) (result : Bool × Nat) :
    oneMore^[n] result = (result.1, result.2 + n) := by
  induction n with
  | zero => rfl
  | succ n ih =>
      rw [Function.iterate_succ_apply', ih]
      rfl

/-- Without a limit the number of events taken so far does not matter. -/
theorem drainLoop_count (cap rounds count : Nat) :
    drainLoop cap 0 rounds count = drainLoop cap 0 rounds 0 := by
  induction rounds generalizing count with
  | zero => rfl
  | succ rounds ih =>
      rw [drainLoop, drainLoop, if_neg (not_not.mpr (.inl rfl)), if_neg (not_not.mpr (.inl rfl)),
        ih (count + 1), ih count, ih (0 + 1)]

theorem run_readWords_state (off n : Nat) (m : RingMemory) :
    ((readWords off n).run exec m).2 = m := by
  induction n generalizing off with
  | zero => rfl
  | succ n ih =>
      rw [readWords, run_bind, run_load32, run_bind]
      exact ih _

theorem run_copyOut_state (ev : PeekedEvent) (m : RingMemory) :
    ((copyOut ev).run exec m).2 = m := by
  rw [copyOut]
  split
  · rfl
  · rw [run_bind]
    exact run_readWords_state _ _ m

/-- A round of the loop: nothing returned, an event committed, or an event discarded. -/
theorem drained_succ (cap rounds : Nat) (m : RingMemory) :
    drained cap (rounds + 1) m =
      let peeked := (peekNext cap).run exec m
      let committed := (commitRead cap peeked.1.2).run exec peeked.2
      if peeked.1.1 ≠ .ok then (true, 0)
      else if committed.1 then oneMore (drained cap rounds committed.2)
      else drained cap rounds committed.2 := by
  rw [drained, drainToBatch, drainLoop, if_neg (not_not.mpr (.inl rfl)), run_bind]
  generalize (peekNext cap).run exec m = peeked
  dsimp only
  by_cases hstopped : peeked.1.1 ≠ .ok
  · rw [if_pos hstopped, if_pos hstopped]
    rfl
  rw [if_neg hstopped, if_neg hstopped, run_bind, run_copyOut_state, run_bind]
  generalize (commitRead cap peeked.1.2).run exec peeked.2 = committed
  by_cases hcommitted : committed.1 = true
  · rw [if_pos hcommitted, if_pos hcommitted, run_bind, drainLoop_count]
    rfl
  · rw [if_neg hcommitted, if_neg hcommitted]
    rfl

/-- A drain that ends needs no further rounds. -/
theorem drained_add_of_ended (hended : (drained cap rounds m).1 = true) (k : Nat) :
    drained cap (rounds + k) m = drained cap rounds m := by
  induction rounds generalizing m with
  | zero => cases hended
  | succ rounds ih =>
      rw [drained_succ] at hended
      rw [Nat.succ_add, drained_succ, drained_succ]
      dsimp only at hended ⊢
      by_cases hstopped : ((peekNext cap).run exec m).1.1 ≠ .ok
      · rw [if_pos hstopped, if_pos hstopped]
      rw [if_neg hstopped] at hended ⊢
      rw [if_neg hstopped]
      by_cases hcommitted : ((commitRead cap ((peekNext cap).run exec m).1.2).run exec
          ((peekNext cap).run exec m).2).1 = true
      · rw [if_pos hcommitted] at hended ⊢
        rw [if_pos hcommitted, ih hended]
      · rw [if_neg hcommitted] at hended ⊢
        rw [if_neg hcommitted, ih hended]

/-- All drains that end return the same number of events. -/
theorem drained_unique {rounds' : Nat} (hended : (drained cap rounds m).1 = true)
    (hended' : (drained cap rounds' m).1 = true) : drained cap rounds m = drained cap rounds' m := by
  rw [← drained_add_of_ended hended rounds', ← drained_add_of_ended hended' rounds, Nat.add_comm]

theorem peekNext_eq (h : Looks cap m) : peekNext cap = peekLoop cap (1 + 2) {} :=
  if_neg (not_not.mpr h.room)

theorem drained_stopped (hstopped : ((peekNext cap).run exec m).1.1 ≠ .ok) (rounds : Nat) :
    drained cap (rounds + 1) m = (true, 0) := by
  rw [drained_succ]
  dsimp only
  rw [if_pos hstopped]

theorem run_commitRead (h : Looks cap m) (he : e ≤ cap) (p q : Nat) :
    (commitRead cap (peekedIn cap m.data p e)).run exec (m.readAt q) =
      (true, m.readAt (advance cap e)) := by
  have hroom := h.room
  have hadvance : advance cap e < cap := by
    rw [advance]
    split <;> omega
  have hsame : (m.readAt q).data.load32 (sequenceField (peekedIn cap m.data p e).beginOffset) =
      (peekedIn cap m.data p e).sequence := rfl
  have hinside : ¬ (peekedIn cap m.data p e).endOffset ≥ cap := Nat.not_le.mpr hadvance
  rw [commitRead, run_bind, run_load32]
  dsimp only
  rw [if_neg (not_not.mpr hsame), if_neg hinside]
  rfl

/-- A record that was returned is committed, because nothing changes its header. -/
theorem drained_took (h : Looks cap m) (he : e ≤ cap) {q : Nat}
    (hpeek : (peekNext cap).run exec m = ((.ok, peekedIn cap m.data p e), m.readAt q))
    (rounds : Nat) :
    drained cap (rounds + 1) m = oneMore (drained cap rounds (m.readAt (advance cap e))) := by
  rw [drained_succ, hpeek]
  dsimp only
  rw [if_neg (not_not.mpr rfl), run_commitRead h he, if_pos rfl]

theorem drained_of_halts (h : Looks cap m) (hp : p < cap)
    (hhalts : HaltsAt cap m.data m.writePosition.toNat p) (rounds : Nat) :
    drained cap (rounds + 1) (m.readAt p) = (true, 0) := by
  refine drained_stopped ?_ rounds
  rw [peekNext_eq h]
  exact peek_halts h hp hhalts 3 {}

theorem drained_of_record (h : Looks cap m) (hne : p ≠ m.writePosition.toNat)
    (record : ReadableAt cap m.data p e) (rounds : Nat) :
    drained cap (rounds + 1) (m.readAt p) =
      oneMore (drained cap rounds (m.readAt (advance cap e))) := by
  have hpeek : (peekNext cap).run exec (m.readAt p) =
      ((.ok, peekedIn cap (m.readAt p).data p e), (m.readAt p).readAt p) := by
    rw [peekNext_eq h]
    exact peek_record h hne record 2 {}
  exact drained_took (h.readAt p) record.fits hpeek rounds

/-- Where the reader turns back the drain goes on as from the start. -/
theorem drained_of_turns (h : Looks cap m) (hq : q ≤ cap)
    (hturns : TurnsAt cap m.data m.writePosition.toNat q) (rounds : Nat) :
    drained cap rounds (m.readAt (advance cap q)) = drained cap rounds (m.readAt 0) := by
  have hroom := h.room
  have hpos : 0 < cap := by omega
  by_cases hend : q = cap
  · rw [advance, if_pos hend]
  rw [advance, if_neg hend]
  have hlt : q < cap := by omega
  obtain ⟨hstops, htakes⟩ := peek_turns h hlt hturns 1 {}
  have hpeek := peekNext_eq h
  cases rounds with
  | zero => rfl
  | succ rounds =>
      by_cases hnone : 0 = m.writePosition.toNat ∨ ∀ e, ¬ ReadableAt cap m.data 0 e
      · have hhalts := haltsAt_zero hnone
        rw [drained_of_halts h hpos hhalts, drained_stopped (hpeek ▸ hstops hhalts)]
      · obtain ⟨hne, hread⟩ := not_or.mp hnone
        obtain ⟨e, record⟩ := not_forall_not.mp hread
        obtain ⟨p', hrun⟩ := htakes e hne record
        rw [drained_of_record h hne record, drained_took (h.readAt q) record.fits (hpeek ▸ hrun)]
        rfl

/-- The events of a row are taken one after the other. -/
theorem drained_of_row (h : Looks cap m) (hp : p ≤ cap)
    (hrow : Row cap m.data m.writePosition.toNat p n q) (rounds : Nat) :
    drained cap (n + rounds) (m.readAt (advance cap p)) =
      oneMore^[n] (drained cap rounds (m.readAt (advance cap q))) := by
  generalize hw : m.writePosition.toNat = w at hrow
  generalize hd : m.data = d at hrow
  induction hrow with
  | nil p => rw [Nat.zero_add]; rfl
  | @cons p e n q ahead record rest ih =>
      subst hw hd
      have hroom := record.room
      have hfits := record.fits
      have hstay : advance cap p = p := if_neg (by omega)
      rw [hstay, Nat.succ_add, drained_of_record h ahead record, ih hfits,
        Function.iterate_succ_apply']

end Drains

section Termination

/-- From `p` the reader takes `n` records and turns back to the start. -/
def Laps (cap : Nat) (m : RingMemory) (p n : Nat) : Prop :=
  ∃ q, Row cap m.data m.writePosition.toNat p n q ∧ TurnsAt cap m.data m.writePosition.toNat q

/-- From `p` the reader takes `n` records and halts without turning back. -/
def Halts (cap : Nat) (m : RingMemory) (p n : Nat) : Prop :=
  ∃ q, Row cap m.data m.writePosition.toNat p n q ∧ HaltsAt cap m.data m.writePosition.toNat q

/-- `PeekNext` ends after a fixed number of accesses, and a drain without a limit ends with no more
events than there is room for headers. -/
structure DrainTerminates (cap : Nat) (m : RingMemory) : Prop where
  peek : (peekNext cap).AtMost 36
  drain : ∃ rounds events, ((drainToBatch cap 0 rounds).run exec m).1 = (true, events) ∧
    events.length ≤ cap / sizeofEventHeader

/-- The positions are refused, or the reader comes past the end of the ring at most once: it halts
before, or behind the start, and then the ring has room for the headers of all records it took. -/
def TurnsOnce (cap : Nat) (m : RingMemory) : Prop :=
  ¬(sizeofEventHeader + 1 ≤ cap ∧ InRing cap m) ∨ (∃ n, Halts cap m m.readPosition.toNat n) ∨
    ∃ n k, Laps cap m m.readPosition.toNat n ∧ Halts cap m 0 k ∧ n + k ≤ cap / sizeofEventHeader

variable {cap p q n k rounds : Nat} {m : RingMemory}

theorem drained_of_haltsRow (h : Looks cap m) (hp : p ≤ cap) (hhalts : Halts cap m p n) :
    drained cap (n + 1) (m.readAt (advance cap p)) = (true, n) := by
  obtain ⟨q, hrow, hends⟩ := hhalts
  have hroom := h.room
  have hwrite := h.write
  have hle := hrow.length_le.2 hp
  have hne : q ≠ cap := by
    rintro rfl
    exact hends.1 ⟨by omega, by omega, .inl (by omega)⟩
  have hstay : advance cap q = q := if_neg hne
  rw [drained_of_row h hp hrow, iterate_oneMore, hstay, drained_of_halts h (by omega) hends,
    Nat.zero_add]

theorem drained_of_laps (h : Looks cap m) (hp : p ≤ cap) (hlaps : Laps cap m p n) (rounds : Nat) :
    drained cap (n + rounds) (m.readAt (advance cap p)) =
      oneMore^[n] (drained cap rounds (m.readAt 0)) := by
  obtain ⟨q, hrow, hturns⟩ := hlaps
  rw [drained_of_row h hp hrow, drained_of_turns h (hrow.length_le.2 hp) hturns]

/-- A reader that comes back to the start from there never ends. -/
theorem drained_never (h : Looks cap m) (hlaps : Laps cap m 0 n) (rounds : Nat) :
    (drained cap rounds (m.readAt 0)).1 = false := by
  have hroom := h.room
  have hstart : advance cap 0 = 0 := if_neg (by omega)
  have hn : n ≠ 0 := by
    rintro rfl
    obtain ⟨q, hrow, hturns⟩ := hlaps
    cases hrow
    exact hturns.2.1 rfl
  by_contra hended
  have htrue := eq_true_of_ne_false hended
  -- the same drain with the rounds of one lap more returns `n` events more
  have hlap := drained_of_laps h (Nat.zero_le cap) hlaps rounds
  rw [hstart, iterate_oneMore, Nat.add_comm, drained_add_of_ended htrue] at hlap
  have hcount := congrArg Prod.snd hlap
  dsimp only at hcount
  omega

theorem drained_of_lapsHalts (h : Looks cap m) (hp : p ≤ cap) (hlaps : Laps cap m p n)
    (hhalts : Halts cap m 0 k) :
    drained cap (n + (k + 1)) (m.readAt (advance cap p)) = (true, n + k) := by
  have hroom := h.room
  have hstart : advance cap 0 = 0 := if_neg (by omega)
  have hsecond := drained_of_haltsRow h (Nat.zero_le cap) hhalts
  rw [hstart] at hsecond
  rw [drained_of_laps h hp hlaps, hsecond, iterate_oneMore, Nat.add_comm]

/-- A reader that halts on its first way has taken no more records than headers fit. -/
theorem Halts.count_le (hp : p ≤ cap) (hhalts : Halts cap m p n) :
    n ≤ cap / sizeofEventHeader := by
  obtain ⟨q, hrow, -⟩ := hhalts
  obtain ⟨hlong, hinside⟩ := hrow.length_le
  have hq := hinside hp
  have hsize : sizeofEventHeader = 24 := rfl
  rw [hsize, Nat.le_div_iff_mul_le (by decide)]
  omega

theorem readAt_self (m : RingMemory) : m.readAt m.readPosition.toNat = m := by
  rw [RingMemory.readAt, UInt32.ofNat_toNat]

/-- `PeekNext` refuses a ring without room for a record and a position outside the ring. -/
theorem drained_of_refused (hout : ¬ (sizeofEventHeader + 1 ≤ cap ∧ InRing cap m)) (rounds : Nat) :
    drained cap (rounds + 1) m = (true, 0) := by
  refine drained_stopped ?_ rounds
  rw [peekNext]
  by_cases hroom : cap ≥ sizeofEventHeader + 1
  · have hpositions : (!isValidOffset m.readPosition.toNat cap ||
        !isValidOffset m.writePosition.toNat cap) = true := by
      by_contra hvalid
      simp only [isValidOffset, Bool.not_eq_true, Bool.or_eq_false_iff, Bool.not_eq_false',
        decide_eq_true_eq] at hvalid
      exact hout ⟨hroom, hvalid.1, hvalid.2⟩
    rw [if_neg (not_not.mpr hroom), peekLoop, run_bind, run_loadRead, run_bind, run_loadWrite,
      run_bind]
    dsimp only
    rw [updateReadIndexIfNeed, if_pos hpositions]
    exact shmBroken_ne_ok
  · rw [if_pos hroom]
    exact shmBroken_ne_ok

/-- Of the events that a drain returns only their number is bounded. -/
theorem exists_drain_iff {bound : Nat} :
    (∃ rounds events, ((drainToBatch cap 0 rounds).run exec m).1 = (true, events) ∧
      events.length ≤ bound) ↔ ∃ rounds n, drained cap rounds m = (true, n) ∧ n ≤ bound := by
  constructor
  · rintro ⟨rounds, events, hrun, hle⟩
    exact ⟨rounds, events.length, by rw [drained, hrun], hle⟩
  · rintro ⟨rounds, n, hdrained, hle⟩
    rw [drained] at hdrained
    obtain ⟨hended, rfl⟩ := Prod.mk.inj hdrained
    exact ⟨rounds, _, Prod.ext hended rfl, hle⟩

/-- A drain that ends comes to the start at most once: from there it cannot come back. -/
theorem turnsOnce_of_ended (h : Looks cap m) (hp : m.readPosition.toNat < cap)
    (hended : drained cap rounds m = (true, n)) (hle : n ≤ cap / sizeofEventHeader) :
    TurnsOnce cap m := by
  have hstay : m.readAt (advance cap m.readPosition.toNat) = m := by
    rw [advance, if_neg hp.ne, readAt_self]
  have htrue : (drained cap rounds m).1 = true := congrArg Prod.fst hended
  obtain ⟨j, q, hrow, hturns | hhalts⟩ :=
    exists_row cap m.data m.writePosition.toNat m.readPosition.toNat hp.le
  swap
  · exact .inr (.inl ⟨j, q, hrow, hhalts⟩)
  have hfirst : Laps cap m m.readPosition.toNat j := ⟨q, hrow, hturns⟩
  obtain ⟨k, q', hrow', hturns' | hhalts'⟩ :=
    exists_row cap m.data m.writePosition.toNat 0 (Nat.zero_le cap)
  · have hnever := drained_never h ⟨q', hrow', hturns'⟩ rounds
    have hlap := drained_of_laps h hp.le hfirst rounds
    rw [hstay, iterate_oneMore, Nat.add_comm, drained_add_of_ended htrue] at hlap
    have hfalse : (drained cap rounds m).1 = false := by rw [hlap, hnever]
    exact absurd (hfalse.symm.trans htrue) Bool.false_ne_true
  · have hsecond : Halts cap m 0 k := ⟨q', hrow', hhalts'⟩
    have hboth := drained_of_lapsHalts h hp.le hfirst hsecond
    rw [hstay] at hboth
    have hsame := drained_unique htrue (congrArg Prod.fst hboth)
    rw [hended, hboth] at hsame
    have hcount : n = j + k := congrArg Prod.snd hsame
    exact .inr (.inr ⟨j, k, hfirst, hsecond, hcount ▸ hle⟩)

theorem ended_of_turnsOnce (h : Looks cap m) (hm : InRing cap m) (hturns : TurnsOnce cap m) :
    ∃ rounds n, drained cap rounds m = (true, n) ∧ n ≤ cap / sizeofEventHeader := by
  have hp := hm.read
  have hstay : m.readAt (advance cap m.readPosition.toNat) = m := by
    rw [advance, if_neg hp.ne, readAt_self]
  obtain hout | ⟨n, hhalts⟩ | ⟨n, k, hlaps, hhalts, hle⟩ := hturns
  · exact absurd ⟨h.room, hm⟩ hout
  · have hrun := drained_of_haltsRow h hp.le hhalts
    rw [hstay] at hrun
    exact ⟨n + 1, n, hrun, hhalts.count_le hp.le⟩
  · have hrun := drained_of_lapsHalts h hp.le hlaps hhalts
    rw [hstay] at hrun
    exact ⟨n + (k + 1), n + k, hrun, hle⟩

/-- Draining ends, with no more events than headers fit the ring, exactly for a memory whose records
lead the reader back to the start at most once. -/
theorem drainTerminates_iff (capacity : Capacity) (m : RingMemory) :
    DrainTerminates capacity.bytes m ↔ TurnsOnce capacity.bytes m := by
  have hlt := capacity.lt
  by_cases hin : sizeofEventHeader + 1 ≤ capacity.bytes ∧ InRing capacity.bytes m
  · obtain ⟨hroom, hm⟩ := hin
    have h : Looks capacity.bytes m := ⟨hroom, by omega, hm.write⟩
    constructor
    · intro hterminates
      obtain ⟨rounds, n, hended, hle⟩ := exists_drain_iff.mp hterminates.drain
      exact turnsOnce_of_ended h hm.read hended hle
    · intro hturns
      exact ⟨peekNext_atMost _, exists_drain_iff.mpr (ended_of_turnsOnce h hm hturns)⟩
  · have hended : ∃ rounds n, drained capacity.bytes rounds m = (true, n) ∧
        n ≤ capacity.bytes / sizeofEventHeader :=
      ⟨1, 0, drained_of_refused hin 0, Nat.zero_le _⟩
    exact iff_of_true ⟨peekNext_atMost _, exists_drain_iff.mpr hended⟩ (.inl hin)

/-- One record that fills the ring but for a short tail, behind which the writer does not stand. -/
def oneLongRecord : RingMemory where
  readPosition := 0
  writePosition := 8
  flushFlag := 0
  data := (ByteMemory.store32 (fun _ => 0) (sequenceField 0) 2).store32 (lengthField 0) 501

theorem oneLongRecord_laps : Laps 2048 oneLongRecord 0 1 := by
  have hlength : oneLongRecord.data.load32 (lengthField 0) = 501 := ByteMemory.load32_store32 ..
  have hrecord : ReadableAt 2048 oneLongRecord.data 0 2032 := {
    published := by decide
    plain := by decide
    ends := by rw [hlength]; rfl
    fits := by decide
    small := by rw [hlength]; decide }
  exact ⟨2032, .cons (by decide) hrecord (.nil 2032), by decide, by decide, .inl (by decide)⟩

/-- The reader takes the long record again and again. -/
theorem drain_endless :
    ¬ ∀ (capacity : Capacity) (m : RingMemory), DrainTerminates capacity.bytes m := by
  intro hall
  have h : Looks 2048 oneLongRecord := ⟨by decide, by decide, by decide⟩
  obtain ⟨-, rounds, events, hrun, -⟩ := hall ⟨2048, by decide⟩ oneLongRecord
  have hnever : ((drainToBatch 2048 0 rounds).run exec oneLongRecord).1.1 = false :=
    drained_never h oneLongRecord_laps rounds
  rw [hrun] at hnever
  cases hnever

end Termination

end MidiFramework.SharedRing
