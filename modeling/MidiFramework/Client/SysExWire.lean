import MidiFramework.Client.SysExPacking

/-!
# A system exclusive from the client to the wire

The packets that `PrepareSysExPackets` builds are turned back into bytes by
`ProcessUmp` on the server. The two sides cut the payload in the same way but
put the bytes of a packet in different lanes.
-/

namespace MidiFramework.Client

open Foundation Ump UmpProcessor

/-! ### Cutting the payload -/

section Cutting

variable {data : List UInt8}

theorem packetBytes_eq (data : List UInt8) (i : Nat) :
    packetBytes data i = (data.drop (i * 6)).take 6 := by
  rw [List.take_eq_take_min, List.length_drop]
  rfl

theorem packetBytes_length_le (data : List UInt8) (i : Nat) :
    (packetBytes data i).length ≤ 6 := by
  rw [packetBytes_eq]
  exact List.length_take_le 6 _

theorem flatMap_packetBytes_take (data : List UInt8) (k : Nat) :
    (List.range k).flatMap (packetBytes data) = data.take (k * 6) := by
  induction k with
  | zero => simp
  | succ k ih =>
      rw [List.range_succ, List.flatMap_append, ih, Nat.succ_mul, List.take_add]
      simp [packetBytes_eq]

/-- The packets carry the whole payload. -/
theorem flatMap_packetBytes (data : List UInt8) :
    (List.range (sysExPacketCount data.length)).flatMap (packetBytes data) = data := by
  rw [flatMap_packetBytes_take]
  apply List.take_of_length_le
  simp only [sysExPacketCount, maxPacketBytes]
  omega

theorem byteAt_packetBytes (i : Nat) {j : Nat} (hj : j < 6) :
    byteAt (packetBytes data i) j = byteAt data (6 * i + j) := by
  simp only [byteAt, packetBytes_eq, List.getD_eq_getElem?_getD]
  rw [List.getElem?_take_of_lt hj, List.getElem?_drop, Nat.mul_comm i 6]

/-- Lists that are cut into pieces of the same lengths are compared piece by piece. -/
theorem flatMap_eq_iff {α β : Type*} {f g : α → List β} {l : List α}
    (h : ∀ a ∈ l, (f a).length = (g a).length) :
    l.flatMap f = l.flatMap g ↔ ∀ a ∈ l, f a = g a := by
  induction l with
  | nil => simp
  | cons a l ih =>
      have hl := ih fun b hb => h b (List.mem_cons_of_mem a hb)
      rw [List.flatMap_cons, List.flatMap_cons, List.forall_mem_cons, ← hl]
      constructor
      · intro heq
        exact List.append_inj heq (h a List.mem_cons_self)
      · rintro ⟨ha, hrest⟩
        rw [ha, hrest]

end Cutting

/-! ### Reading the packets -/

section Reading

variable {group : UInt8} {p : UmpProcessor} {data : List UInt8}

/-- The bytes that the server takes from a packet with these bytes. -/
def received (bytes : List UInt8) : List UInt8 := (lanes bytes).take bytes.length

theorem processUmp_pack (hgroup : group.toNat < 2 ^ 4) {status : UInt8}
    (hstatus : status.toNat < 2 ^ 4) {bytes : List UInt8} (hlen : bytes.length ≤ 6)
    (rest : List UInt32) :
    p.processUmp (pairWords [packSysEx7Ump64 group status bytes] ++ rest) =
      (p.sysexEffect status (received bytes)).andThen fun p => p.processUmp rest := by
  obtain ⟨hfields, hdata⟩ := packSysEx7Ump64_fields hgroup hstatus hlen
  have hcount : bytes.length.toUInt8.toNat = bytes.length := by
    simp only [Nat.toUInt8, UInt8.toNat_ofNat']
    omega
  change p.processUmp (_ :: _ :: rest) = _
  rw [processUmp_data hfields.mt, processUmpType3_eq, hfields.status, hfields.count, hdata, hcount]
  rfl

/-- The packets from number `i` on. -/
def packetsFrom (group : UInt8) (data : List UInt8) (total i n : Nat) :
    List (UInt32 × UInt32) :=
  (List.range' i n).map fun j =>
    packSysEx7Ump64 group (getSysexStatus j total) (packetBytes data j)

theorem pairWords_cons (packet : UInt32 × UInt32) (packets : List (UInt32 × UInt32)) :
    pairWords (packet :: packets) = pairWords [packet] ++ pairWords packets := rfl

theorem packetsFrom_succ (group : UInt8) (data : List UInt8) (total i n : Nat) :
    packetsFrom group data total i (n + 1) =
      packSysEx7Ump64 group (getSysexStatus i total) (packetBytes data i) ::
        packetsFrom group data total (i + 1) n := by
  rw [packetsFrom, List.range'_succ, List.map_cons]
  rfl

/-- The packets after the first one end the system exclusive that the first one began. -/
theorem processUmp_packetsFrom (hgroup : group.toNat < 2 ^ 4) (data : List UInt8)
    {total i n : Nat} (hi : 0 < i) (htotal : i + (n + 1) = total)
    (hactive : p.reverseSysexActive = true) :
    (p.processUmp (pairWords (packetsFrom group data total i (n + 1)))).out =
      (List.range' i (n + 1)).flatMap (fun j => received (packetBytes data j)) ++
        [midiSysexEnd] := by
  have hlen := packetBytes_length_le data i
  have hstatus := getSysexStatus_lt i total
  rw [packetsFrom_succ, pairWords_cons, processUmp_pack hgroup hstatus hlen, List.range'_succ,
    List.flatMap_cons]
  induction n generalizing i p with
  | zero =>
      have hlast : getSysexStatus i total = sysexStatusEnd := by
        rw [getSysexStatus, if_neg (by omega), if_neg (by omega), if_pos (by omega)]
      rw [hlast, sysexEffect_end]
      simp [Emission.andThen, packetsFrom, pairWords, processUmp_nil]
  | succ n ih =>
      have hmiddle : getSysexStatus i total = sysexStatusContinue := by
        rw [getSysexStatus, if_neg (by omega), if_neg (by omega), if_neg (by omega)]
      have hlen' := packetBytes_length_le data (i + 1)
      have hstatus' := getSysexStatus_lt (i + 1) total
      rw [hmiddle, sysexEffect_continue, hactive, if_pos rfl, packetsFrom_succ, pairWords_cons]
      simp only [Emission.andThen]
      rw [processUmp_pack hgroup hstatus' hlen', ih (by omega) (by omega) hactive hlen' hstatus',
        List.range'_succ, List.flatMap_cons]
      simp only [List.append_assoc]

/-- What the server puts on the wire for a payload. -/
theorem processUmp_sysEx (hgroup : group.toNat < 2 ^ 4) (hne : data ≠ []) :
    (p.processUmp (pairWords
      (prepareSysExPackets group data (sysExPacketCount data.length)).payloadWords)).out =
      midiSysexStart ::
        (List.range (sysExPacketCount data.length)).flatMap
          (fun j => received (packetBytes data j)) ++ [midiSysexEnd] := by
  have hpos : 0 < data.length := List.length_pos_of_ne_nil hne
  obtain ⟨n, hn⟩ : ∃ n, sysExPacketCount data.length = n + 1 :=
    ⟨_, (Nat.succ_pred_eq_of_pos (by simp only [sysExPacketCount, maxPacketBytes]; omega)).symm⟩
  have hpackets : (prepareSysExPackets group data (n + 1)).payloadWords =
      packetsFrom group data (n + 1) 0 (n + 1) := by
    simp only [prepareSysExPackets, packetsFrom, List.range_eq_range']
  have hlen := packetBytes_length_le data 0
  have hstatus := getSysexStatus_lt 0 (n + 1)
  rw [hn, hpackets, packetsFrom_succ, pairWords_cons, processUmp_pack hgroup hstatus hlen,
    List.range_eq_range', List.range'_succ, List.flatMap_cons]
  cases n with
  | zero =>
      rw [getSysexStatus, if_pos rfl, sysexEffect_complete]
      simp [Emission.andThen, packetsFrom, pairWords, processUmp_nil]
  | succ n =>
      rw [getSysexStatus, if_neg (by omega), if_pos rfl, sysexEffect_start]
      simp only [Emission.andThen]
      rw [processUmp_packetsFrom hgroup data (by omega) (by omega) rfl]
      simp only [List.cons_append, List.append_assoc]

end Reading

/-! ### When the two sides agree -/

section Agreement

variable {group status : UInt8} {bytes : List UInt8}

/-- The bytes of every packet read the same in the lanes of both sides. -/
def LanesAgree (payload : List UInt8) : Prop :=
  ∀ i, byteAt payload (6 * i) = byteAt payload (6 * i + 1) ∧
    byteAt payload (6 * i + 2) = byteAt payload (6 * i + 5) ∧
    byteAt payload (6 * i + 3) = byteAt payload (6 * i + 4)

/-- The bytes of one packet read the same in the lanes of both sides. -/
def PacketAgrees (bytes : List UInt8) : Prop :=
  byteAt bytes 0 = byteAt bytes 1 ∧ byteAt bytes 2 = byteAt bytes 5 ∧
    byteAt bytes 3 = byteAt bytes 4

instance : DecidablePred PacketAgrees := fun _ => inferInstanceAs (Decidable (_ ∧ _ ∧ _))

theorem packetAgrees_packetBytes {data : List UInt8} {i : Nat} :
    PacketAgrees (packetBytes data i) ↔
      byteAt data (6 * i) = byteAt data (6 * i + 1) ∧
        byteAt data (6 * i + 2) = byteAt data (6 * i + 5) ∧
        byteAt data (6 * i + 3) = byteAt data (6 * i + 4) := by
  unfold PacketAgrees
  rw [byteAt_packetBytes i (by omega), byteAt_packetBytes i (by omega),
    byteAt_packetBytes i (by omega), byteAt_packetBytes i (by omega),
    byteAt_packetBytes i (by omega), byteAt_packetBytes i (by omega), Nat.add_zero]

theorem byteAt_eq_zero {data : List UInt8} {i : Nat} (h : data.length ≤ i) :
    byteAt data i = 0 := by
  rw [byteAt, List.getD_eq_getElem?_getD, List.getElem?_eq_none h]
  rfl

/-- Past the last packet there is nothing to compare. -/
theorem lanesAgree_iff {data : List UInt8} :
    LanesAgree data ↔
      ∀ i ∈ List.range (sysExPacketCount data.length), PacketAgrees (packetBytes data i) := by
  constructor
  · intro h i _
    exact packetAgrees_packetBytes.mpr (h i)
  · intro h i
    by_cases hi : i < sysExPacketCount data.length
    · exact packetAgrees_packetBytes.mp (h i (List.mem_range.mpr hi))
    · have hle : data.length ≤ 6 * i := by
        simp only [sysExPacketCount, maxPacketBytes] at hi
        omega
      have hzero (j : Nat) : byteAt data (6 * i + j) = 0 := byteAt_eq_zero (by omega)
      simp only [hzero, byteAt_eq_zero hle, and_self]

theorem received_eq_iff (hlen : bytes.length ≤ 6) : received bytes = bytes ↔ PacketAgrees bytes := by
  match bytes with
  | [] => simp [received, PacketAgrees, byteAt]
  | [b0] => simp [received, lanes, PacketAgrees, byteAt, eq_comm]
  | [b0, b1] => simp [received, lanes, PacketAgrees, byteAt]; grind
  | [b0, b1, b2] => simp [received, lanes, PacketAgrees, byteAt]; grind
  | [b0, b1, b2, b3] => simp [received, lanes, PacketAgrees, byteAt]; grind
  | [b0, b1, b2, b3, b4] => simp [received, lanes, PacketAgrees, byteAt]; grind
  | [b0, b1, b2, b3, b4, b5] => simp [received, lanes, PacketAgrees, byteAt]; grind
  | _ :: _ :: _ :: _ :: _ :: _ :: _ :: _ => exact absurd hlen (by simp only [List.length_cons]; omega)

theorem received_length (hlen : bytes.length ≤ 6) : (received bytes).length = bytes.length := by
  simp [received, lanes, hlen]

/-- The packet that `DispatchSysExPacket` builds on the server from these bytes. -/
def dispatchedWords (hgroup : group ≤ maxGroupId) (status : UInt8) (bytes : List UInt8) :
    List UInt32 :=
  let p : UmpProcessor := { UmpProcessor.fresh with
    group := group
    validGroup := hgroup
    sysexBuffer := Vector.ofFn fun i => byteAt bytes i.val }
  packetWords (p.dispatchSysExPacket status bytes.length).out

theorem dispatchedWords_eq (hgroup : group ≤ maxGroupId) (hlen : bytes.length ≤ 6) :
    dispatchedWords hgroup status bytes =
      [headWord group status bytes.length.toUInt8 (byteAt bytes 0) (byteAt bytes 1),
        laneWord (byteAt bytes 2) (byteAt bytes 3) (byteAt bytes 4) (byteAt bytes 5)] := by
  have hslot (i : Fin 6) : (if i.val < bytes.length then byteAt bytes i.val else 0) =
      byteAt bytes i.val := by
    split
    · rfl
    · exact (byteAt_eq_zero (by omega)).symm
  have hget (i : Fin 6) : (Vector.ofFn fun i : Fin 6 => byteAt bytes i.val)[i] =
      byteAt bytes i.val := by
    simp only [Fin.getElem_fin, Vector.getElem_ofFn]
  simp only [dispatchedWords, dispatchSysExPacket_eq status hlen, packetWords, sysexPacket,
    sysexSlot, hget, hslot]
  rfl

/-- The client's words are those of the server exactly when the lanes agree. -/
theorem pack_eq_dispatched_iff (hgroup : group ≤ maxGroupId) (hlt : group.toNat < 2 ^ 4)
    (hstatus : status.toNat < 2 ^ 4) (hlen : bytes.length ≤ 6) :
    pairWords [packSysEx7Ump64 group status bytes] = dispatchedWords hgroup status bytes ↔
      PacketAgrees bytes := by
  rw [dispatchedWords_eq hgroup hlen, packSysEx7Ump64_eq hlt hstatus hlen]
  simp only [pairWords, List.flatMap_cons, List.flatMap_nil, List.append_nil, List.cons.injEq,
    and_true]
  constructor
  · rintro ⟨hhead, hlane⟩
    have hcount : bytes.length.toUInt8.toNat < 2 ^ 4 := by
      simp only [Nat.toUInt8, UInt8.toNat_ofNat']
      omega
    have hmine := headFields (byteAt bytes 1) (byteAt bytes 0) hlt hstatus hcount
    have hours := headFields (byteAt bytes 0) (byteAt bytes 1) hlt hstatus hcount
    obtain ⟨hm2, hm3, -, -⟩ := byteField_laneWord (byteAt bytes 5) (byteAt bytes 4)
      (byteAt bytes 3) (byteAt bytes 2)
    obtain ⟨ho2, ho3, -, -⟩ := byteField_laneWord (byteAt bytes 2) (byteAt bytes 3)
      (byteAt bytes 4) (byteAt bytes 5)
    rw [hhead] at hmine
    rw [hlane] at hm2 hm3
    exact ⟨hours.d0.symm.trans hmine.d0, ho2.symm.trans hm2, ho3.symm.trans hm3⟩
  · rintro ⟨h01, h25, h34⟩
    rw [h01, h25, h34]
    exact ⟨rfl, rfl⟩

end Agreement

/-! ### The wire -/

section Wire

variable {group : UInt8} {payload : List UInt8}

/-- The bytes a fresh server processor emits when each call gets some of the packets. -/
def wireBytes (calls : List (List (UInt32 × UInt32))) : List UInt8 :=
  (feed processUmp .fresh (calls.map pairWords)).out

theorem framed_pairWords {packets : List (UInt32 × UInt32)}
    (h : ∀ packet ∈ packets, messageType packet.1 = 0x3) : Framed (pairWords packets) := by
  induction packets with
  | nil => exact framed_nil
  | cons packet packets ih =>
      obtain ⟨hhead, htail⟩ := List.forall_mem_cons.mp h
      exact (framed_data hhead packet.2).append (ih htail)

theorem packed_messageType (hgroup : group.toNat < 2 ^ 4) (payload : List UInt8) (total : Nat)
    {packet : UInt32 × UInt32} (h : packet ∈ (prepareSysExPackets group payload total).payloadWords) :
    messageType packet.1 = 0x3 := by
  simp only [prepareSysExPackets, List.mem_map] at h
  obtain ⟨i, -, rfl⟩ := h
  exact (packSysEx7Ump64_fields hgroup (getSysexStatus_lt i total)
    (packetBytes_length_le payload i)).1.mt

/-- How the packets are grouped into calls does not matter. -/
theorem wireBytes_eq (hgroup : group.toNat < 2 ^ 4) {total : Nat}
    {calls : List (List (UInt32 × UInt32))}
    (hcalls : calls.flatten = (prepareSysExPackets group payload total).payloadWords) :
    wireBytes calls = (UmpProcessor.fresh.processUmp
      (pairWords (prepareSysExPackets group payload total).payloadWords)).out := by
  have hframed : ∀ words ∈ calls.map pairWords, Framed words := by
    intro words hwords
    obtain ⟨packets, hpackets, rfl⟩ := List.mem_map.mp hwords
    apply framed_pairWords
    intro packet hpacket
    apply packed_messageType hgroup payload total
    rw [← hcalls]
    exact List.mem_flatten.mpr ⟨packets, hpackets, hpacket⟩
  have hflat : (calls.map pairWords).flatten = pairWords calls.flatten := by
    unfold pairWords
    rw [List.flatMap_def, List.map_flatten, List.flatten_flatten, List.map_map]
    rfl
  rw [wireBytes, processUmp_calls _ hframed, hflat, hcalls]

/-- The payload reaches the wire, and the packets are the server's own for these bytes. -/
structure SysExIntact (group : UInt8) (hgroup : group ≤ maxGroupId) (payload : List UInt8) :
    Prop where
  wire : ∀ calls : List (List (UInt32 × UInt32)),
    calls.flatten =
      (prepareSysExPackets group payload (sysExPacketCount payload.length)).payloadWords →
    wireBytes calls = midiSysexStart :: payload ++ [midiSysexEnd]
  words : ∀ i < sysExPacketCount payload.length,
    pairWords [packSysEx7Ump64 group (getSysexStatus i (sysExPacketCount payload.length))
      (packetBytes payload i)] =
    dispatchedWords hgroup (getSysexStatus i (sysExPacketCount payload.length))
      (packetBytes payload i)

/-- A payload reaches the wire exactly when its bytes read the same in the lanes of the client
and of the server. -/
theorem sysEx_intact_iff (hgroup : group ≤ maxGroupId) (hne : payload ≠ []) :
    SysExIntact group hgroup payload ↔ LanesAgree payload := by
  have hlt : group.toNat < 2 ^ 4 := by
    have h : group.toNat ≤ maxGroupId.toNat := UInt8.le_iff_toNat_le.mp hgroup
    have hmax : maxGroupId.toNat = 15 := rfl
    omega
  have hlen (i : Nat) := packetBytes_length_le payload i
  -- the bytes on the wire are compared with the payload packet by packet
  have hwire {calls : List (List (UInt32 × UInt32))}
      (hcalls : calls.flatten =
        (prepareSysExPackets group payload (sysExPacketCount payload.length)).payloadWords) :
      wireBytes calls = midiSysexStart :: payload ++ [midiSysexEnd] ↔ LanesAgree payload := by
    have hcut := flatMap_packetBytes payload
    have hpieces := flatMap_eq_iff (f := fun i => received (packetBytes payload i))
      (g := packetBytes payload) (l := List.range (sysExPacketCount payload.length))
      fun i _ => received_length (hlen i)
    rw [hcut] at hpieces
    rw [wireBytes_eq hlt hcalls, processUmp_sysEx hlt hne, List.append_cancel_right_eq,
      List.cons.injEq, and_iff_right rfl, hpieces, lanesAgree_iff]
    simp only [received_eq_iff (hlen _)]
  constructor
  · intro h
    exact (hwire List.flatten_singleton).mp (h.wire _ List.flatten_singleton)
  · intro h
    constructor
    · intro calls hcalls
      exact (hwire hcalls).mpr h
    · intro i hi
      apply (pack_eq_dispatched_iff hgroup hlt (getSysexStatus_lt i _) (hlen i)).mpr
      exact lanesAgree_iff.mp h i (List.mem_range.mpr hi)

/-- A payload of two full packets, with the same bytes in the lanes of both sides. -/
def agreeing : List UInt8 := [0x7E, 0x7E, 1, 2, 2, 1, 3, 3, 4, 5, 5, 4]

theorem sysEx_intact_iff_agreeing :
    SysExIntact 5 (by decide) agreeing ∧ sysExPacketCount agreeing.length = 2 :=
  ⟨(sysEx_intact_iff (by decide) (by decide)).mpr (lanesAgree_iff.mpr (by decide)), rfl⟩

/-- A payload of one byte arrives as a zero byte. -/
theorem sysEx_not_intact : ¬ SysExIntact 0 (by decide) [0x01] := by
  intro h
  have hbytes := h.wire [(prepareSysExPackets 0 [0x01] 1).payloadWords] rfl
  revert hbytes
  decide +kernel

end Wire

end MidiFramework.Client
