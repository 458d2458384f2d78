import MidiFramework.SharedRing.Fifo

/-!
# Attaching a peer to a ring

The creating side sends the capacity and the descriptor of a ring in a parcel,
and the peer builds its own ring object over the same memory. Creation and
attachment share `Init`, which also stores both positions.

## Implementation notes

What the system does with descriptors and mappings is an input: the number
under which a descriptor arrives, and whether an allocation, a duplication, a
creation or a mapping succeeds.
-/

namespace MidiFramework.SharedRing

open Foundation Program

section Parcels

/-- The values a ring is sent as. -/
inductive ParcelItem
  | uint32 (v : Nat)
  | fileDescriptor (fd : Int)
  | bool (b : Bool)
  deriving DecidableEq, Repr

/-- The members of a ring object that cross the process boundary. -/
structure MidiSharedRing where
  capacity : Nat
  dataFd : Option Int
  notifyFd : Option Int
  deriving DecidableEq, Repr

def MidiSharedRing.hasValidNotifyFd (ring : MidiSharedRing) : Bool :=
  ring.notifyFd.any fun fd => decide (0 ≤ fd)

/-- The parcel, or `none` when there is no memory to send. -/
def marshalling (ring : MidiSharedRing) : Option (List ParcelItem) :=
  match ring.dataFd with
  | none => none
  | some fd =>
      some ([.uint32 ring.capacity, .fileDescriptor fd, .bool ring.hasValidNotifyFd] ++
        if ring.hasValidNotifyFd then [.fileDescriptor (ring.notifyFd.getD (-1))] else [])

def readUint32 : List ParcelItem → Nat × List ParcelItem
  | .uint32 v :: rest => (v, rest)
  | items => (0, items)

def readFileDescriptor : List ParcelItem → Int × List ParcelItem
  | .fileDescriptor fd :: rest => (fd, rest)
  | items => (-1, items)

def readBool : List ParcelItem → Bool × List ParcelItem
  | .bool b :: rest => (b, rest)
  | items => (false, items)

end Parcels

section Attachment

/-- What the system answers while a parcel is turned into a ring. -/
structure AttachEnv where
  received : Int → Int
  allocates : Bool
  duplicates : Bool
  creates : Bool
  maps : Bool

/-- The parcel as it arrives: descriptors have the receiver's numbers. -/
def AttachEnv.deliver (env : AttachEnv) : List ParcelItem → List ParcelItem :=
  List.map fun item =>
    match item with
    | .fileDescriptor fd => .fileDescriptor (env.received fd)
    | item => item

/-- `MINFD`. -/
def minFd : Int := 2

/-- The memory behind `CreateFromRemote`: the sender's, or a new one when the
descriptor could not be duplicated. -/
def createFromRemote (env : AttachEnv) (fd : Int) (size : Nat) (shared : RingMemory) :
    Option RingMemory :=
  if ¬ fd > minFd then none
  else if ¬ (0 < size ∧ size < maxMmapBufferSize) then none
  else if ¬ env.duplicates ∧ ¬ env.creates then none
  else if ¬ env.maps then none
  else some (if env.duplicates then shared else zeroRing)

/-- The stores of `Init` to the control header. -/
def initHeader : RingProgram Unit := do
  let _ ← storePosition .readPosition 0 .reset
  let _ ← storePosition .writePosition 0 .reset
  access .releaseFlushFlag

/-- `Init` with a descriptor received from a peer. -/
def initRemote (env : AttachEnv) (capacity : Nat) (dataFd : Int) (shared : RingMemory) :
    Option RingMemory :=
  if ¬ capacity ≤ maxMmapBufferSize - sizeofControlHeader then none
  else if ¬ sizeofControlHeader + capacity ≤ maxMmapBufferSize then none
  else
    match createFromRemote env dataFd (sizeofControlHeader + capacity) shared with
    | none => none
    | some mem => some (initHeader.run exec mem).2

/-- The peer's ring, with the memory it maps. -/
structure Attached where
  ring : MidiSharedRing
  mem : RingMemory

def unmarshalling (env : AttachEnv) (items : List ParcelItem) (shared : RingMemory) :
    Option Attached :=
  let (ringSize, items) := readUint32 items
  if ¬ (0 < ringSize ∧ ringSize ≤ maxMmapBufferSize - sizeofControlHeader) then none
  else
    let (dataFd, items) := readFileDescriptor items
    let (hasNotifyFd, items) := readBool items
    if ¬ dataFd > minFd then none
    else
      let (eventFd, _) := readFileDescriptor items
      if hasNotifyFd ∧ eventFd ≤ minFd then none
      else if ¬ env.allocates then none
      else
        match initRemote env ringSize dataFd shared with
        | none => none
        | some mem => some ⟨⟨ringSize, some dataFd, if hasNotifyFd then some eventFd else none⟩, mem⟩

/-- Send a ring to a peer and attach to it there. -/
def attach (env : AttachEnv) (ring : MidiSharedRing) (shared : RingMemory) : Option Attached :=
  match marshalling ring with
  | none => none
  | some items => unmarshalling env (env.deliver items) shared

end Attachment

section Effect

/-- The event at an extent of the walk. -/
def eventAt (d : ByteMemory) (extent : Nat × Nat) : MidiEvent :=
  ⟨d.load64 (timestampField extent.1), d.loadWords (payloadField extent.1) extent.2⟩

/-- The events between the positions of the ring. -/
def UnreadEvents (cap : Nat) (m : RingMemory) (events : List MidiEvent) : Prop :=
  ∃ l, Walk cap m.data m.writePosition.toNat m.readPosition.toNat l ∧
    events = l.map (eventAt m.data)

theorem UnreadEvents.unique {cap : Nat} {m : RingMemory} {events events' : List MidiEvent}
    (h : UnreadEvents cap m events) (h' : UnreadEvents cap m events') : events = events' := by
  obtain ⟨l, hl, rfl⟩ := h
  obtain ⟨l', hl', rfl⟩ := h'
  rw [hl.unique hl']

/-- A ring whose positions meet has no unread events. -/
theorem unreadEvents_empty {cap : Nat} {m : RingMemory} {events : List MidiEvent}
    (h : m.readPosition = m.writePosition) : UnreadEvents cap m events ↔ events = [] := by
  have hnil : UnreadEvents cap m [] := ⟨[], h ▸ .done, rfl⟩
  constructor
  · exact fun hevents => hevents.unique hnil
  · rintro rfl
    exact hnil

variable {cap : Nat} {d : ByteMemory} {x : Record}

theorem Record.Stored.eventAt (h : x.Stored d) : SharedRing.eventAt d x.extent = x.toMidiEvent := by
  rw [SharedRing.eventAt, Record.extent, h.timestamp, h.payload]
  rfl

theorem Layout.stored {ok : UInt32 → Prop} {r w : Nat} {xs : List Record}
    (h : Layout ok cap d r w xs) : ∀ x ∈ xs, x.Stored d := by
  have hchain : ∀ {a b : Nat} {ys : List Record}, Chain ok d a b ys → ∀ x ∈ ys, x.Stored d := by
    intro a b ys
    induction ys generalizing a with
    | nil =>
        intro _ x hx
        simp at hx
    | cons y ys ih =>
        intro hys x hx
        rcases List.mem_cons.mp hx with rfl | hx
        · exact hys.1.stored
        · exact ih hys.2 x hx
  rcases h.shape with hs | ⟨_, e, ys, zs, rfl, hfront, _, _, hback⟩
  · exact hchain hs
  · intro x hx
    rcases List.mem_append.mp hx with hx | hx
    · exact hchain hfront x hx
    · exact hchain hback x hx

/-- The unread events of a session are those accepted and not handed out. -/
theorem Tracks.unreadEvents {ok : UInt32 → Prop} {σ : Session} {s : RingState}
    (h : Tracks ok cap σ s) :
    UnreadEvents cap σ.mem (σ.accepted.drop σ.delivered.length) := by
  have hlayout := h.settled.inv.layout
  have hwalk := hlayout.walk
  rw [RingState.writeIndex, RingState.readIndex, h.mem] at hwalk
  refine ⟨_, hwalk, ?_⟩
  have hevents : (s.unread.map Record.extent).map (eventAt σ.mem.data) =
      s.unread.map Record.toMidiEvent := by
    rw [List.map_map, ← h.mem]
    exact List.map_congr_left fun x hx => (hlayout.stored x hx).eventAt
  rw [hevents, h.delivered_length, ← h.accepted, RingState.unread, List.map_drop]

theorem initRemote_positions {env : AttachEnv} {capacity : Nat} {fd : Int}
    {shared mem : RingMemory} (h : initRemote env capacity fd shared = some mem) :
    mem.readPosition = 0 ∧ mem.writePosition = 0 := by
  unfold initRemote at h
  split at h
  · cases h
  split at h
  · cases h
  split at h
  · cases h
  · cases h
    exact ⟨rfl, rfl⟩

theorem unmarshalling_ring {env : AttachEnv} {capacity : Nat} {items : List ParcelItem}
    {shared : RingMemory} {attached : Attached}
    (h : unmarshalling env (.uint32 capacity :: items) shared = some attached) :
    0 < capacity ∧ attached.ring.capacity = capacity ∧ attached.mem.readPosition = 0 ∧
      attached.mem.writePosition = 0 := by
  unfold unmarshalling readUint32 at h
  dsimp only at h
  split at h
  · cases h
  rename_i hsize
  split at h
  · cases h
  split at h
  · cases h
  split at h
  · cases h
  split at h
  · cases h
  · rename_i mem hmem
    cases h
    exact ⟨by omega, rfl, initRemote_positions hmem⟩

/-- `Init` leaves both positions at the start, whatever memory it maps. -/
theorem attach_positions {env : AttachEnv} {ring : MidiSharedRing} {shared : RingMemory}
    {attached : Attached} (h : attach env ring shared = some attached) :
    0 < ring.capacity ∧ attached.ring.capacity = ring.capacity ∧
      attached.mem.readPosition = 0 ∧ attached.mem.writePosition = 0 := by
  unfold attach marshalling at h
  cases hfd : ring.dataFd with
  | none =>
      rw [hfd] at h
      cases h
  | some fd =>
      rw [hfd] at h
      exact unmarshalling_ring h

/-- The attached ring stands where the sent one did and has its unread events. -/
structure SameRing (cap : Nat) (shared : RingMemory) (unread : List MidiEvent)
    (attached : Attached) : Prop where
  capacity : attached.ring.capacity = cap
  read : attached.mem.readPosition = shared.readPosition
  write : attached.mem.writePosition = shared.writePosition
  unread : UnreadEvents cap attached.mem unread

/-- A peer that attaches gets the ring as it is only if both positions are still
at the start; what was unread is lost otherwise. -/
theorem attach_same_iff (capacity : Capacity) (σ : Session)
    (reach : (sessionMachine capacity.bytes).Reachable σ) (env : AttachEnv)
    (ring : MidiSharedRing) (hring : ring.capacity = capacity.bytes) (attached : Attached)
    (h : attach env ring σ.mem = some attached) :
    SameRing capacity.bytes σ.mem (σ.accepted.drop σ.delivered.length) attached ↔
      σ.mem.readPosition = 0 ∧ σ.mem.writePosition = 0 := by
  have hlt := capacity.lt
  obtain ⟨hpos, hcapacity, hread, hwrite⟩ := attach_positions h
  rw [hring] at hpos hcapacity
  constructor
  · intro hsame
    constructor
    · rw [← hsame.read, hread]
    · rw [← hsame.write, hwrite]
  · rintro ⟨hr, hw⟩
    obtain ⟨s, hs⟩ := session_tracks (fun _ => True) (by omega) hpos
      (fun σ call _ => slotsFind_of_all (fun _ => trivial) _ _) reach
    have hnone : σ.accepted.drop σ.delivered.length = [] :=
      (unreadEvents_empty (hr.trans hw.symm)).mp hs.unreadEvents
    constructor
    · exact hcapacity
    · rw [hread, hr]
    · rw [hwrite, hw]
    · exact (unreadEvents_empty (hread.trans hwrite.symm)).mpr hnone

/-- A system in which every call succeeds and descriptors keep their numbers. -/
def calmSystem : AttachEnv := ⟨id, true, true, true, true⟩

/-- The ring a server creates for a client. -/
def serverRing : MidiSharedRing := ⟨2048, some 10, none⟩

/-- Two events that fill a ring of 56 bytes have been written and read. -/
def filledAndRead : Session :=
  [SessionOp.write (.tryWriteEvent (.ofWords 7 [0x40903C00, 0x80000000]) true), .readNext,
    .write (.tryWriteEvent (.ofWords 8 []) true), .readNext].foldl
    (fun σ op => σ.after 56 op) ⟨zeroRing, [], []⟩

theorem attach_same_iff_filledAndRead :
    ∃ attached, attach calmSystem { serverRing with capacity := 56 } filledAndRead.mem =
        some attached ∧
      filledAndRead.delivered.length = 2 ∧
      SameRing 56 filledAndRead.mem
        (filledAndRead.accepted.drop filledAndRead.delivered.length) attached := by
  have hreach : (sessionMachine 56).Reachable filledAndRead := by
    refine reachable_foldl ?_ (.init rfl)
    simp [Session.Ends]
  refine ⟨_, rfl, by decide +kernel, ?_⟩
  refine (attach_same_iff ⟨56, by decide⟩ filledAndRead hreach calmSystem
    { serverRing with capacity := 56 } rfl _ rfl).mpr ?_
  decide +kernel

/-- One event written before the peer attaches. -/
def writtenBeforeAttach : Session :=
  [SessionOp.write (.tryWriteEvent (.ofWords 7 [0x20903C7F]) true)].foldl
    (fun σ op => σ.after 2048 op) ⟨zeroRing, [], []⟩

/-- An event that the server wrote before the client attached is not unread in
the attached ring. -/
theorem attach_not_same : ¬ ∀ (capacity : Capacity) (σ : Session)
    (_ : (sessionMachine capacity.bytes).Reachable σ) (env : AttachEnv) (ring : MidiSharedRing)
    (_ : ring.capacity = capacity.bytes) (attached : Attached)
    (_ : attach env ring σ.mem = some attached),
    SameRing capacity.bytes σ.mem (σ.accepted.drop σ.delivered.length) attached := by
  intro h
  have hreach : (sessionMachine 2048).Reachable writtenBeforeAttach := by
    refine reachable_foldl ?_ (.init rfl)
    simp [Session.Ends]
  have hsame := h ⟨2048, by decide⟩ writtenBeforeAttach hreach calmSystem serverRing rfl _ rfl
  have hmoved : writtenBeforeAttach.mem.writePosition ≠ 0 := by decide +kernel
  exact hmoved hsame.write.symm

end Effect

end MidiFramework.SharedRing
