import MidiFramework.SharedRing.Writer
import MidiFramework.SharedRing.Reader

/-!
# One writer and one reader at the same time

A producer calls the write functions and a consumer calls `PeekNext` and
`CommitRead`, one load or store at a time and in any order. The two roles
support each other, so every interleaving keeps the records between the
positions intact, in order, and counted by the results of the calls.
-/

namespace MidiFramework.SharedRing

open Foundation Program Discipline

/-- A call of `TryWriteEvents`; the buffer has `eventCount` events. -/
structure WriteArgs where
  events : Option (List MidiEventInner)
  eventCount : Nat
  notify : Bool
  covers : ∀ es, events = some es → es.length = eventCount

inductive ProducerCall
  | tryWriteEvents (args : WriteArgs)
  | tryWriteEvent (event : MidiEventInner) (notify : Bool)

/-- The events a call offers. -/
def ProducerCall.offered : ProducerCall → List MidiEventInner
  | .tryWriteEvents args => (args.events.getD []).take args.eventCount
  | .tryWriteEvent event _ => [event]

/-- The call asks for a notification. -/
def ProducerCall.notifies : ProducerCall → Bool
  | .tryWriteEvents args => args.notify
  | .tryWriteEvent _ notify => notify

/-- The producer keeps the events reported through `eventsWritten`. -/
def producer (cap : Nat) : Party ringInterface where
  Local := List MidiEvent
  Call := ProducerCall
  Result _ := WriteResult
  program
    | .tryWriteEvents args => tryWriteEvents cap args.events args.eventCount args.notify
    | .tryWriteEvent event notify => tryWriteEvent cap event notify
  enabled _ _ := True
  finish accepted call result :=
    accepted ++ (call.offered.take result.eventsWritten).map MidiEventInner.toMidiEvent

/-- The event of the last successful `PeekNext` that was not committed yet, and
the number of successful commits. -/
structure ConsumerLocal where
  held : Option PeekedEvent
  commits : Nat

inductive ConsumerCall
  | peekNext
  | commitRead (ev : PeekedEvent)

def ConsumerCall.Result : ConsumerCall → Type
  | .peekNext => MidiStatusCode × PeekedEvent
  | .commitRead _ => Bool

def afterPeek (l : ConsumerLocal) (peeked : MidiStatusCode × PeekedEvent) : ConsumerLocal :=
  { l with held := if peeked.1 = .ok then some peeked.2 else none }

def afterCommit (l : ConsumerLocal) (committed : Bool) : ConsumerLocal :=
  if committed then ⟨none, l.commits + 1⟩ else l

/-- The consumer commits only the event it holds. -/
def consumer (cap : Nat) : Party ringInterface where
  Local := ConsumerLocal
  Call := ConsumerCall
  Result := ConsumerCall.Result
  program
    | .peekNext => peekNext cap
    | .commitRead ev => commitRead cap ev
  enabled
    | _, .peekNext => True
    | l, .commitRead ev => l.held = some ev
  finish
    | l, .peekNext, peeked => afterPeek l peeked
    | l, .commitRead _, committed => afterCommit l committed

/-- The shared ring with its two users. -/
def ringSystem (cap : Nat) : TwoParty ringInterface RingState where
  exec := execTraced
  left := producer cap
  right := consumer cap

/-- An empty ring at any aligned position, with any bytes in its data area. -/
def EmptyRing (cap : Nat) (s : RingState) : Prop :=
  s.readIndex = s.writeIndex ∧ s.readIndex < cap ∧ 8 ∣ s.readIndex ∧ s.appended = [] ∧
    s.removed = 0

instance (cap : Nat) (s : RingState) : Decidable (EmptyRing cap s) := instDecidableAnd

/-- All interleavings of one producer and one consumer on an empty ring. -/
def ringMachine (cap : Nat) :
    Machine (ringSystem cap).State (Party.Action ringInterface ⊕ Party.Action ringInterface) :=
  (ringSystem cap).machine fun accepted l s =>
    accepted = [] ∧ l = ⟨none, 0⟩ ∧ EmptyRing cap s

section Proofs

variable {ok : UInt32 → Prop} {cap : Nat}

theorem ProducerCall.triple (hcap : cap < 2 ^ 31) (hok : ∀ v, ok v) (call : ProducerCall)
    {w : Nat} {A : List Record} {d : ByteMemory} :
    (writerRole ok cap).Triple (Writing ok cap w A d) ((producer cap).program call)
      fun r s => Wrote ok cap A call.offered r.eventsWritten s := by
  cases call with
  | tryWriteEvents args => exact triple_tryWriteEvents (by omega) hok _ _ _
  | tryWriteEvent event notify => exact triple_tryWriteEvents (by omega) hok _ _ _

/-- A call that wrote something notifies if it was asked to. -/
theorem tryWriteEvents_notifies (cap : Nat) (events : Option (List MidiEventInner))
    (eventCount : Nat) (notify : Bool) :
    (tryWriteEvents cap events eventCount notify).Always (fun _ => True)
      fun r => 0 < r.eventsWritten → r.notified = notify := by
  unfold tryWriteEvents
  dsimp only
  split
  · exact Always.ret fun h => absurd h (Nat.lt_irrefl 0)
  refine Always.bind (Always.trivial _) fun r _ => Always.bind (Always.trivial _) fun v _ => ?_
  split
  · exact Always.ret fun h => absurd h (Nat.lt_irrefl 0)
  refine Always.bind (Always.trivial _) fun m _ => ?_
  split
  · exact Always.ret fun h => absurd h (Nat.lt_irrefl 0)
  · exact Always.ret fun _ => rfl

theorem ProducerCall.always_notifies (cap : Nat) (call : ProducerCall) :
    ((producer cap).program call).Always (fun _ => True)
      fun r => 0 < r.eventsWritten → r.notified = call.notifies := by
  cases call with
  | tryWriteEvents args => exact tryWriteEvents_notifies cap _ _ _
  | tryWriteEvent event notify => exact tryWriteEvents_notifies cap _ _ _

/-- Between its calls the producer has published exactly what was reported. -/
def producerProof (hcap : cap < 2 ^ 31) (hok : ∀ v, ok v) :
    TwoParty.Proof (producer cap) (writerRole ok cap) where
  At accepted s := ∃ w A d, Writing ok cap w A d s ∧ A.map Record.toMidiEvent = accepted
  post accepted call r s := ∃ A, A.map Record.toMidiEvent = accepted ∧
    Wrote ok cap A call.offered r.eventsWritten s
  stable := by
    rintro accepted s t hr ⟨w, A, d, h, hA⟩
    exact ⟨w, A, d, writing_stable s t hr h, hA⟩
  call := by
    rintro accepted call - s ⟨w, A, d, h, hA⟩
    exact (ProducerCall.triple hcap hok call s h).mono fun r t ht => ⟨A, hA, ht⟩
  back := by
    rintro accepted call r s ⟨A, rfl, _, B, w, d, hs, hB⟩
    refine ⟨w, A ++ B, d, hs, ?_⟩
    rw [List.map_append, hB]
    rfl

/-- What the consumer knows between its calls. -/
def Holding (ok : UInt32 → Prop) (cap : Nat) (l : ConsumerLocal) (s : RingState) : Prop :=
  ∃ r K, Reading ok cap r K [] s ∧ K.length = l.commits ∧
    ∀ ev, l.held = some ev → ∃ x q, ev = peekedOf cap x q ∧ Heading ok cap r K [] x q s

theorem holding_stable {l : ConsumerLocal} : (readerRole ok cap).Stable (Holding ok cap l) := by
  rintro s t hr ⟨r, K, h, hK, hheld⟩
  refine ⟨r, K, reading_stable s t hr h, hK, fun ev hev => ?_⟩
  obtain ⟨x, q, hx, hheading⟩ := hheld ev hev
  exact ⟨x, q, hx, heading_stable s t hr hheading⟩

theorem ConsumerCall.triple (hcap : cap < 2 ^ 31) {l : ConsumerLocal} (call : ConsumerCall)
    (henabled : (consumer cap).enabled l call) :
    (readerRole ok cap).Triple (Holding ok cap l) ((consumer cap).program call)
      fun r s => Holding ok cap ((consumer cap).finish l call r) s := by
  rintro s ⟨r, K, h, hK, hheld⟩
  cases call with
  | peekNext =>
      refine (triple_peekNext hcap s h).mono ?_
      rintro ⟨status, ev⟩ t ht
      cases ht with
      | event r x q returned heading =>
          cases returned
          refine ⟨r, K, heading.toReading, hK, fun ev hev => ?_⟩
          cases hev
          exact ⟨x, q, rfl, heading⟩
      | nothing r returned reading drained =>
          refine ⟨r, K, reading, hK, fun ev hev => ?_⟩
          change (if status = .ok then _ else none) = some ev at hev
          rw [if_neg returned] at hev
          cases hev
  | commitRead ev =>
      obtain ⟨x, q, rfl, heading⟩ := hheld ev henabled
      refine (triple_commitRead (by omega) s heading).mono ?_
      rintro committed t ⟨rfl, r', ht⟩
      refine ⟨r', K ++ [x], ht, ?_, fun ev hev => ?_⟩
      · change (K ++ [x]).length = l.commits + 1
        rw [List.length_append, hK, List.length_singleton]
      · cases hev

def consumerProof (ok : UInt32 → Prop) (hcap : cap < 2 ^ 31) :
    TwoParty.Proof (consumer cap) (readerRole ok cap) where
  At := Holding ok cap
  post l call r s := Holding ok cap ((consumer cap).finish l call r) s
  stable _ := holding_stable
  call _ call henabled := ConsumerCall.triple hcap call henabled
  back _ _ _ _ h := h

theorem EmptyRing.inv {s : RingState} (h : EmptyRing cap s) : s.Inv ok cap := by
  obtain ⟨hrw, hlt, hdvd, happended, hremoved⟩ := h
  refine ⟨?_, by omega⟩
  rw [RingState.unread, happended, List.drop_nil, ← hrw]
  exact Layout.empty hlt hdvd

/-- Both users' assertions hold in every state of every interleaving. -/
theorem ringMachine_sound (hcap : cap < 2 ^ 31) (hok : ∀ v, ok v) (σ : (ringSystem cap).State)
    (reach : (ringMachine cap).Reachable σ) :
    TwoParty.Holds (W := ringSystem cap) (producerProof hcap hok)
      (consumerProof ok hcap) σ := by
  refine TwoParty.sound rfl rfl (fun c s t (h : WriterGuarantee ok cap c s t) => h.moves)
    (fun c s t (h : ReaderGuarantee ok cap c s t) => h.moves) ?_ reach
  rintro accepted l s ⟨rfl, rfl, hempty⟩
  have hinv : s.Inv ok cap := hempty.inv
  obtain ⟨_, _, _, happended, _⟩ := hempty
  refine ⟨⟨s.writeIndex, [], s.mem.data, ⟨hinv, rfl, happended, rfl⟩, rfl⟩,
    s.readIndex, [], ⟨hinv, rfl, ?_, List.nil_prefix⟩, rfl, fun ev hev => by cases hev⟩
  rw [happended, List.take_nil]

theorem ringMachine_inv (hcap : cap < 2 ^ 31) (hok : ∀ v, ok v) {σ : (ringSystem cap).State}
    (reach : (ringMachine cap).Reachable σ) : σ.shared.Inv ok cap :=
  TwoParty.shared_invariant rfl rfl (ringMachine_sound hcap hok)
    (fun _ _ _ h => h.2.2.inv)
    (fun c s t (h : WriterGuarantee ok cap c s t) => h.moves.inv)
    (fun c s t (h : ReaderGuarantee ok cap c s t) => h.moves.inv) reach

end Proofs

section System

variable {cap : Nat}

/-- What one step of the system does to the unread records of the ring: the
producer stores to no byte of them and only adds at their end, never catching
up with the reader; the consumer stores to no byte and only takes the first. -/
def StepEffect (s : RingState) : Party.Action ringInterface ⊕ Party.Action ringInterface →
    RingState → Prop
  | .inl (.command c), t =>
      (∀ x ∈ s.unread, ∀ i, Touches c i → ¬ (x.offset ≤ i ∧ i < x.offset + x.size)) ∧
        WriterEffect c s t
  | .inr (.command c), t => (∀ i, ¬ Touches c i) ∧ ReaderEffect c s t
  | _, t => t = s

/-- In every interleaving of a producer and a consumer on an empty ring, the
positions are aligned offsets of the data area, the walk between them passes
exactly the unread records, the producer has published what was reported as
written and the consumer has taken as many records as it committed; and every
step changes the unread records only as `StepEffect` says. -/
theorem ring_walk_invariant (capacity : Capacity) (σ : (ringSystem capacity.bytes).State)
    (reach : (ringMachine capacity.bytes).Reachable σ) :
    σ.shared.readIndex < capacity.bytes ∧ σ.shared.writeIndex < capacity.bytes ∧
    8 ∣ σ.shared.readIndex ∧ 8 ∣ σ.shared.writeIndex ∧
    (∀ l, Walk capacity.bytes σ.shared.mem.data σ.shared.writeIndex σ.shared.readIndex l ↔
      l = σ.shared.unread.map Record.extent) ∧
    (∀ accepted, σ.left = .idle accepted →
      σ.shared.appended.map Record.toMidiEvent = accepted) ∧
    (∀ l, σ.right = .idle l → σ.shared.removed = l.commits) ∧
    ∀ a σ', (ringMachine capacity.bytes).step σ a σ' → StepEffect σ.shared a σ'.shared := by
  have hlt := capacity.lt
  have hcap : capacity.bytes < 2 ^ 31 := by omega
  have hok : ∀ v : UInt32, (fun _ => True) v := fun _ => trivial
  have hsound := ringMachine_sound hcap hok σ reach
  have hinv := ringMachine_inv hcap hok reach
  have hlayout := hinv.layout
  refine ⟨hlayout.read_lt, hlayout.write_lt, hlayout.read_dvd, hlayout.write_dvd, ?_, ?_, ?_, ?_⟩
  · exact fun l => ⟨fun h => h.unique hlayout.walk, fun h => h ▸ hlayout.walk⟩
  · intro accepted hidle
    have hleft := hsound.1
    rw [hidle] at hleft
    obtain ⟨w, A, d, h, hA⟩ := hleft
    rw [h.appended, hA]
  · intro l hidle
    have hright := hsound.2
    rw [hidle] at hright
    obtain ⟨r, K, h, hK, _⟩ := hright
    rw [← h.length_le, hK]
  · intro a σ' hstep
    have hguarantee := hsound.stepGuarantee rfl rfl hstep
    rcases a with (_ | c | _) | (_ | c | _)
    · exact hguarantee
    · obtain ⟨_, hspares, heffect⟩ := (hguarantee : WriterGuarantee _ _ c _ _)
      refine ⟨fun x hx i hi hin => hspares i hi ?_, heffect⟩
      exact hlayout.occupied hx hin.1 hin.2
    · exact hguarantee
    · exact hguarantee
    · obtain ⟨_, hspares, heffect⟩ := (hguarantee : ReaderGuarantee _ _ c _ _)
      exact ⟨hspares, heffect⟩
    · exact hguarantee

/-- A fresh ring with idle users. -/
def freshSystem (cap : Nat) : (ringSystem cap).State :=
  ⟨.idle [], .idle ⟨none, 0⟩, ⟨⟨0, 0, 0, fun _ => 0⟩, [], 0⟩⟩

theorem freshSystem_reachable {cap : Nat} (hcap : 0 < cap) :
    (ringMachine cap).Reachable (freshSystem cap) :=
  .init ⟨[], ⟨none, 0⟩, rfl, rfl, rfl, rfl, rfl, hcap, Nat.dvd_zero 8, rfl, rfl⟩

/-- A call that writes an event of so many words. -/
def writeZeros (wordCount : Nat) : ProducerCall :=
  .tryWriteEvent (.ofWords 7 (List.replicate wordCount 0)) true

/-- The event that the consumer holds. -/
def heldEvent {cap : Nat} : (consumer cap).Control → Option PeekedEvent
  | .idle l => l.held
  | .busy .. => none

/-- The consumer takes the event that it holds. -/
def takeHeld {cap : Nat} (c : (consumer cap).Control) : ConsumerCall :=
  .commitRead ((heldEvent c).getD {})

theorem enabled_takeHeld {cap : Nat} {c : (consumer cap).Control} (hheld : (heldEvent c).isSome)
    (l : ConsumerLocal) (hidle : c = .idle l) : (consumer cap).enabled l (takeHeld c) := by
  subst hidle
  obtain ⟨ev, hev⟩ := Option.isSome_iff_exists.mp hheld
  have hl : l.held = some ev := hev
  change l.held = some (l.held.getD {})
  rw [hl, Option.getD_some]

/-- The producer has written two events, and the consumer has peeked at the first one. -/
def peeked : (ringSystem 128).State :=
  (((freshSystem 128).callLeft (writeZeros 12)).callLeft (writeZeros 0)).callRight
    ConsumerCall.peekNext

/-- The first event is taken, and the next one was written behind a turn back. The producer is
within its fourth call. -/
def turnedBack : (ringSystem 128).State :=
  ((peeked.callRight (takeHeld peeked.right)).callLeft (writeZeros 4)).beginLeft (writeZeros 0) 11

theorem turnedBack_reachable : (ringMachine 128).Reachable turnedBack := by
  have hpeeked : (ringMachine 128).Reachable peeked :=
    TwoParty.reachable_callRight (TwoParty.reachable_callLeft (TwoParty.reachable_callLeft
      (freshSystem_reachable (by decide)) fun _ _ => trivial) fun _ _ => trivial) fun _ _ => trivial
  have htaken : (ringMachine 128).Reachable (peeked.callRight (takeHeld peeked.right)) :=
    TwoParty.reachable_callRight hpeeked (enabled_takeHeld (by decide +kernel))
  exact TwoParty.reachable_beginLeft 11
    (TwoParty.reachable_callLeft htaken fun _ _ => trivial) fun _ _ => trivial

/-- The walk of a ring with two unread records goes past a wrap marker, while the header of a third
one is written. -/
theorem ring_walk_invariant_turnedBack :
    turnedBack.shared.readIndex = 72 ∧ turnedBack.shared.writeIndex = 40 ∧
      (∀ l, Walk 128 turnedBack.shared.mem.data 40 72 l ↔ l = [(72, 0), (0, 4)]) ∧
      ∀ a σ', (ringMachine 128).step turnedBack a σ' → StepEffect turnedBack.shared a σ'.shared := by
  obtain ⟨-, -, -, -, hwalk, -, -, hstep⟩ :=
    ring_walk_invariant ⟨128, by decide⟩ turnedBack turnedBack_reachable
  have hread : turnedBack.shared.readIndex = 72 := by decide +kernel
  have hwrite : turnedBack.shared.writeIndex = 40 := by decide +kernel
  have hunread : turnedBack.shared.unread.map Record.extent = [(72, 0), (0, 4)] := by
    decide +kernel
  rw [hread, hwrite, hunread] at hwalk
  exact ⟨hread, hwrite, hwalk, hstep⟩

end System

end MidiFramework.SharedRing
