import MidiFramework.Client.InputPort
import MidiFramework.SharedRing.Fifo

/-!
# What the callback of an input port gets

In every interleaving the callback gets a first part of the events that the server
published, in order, each converted as the port's direction says. While the thread is
blocked in the kernel and nobody is about to wake it, nothing is left to deliver and
the port has not been stopped.
-/

namespace MidiFramework.Client

open Foundation Program Discipline SharedRing Common

/-! ### The receiver keeps to its role -/

section Role

variable {ok : UInt32 → Prop} {cap r : Nat} {K A : List Record}

/-- What the receiver knows after a round of the drain; a committed record is never discarded. -/
inductive OneDrained (ok : UInt32 → Prop) (cap : Nat) (K A : List Record) :
    DrainedOne → RingState → Prop
  | event {s : RingState} (r : Nat) (x : Record) (reading : Reading ok cap r (K ++ [x]) A s) :
      OneDrained ok cap K A (.event x.toMidiEvent) s
  | empty {s : RingState} (r : Nat) (reading : Reading ok cap r K A s)
      (drained : Lively ok → A <+: K) : OneDrained ok cap K A .empty s

theorem triple_drainOne (hcap : cap < 2 ^ 31) :
    (readerRole ok cap).Triple (Reading ok cap r K A) (drainOne cap) (OneDrained ok cap K A) := by
  refine Triple.bind (triple_peekNext hcap) fun peeked => ?_
  intro s hs
  cases hs with
  | nothing r returned reading drained =>
      rw [if_pos returned]
      exact Triple.ret reading_stable (fun t ht => .empty r ht drained) s reading
  | event r x q returned heading =>
      subst returned
      rw [if_neg (not_not.mpr rfl)]
      refine heading.sat_take (by omega) fun r' u hu => ?_
      exact Triple.ret reading_stable (fun v hv => .event r' x hv) u hu

/-- What the receiver knows between its calls. -/
def ReceiverAt (ok : UInt32 → Prop) (cap : Nat) (l : ReceiverLocal) (s : RingState) : Prop :=
  ∃ r K A, Reading ok cap r K A s ∧ K.map Record.toMidiEvent = l.taken ∧ A.length = l.seen

/-- What it knows when a call returns. -/
def Returned (ok : UInt32 → Prop) (cap : Nat) (l : ReceiverLocal) :
    (call : ReceiverCall) → call.Result → RingState → Prop
  | .peekNext, peeked, s =>
      ∃ r K A, Reading ok cap r K A s ∧ K.map Record.toMidiEvent = l.taken ∧ A.length = l.seen ∧
        (peeked.1 ≠ .ok → Lively ok → A <+: K)
  | .drainRound, one, s =>
      ∃ K A, OneDrained ok cap K A one s ∧ K.map Record.toMidiEvent = l.taken ∧ A.length = l.seen

def receiverProof (ok : UInt32 → Prop) (hcap : cap < 2 ^ 31) :
    TwoParty.Proof (receiver cap) (readerRole ok cap) where
  At := ReceiverAt ok cap
  post := Returned ok cap
  stable := by
    rintro l s t hr ⟨r, K, A, h, hK, hA⟩
    exact ⟨r, K, A, reading_stable s t hr h, hK, hA⟩
  call := by
    rintro l call - s ⟨r, K, A, h, hK, hA⟩
    cases call with
    | peekNext =>
        refine (triple_peekNext hcap s h).mono fun peeked t ht => ?_
        cases ht with
        | event r x q returned heading =>
            exact ⟨r, K, A, heading.toReading, hK, hA, fun hne => absurd (returned ▸ rfl) hne⟩
        | nothing r returned reading drained => exact ⟨r, K, A, reading, hK, hA, fun _ => drained⟩
    | drainRound => exact (triple_drainOne hcap s h).mono fun one t ht => ⟨K, A, ht, hK, hA⟩
  back := by
    intro l call result s h
    cases call with
    | peekNext =>
        obtain ⟨r, K, A, hreading, hK, hA, -⟩ := h
        exact ⟨r, K, A, hreading, hK, hA⟩
    | drainRound =>
        obtain ⟨K, A, h, hK, hA⟩ := h
        cases h with
        | event r x reading =>
            refine ⟨r, K ++ [x], A, reading, ?_, hA⟩
            rw [List.map_append, hK]
            rfl
        | empty r reading drained => exact ⟨r, K, A, reading, hK, hA⟩

/-- The receiver may note what is published at any time. -/
theorem ReceiverAt.noticed {l : ReceiverLocal} {s : RingState} (h : ReceiverAt ok cap l s) :
    ReceiverAt ok cap { l with seen := s.appended.length } s := by
  obtain ⟨r, K, A, hreading, hK, -⟩ := h
  exact ⟨r, K, s.appended, ⟨hreading.inv, hreading.read, hreading.taken, List.prefix_refl _⟩,
    hK, rfl⟩

theorem ReceiverAt.taken_le {l : ReceiverLocal} {s : RingState} (h : ReceiverAt ok cap l s) :
    l.taken <+: s.appended.map Record.toMidiEvent := by
  obtain ⟨r, K, A, hreading, hK, -⟩ := h
  rw [← hK]
  exact hreading.taken_le.map _

end Role

theorem Capacity.small (capacity : Capacity) : capacity.bytes < 2 ^ 31 := by
  have hlt := capacity.lt
  omega

namespace InputRing

variable {capacity : Capacity} {ring ring' : InputRing capacity}

/-- The receiver keeps to its role where the sequence words are of the kind. -/
def Reads (ok : UInt32 → Prop) (ring : InputRing capacity) : Prop :=
  (receiverProof ok (Capacity.small capacity)).Holds ring.right ring.shared

theorem Reads.taken_le {ok : UInt32 → Prop} (h : ring.Reads ok) {l : ReceiverLocal}
    (hidle : ring.right = .idle l) : ring.reader.taken <+: ring.published := by
  rw [Reads, hidle] at h
  rw [reader, hidle]
  exact ReceiverAt.taken_le h

/-- Both users of the ring keep to their roles, the server will notify, and the receiver took what
was published. -/
structure Sound (ring : InputRing capacity) : Prop where
  writes : Writes (Capacity.small capacity) ring.left ring.shared
  reads : ring.Reads fun _ => True
  pledged : Pledged capacity.bytes ring.left ring.shared
  taken : ring.reader.taken <+: ring.published

theorem sound_step (hwrites : Writes (Capacity.small capacity) ring.left ring.shared)
    (hreads : ring.Reads fun _ => True) {a : Party.Action ringInterface ⊕ Party.Action ringInterface}
    (hstep : (inputRing capacity.bytes).Step ring a ring') :
    Writes (Capacity.small capacity) ring'.left ring'.shared ∧ ring'.Reads fun _ => True :=
  have holds : TwoParty.Holds (producerProof (Capacity.small capacity) fun _ => trivial)
      (receiverProof (fun _ => True) (Capacity.small capacity)) ring := ⟨hwrites, hreads⟩
  holds.step rfl rfl
    (fun c s t (h : WriterGuarantee (fun _ => True) capacity.bytes c s t) => h.moves)
    (fun c s t (h : ReaderGuarantee (fun _ => True) capacity.bytes c s t) => h.moves) hstep

variable {l : ReceiverLocal} {call : ReceiverCall} {accepted : List MidiEvent}
  {event : MidiEventInner} {writing : ProducerCall} {result : WriteResult} {cmd : RingCmd}

@[simp] theorem reader_idle (h : ring.right = .idle l) : ring.reader = l := by
  rw [reader, h]

@[simp] theorem reader_busy {rest : RingProgram call.Result} (h : ring.right = .busy l call rest) :
    ring.reader = l := by
  rw [reader, h]

theorem Sound.beginWrite (h : ring.Sound) (hidle : ring.left = .idle accepted) :
    (ring.beginWrite accepted event).Sound := by
  obtain ⟨left, right, shared⟩ := ring
  obtain rfl : left = .idle accepted := hidle
  obtain ⟨hwrites, hreads⟩ := sound_step h.writes h.reads (.left (.start trivial))
  exact ⟨hwrites, hreads, Pledged.start h.writes rfl, h.taken⟩

/-- An access of the server moves the ring as a writer may. -/
theorem Sound.writeMoves (h : ring.Sound)
    (hstep : (inputRing capacity.bytes).Step ring (.inl (.command cmd)) ring') :
    ring'.right = ring.right ∧ WriterMoves (fun _ => True) capacity.bytes ring.shared ring'.shared := by
  cases hstep with
  | left hp =>
      cases hp with
      | command => exact ⟨rfl, h.writes.moves⟩

/-- An access of the server that publishes is announced by the end of the call. -/
theorem Sound.announces (h : ring.Sound)
    (hstep : (inputRing capacity.bytes).Step ring (.inl (.command cmd)) ring') :
    (WillNotify capacity.bytes ring.left ring.shared →
      WillNotify capacity.bytes ring'.left ring'.shared) ∧
    (ring.shared.appended.length < ring'.shared.appended.length →
      WillNotify capacity.bytes ring'.left ring'.shared) ∧
    ∃ accepted call rest rest', ring.left = .busy accepted call rest ∧
      ring'.left = .busy accepted call rest' := by
  cases hstep with
  | left hp =>
      cases hp with
      | command =>
          exact ⟨fun hwill => hwill.command h.writes, h.pledged.published, _, _, _, _, rfl, rfl⟩

theorem Sound.write (h : ring.Sound)
    (hstep : (inputRing capacity.bytes).Step ring (.inl (.command cmd)) ring') : ring'.Sound := by
  obtain ⟨hwrites, hreads⟩ := sound_step h.writes h.reads hstep
  obtain ⟨hright, hmoves⟩ := h.writeMoves hstep
  refine ⟨hwrites, hreads, ?_, ?_⟩
  · cases hstep with
    | left hp =>
        cases hp with
        | command => exact h.pledged.command h.writes
  · rw [reader, hright]
    exact h.taken.trans (hmoves.appended.map _)

theorem Sound.endWrite (h : ring.Sound) (hbusy : ring.left = .busy accepted writing (.ret result)) :
    (ring.endWrite accepted writing result).Sound := by
  obtain ⟨left, right, shared⟩ := ring
  obtain rfl : left = .busy accepted writing (.ret result) := hbusy
  obtain ⟨hwrites, hreads⟩ := sound_step h.writes h.reads (.left .finish)
  exact ⟨hwrites, hreads, pledged_idle, h.taken⟩

/-- The receiver begins a call from where it is. -/
theorem Reads.beginCall {ok : UInt32 → Prop} (h : ring.Reads ok) (hidle : ring.right = .idle l) :
    (ring.beginCall l call).Reads ok := by
  rw [Reads, hidle] at h
  exact (receiverProof ok (Capacity.small capacity)).call _ call trivial _ (ReceiverAt.noticed h)

theorem Sound.beginCall (h : ring.Sound) (hidle : ring.right = .idle l) :
    (ring.beginCall l call).Sound := by
  have htaken := h.taken
  rw [reader_idle hidle] at htaken
  exact ⟨h.writes, h.reads.beginCall hidle, h.pledged, htaken⟩

/-- An access of the receiver publishes nothing, and leaves what it took and saw as it is. -/
theorem readAccess {ok : UInt32 → Prop} (h : ring.Reads ok)
    (hstep : (inputRing capacity.bytes).Step ring (.inr (.command cmd)) ring') :
    ring'.left = ring.left ∧ ring'.shared.appended = ring.shared.appended ∧
      ring'.reader = ring.reader ∧ ring'.Reads ok ∧
      ∃ l call rest rest', ring.right = .busy l call rest ∧ ring'.right = .busy l call rest' := by
  cases hstep with
  | right hp =>
      have hreads := TwoParty.Proof.Holds.step h hp
      cases hp with
      | command =>
          have hmoves := (TwoParty.Proof.Holds.guarantee h .command).moves
          exact ⟨rfl, hmoves.appended, rfl, hreads, _, _, _, _, rfl, rfl⟩

theorem readAccess_moves (h : ring.Reads fun _ => True)
    (hstep : (inputRing capacity.bytes).Step ring (.inr (.command cmd)) ring') :
    ReaderMoves (fun _ => True) capacity.bytes ring.shared ring'.shared := by
  cases hstep with
  | right hp =>
      cases hp with
      | command => exact (TwoParty.Proof.Holds.guarantee h .command).moves

/-- An access of the server is the next command of its call. -/
theorem writeAccess (hstep : (inputRing capacity.bytes).Step ring (.inl (.command cmd)) ring') :
    ∃ accepted call k, ring.left = .busy accepted call (.op cmd k) ∧
      ring'.left = .busy accepted call (k (execTraced cmd ring.shared).1) ∧
      ring'.shared = (execTraced cmd ring.shared).2 := by
  cases hstep with
  | left hp =>
      cases hp with
      | command => exact ⟨_, _, _, rfl, rfl, rfl⟩

theorem Sound.read (h : ring.Sound)
    (hstep : (inputRing capacity.bytes).Step ring (.inr (.command cmd)) ring') : ring'.Sound := by
  obtain ⟨hleft, happended, hreader, hreads, -⟩ := readAccess h.reads hstep
  refine ⟨(sound_step h.writes h.reads hstep).1, hreads, ?_, ?_⟩
  · rw [hleft]
    exact h.pledged.read happended
  · rw [hreader, published, happended]
    exact h.taken

theorem Reads.endCall {ok : UInt32 → Prop} (h : ring.Reads ok) {result : call.Result}
    (hbusy : ring.right = .busy l call (.ret result)) : (ring.endCall l call result).Reads ok := by
  rw [Reads, hbusy] at h
  exact (receiverProof ok (Capacity.small capacity)).back l call result _ (h _ (WriterMoves.refl _))

theorem Sound.endCall (h : ring.Sound) {result : call.Result}
    (hbusy : ring.right = .busy l call (.ret result)) : (ring.endCall l call result).Sound :=
  ⟨h.writes, h.reads.endCall hbusy, h.pledged, (h.reads.endCall hbusy).taken_le rfl⟩

/-- What a call of the receiver returns. -/
theorem Reads.returned {ok : UInt32 → Prop} (h : ring.Reads ok) {result : call.Result}
    (hbusy : ring.right = .busy l call (.ret result)) :
    Returned ok capacity.bytes l call result ring.shared := by
  rw [Reads, hbusy] at h
  exact h _ (WriterMoves.refl _)

/-- Between two calls of the server what it was told it wrote is what was published. -/
theorem Sound.published_idle (h : ring.Sound)
    (hquiet : ¬∃ accepted call rest, ring.left = .busy accepted call rest) :
    ring.published = ring.accepted := by
  have hwrites := h.writes
  rw [accepted, published]
  cases hleft : ring.left with
  | busy accepted call rest => exact absurd ⟨accepted, call, rest, hleft⟩ hquiet
  | idle accepted =>
      rw [hleft] at hwrites
      obtain ⟨w, A, d, hwriting, hA⟩ := hwrites
      rw [hwriting.appended, hA]

/-- What is published goes no further than the call under way: the call could run to its end. -/
theorem Sound.published_busy (h : ring.Sound) {rest : RingProgram WriteResult}
    (hbusy : ring.left = .busy accepted writing rest) :
    ring.published <+: accepted ++ writing.offered.map MidiEventInner.toMidiEvent := by
  have hwrites := h.writes
  rw [hbusy] at hwrites
  have hsat : (writerRole _ capacity.bytes).Sat _ rest ring.shared := hwrites
  have hmoves := run_writerMoves hsat
  have hpublished : ring.published <+:
      (rest.run execTraced ring.shared).2.appended.map Record.toMidiEvent :=
    hmoves.appended.map _
  obtain ⟨A, hA, -, B, w, d, hwriting, hB⟩ := hsat.run
  refine hpublished.trans ?_
  have hend : (rest.run execTraced ring.shared).2.appended.map Record.toMidiEvent = accepted ++
      (writing.offered.take (rest.run execTraced ring.shared).1.eventsWritten).map
        MidiEventInner.toMidiEvent := by
    refine (congrArg _ hwriting.appended).trans ?_
    rw [List.map_append, hA]
    exact congrArg _ hB
  rw [hend]
  apply (List.prefix_append_right_inj accepted).mpr
  apply List.IsPrefix.map
  exact List.take_prefix _ _

end InputRing

/-! ### What was handed to the callback -/

namespace ReceiverPlace

/-- Where the thread is in the ring: in `PeekNext`, perhaps in a round of the drain, or nowhere. -/
def Shape {cap : Nat} (right : (receiver cap).Control) : ReceiverPlace → Prop
  | .peeking _ => ∃ l rest, right = .busy l .peekNext rest
  | .draining => ∀ l call rest, right = .busy l call rest → call = .drainRound
  | _ => ∃ l, right = .idle l

/-- The thread may have events of the drain to hand on. -/
def Carries : ReceiverPlace → Prop
  | .draining | .waking _ | .dispatching => True
  | _ => False

end ReceiverPlace

theorem Look.after_cases (look : Look) (found : Bool) :
    look.after found = .waited ∨ (∃ n, look.after found = .exchange n) ∨
      look.after found = .wait look.tryCount ∧ found = false := by
  obtain ⟨tryCount, again⟩ := look
  cases found with
  | true => exact .inl rfl
  | false =>
      cases again with
      | true => exact .inr (.inl ⟨_, rfl⟩)
      | false => exact .inr (.inr ⟨rfl, rfl⟩)

namespace InputChannel

variable {capacity : Capacity} {s t : InputChannel capacity} {place : ReceiverPlace}

/-- The callback got the events taken before the drain under way. -/
structure Sound (s : InputChannel capacity) : Prop where
  ring : s.ring.Sound
  shape : s.thread.Shape s.ring.right
  handed : ∃ done, s.ring.reader.taken = done ++ s.batch ∧
    s.calls.flatten = MidiInputPort.received s.direction done
  batch : ¬s.thread.Carries → s.batch = []

/-- The server or another thread goes on; the receiver thread stays where it is. -/
theorem Sound.others (h : s.Sound) (hring : t.ring.Sound) (hright : t.ring.right = s.ring.right)
    (hthread : t.thread = s.thread) (hbatch : t.batch = s.batch) (hcalls : t.calls = s.calls)
    (hdirection : t.direction = s.direction) : t.Sound where
  ring := hring
  shape := by
    rw [hthread, hright]
    exact h.shape
  handed := by
    rw [InputRing.reader, hright, hbatch, hcalls, hdirection]
    exact h.handed
  batch := by
    rw [hthread, hbatch]
    exact h.batch

/-- The receiver thread goes to another place. -/
theorem Sound.goTo (h : s.Sound) (place : ReceiverPlace) (hshape : place.Shape s.ring.right)
    (hbatch : ¬place.Carries → s.batch = []) (word : UInt32) :
    Sound { s with thread := place, word := word } :=
  ⟨h.ring, hshape, h.handed, hbatch⟩

theorem Sound.wakeAll (h : s.Sound) : s.wakeAll.Sound := by
  unfold InputChannel.wakeAll
  split
  · next hthread =>
      have hshape := h.shape
      rw [hthread] at hshape
      exact h.goTo (.checkRunning _) hshape
        (fun _ => h.batch (by simp [hthread, ReceiverPlace.Carries])) s.word
  · exact h

theorem Sound.notify (h : s.Sound) : s.notify.Sound := by
  unfold InputChannel.notify
  dsimp only
  have hnext : Sound { s with
      notifier := (s.notifier.next s.word).1, word := (s.notifier.next s.word).2 } :=
    h.others h.ring rfl rfl rfl rfl rfl
  split
  · exact hnext.wakeAll
  · exact hnext

theorem Sound.stopStep (h : s.Sound) : s.stopStep.Sound := by
  unfold InputChannel.stopStep
  dsimp only
  have hnext : Sound { s with
      stopper := (s.stopper.next s.word).1, word := (s.stopper.next s.word).2 } :=
    h.others h.ring rfl rfl rfl rfl rfl
  split
  · exact hnext.wakeAll
  · exact hnext

theorem received_append (direction : ProtocolDirection) (xs ys : List MidiEvent) :
    MidiInputPort.received direction (xs ++ ys) =
      MidiInputPort.received direction xs ++ MidiInputPort.received direction ys := by
  simp only [MidiInputPort.received_eq, List.flatMap_append]

/-- The events of the batch go to the callback. -/
theorem flatten_dispatched (calls : List (List MidiEvent)) (direction : ProtocolDirection)
    (batch : List MidiEvent) :
    (calls ++ (MidiInputPort.drainRingAndDispatch direction batch).toList).flatten =
      calls.flatten ++ MidiInputPort.received direction batch := by
  rw [List.flatten_append, MidiInputPort.received]
  cases MidiInputPort.drainRingAndDispatch direction batch with
  | none => rfl
  | some call => rw [Option.toList_some, List.flatten_singleton, Option.getD_some]

theorem Sound.receive (h : s.Sound) {l : ReceiverLocal} (hidle : s.ring.right = .idle l) :
    (s.receive l).Sound := by
  have hnone : ¬s.thread.Carries → ∀ place : ReceiverPlace, place.Shape s.ring.right →
      ∀ word, Sound { s with thread := place, word := word } :=
    fun hcarries place hshape word => h.goTo place hshape (fun _ => h.batch hcarries) word
  have hidles : ∃ l, s.ring.right = .idle l := ⟨l, hidle⟩
  have hdraining : ReceiverPlace.draining.Shape s.ring.right := by
    intro l' call rest hbusy
    cases hidle.symm.trans hbusy
  unfold InputChannel.receive
  cases hthread : s.thread with
  | loop =>
      rw [hthread] at hnone
      dsimp only
      split
      · exact hnone id .checkParams hidles s.word
      · exact hnone id .ended hidles s.word
  | checkParams =>
      rw [hthread] at hnone
      dsimp only
      split
      · exact hnone id (.exchange 0) hidles s.word
      · exact hnone id .waited hidles s.word
  | exchange n =>
      rw [hthread] at hnone
      dsimp only
      split
      · split
        · exact hnone id (.checkRunning ⟨n, false⟩) hidles isNotReady
        · split
          · exact hnone id .waited hidles s.word
          · exact hnone id (.checkRunning ⟨n, false⟩) hidles s.word
      · exact hnone id .waited hidles s.word
  | checkRunning look =>
      dsimp only
      split
      · refine ⟨h.ring.beginCall hidle, ⟨_, _, rfl⟩, ?_, fun _ => ?_⟩
        · obtain ⟨done, htaken, hcalls⟩ := h.handed
          rw [InputRing.reader_idle hidle] at htaken
          exact ⟨done, htaken, hcalls⟩
        · exact h.batch (by simp [hthread, ReceiverPlace.Carries])
      · rw [hthread] at hnone
        exact hnone id .waited hidles s.word
  | peeking look => exact h
  | wait n =>
      rw [hthread] at hnone
      dsimp only
      split
      · exact hnone id (.blocked n) hidles s.word
      · exact hnone id (.checkRunning ⟨n, true⟩) hidles s.word
  | blocked n => exact h
  | waited =>
      rw [hthread] at hnone
      dsimp only
      split
      · exact hnone id .draining hdraining s.word
      · exact hnone id .ended hidles s.word
  | draining =>
      obtain ⟨done, htaken, hcalls⟩ := h.handed
      rw [InputRing.reader_idle hidle] at htaken
      refine ⟨h.ring.beginCall hidle, ?_, ⟨done, htaken, hcalls⟩,
        fun hcarries => absurd trivial hcarries⟩
      intro l' call rest hbusy
      cases hbusy
      rfl
  | waking place =>
      dsimp only
      split
      · exact h.goTo .draining hdraining (fun hcarries => absurd trivial hcarries) _
      · exact h.goTo (.waking _) hidles (fun hcarries => absurd trivial hcarries) _
  | dispatching =>
      obtain ⟨done, htaken, hcalls⟩ := h.handed
      refine ⟨h.ring, hidles, ⟨done ++ s.batch, ?_, ?_⟩, fun _ => rfl⟩
      · change s.ring.reader.taken = done ++ s.batch ++ []
        rw [List.append_nil, htaken]
      · change (s.calls ++ _).flatten = _
        rw [flatten_dispatched, hcalls, received_append]
  | ended => exact h

theorem Sound.ringAccess (h : s.Sound) {ring : InputRing capacity} {cmd : RingCmd}
    (hstep : (inputRing capacity.bytes).Step s.ring (.inr (.command cmd)) ring) :
    Sound { s with ring := ring } := by
  obtain ⟨-, -, hreader, -, l, call, rest, rest', hbefore, hafter⟩ :=
    InputRing.readAccess h.ring.reads hstep
  refine ⟨h.ring.read hstep, ?_, ?_, h.batch⟩
  · have hshape := h.shape
    change s.thread.Shape ring.right
    rw [hbefore] at hshape
    rw [hafter]
    cases hthread : s.thread with
    | peeking look =>
        rw [hthread] at hshape
        obtain ⟨l', rest'', hsame⟩ := hshape
        cases hsame
        exact ⟨_, _, rfl⟩
    | draining =>
        rw [hthread] at hshape
        have hcall := hshape _ _ _ rfl
        rintro l' call' rest'' hsame
        cases hsame
        exact hcall
    | _ =>
        rw [hthread] at hshape
        obtain ⟨l', hsame⟩ := hshape
        cases hsame
  · change ∃ done, ring.reader.taken = done ++ s.batch ∧ _
    rw [hreader]
    exact h.handed

/-- The thread is in the call that the ring shows. -/
theorem Sound.inCall (h : s.Sound) {l : ReceiverLocal} {call : ReceiverCall}
    {rest : RingProgram call.Result} (hbusy : s.ring.right = .busy l call rest) :
    (call = .peekNext ∧ ∃ look, s.thread = .peeking look) ∨
      call = .drainRound ∧ s.thread = .draining := by
  have hshape := h.shape
  rw [hbusy] at hshape
  cases hthread : s.thread with
  | peeking look =>
      rw [hthread] at hshape
      obtain ⟨l', rest', hsame⟩ := hshape
      cases hsame
      exact .inl ⟨rfl, look, rfl⟩
  | draining =>
      rw [hthread] at hshape
      exact .inr ⟨hshape _ _ _ rfl, rfl⟩
  | _ =>
      rw [hthread] at hshape
      obtain ⟨l', hsame⟩ := hshape
      cases hsame

theorem Sound.endCall (h : s.Sound) {l : ReceiverLocal} {call : ReceiverCall}
    {result : call.Result} (hbusy : s.ring.right = .busy l call (.ret result)) :
    (s.endCall l call result).Sound := by
  have hring := h.ring.endCall hbusy
  obtain ⟨done, htaken, hcalls⟩ := h.handed
  rw [InputRing.reader_busy hbusy] at htaken
  obtain ⟨rfl, look, hthread⟩ | ⟨rfl, hthread⟩ := h.inCall hbusy
  · have hbatch : s.batch = [] := h.batch (by simp [hthread, ReceiverPlace.Carries])
    refine ⟨hring, ?_, ⟨done, htaken, hcalls⟩, fun _ => hbatch⟩
    have hplace : (s.endCall l .peekNext result).thread = look.after (result.1 = .ok) := by
      simp only [InputChannel.endCall, hthread]
    rw [hplace]
    obtain hwaited | ⟨n, hexchange⟩ | ⟨hwait, -⟩ := look.after_cases (result.1 = .ok)
    · rw [hwaited]
      exact ⟨_, rfl⟩
    · rw [hexchange]
      exact ⟨_, rfl⟩
    · rw [hwait]
      exact ⟨_, rfl⟩
  · cases result with
    | event copied =>
        refine ⟨hring, ⟨_, rfl⟩, ⟨done, ?_, hcalls⟩, fun hcarries => absurd trivial hcarries⟩
        change l.taken ++ [copied] = done ++ (s.batch ++ [copied])
        rw [htaken, List.append_assoc]
    | discarded =>
        refine ⟨hring, ?_, ⟨done, htaken, hcalls⟩, fun hcarries => ?_⟩
        · change s.thread.Shape _
          rw [hthread]
          exact nofun
        · exact absurd (by rw [InputChannel.endCall, hthread]; trivial) hcarries
    | empty => exact ⟨hring, ⟨_, rfl⟩, ⟨done, htaken, hcalls⟩, fun hcarries => absurd trivial hcarries⟩

theorem Sound.step {a : Action} (h : s.Sound) (hstep : Step s a t) : t.Sound := by
  cases hstep with
  | startWrite event idle away => exact h.others (h.ring.beginWrite idle) rfl rfl rfl rfl rfl
  | write step => exact h.others (h.ring.write step) (h.ring.writeMoves step).1 rfl rfl rfl rfl
  | endWrite busy => exact h.others (h.ring.endWrite busy) rfl rfl rfl rfl rfl
  | notify wakes => exact h.notify
  | receive idle => exact h.receive idle
  | ringAccess step => exact h.ringAccess step
  | endCall busy => exact h.endCall busy
  | spurious => exact h.wakeAll
  | stop runs => exact h.others h.ring rfl rfl rfl rfl rfl
  | stopStep wakes => exact h.stopStep

theorem opened_sound (direction : ProtocolDirection) {mem : RingMemory}
    (hempty : EmptyRing capacity.bytes ⟨mem, [], 0⟩) : (opened capacity direction mem).Sound where
  ring := by
    have hinv : RingState.Inv (fun _ => True) capacity.bytes ⟨mem, [], 0⟩ := hempty.inv
    exact ⟨⟨_, [], _, ⟨hinv, rfl, rfl, rfl⟩, rfl⟩,
      ⟨_, [], [], ⟨hinv, rfl, rfl, List.nil_prefix⟩, rfl, rfl⟩, pledged_idle, List.nil_prefix⟩
  shape := ⟨_, rfl⟩
  handed := ⟨[], rfl, (MidiInputPort.received_eq direction []).symm⟩
  batch _ := rfl

theorem sound_of_reachable {cond : InputChannel capacity → Action → Prop}
    (reach : (machine capacity).ReachableWith cond s) : s.Sound := by
  refine reach.invariant Sound ?_ ?_
  · rintro s ⟨direction, mem, hempty, rfl⟩
    exact opened_sound direction hempty
  · exact fun s a t _ h _ hstep => h.step hstep

end InputChannel

/-! ### Nothing is left while the thread is blocked -/

namespace ReceiverPlace

/-- The thread is in a look, or has found nothing and not looked since. -/
def Looked : ReceiverPlace → Prop
  | .peeking _ | .wait _ | .blocked _ => True
  | _ => False

/-- The thread has found nothing and not looked since. -/
def Unaware : ReceiverPlace → Prop
  | .wait _ | .blocked _ => True
  | _ => False

end ReceiverPlace

namespace InputChannel

variable {capacity : Capacity} {s t : InputChannel capacity} {place : ReceiverPlace}

/-- The thread is blocked in the kernel. -/
def Blocked (s : InputChannel capacity) : Prop := ∃ n, s.thread = .blocked n

/-- What was published since the thread began to look is announced by the word, or will be. -/
def Told (s : InputChannel capacity) : Prop :=
  s.ring.shared.appended.length ≤ s.ring.reader.seen ∨
    WillNotify capacity.bytes s.ring.left s.ring.shared ∨ s.notifier.approaches = true ∨
    s.word ≠ isNotReady

/-- Who has called `FutexWake`, and what the word and the flag say of it. -/
structure Alert (s : InputChannel capacity) : Prop where
  word : validWord s.word = true
  notifies : Waking.WakesWith isReady s.notifier
  stops : Waking.WakesWith isPreExit s.stopper
  self : ∀ place, s.thread = .waking place → Waking.WakesWith isReady place
  quiet : ∀ accepted call rest, s.ring.left = .busy accepted call rest → s.notifier.away = true
  runs : s.running = true → s.stopper = .idle
  exits : s.running = false → s.stopper.approaches = true ∨ s.word = isPreExit
  told : s.thread.Looked → s.Told

/-- A blocked thread found the word not ready, and whoever changed it since is about to wake it. -/
structure Attended (s : InputChannel capacity) : Prop extends Alert s where
  blocked : s.Blocked →
    s.word = isNotReady ∨ s.notifier.wakesNext = true ∨ s.stopper.wakesNext = true

/-- The receiver thread goes to a place from which it has not looked. -/
theorem Alert.goTo (h : s.Alert) (place : ReceiverPlace)
    (hself : ∀ p, place = .waking p → Waking.WakesWith isReady p)
    (hlooked : place.Looked → s.thread.Looked) :
    Alert { s with thread := place } :=
  ⟨h.word, h.notifies, h.stops, hself, h.quiet, h.runs, h.exits, fun hplace => h.told (hlooked hplace)⟩

theorem not_blocked_wakeAll : ¬s.wakeAll.Blocked := by
  rintro ⟨n, hn⟩
  unfold InputChannel.wakeAll at hn
  split at hn
  · contradiction
  · next hthread => exact hthread n hn

theorem Alert.wakeAll (h : s.Alert) : s.wakeAll.Attended := by
  refine ⟨?_, fun hblocked => absurd hblocked not_blocked_wakeAll⟩
  unfold InputChannel.wakeAll
  split
  · exact h.goTo (.checkRunning _) nofun nofun
  · exact h

theorem Attended.notify (h : s.Attended) (hwakes : s.notifier.away = false) : s.notify.Attended := by
  have hstep := wakeStep_next h.word h.notifies
  have halert : Alert { s with
      notifier := (s.notifier.next s.word).1, word := (s.notifier.next s.word).2 } := by
    refine ⟨hstep.valid, hstep.wakesWith, h.stops, h.self, fun accepted call rest hbusy => ?_, h.runs,
      fun hstopped => (h.exits hstopped).imp_right hstep.exit, fun hlooked => ?_⟩
    · have haway := h.quiet accepted call rest hbusy
      rw [hwakes] at haway
      contradiction
    · obtain hseen | hwill | happroaches | hword := h.told hlooked
      · exact .inl hseen
      · exact .inr (.inl hwill)
      · exact .inr (.inr (hstep.looked happroaches))
      · exact .inr (.inr (.inr (hstep.keeps hword)))
  unfold InputChannel.notify
  dsimp only
  split
  · exact halert.wakeAll
  · next hnext =>
      refine ⟨halert, fun hblocked => ?_⟩
      obtain hword | hnotifier | hstopper := h.blocked hblocked
      · exact (hstep.wakes hword).imp_right .inl
      · exact absurd hnotifier hnext
      · exact .inr (.inr hstopper)

theorem Attended.stopStep (h : s.Attended) (hwakes : s.stopper.away = false) :
    s.stopStep.Attended := by
  have hstep := wakeStep_next h.word h.stops
  have halert : Alert { s with
      stopper := (s.stopper.next s.word).1, word := (s.stopper.next s.word).2 } := by
    refine ⟨hstep.valid, h.notifies, hstep.wakesWith, h.self, h.quiet, fun hrunning => ?_,
      fun hstopped => ?_, fun hlooked => ?_⟩
    · rw [h.runs hrunning] at hwakes
      contradiction
    · obtain happroaches | hword := h.exits hstopped
      · exact hstep.exits rfl happroaches
      · exact .inr (hstep.exit hword)
    · obtain hseen | hwill | happroaches | hword := h.told hlooked
      · exact .inl hseen
      · exact .inr (.inl hwill)
      · exact .inr (.inr (.inl happroaches))
      · exact .inr (.inr (.inr (hstep.keeps hword)))
  unfold InputChannel.stopStep
  dsimp only
  split
  · exact halert.wakeAll
  · next hnext =>
      refine ⟨halert, fun hblocked => ?_⟩
      obtain hword | hnotifier | hstopper := h.blocked hblocked
      · exact (hstep.wakes hword).imp_right .inr
      · exact .inr (.inl hnotifier)
      · exact absurd hstopper hnext

/-- The thread is not blocked at the place it goes to. -/
theorem Alert.attended (h : Alert { s with thread := place }) (hplace : ∀ n, place ≠ .blocked n) :
    Attended { s with thread := place } :=
  ⟨h, fun ⟨n, hn⟩ => absurd hn (hplace n)⟩

/-- The receiver thread begins a call. -/
theorem Alert.beginCall (h : s.Alert) {l : ReceiverLocal} (call : ReceiverCall)
    (place : ReceiverPlace)
    (hself : ∀ p, place = .waking p → Waking.WakesWith isReady p) :
    Alert { s with ring := s.ring.beginCall l call, thread := place } :=
  ⟨h.word, h.notifies, h.stops, hself, h.quiet, h.runs, h.exits, fun _ => .inl le_rfl⟩

theorem Attended.receive (h : s.Attended) (l : ReceiverLocal) : (s.receive l).Attended := by
  unfold InputChannel.receive
  cases hthread : s.thread with
  | loop =>
      dsimp only
      split
      · exact (h.goTo .checkParams nofun nofun).attended nofun
      · exact (h.goTo .ended nofun nofun).attended nofun
  | checkParams =>
      dsimp only
      split
      · exact (h.goTo (.exchange 0) nofun nofun).attended nofun
      · exact (h.goTo .waited nofun nofun).attended nofun
  | exchange n =>
      dsimp only
      split
      · split
        · next hready =>
            refine ⟨⟨rfl, h.notifies, h.stops, nofun, h.quiet, h.runs, fun hstopped => ?_, nofun⟩,
              nofun⟩
            obtain happroaches | hword := h.exits hstopped
            · exact .inl happroaches
            · rw [hready] at hword
              contradiction
        · split
          · exact (h.goTo .waited nofun nofun).attended nofun
          · exact (h.goTo (.checkRunning _) nofun nofun).attended nofun
      · exact (h.goTo .waited nofun nofun).attended nofun
  | checkRunning look =>
      dsimp only
      split
      · exact ⟨h.beginCall .peekNext (.peeking look) nofun, nofun⟩
      · exact (h.goTo .waited nofun nofun).attended nofun
  | peeking look => exact h
  | wait n =>
      dsimp only
      split
      · next hword =>
          refine ⟨h.goTo (.blocked n) nofun fun _ => ?_, fun _ => .inl hword⟩
          rw [hthread]
          trivial
      · exact (h.goTo (.checkRunning _) nofun nofun).attended nofun
  | blocked n => exact h
  | waited =>
      dsimp only
      split
      · exact (h.goTo .draining nofun nofun).attended nofun
      · exact (h.goTo .ended nofun nofun).attended nofun
  | draining => exact ⟨h.beginCall .drainRound .draining nofun, nofun⟩
  | waking place =>
      have hstep := wakeStep_next h.word (h.self place hthread)
      have halert : ∀ p : ReceiverPlace, ¬p.Looked →
          (∀ q, p = .waking q → Waking.WakesWith isReady q) →
          Alert { s with word := (place.next s.word).2, thread := p } := fun p hp hq =>
        ⟨hstep.valid, h.notifies, h.stops, hq, h.quiet, h.runs,
          fun hstopped => (h.exits hstopped).imp_right hstep.exit, fun hlooked => absurd hlooked hp⟩
      dsimp only
      split
      · exact ⟨halert .draining id nofun, nofun⟩
      · refine ⟨halert (.waking (place.next s.word).1) id fun q hq => ?_, nofun⟩
        cases hq
        exact hstep.wakesWith
  | dispatching =>
      exact ⟨⟨h.word, h.notifies, h.stops, nofun, h.quiet, h.runs, h.exits, nofun⟩, nofun⟩
  | ended => exact h

/-- An access to the ring by the receiver. -/
theorem Attended.ringAccess (h : s.Attended) (hsound : s.Sound) {ring : InputRing capacity}
    {cmd : RingCmd} (hstep : (inputRing capacity.bytes).Step s.ring (.inr (.command cmd)) ring) :
    Attended { s with ring := ring } := by
  obtain ⟨hleft, happended, hreader, -⟩ := InputRing.readAccess hsound.ring.reads hstep
  refine ⟨⟨h.word, h.notifies, h.stops, h.self, ?_, h.runs, h.exits, fun hlooked => ?_⟩, h.blocked⟩
  · rw [hleft]
    exact h.quiet
  · rw [Told, hleft, happended, hreader]
    have htold := h.told hlooked
    rw [Told] at htold
    exact htold.imp_right (Or.imp_left fun hwill => hwill.read happended)

theorem Attended.endCall (h : s.Attended) (hsound : s.Sound) {l : ReceiverLocal}
    {call : ReceiverCall} {result : call.Result}
    (hbusy : s.ring.right = .busy l call (.ret result)) : (s.endCall l call result).Attended := by
  obtain ⟨rfl, look, hthread⟩ | ⟨rfl, hthread⟩ := hsound.inCall hbusy
  · have htold := h.told (by rw [hthread]; trivial)
    have hseen : (s.ring.endCall l .peekNext result).reader = s.ring.reader := by
      rw [InputRing.reader_busy hbusy]
      rfl
    have hnext : ∀ p : ReceiverPlace, (∀ q, p ≠ .waking q) → (∀ n, p ≠ .blocked n) →
        Attended { s with ring := s.ring.endCall l .peekNext result, thread := p } := by
      refine fun p hp hq => ⟨⟨h.word, h.notifies, h.stops, fun q hsame => absurd hsame (hp q),
        h.quiet, h.runs, h.exits, fun _ => ?_⟩, fun ⟨n, hn⟩ => absurd hn (hq n)⟩
      rw [Told, hseen]
      exact htold
    unfold InputChannel.endCall
    rw [hthread]
    dsimp only
    obtain hwaited | ⟨n, hexchange⟩ | ⟨hwait, -⟩ := look.after_cases (result.1 = .ok)
    · rw [hwaited]
      exact hnext .waited nofun nofun
    · rw [hexchange]
      exact hnext (.exchange n) nofun nofun
    · rw [hwait]
      exact hnext (.wait _) nofun nofun
  · cases result with
    | event copied =>
        refine ⟨⟨h.word, h.notifies, h.stops, fun q hq => ?_, h.quiet, h.runs, h.exits, nofun⟩, nofun⟩
        cases hq
        rfl
    | discarded =>
        refine ⟨⟨h.word, h.notifies, h.stops, h.self, h.quiet, h.runs, h.exits, fun hlooked => ?_⟩,
          fun ⟨n, hn⟩ => ?_⟩
        · exact absurd hlooked (by rw [InputChannel.endCall, hthread]; exact id)
        · cases hthread.symm.trans hn
    | empty =>
        exact ⟨⟨h.word, h.notifies, h.stops, nofun, h.quiet, h.runs, h.exits, nofun⟩, nofun⟩

/-- An access to the ring by the server. -/
theorem Attended.write (h : s.Attended) (hsound : s.Sound) {ring : InputRing capacity}
    {cmd : RingCmd} (hstep : (inputRing capacity.bytes).Step s.ring (.inl (.command cmd)) ring) :
    Attended { s with ring := ring } := by
  obtain ⟨hright, hmoves⟩ := hsound.ring.writeMoves hstep
  have hreader : ring.reader = s.ring.reader := by
    rw [InputRing.reader, InputRing.reader, hright]
  obtain ⟨hkeeps, hpublishes, accepted, call, rest, rest', hbefore, hafter⟩ :=
    hsound.ring.announces hstep
  refine ⟨⟨h.word, h.notifies, h.stops, h.self, ?_, h.runs, h.exits, fun hlooked => ?_⟩, h.blocked⟩
  · exact fun _ _ _ _ => h.quiet _ _ _ hbefore
  · have htold := h.told hlooked
    rw [Told] at htold ⊢
    dsimp only
    rw [hreader]
    obtain hseen | hwill | hword := htold
    · obtain hmore | hsame := Nat.lt_or_eq_of_le hmoves.appended.length_le
      · exact .inr (.inl (hpublishes hmore))
      · exact .inl (hsame ▸ hseen)
    · exact .inr (.inl (hkeeps hwill))
    · exact .inr (.inr hword)

theorem Attended.startWrite (h : s.Attended) {accepted : List MidiEvent} (event : MidiEventInner)
    (hidle : s.ring.left = .idle accepted) (haway : s.notifier.away = true) :
    Attended { s with ring := s.ring.beginWrite accepted event } := by
  refine ⟨⟨h.word, h.notifies, h.stops, h.self, fun _ _ _ _ => haway, h.runs, h.exits,
    fun hlooked => ?_⟩, h.blocked⟩
  have htold := h.told hlooked
  rw [Told, hidle] at htold
  obtain hseen | ⟨_, _, _, hbusy, -⟩ | hword := htold
  · exact .inl hseen
  · cases hbusy
  · exact .inr (.inr hword)

theorem Attended.endWrite (h : s.Attended) (hsound : s.Sound) {accepted : List MidiEvent}
    {call : ProducerCall} {result : WriteResult}
    (hbusy : s.ring.left = .busy accepted call (.ret result)) :
    (s.endWrite accepted call result).Attended := by
  have hquiet := h.quiet _ _ _ hbusy
  refine ⟨⟨h.word, ?_, h.stops, h.self, nofun, h.runs, h.exits, fun hlooked => ?_⟩, fun hblocked => ?_⟩
  · change Waking.WakesWith isReady (if result.notified then .load isReady else s.notifier)
    split
    · rfl
    · exact h.notifies
  · have htold := h.told hlooked
    rw [Told] at htold ⊢
    obtain hseen | hwill | happroaches | hword := htold
    · exact .inl hseen
    · -- the call that published reports that it notified
      have hnotified : result.notified = true := by
        rw [hbusy] at hwill
        exact hwill.finish (hbusy ▸ hsound.ring.pledged) (hbusy ▸ hsound.ring.writes)
      refine .inr (.inr (.inl ?_))
      change Waking.approaches (if result.notified then .load isReady else s.notifier) = true
      rw [if_pos hnotified]
      rfl
    · exact absurd happroaches (not_approaches_of_away hquiet)
    · exact .inr (.inr (.inr hword))
  · obtain hword | hwakes | hstopper := h.blocked hblocked
    · exact .inl hword
    · exact absurd hwakes (not_wakesNext_of_away hquiet)
    · exact .inr (.inr hstopper)

theorem Attended.stop (h : s.Attended) (hruns : s.running = true) :
    Attended { s with running := false, stopper := .load isPreExit } := by
  refine ⟨⟨h.word, h.notifies, rfl, h.self, h.quiet, nofun, fun _ => .inl rfl, h.told⟩,
    fun hblocked => ?_⟩
  obtain hword | hnotifier | hstopper := h.blocked hblocked
  · exact .inl hword
  · exact .inr (.inl hnotifier)
  · rw [h.runs hruns] at hstopper
    contradiction

theorem Attended.step {a : Action} (h : s.Attended) (hsound : s.Sound) (hstep : Step s a t) :
    t.Attended := by
  cases hstep with
  | startWrite event idle away => exact h.startWrite event idle away
  | write step => exact h.write hsound step
  | endWrite busy => exact h.endWrite hsound busy
  | notify wakes => exact h.notify wakes
  | receive idle => exact h.receive _
  | ringAccess step => exact h.ringAccess hsound step
  | endCall busy => exact h.endCall hsound busy
  | spurious => exact h.wakeAll
  | stop runs => exact h.stop runs
  | stopStep wakes => exact h.stopStep wakes

theorem attended_of_reachable {cond : InputChannel capacity → Action → Prop}
    (reach : (machine capacity).ReachableWith cond s) : s.Attended := by
  refine reach.invariant Attended ?_ ?_
  · rintro s ⟨direction, mem, -, rfl⟩
    exact ⟨⟨rfl, trivial, trivial, nofun, nofun, fun _ => rfl, nofun, nofun⟩, nofun⟩
  · exact fun s a t reach h _ hstep => h.step (sound_of_reachable reach) hstep

/-- The thread found nothing because it had taken everything there was when it looked. -/
structure Caught (s : InputChannel capacity) : Prop where
  reads : s.ring.Readable → s.ring.Reads Published
  caught : s.thread.Unaware → s.ring.reader.seen ≤ s.ring.reader.taken.length

theorem Caught.goTo (h : s.Caught) (place : ReceiverPlace)
    (hplace : place.Unaware → s.thread.Unaware) (word : UInt32) :
    Caught { s with thread := place, word := word } :=
  ⟨h.reads, fun hunaware => h.caught (hplace hunaware)⟩

/-- The server or another thread goes on and leaves the ring alone. -/
theorem Caught.wakeAll (h : s.Caught) : s.wakeAll.Caught := by
  unfold InputChannel.wakeAll
  split
  · exact h.goTo (.checkRunning _) nofun s.word
  · exact h

theorem Caught.notify (h : s.Caught) : s.notify.Caught := by
  unfold InputChannel.notify
  dsimp only
  have hnext : Caught { s with
      notifier := (s.notifier.next s.word).1, word := (s.notifier.next s.word).2 } :=
    ⟨h.reads, h.caught⟩
  split
  · exact hnext.wakeAll
  · exact hnext

theorem Caught.stopStep (h : s.Caught) : s.stopStep.Caught := by
  unfold InputChannel.stopStep
  dsimp only
  have hnext : Caught { s with
      stopper := (s.stopper.next s.word).1, word := (s.stopper.next s.word).2 } :=
    ⟨h.reads, h.caught⟩
  split
  · exact hnext.wakeAll
  · exact hnext

/-- The server moves the ring as a writer may. -/
theorem Caught.write (h : s.Caught) (hreadable : s.ring.Readable) {ring : InputRing capacity}
    (hright : ring.right = s.ring.right)
    (hmoves : WriterMoves (fun _ => True) capacity.bytes s.ring.shared ring.shared) :
    Caught { s with ring := ring } := by
  constructor
  · intro hreadable'
    have hholds := h.reads hreadable
    rw [InputRing.Reads] at hholds ⊢
    dsimp only
    rw [hright]
    exact hholds.rely ⟨hmoves.read, hmoves.flag, hmoves.removed, hmoves.appended, hmoves.data,
      fun _ => hreadable'⟩
  · intro hunaware
    dsimp only
    rw [InputRing.reader, hright]
    exact h.caught hunaware

theorem Caught.receive (h : s.Caught) (hreadable : s.ring.Readable) {l : ReceiverLocal}
    (hidle : s.ring.right = .idle l) : (s.receive l).Caught := by
  have hbegin : ∀ call place, ¬ReceiverPlace.Unaware place →
      Caught { s with ring := s.ring.beginCall l call, thread := place } := fun call place hplace =>
    ⟨fun _ => (h.reads hreadable).beginCall hidle, fun hunaware => absurd hunaware hplace⟩
  unfold InputChannel.receive
  cases hthread : s.thread with
  | loop =>
      dsimp only
      split
      · exact h.goTo .checkParams nofun s.word
      · exact h.goTo .ended nofun s.word
  | checkParams =>
      dsimp only
      split
      · exact h.goTo (.exchange 0) nofun s.word
      · exact h.goTo .waited nofun s.word
  | exchange n =>
      dsimp only
      split
      · split
        · exact h.goTo (.checkRunning _) nofun isNotReady
        · split
          · exact h.goTo .waited nofun s.word
          · exact h.goTo (.checkRunning _) nofun s.word
      · exact h.goTo .waited nofun s.word
  | checkRunning look =>
      dsimp only
      split
      · exact hbegin .peekNext (.peeking look) id
      · exact h.goTo .waited nofun s.word
  | peeking look => exact h
  | wait n =>
      dsimp only
      split
      · refine h.goTo (.blocked n) (fun _ => ?_) s.word
        rw [hthread]
        trivial
      · exact h.goTo (.checkRunning _) nofun s.word
  | blocked n => exact h
  | waited =>
      dsimp only
      split
      · exact h.goTo .draining nofun s.word
      · exact h.goTo .ended nofun s.word
  | draining => exact hbegin .drainRound .draining id
  | waking place =>
      dsimp only
      split
      · exact h.goTo .draining nofun _
      · exact h.goTo (.waking _) nofun _
  | dispatching => exact ⟨h.reads, nofun⟩
  | ended => exact h

theorem Caught.ringAccess (h : s.Caught) (hreadable : s.ring.Readable) {ring : InputRing capacity}
    {cmd : RingCmd} (hstep : (inputRing capacity.bytes).Step s.ring (.inr (.command cmd)) ring) :
    Caught { s with ring := ring } := by
  obtain ⟨-, -, hreader, hreads, -⟩ := InputRing.readAccess (h.reads hreadable) hstep
  refine ⟨fun _ => hreads, ?_⟩
  dsimp only
  rw [hreader]
  exact h.caught

theorem Caught.endCall (h : s.Caught) (hreadable : s.ring.Readable) (hsound : s.Sound)
    {l : ReceiverLocal} {call : ReceiverCall} {result : call.Result}
    (hbusy : s.ring.right = .busy l call (.ret result)) : (s.endCall l call result).Caught := by
  have hreads := (h.reads hreadable).endCall hbusy
  have hreturned := (h.reads hreadable).returned hbusy
  obtain ⟨rfl, look, hthread⟩ | ⟨rfl, hthread⟩ := hsound.inCall hbusy
  · refine ⟨fun _ => hreads, ?_⟩
    unfold InputChannel.endCall
    rw [hthread]
    dsimp only
    obtain hwaited | ⟨n, hexchange⟩ | ⟨hwait, hfound⟩ := look.after_cases (result.1 = .ok)
    · rw [hwaited]
      exact nofun
    · rw [hexchange]
      exact nofun
    · -- the look found nothing
      intro _
      obtain ⟨r, K, A, -, hK, hA, hdrained⟩ := hreturned
      have hle := (hdrained (of_decide_eq_false hfound) fun v hv => hv).length_le
      change l.seen ≤ l.taken.length
      rw [← hK, List.length_map, ← hA]
      exact hle
  · cases result with
    | event copied => exact ⟨fun _ => hreads, nofun⟩
    | discarded =>
        refine ⟨fun _ => hreads, fun hunaware => ?_⟩
        change s.thread.Unaware at hunaware
        rw [hthread] at hunaware
        exact hunaware.elim
    | empty => exact ⟨fun _ => hreads, nofun⟩

theorem Caught.step {a : Action} (h : s.Caught) (hreadable : s.ring.Readable) (hsound : s.Sound)
    (hstep : Step s a t) : t.Caught := by
  cases hstep with
  | startWrite event idle away => exact h.write hreadable rfl (.refl _)
  | write step =>
      obtain ⟨hright, hmoves⟩ := hsound.ring.writeMoves step
      exact h.write hreadable hright hmoves
  | endWrite busy => exact ⟨h.reads, h.caught⟩
  | notify wakes => exact h.notify
  | receive idle => exact h.receive hreadable idle
  | ringAccess step => exact h.ringAccess hreadable step
  | endCall busy => exact h.endCall hreadable hsound busy
  | spurious => exact h.wakeAll
  | stop runs => exact ⟨h.reads, h.caught⟩
  | stopStep wakes => exact h.stopStep

theorem caught_of_reachable
    (reach : (machine capacity).ReachableWith (fun s _ => s.ring.Readable) s) : s.Caught := by
  refine reach.invariant Caught ?_ ?_
  · rintro s ⟨direction, mem, hempty, rfl⟩
    have hinv : RingState.Inv Published capacity.bytes ⟨mem, [], 0⟩ := hempty.inv
    exact ⟨fun _ => ⟨_, [], [], ⟨hinv, rfl, rfl, List.nil_prefix⟩, rfl, rfl⟩, nofun⟩
  · exact fun s a t reach h hreadable hstep => h.step hreadable (sound_of_reachable reach) hstep

/-- In every interleaving what the receiver thread took out of the ring is what the callback has got,
split and converted, with the batch under way behind it, in the order in which the server published
it. Between two calls of the thread nothing else is gone from the ring. -/
theorem callback_keeps_order (reach : (machine capacity).Reachable s) :
    ∃ done, s.ring.reader.taken = done ++ s.batch ∧
      s.calls.flatten = MidiInputPort.received s.direction done ∧
      s.ring.reader.taken <+: s.ring.published ∧
      ∀ l, s.ring.right = .idle l →
        s.ring.reader.taken =
          (s.ring.shared.appended.take s.ring.shared.removed).map Record.toMidiEvent := by
  have hsound := sound_of_reachable reach
  obtain ⟨done, htaken, hcalls⟩ := hsound.handed
  refine ⟨done, htaken, hcalls, hsound.ring.taken, ?_⟩
  intro l hidle
  have hreads := hsound.ring.reads
  rw [InputRing.Reads, hidle] at hreads
  obtain ⟨r, K, A, hreading, hK, -⟩ := hreads
  rw [InputRing.reader_idle hidle, ← hK, hreading.taken]

section Asleep

def smallest : Capacity := ⟨2048, by decide⟩

/-- A port whose thread has gone to sleep on the empty ring. -/
def asleep : InputChannel smallest :=
  { opened smallest .midi1ToMidi2 zeroRing with word := isNotReady, thread := .blocked 0 }

theorem readable_zeroRing {right : (receiver smallest.bytes).Control} :
    @InputRing.Readable smallest ⟨.idle [], right, ⟨zeroRing, [], 0⟩⟩ :=
  EmptyRing.inv (s := ⟨zeroRing, [], 0⟩) (by decide)

theorem asleep_reachable :
    (machine smallest).ReachableWith (fun s _ => s.ring.Readable) asleep := by
  have hopened : (machine smallest).ReachableWith (fun s _ => s.ring.Readable)
      (opened smallest .midi1ToMidi2 zeroRing) :=
    .init ⟨_, _, by decide, rfl⟩
  have hparams := hopened.step readable_zeroRing (.receive rfl)
  have hexchange := hparams.step readable_zeroRing (.receive rfl)
  have hrunning := hexchange.step readable_zeroRing (.receive rfl)
  have hpeeking := hrunning.step readable_zeroRing (.receive rfl)
  -- `PeekNext` loads both positions
  have hread := hpeeking.step readable_zeroRing (.ringAccess (.right .command))
  have hwrite := hread.step readable_zeroRing (.ringAccess (.right .command))
  have hwait := hwrite.step readable_zeroRing (.endCall rfl)
  exact hwait.step readable_zeroRing (.receive rfl)

end Asleep

section Played

def noteOn : MidiEventInner := .ofWords 7 [0x20903C64]

def noteOff : MidiEventInner := .ofWords 8 [0x20803C00]

/-- The server writes an event of one word into an empty ring and wakes the receiver thread. -/
def serverSends (event : MidiEventInner) : List Action :=
  .startWrite event :: List.replicate 17 .write ++ .endWrite :: List.replicate 3 .notify

/-- The receiver thread sleeps until it is woken for the first note, hands it on and sleeps again,
and takes the second note out of the ring. -/
def twoNotes : List Action :=
  List.replicate 8 .receive ++ serverSends noteOn ++ List.replicate 45 .receive ++
    serverSends noteOff ++ List.replicate 30 .receive

/-- The steps of a port from its opening, as long as its ring is readable. -/
def played (actions : List Action) : Option (InputChannel smallest) :=
  Machine.replay perform (fun s => s.ring.Readable) actions (opened smallest .midi1ToMidi2 zeroRing)

theorem played_reachable {actions : List Action} {s : InputChannel smallest}
    (h : played actions = some s) :
    (machine smallest).ReachableWith (fun s _ => s.ring.Readable) s := by
  have hopened : (machine smallest).ReachableWith (fun s _ => s.ring.Readable)
      (opened smallest .midi1ToMidi2 zeroRing) :=
    .init ⟨_, _, by decide, rfl⟩
  exact hopened.replay (fun _ _ _ h => ⟨_, step_of_perform h⟩) (fun _ _ => of_decide_eq_true) h

end Played

/-- The callback has got the first note, and the second one is under way. -/
theorem callback_keeps_order_twoNotes :
    ∃ s ∈ played twoNotes, s.calls.length = 1 ∧ s.batch = [noteOff.toMidiEvent] ∧
      ∃ done, s.ring.reader.taken = done ++ s.batch ∧
        s.calls.flatten = MidiInputPort.received s.direction done ∧
        s.ring.reader.taken <+: s.ring.published ∧
        ∀ l, s.ring.right = .idle l →
          s.ring.reader.taken =
            (s.ring.shared.appended.take s.ring.shared.removed).map Record.toMidiEvent := by
  have hplayed : (played twoNotes).any (fun s =>
      s.calls.length = 1 ∧ s.batch = [noteOff.toMidiEvent]) = true := by
    decide +kernel
  obtain ⟨s, hs, hhalfway⟩ := (Option.any_eq_true ..).mp hplayed
  obtain ⟨hcalls, hbatch⟩ := of_decide_eq_true hhalfway
  exact ⟨s, hs, hcalls, hbatch, callback_keeps_order (played_reachable hs).reachable⟩

/-- A wake of the receiver thread is still to come: the server is in a call or in `FutexWake`, or
`StopReceiverThread` has not yet called `FUTEX_WAKE`. -/
def WakePending (s : InputChannel capacity) : Prop :=
  (∃ accepted call rest, s.ring.left = .busy accepted call rest) ∨ s.notifier.away = false ∨
    s.stopper.away = false

/-- While the receiver thread is blocked and no wake is still to come, nothing was said to it. -/
theorem Attended.word_of_blocked (h : s.Attended) (hblocked : s.Blocked) (hpending : ¬s.WakePending) :
    s.word = isNotReady := by
  rw [WakePending, not_or, not_or, Bool.not_eq_false, Bool.not_eq_false] at hpending
  refine (h.blocked hblocked).resolve_right ?_
  rintro (hwakes | hwakes)
  · exact not_wakesNext_of_away hpending.2.1 hwakes
  · exact not_wakesNext_of_away hpending.2.2 hwakes

theorem Attended.runs_of_blocked (h : s.Attended) (hblocked : s.Blocked) (hpending : ¬s.WakePending) :
    s.running = true := by
  by_contra hstopped
  have hword := h.word_of_blocked hblocked hpending
  rw [WakePending, not_or, not_or, Bool.not_eq_false, Bool.not_eq_false] at hpending
  obtain happroaches | hexit := h.exits (Bool.eq_false_of_not_eq_true hstopped)
  · exact not_approaches_of_away hpending.2.2 happroaches
  · rw [hword] at hexit
    contradiction

/-- All that was published was there when the thread looked, and it took all of that. -/
theorem taken_of_blocked (reach : (machine capacity).ReachableWith (fun s _ => s.ring.Readable) s)
    (hblocked : s.Blocked) (hpending : ¬s.WakePending) :
    s.ring.reader.taken = s.ring.published := by
  have hattended := attended_of_reachable reach
  have hword := hattended.word_of_blocked hblocked hpending
  obtain ⟨n, hn⟩ := hblocked
  rw [WakePending, not_or, not_or, Bool.not_eq_false, Bool.not_eq_false] at hpending
  have hseen : s.ring.shared.appended.length ≤ s.ring.reader.seen := by
    obtain hseen | hwill | happroaches | hchanged := hattended.told (by rw [hn]; trivial)
    · exact hseen
    · obtain ⟨_, _, _, hbusy, -⟩ := hwill
      exact absurd ⟨_, _, _, hbusy⟩ hpending.1
    · exact absurd happroaches (not_approaches_of_away hpending.2.1)
    · exact absurd hword hchanged
  have hcaught := (caught_of_reachable reach).caught (by rw [hn]; trivial)
  refine (sound_of_reachable reach).ring.taken.eq_of_length_le ?_
  rw [InputRing.published, List.length_map]
  exact hseen.trans hcaught

/-- A blocked thread has handed all that was published to the callback. -/
theorem handed_of_blocked (reach : (machine capacity).ReachableWith (fun s _ => s.ring.Readable) s)
    (hblocked : s.Blocked) (hpending : ¬s.WakePending) :
    s.batch = [] ∧ s.calls.flatten = MidiInputPort.received s.direction s.ring.accepted := by
  have hsound := sound_of_reachable reach
  have htaken := taken_of_blocked reach hblocked hpending
  obtain ⟨n, hn⟩ := hblocked
  rw [WakePending, not_or] at hpending
  have hbatch : s.batch = [] := hsound.batch (by rw [hn]; exact id)
  obtain ⟨done, hdone, hcalls⟩ := hsound.handed
  rw [hbatch, List.append_nil] at hdone
  refine ⟨hbatch, ?_⟩
  rw [hcalls, ← hdone, htaken, hsound.ring.published_idle hpending.1]

/-- While the receiver thread is blocked and no wake is still to come, the port runs and the callback
has got everything that the server reported as written. -/
theorem nothing_stuck (reach : (machine capacity).ReachableWith (fun s _ => s.ring.Readable) s)
    (hblocked : s.Blocked) (hpending : ¬s.WakePending) :
    s.running = true ∧ s.batch = [] ∧
      s.calls.flatten = MidiInputPort.received s.direction s.ring.accepted :=
  ⟨(attended_of_reachable reach).runs_of_blocked hblocked hpending,
    handed_of_blocked reach hblocked hpending⟩

/-- The receiver thread is blocked and no wake is still to come. -/
def AtRest (s : InputChannel capacity) : Bool :=
  match s.thread, s.ring.left with
  | .blocked _, .idle _ => s.notifier.away && s.stopper.away
  | _, _ => false

theorem blocked_of_atRest (h : s.AtRest = true) : s.Blocked ∧ ¬s.WakePending := by
  unfold AtRest at h
  split at h
  · next n accepted hthread hleft =>
      obtain ⟨hnotifier, hstopper⟩ := Bool.and_eq_true_iff.mp h
      refine ⟨⟨n, hthread⟩, ?_⟩
      rintro (⟨_, _, _, hbusy⟩ | hwakes | hstops)
      · rw [hleft] at hbusy
        contradiction
      · rw [hnotifier] at hwakes
        contradiction
      · rw [hstopper] at hstops
        contradiction
  · contradiction

/-- Both notes were handed to the callback, and the thread sleeps again. -/
theorem nothing_stuck_twoNotes :
    ∃ s ∈ played (twoNotes ++ List.replicate 15 .receive),
      s.ring.accepted = [noteOn.toMidiEvent, noteOff.toMidiEvent] ∧ s.running = true ∧
        s.batch = [] ∧ s.calls.flatten = MidiInputPort.received s.direction s.ring.accepted := by
  have hplayed : (played (twoNotes ++ List.replicate 15 .receive)).any (fun s =>
      s.AtRest ∧ s.ring.accepted = [noteOn.toMidiEvent, noteOff.toMidiEvent]) = true := by
    decide +kernel
  obtain ⟨s, hs, hdelivered⟩ := (Option.any_eq_true ..).mp hplayed
  obtain ⟨hrest, haccepted⟩ := of_decide_eq_true hdelivered
  obtain ⟨hblocked, hpending⟩ := blocked_of_atRest hrest
  exact ⟨s, hs, haccepted, nothing_stuck (played_reachable hs) hblocked hpending⟩

end InputChannel

end MidiFramework.Client
