import Mathlib.Data.List.Basic
import MidiFramework.SharedRing.Basic

/-!
# The send cache of an output connection

`TryAppendToSendCache` copies an event into the cache as long as the cache stays
within its limit, and `FlushSendCacheToDriver` hands the whole cache to the
driver. Both users of the cache flush it when it is full and try again. An event
with a payload that the cache could hold is then never lost, and the driver gets
the events in the order they were appended.

## Implementation notes

The connection has a driver: the manager makes none without. A cached event
points to its payload, so it keeps the place of its buffer, and the driver reads
through it. `SendToDriver` does nothing; the model records its arguments to say
when it is reached. Each event also carries the place of its client in
`clients_`, which no function looks at.
-/

namespace MidiFramework.Server

open SharedRing

/-- An event with the client it comes from. -/
structure OutputEvent where
  client : Nat
  event : MidiEvent
  deriving DecidableEq

/-- An entry of `sendCache_`. -/
structure CachedEvent where
  client : Nat
  timestamp : UInt64
  length : Nat
  data : Nat
  deriving DecidableEq

/-- What is read through the pointer of a cached event. -/
def CachedEvent.read (buffers : List (List UInt32)) (e : CachedEvent) : OutputEvent :=
  ⟨e.client, e.timestamp, (buffers[e.data]?.getD []).take e.length⟩

/-- The send cache with what the driver got through `HandleUmpInput`, call by call, and what
`SendToDriver` was called with. -/
structure OutputSender (maxSendCacheBytes : Nat) where
  sendCache : List CachedEvent
  sendCachePayloadBuffers : List (List UInt32)
  currentSendCacheBytes : Nat
  handed : List (List OutputEvent)
  unsent : List OutputEvent
  stored : ∀ e ∈ sendCache, e.data < sendCachePayloadBuffers.length
  counted : currentSendCacheBytes = (sendCache.map fun e => e.length * 4).sum
  limited : currentSendCacheBytes ≤ maxSendCacheBytes

namespace OutputSender

variable {maxBytes : Nat}

/-- Nothing cached and nothing sent. -/
def empty (maxBytes : Nat) : OutputSender maxBytes where
  sendCache := []
  sendCachePayloadBuffers := []
  currentSendCacheBytes := 0
  handed := []
  unsent := []
  stored := by simp
  counted := rfl
  limited := Nat.zero_le _

/-- The events of the cache as the driver would read them. -/
def cached (s : OutputSender maxBytes) : List OutputEvent :=
  s.sendCache.map fun e => e.read s.sendCachePayloadBuffers

/-- What was handed to the driver and, after it, what is in the cache. -/
def contents (s : OutputSender maxBytes) : List OutputEvent := s.handed.flatten ++ s.cached

/-- The end of `TryAppendToSendCache`, where the payload fits. -/
def append (s : OutputSender maxBytes) (event : OutputEvent)
    (fits : s.currentSendCacheBytes + event.event.words.length * 4 ≤ maxBytes) :
    OutputSender maxBytes where
  sendCache := s.sendCache ++ [⟨event.client, event.event.timestamp, event.event.words.length,
    s.sendCachePayloadBuffers.length⟩]
  sendCachePayloadBuffers := s.sendCachePayloadBuffers ++ [event.event.words]
  currentSendCacheBytes := s.currentSendCacheBytes + event.event.words.length * 4
  handed := s.handed
  unsent := s.unsent
  stored := by
    intro e he
    rw [List.length_append, List.length_singleton]
    cases List.mem_append.mp he with
    | inl hold => exact Nat.lt_succ_of_lt (s.stored e hold)
    | inr hnew =>
        rw [List.mem_singleton.mp hnew]
        exact Nat.lt_succ_self _
  counted := by
    rw [List.map_append, List.sum_append, ← s.counted]
    rfl
  limited := fits

/-- `none` is the answer `false`. -/
def tryAppendToSendCache (s : OutputSender maxBytes) (event : OutputEvent) :
    Option (OutputSender maxBytes) :=
  let payloadBytes := event.event.words.length * 4
  if event.event.words.length = 0 then some s
  else if payloadBytes > maxBytes then none
  else if h : s.currentSendCacheBytes + payloadBytes > maxBytes then none
  else some (s.append event (Nat.not_lt.mp h))

def flushSendCacheToDriver (s : OutputSender maxBytes) : OutputSender maxBytes :=
  if s.sendCache.isEmpty then s
  else { empty maxBytes with handed := s.handed ++ [s.cached], unsent := s.unsent }

def sendToDriver (s : OutputSender maxBytes) (event : OutputEvent) : OutputSender maxBytes :=
  { s with unsent := s.unsent ++ [event] }

/-- What `ConsumeRealtimeEvent` and `CollectDueEventsFromClientHeaps` do with an event, and
whether they had to flush the cache for it. -/
def forward (s : OutputSender maxBytes) (event : OutputEvent) : OutputSender maxBytes × Bool :=
  match s.tryAppendToSendCache event with
  | some appended => (appended, false)
  | none =>
      let flushed := s.flushSendCacheToDriver
      match flushed.tryAppendToSendCache event with
      | some appended => (appended, true)
      | none => (flushed.sendToDriver event, true)

/-- The event has a payload, and the cache could hold it. -/
def Sendable (maxBytes : Nat) (event : OutputEvent) : Prop :=
  event.event.words ≠ [] ∧ event.event.words.length * 4 ≤ maxBytes

instance (maxBytes : Nat) (event : OutputEvent) : Decidable (Sendable maxBytes event) :=
  inferInstanceAs (Decidable (_ ∧ _))

section Contents

variable {s t : OutputSender maxBytes} {event : OutputEvent}

/-- The entries keep their payloads while the buffers grow. -/
theorem read_append (s : OutputSender maxBytes) (words : List UInt32) {e : CachedEvent}
    (he : e ∈ s.sendCache) :
    e.read (s.sendCachePayloadBuffers ++ [words]) = e.read s.sendCachePayloadBuffers := by
  rw [CachedEvent.read, CachedEvent.read, List.getElem?_append_left (s.stored e he)]

theorem cached_append (fits : s.currentSendCacheBytes + event.event.words.length * 4 ≤ maxBytes) :
    (s.append event fits).cached = s.cached ++ [event] := by
  have hold : s.sendCache.map (fun e => e.read (s.sendCachePayloadBuffers ++ [event.event.words])) =
      s.cached :=
    List.map_congr_left fun e he => s.read_append event.event.words he
  have hnew : CachedEvent.read (s.sendCachePayloadBuffers ++ [event.event.words])
      ⟨event.client, event.event.timestamp, event.event.words.length,
        s.sendCachePayloadBuffers.length⟩ = event := by
    rw [CachedEvent.read, List.getElem?_concat_length, Option.getD_some, List.take_length]
  change List.map _ (_ ++ [_]) = _
  rw [List.map_append, List.map_singleton]
  exact congrArg₂ (fun old new => old ++ [new]) hold hnew

theorem contents_append (fits : s.currentSendCacheBytes + event.event.words.length * 4 ≤ maxBytes) :
    (s.append event fits).contents = s.contents ++ [event] := by
  rw [contents, cached_append, ← List.append_assoc]
  rfl

/-- Flushing moves events and keeps their order. -/
theorem contents_flush (s : OutputSender maxBytes) :
    s.flushSendCacheToDriver.contents = s.contents := by
  unfold flushSendCacheToDriver
  split
  · rfl
  · change (s.handed ++ [s.cached]).flatten ++ [] = s.contents
    rw [List.append_nil, List.flatten_append, List.flatten_singleton]
    rfl

theorem cached_flush (s : OutputSender maxBytes) : s.flushSendCacheToDriver.cached = [] := by
  unfold flushSendCacheToDriver
  split
  · next h => rw [cached, List.isEmpty_iff.mp h, List.map_nil]
  · rfl

theorem bytes_flush (s : OutputSender maxBytes) :
    s.flushSendCacheToDriver.currentSendCacheBytes = 0 := by
  unfold flushSendCacheToDriver
  split
  · next h => rw [s.counted, List.isEmpty_iff.mp h, List.map_nil, List.sum_nil]
  · rfl

theorem unsent_flush (s : OutputSender maxBytes) :
    s.flushSendCacheToDriver.unsent = s.unsent := by
  unfold flushSendCacheToDriver
  split <;> rfl

/-- What an event adds to the contents. -/
def added (maxBytes : Nat) (event : OutputEvent) : List OutputEvent :=
  if Sendable maxBytes event then [event] else []

/-- Where the append succeeds, the event is in the cache if it has a payload. -/
theorem contents_of_tryAppend (h : s.tryAppendToSendCache event = some t) :
    t.contents = s.contents ++ added maxBytes event ∧ t.unsent = s.unsent := by
  unfold tryAppendToSendCache at h
  dsimp only at h
  split at h
  · next hnil =>
      cases h
      have hnot : ¬ Sendable maxBytes event := fun hs => hs.1 (List.length_eq_zero_iff.mp hnil)
      rw [added, if_neg hnot, List.append_nil]
      exact ⟨rfl, rfl⟩
  split at h
  · cases h
  split at h
  · cases h
  next hwords hlarge hfull =>
    cases h
    have hsendable : Sendable maxBytes event :=
      ⟨fun hnil => hwords (List.length_eq_zero_iff.mpr hnil), Nat.not_lt.mp hlarge⟩
    rw [added, if_pos hsendable]
    exact ⟨contents_append _, rfl⟩

/-- An empty cache takes every event that it could hold. -/
theorem tryAppend_eq_none (hempty : s.currentSendCacheBytes = 0)
    (h : s.tryAppendToSendCache event = none) : maxBytes < event.event.words.length * 4 := by
  unfold tryAppendToSendCache at h
  dsimp only at h
  split at h
  · cases h
  split at h
  · next hlarge => exact hlarge
  split at h
  · next hfull => rwa [hempty, Nat.zero_add] at hfull
  · cases h

/-- An event goes behind the others, unless it has no payload or the cache could not hold it. -/
theorem contents_forward (s : OutputSender maxBytes) (event : OutputEvent) :
    (s.forward event).1.contents = s.contents ++ added maxBytes event := by
  unfold forward
  split
  · next h => exact (contents_of_tryAppend h).1
  dsimp only
  split
  · next h => rw [(contents_of_tryAppend h).1, contents_flush]
  · next h =>
      have hlarge := tryAppend_eq_none s.bytes_flush h
      have hnot : ¬ Sendable maxBytes event := fun hs => absurd hs.2 (Nat.not_le.mpr hlarge)
      rw [added, if_neg hnot, List.append_nil]
      exact s.contents_flush

/-- `SendToDriver` is not reached with an event that the cache could hold. -/
theorem unsent_forward (s : OutputSender maxBytes)
    (hfits : event.event.words.length * 4 ≤ maxBytes) :
    (s.forward event).1.unsent = s.unsent := by
  unfold forward
  split
  · next h => exact (contents_of_tryAppend h).2
  dsimp only
  split
  · next h => rw [(contents_of_tryAppend h).2, unsent_flush]
  · next h => exact absurd hfits (Nat.not_le.mpr (tryAppend_eq_none s.bytes_flush h))

end Contents

end OutputSender

end MidiFramework.Server
