import MidiFramework.Server.OutputConservation

/-!
# Scheduled events with the same timestamp

The queue of scheduled events looks at due times only. While no two events with
the same timestamp are due in the queue of one client, the driver gets the
client's events of each timestamp in the order in which the client published them.
Four events of a chord that are due together come out of the standard heap in
another order.
-/

namespace MidiFramework.Server

open Foundation PriorityQueue SharedRing

namespace OutputConnection

variable {Q : PendingQueue}

/-- No two events with a payload and the same timestamp are due in the queue. -/
def NoTies (now : Int) (pending : Q.Queue) : Prop :=
  (((Q.elements pending).filter fun e => e.data ≠ [] ∧ e.due ≤ now).map
    PendingEvent.timestamp).Nodup

/-- Where the worker collects, no client's queue has due events with the same timestamp. -/
def CollectsApart (s : OutputConnection Q) : Prop :=
  ∀ now, s.phase = .collecting now → ∀ c ∈ s.clients, NoTies now c.pending

/-- The driver got the client's events of each timestamp in the order in which the client published
them. -/
def HandedInOrder (s : OutputConnection Q) : Prop :=
  ∀ i c, s.clients[i]? = some c → ∀ timestamp,
    Flow.ofTime timestamp (sentBy i s.sender.handed.flatten) <+:
      Flow.ofTime timestamp c.ring.published

variable {s : OutputConnection Q} {i : Nat} {c : OutputClient Q}

theorem distinct_of_collectsApart (h : s.CollectsApart) (hfound : s.clients[i]? = some c) :
    (s.flowOf i c).Distinct s.Due := by
  rintro event rest hwaiting hpayload ⟨now, hphase, hdue⟩ e he hpayload' hsame
  have hnodup := h now hphase c (List.mem_of_getElem? hfound)
  -- the condition on the queue, said of the events that wait
  have hevents : ((Q.elements c.pending).filter fun e => e.data ≠ [] ∧ e.due ≤ now).map
      PendingEvent.timestamp =
      (c.waiting.filter fun e => HasPayload e ∧ dueTime e.timestamp ≤ now).map
        MidiEvent.timestamp := by
    rw [OutputClient.waiting, Multiset.filter_map, Multiset.map_map]
    refine congrArg (Multiset.map PendingEvent.timestamp) (Multiset.filter_congr fun e _ => ?_)
    exact and_congr_right fun _ => e.timed ▸ Iff.rfl
  change c.waiting = event ::ₘ rest at hwaiting
  rw [NoTies, hevents, hwaiting, Multiset.filter_cons_of_pos
    (p := fun e => HasPayload e ∧ dueTime e.timestamp ≤ now) _ ⟨hpayload, hdue⟩, Multiset.map_cons,
    Multiset.nodup_cons] at hnodup
  refine hnodup.1 (Multiset.mem_map.mpr ⟨e, Multiset.mem_filter.mpr ⟨he, hpayload', ?_⟩, hsame⟩)
  exact hsame ▸ hdue

theorem inOrder_of_reachable (reach : (machine Q).ReachableWith (fun s _ => s.CollectsApart) s)
    (hfound : s.clients[i]? = some c) : (s.flowOf i c).InOrder := by
  refine flow_invariant Flow.InOrder Flow.inOrder_start ?_ reach hfound
  intro s a i c f reach hapart hfound horder hstep
  exact horder.step (accounted_of_reachable reach hfound)
    (distinct_of_collectsApart hapart hfound) hstep

/-- While the condition is met, the driver gets the events of each timestamp in order. -/
theorem handedInOrder_of_collectsApart (Q : PendingQueue) (s : OutputConnection Q)
    (reach : (machine Q).ReachableWith (fun s _ => s.CollectsApart) s) : s.HandedInOrder := by
  intro i c hfound timestamp
  have hsent := inOrder_of_reachable reach hfound timestamp
  change Flow.ofTime timestamp (sentBy i s.sender.contents) <+:
    Flow.ofTime timestamp c.ring.taken at hsent
  rw [sentBy_contents, Flow.ofTime_append] at hsent
  have htaken := ((sound_of_reachable reach).client i c hfound).taken_published
  exact (List.prefix_append _ _).trans (hsent.trans (htaken.filter _))

/-- No two events with a payload and the same timestamp are in one client's queue. -/
def AllApart (pendings : List binaryPendingQueue.Queue) : Prop :=
  ∀ q ∈ pendings, (((binaryPendingQueue.elements q).filter fun e => e.data ≠ []).map
    PendingEvent.timestamp).Nodup

instance : DecidablePred AllApart := fun _ => inferInstanceAs (Decidable (∀ q ∈ _, _))

theorem collectsApart_of_allApart {s : OutputConnection binaryPendingQueue}
    (h : AllApart s.pendings) : s.CollectsApart := by
  intro now _ c hc
  have hnodup := h c.pending (List.mem_map_of_mem hc)
  refine Multiset.nodup_of_le (Multiset.map_le_map ?_) hnodup
  exact Multiset.monotone_filter_right _ fun e he => he.1

/-- A wakeup with three due events of different times and two without a timestamp. -/
theorem handedInOrder_wakeup :
    ∃ s : OutputConnection binaryPendingQueue,
      s.sender.handed.flatten.map OutputEvent.event =
        [⟨0, [2]⟩, ⟨0, [4]⟩, ⟨7, [3]⟩, ⟨8, [5]⟩, ⟨9, [1]⟩] ∧ s.HandedInOrder :=
  have hreach := reachable_afterWakeup AllApart 10 (by decide)
    [⟨9, [1]⟩, ⟨0, [2]⟩, ⟨7, [3]⟩, ⟨0, [4]⟩, ⟨8, [5]⟩] 3
  ⟨_, by decide +kernel, handedInOrder_of_collectsApart binaryPendingQueue _
    (hreach.mono fun _ _ => collectsApart_of_allApart)⟩

/-- One client has written four events for the same time, and one wakeup handled them. -/
def chord : OutputConnection binaryPendingQueue :=
  afterWakeup (fun _ => True) 10 [⟨7, [1]⟩, ⟨7, [2]⟩, ⟨7, [3]⟩, ⟨7, [4]⟩] 4

/-- When the first of four events with the same timestamp is taken out, the third goes up to the
root of the heap. -/
theorem chord_out_of_order :
    (machine binaryPendingQueue).Reachable chord ∧
      chord.sender.handed.flatten.map OutputEvent.event =
        [⟨7, [1]⟩, ⟨7, [3]⟩, ⟨7, [2]⟩, ⟨7, [4]⟩] ∧
      (∀ c ∈ chord.clients, c.ring.published = [⟨7, [1]⟩, ⟨7, [2]⟩, ⟨7, [3]⟩, ⟨7, [4]⟩]) ∧
      ¬ chord.HandedInOrder := by
  have hpublished : ∀ c ∈ chord.clients,
      c.ring.published = [⟨7, [1]⟩, ⟨7, [2]⟩, ⟨7, [3]⟩, ⟨7, [4]⟩] := by
    decide +kernel
  have hhanded : sentBy 0 chord.sender.handed.flatten =
      [⟨7, [1]⟩, ⟨7, [3]⟩, ⟨7, [2]⟩, ⟨7, [4]⟩] := by
    decide +kernel
  refine ⟨reachable_afterWakeup (fun _ => True) 10 (by decide) _ 4, by decide +kernel, hpublished,
    fun horder => ?_⟩
  have hlength : 0 < chord.clients.length := by decide +kernel
  have hfound := List.getElem?_eq_getElem hlength
  have hprefix := horder 0 _ hfound 7
  rw [hhanded, hpublished _ (List.getElem_mem hlength)] at hprefix
  exact absurd hprefix (by decide)

end OutputConnection

end MidiFramework.Server
