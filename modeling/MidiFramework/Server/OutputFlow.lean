import Mathlib.Data.List.Infix
import Mathlib.Data.Multiset.AddSub
import Mathlib.Data.Multiset.Filter
import MidiFramework.SharedRing.Basic

/-!
# How the events of one client flow to the driver

Seen from one client, the worker takes events, lets those with a timestamp wait,
and sends on those without a timestamp and those that are due. Whatever it does
in between, nothing is lost or sent twice. Events without a timestamp keep their
order; events with the same timestamp keep theirs if none of them is sent on while
another of them waits.
-/

namespace MidiFramework.Server

open SharedRing

/-- The event has a payload. -/
def HasPayload (event : MidiEvent) : Prop := event.words ≠ []

instance : DecidablePred HasPayload := fun _ => inferInstanceAs (Decidable (_ ≠ _))

/-- The events that were taken, those that wait, and those that were sent on. -/
structure Flow where
  taken : List MidiEvent
  waiting : Multiset MidiEvent
  sent : List MidiEvent

namespace Flow

/-- What goes on of an event. -/
def onward (event : MidiEvent) : List MidiEvent := [event].filter HasPayload

/-- Nothing happens to the events of the client; an event without a timestamp passes; a scheduled
event begins to wait; an event that waits and is due is sent on. -/
inductive Step (due : UInt64 → Prop) : Flow → Flow → Prop
  | stay (f) : Step due f f
  | pass {taken waiting sent} (event : MidiEvent) (untimed : event.timestamp = 0) :
      Step due ⟨taken, waiting, sent⟩ ⟨taken ++ [event], waiting, sent ++ onward event⟩
  | queue {taken waiting sent} (event : MidiEvent) (timed : event.timestamp ≠ 0) :
      Step due ⟨taken, waiting, sent⟩ ⟨taken ++ [event], event ::ₘ waiting, sent⟩
  | deliver {taken waiting sent} (event : MidiEvent) (isDue : due event.timestamp) :
      Step due ⟨taken, event ::ₘ waiting, sent⟩ ⟨taken, waiting, sent ++ onward event⟩

/-- Nothing was taken. -/
def start : Flow := ⟨[], 0, []⟩

/-- The events of the list with a payload and the timestamp. -/
def ofTime (timestamp : UInt64) (events : List MidiEvent) : List MidiEvent :=
  events.filter fun e => HasPayload e ∧ e.timestamp = timestamp

theorem ofTime_append (timestamp : UInt64) (xs ys : List MidiEvent) :
    ofTime timestamp (xs ++ ys) = ofTime timestamp xs ++ ofTime timestamp ys := List.filter_append _ _

theorem ofTime_onward (timestamp : UInt64) (event : MidiEvent) :
    ofTime timestamp (onward event) = ofTime timestamp [event] := by
  rw [ofTime, onward, List.filter_filter, ofTime]
  refine List.filter_congr fun e _ => ?_
  by_cases hpayload : HasPayload e
  · rw [decide_eq_true hpayload, Bool.and_true]
  · rw [decide_eq_false fun h => hpayload h.1, Bool.false_and]

theorem ofTime_singleton_ne {timestamp : UInt64} {event : MidiEvent} (hne : event.timestamp ≠ timestamp) :
    ofTime timestamp [event] = [] := by
  rw [ofTime, List.filter_cons_of_neg, List.filter_nil]
  exact fun h => hne (of_decide_eq_true h).2

/-- Each event with a payload that was taken waits or was sent on, and those without a timestamp
were sent on in order. -/
structure Accounted (f : Flow) : Prop where
  timed : ∀ e ∈ f.waiting, e.timestamp ≠ 0
  accounts : (f.taken.filter HasPayload : Multiset MidiEvent) =
    f.waiting.filter HasPayload + (f.sent : Multiset MidiEvent)
  untimed : ofTime 0 f.sent = ofTime 0 f.taken

theorem accounted_start : start.Accounted := ⟨by simp [start], rfl, rfl⟩

variable {due : UInt64 → Prop}

theorem Accounted.step {f g : Flow} (h : f.Accounted) (hstep : Step due f g) : g.Accounted := by
  cases hstep with
  | stay => exact h
  | @pass taken waiting sent event untimed =>
      have haccounts := h.accounts
      have huntimed := h.untimed
      refine ⟨h.timed, ?_, ?_⟩
      · change (((taken ++ [event]).filter HasPayload : List MidiEvent) : Multiset MidiEvent) =
          waiting.filter HasPayload + (sent ++ onward event : List MidiEvent)
        rw [List.filter_append, ← Multiset.coe_add, ← Multiset.coe_add, haccounts]
        exact Multiset.add_assoc _ _ _
      · change ofTime 0 (sent ++ onward event) = ofTime 0 (taken ++ [event])
        rw [ofTime_append, ofTime_append, ofTime_onward, huntimed]
  | @queue taken waiting sent event timed =>
      have haccounts := h.accounts
      have huntimed := h.untimed
      refine ⟨fun e he => ?_, ?_, ?_⟩
      · cases Multiset.mem_cons.mp he with
        | inl heq => exact heq ▸ timed
        | inr hold => exact h.timed e hold
      · change (((taken ++ [event]).filter HasPayload : List MidiEvent) : Multiset MidiEvent) =
          (event ::ₘ waiting).filter HasPayload + (sent : Multiset MidiEvent)
        rw [List.filter_append, ← Multiset.coe_add, haccounts, ← Multiset.singleton_add,
          Multiset.filter_add]
        exact (Multiset.add_comm _ _).trans (Multiset.add_assoc _ _ _).symm
      · change ofTime 0 sent = ofTime 0 (taken ++ [event])
        rw [ofTime_append, ofTime_singleton_ne timed, List.append_nil]
        exact huntimed
  | @deliver taken waiting sent event isDue =>
      have haccounts := h.accounts
      have huntimed := h.untimed
      refine ⟨fun e he => h.timed e (Multiset.mem_cons_of_mem he), ?_, ?_⟩
      · change ((taken.filter HasPayload : List MidiEvent) : Multiset MidiEvent) =
          waiting.filter HasPayload + (sent ++ onward event : List MidiEvent)
        rw [haccounts, ← Multiset.coe_add, ← Multiset.singleton_add, Multiset.filter_add,
          Multiset.add_assoc, Multiset.add_comm, Multiset.add_assoc]
        rfl
      · change ofTime 0 (sent ++ onward event) = ofTime 0 taken
        rw [ofTime_append, ofTime_onward, ofTime_singleton_ne (h.timed event (Multiset.mem_cons_self _ _)),
          List.append_nil]
        exact huntimed

/-- While an event with a payload is due, no other with a payload and its timestamp waits. -/
def Distinct (due : UInt64 → Prop) (f : Flow) : Prop :=
  ∀ event rest, f.waiting = event ::ₘ rest → HasPayload event → due event.timestamp →
    ∀ e ∈ rest, HasPayload e → e.timestamp ≠ event.timestamp

/-- The events with the same timestamp were sent on in the order in which they were taken. -/
def InOrder (f : Flow) : Prop := ∀ timestamp, ofTime timestamp f.sent <+: ofTime timestamp f.taken

theorem inOrder_start : start.InOrder := fun _ => List.nil_prefix

/-- The taken events with a timestamp wait or were sent on. -/
theorem Accounted.accounts_ofTime {f : Flow} (h : f.Accounted) (timestamp : UInt64) :
    (ofTime timestamp f.taken : Multiset MidiEvent) =
      f.waiting.filter (fun e => HasPayload e ∧ e.timestamp = timestamp) +
        (ofTime timestamp f.sent : Multiset MidiEvent) := by
  have hselect : ∀ events : Multiset MidiEvent,
      (events.filter HasPayload).filter (fun e => HasPayload e ∧ e.timestamp = timestamp) =
        events.filter fun e => HasPayload e ∧ e.timestamp = timestamp := by
    intro events
    rw [Multiset.filter_filter]
    exact Multiset.filter_congr fun e _ => ⟨fun h => h.1, fun h => ⟨h, h.1⟩⟩
  have hall := congrArg
    (Multiset.filter fun e => HasPayload e ∧ e.timestamp = timestamp) h.accounts
  rw [Multiset.filter_add, hselect] at hall
  exact (hselect f.taken).symm.trans hall

/-- If the event that is sent on is the only one with its timestamp that waits, it is the next of
those that were taken. -/
theorem inOrder_deliver {taken : List MidiEvent} {waiting : Multiset MidiEvent}
    {sent : List MidiEvent} {event : MidiEvent} (h : Accounted ⟨taken, event ::ₘ waiting, sent⟩)
    (honly : HasPayload event → ∀ e ∈ waiting, HasPayload e → e.timestamp ≠ event.timestamp)
    (horder : InOrder ⟨taken, event ::ₘ waiting, sent⟩) :
    InOrder ⟨taken, waiting, sent ++ onward event⟩ := by
  intro timestamp
  change ofTime timestamp (sent ++ onward event) <+: ofTime timestamp taken
  rw [ofTime_append, ofTime_onward]
  by_cases hevent : HasPayload event ∧ event.timestamp = timestamp
  swap
  · rw [ofTime, ofTime, List.filter_cons_of_neg (by simpa using hevent), List.filter_nil, List.append_nil]
    exact horder timestamp
  obtain ⟨hpayload, rfl⟩ := hevent
  obtain ⟨rest, hrest⟩ := horder event.timestamp
  change ofTime event.timestamp sent ++ rest = ofTime event.timestamp taken at hrest
  have hmine : ofTime event.timestamp [event] = [event] :=
    List.filter_eq_self.mpr (by simpa using hpayload)
  have hwaiting : (event ::ₘ waiting).filter
      (fun e => HasPayload e ∧ e.timestamp = event.timestamp) = {event} := by
    rw [Multiset.filter_cons_of_pos (p := fun e => HasPayload e ∧ e.timestamp = event.timestamp) _
      ⟨hpayload, rfl⟩]
    exact congrArg _ (Multiset.filter_eq_nil.mpr fun e he hsame => honly hpayload e he hsame.1 hsame.2)
  -- what was taken after the events sent on is the one event that waits
  have hsame : (rest : Multiset MidiEvent) = {event} := by
    have hall := h.accounts_ofTime event.timestamp
    change (ofTime event.timestamp taken : Multiset MidiEvent) =
      (event ::ₘ waiting).filter _ + (ofTime event.timestamp sent : Multiset MidiEvent) at hall
    rw [← hrest, hwaiting, ← Multiset.coe_add, Multiset.add_comm] at hall
    exact Multiset.add_left_inj.mp hall
  rw [hmine, ← hrest, Multiset.coe_eq_singleton.mp hsame]

theorem InOrder.step {f g : Flow} (horder : f.InOrder) (h : f.Accounted) (hdistinct : f.Distinct due)
    (hstep : Step due f g) : g.InOrder := by
  have hnext := h.step hstep
  cases hstep with
  | stay => exact horder
  | @pass taken waiting sent event untimed =>
      intro timestamp
      by_cases hzero : timestamp = 0
      · rw [hzero, hnext.untimed]
      change ofTime timestamp (sent ++ onward event) <+: ofTime timestamp (taken ++ [event])
      rw [ofTime_append, ofTime_append, ofTime_onward, ofTime_singleton_ne fun h => hzero (h.symm.trans untimed),
        List.append_nil, List.append_nil]
      exact horder timestamp
  | @queue taken waiting sent event timed =>
      intro timestamp
      change ofTime timestamp sent <+: ofTime timestamp (taken ++ [event])
      rw [ofTime_append]
      exact (horder timestamp).trans (List.prefix_append _ _)
  | @deliver taken waiting sent event isDue =>
      exact inOrder_deliver h (fun hpayload => hdistinct event waiting rfl hpayload isDue) horder

end Flow

end MidiFramework.Server
