import MidiFramework.Foundation.Threads
import MidiFramework.Server.ClientRegistry

/-!
# Unloading the unused service

`DestroyMidiClient` starts the unload timer in a second locked section, when
it finds no clients there; `CreateMidiInServer` cancels the timer before it
knows whether it will succeed. The timer ends on its own between sections.
-/

namespace MidiFramework.Server

open Foundation
open MidiServiceController (openingManager)

/-- The controller, how many clients were destroyed, and how often the timer had ended when the
last client went. -/
structure Unloading (M : Type) where
  controller : MidiServiceController M
  destroyed : Nat := 0
  emptiedAt : Nat := 0

namespace UnloadTask

theorem waiting_cancelUnloadTask {u : UnloadTask} (h : u.waiting = true → u.isUnloadPending = true) :
    u.cancelUnloadTask.waiting = false := by
  unfold cancelUnloadTask
  split
  · rfl
  · next hpending => exact Bool.eq_false_iff.mpr fun hwaiting => hpending (h hwaiting)

theorem unloads_cancelUnloadTask (u : UnloadTask) : u.cancelUnloadTask.unloads = u.unloads := by
  unfold cancelUnloadTask
  split <;> rfl

end UnloadTask

namespace Unloading

variable {M : Type} (api : DeviceManager M) {u v : Unloading M}
  {ts : Multiset (ControllerOp M)}

/-- The section of a task. A client that is destroyed leaves the second section of
`DestroyMidiClient` to do. -/
def run (op : ControllerOp M) (u : Unloading M) : Unloading M × List (ControllerOp M) :=
  let controller := op.run api u.controller
  match op with
  | .destroyMidiClient c =>
      if c ∉ u.controller.clients then ({ u with controller := controller }, [])
      else
        ({ controller := controller
           destroyed := u.destroyed + 1
           emptiedAt :=
             if controller.clients.keys.isEmpty then controller.unload.unloads else u.emptiedAt },
          [.finishDestroyMidiClient])
  | _ => ({ u with controller := controller }, [])

/-- Whether a thread may start with the section. -/
def external : ControllerOp M → Bool
  | .finishDestroyMidiClient => false
  | _ => true

/-- Between sections the timer ends, and what the controller does not lock changes. -/
inductive Environment (u : Unloading M) : Unloading M → Prop
  | expire : Environment u
      { u with controller := { u.controller with unload := u.controller.unload.expire } }
  | unlocked {c : MidiServiceController M} (h : Unlocked u.controller c) :
      Environment u { u with controller := c }

/-- The controller with all its callers and the timer. -/
def sections : Sections (Unloading M) (ControllerOp M) where
  init := fun u => ∃ m, u = { controller := { deviceManager := m } }
  starts := fun op => external op
  environment := Environment
  run := run api

/-- The timer waits. -/
def Pending (u : Unloading M) : Prop := u.controller.unload.waiting = true

/-- The timer has ended since the last client went. -/
def Fired (u : Unloading M) : Prop := u.emptiedAt < u.controller.unload.unloads

def Unused (u : Unloading M) : Prop := u.controller.clients.keys.isEmpty

/-- No client is refused for want of a death recipient while the timer waits and there are no
clients. -/
def KeepsTimer (u : Unloading M) (_ : Multiset (ControllerOp M)) : ControllerOp M → Prop
  | .createMidiInServer _ _ _ added => added = true ∨ ¬(u.Unused ∧ u.Pending)
  | _ => True

/-- The state of the timer, with the second sections of destructions still to come. -/
structure Timed (u : Unloading M) (ts : Multiset (ControllerOp M)) : Prop where
  enrolled : u.controller.Enrolled
  pending : u.controller.unload.waiting = true → u.controller.unload.isUnloadPending = true
  emptiedAt : u.emptiedAt ≤ u.controller.unload.unloads
  unused : u.Unused → u.destroyed = 0 ∨ .finishDestroyMidiClient ∈ ts ∨ u.Pending ∨ u.Fired
  used : ¬u.Unused → ¬u.Pending

/-- A task that is not the second section of a destruction. -/
theorem Timed.tail {op : ControllerOp M} (h : Timed u (op ::ₘ ts))
    (hop : op ≠ .finishDestroyMidiClient) : Timed u ts where
  enrolled := h.enrolled
  pending := h.pending
  emptiedAt := h.emptiedAt
  unused := by
    intro hunused
    rcases h.unused hunused with hnone | hmem | htimer
    · exact Or.inl hnone
    · exact Or.inr (Or.inl ((Multiset.mem_cons.mp hmem).resolve_left hop.symm))
    · exact Or.inr (Or.inr htimer)
  used := h.used

/-- What leaves the clients and the timer alone. -/
theorem Timed.same (h : Timed u ts) {c : MidiServiceController M}
    (hsame : u.controller.SameClients c) : Timed { u with controller := c } ts where
  enrolled := h.enrolled.same u.controller.unload hsame
  pending := by
    rw [hsame.unload]
    exact h.pending
  emptiedAt := by
    rw [hsame.unload]
    exact h.emptiedAt
  unused := by
    unfold Unused Pending Fired
    rw [hsame.clients, hsame.unload]
    exact h.unused
  used := by
    unfold Unused Pending
    rw [hsame.clients, hsame.unload]
    exact h.used

/-- Without clients nothing but a missing death recipient refuses a new one. -/
theorem createMidiInServer_ok {s : MidiServiceController M} (h : s.Enrolled)
    (hunused : s.clients.keys.isEmpty) (uid : Uid) (object : RemoteObject) (server : MidiInServer) :
    (s.createMidiInServer uid object server true).status = .ok := by
  have hkeys : s.clients.keys = [] := List.isEmpty_iff.mp hunused
  have hnone : ∀ c, c ∉ s.clients := by
    intro c hc
    have hmem := AList.mem_keys.mp hc
    rw [hkeys] at hmem
    contradiction
  have happ : (s.appClientMap.getD uid ∅).size = 0 := by
    apply List.length_eq_zero_iff.mpr
    apply List.eq_nil_iff_forall_not_mem.mpr
    intro c hc
    exact hnone c ((h.appClients uid c).mp (AList.mem_keys.mpr hc)).1
  obtain ⟨c, _, _, hsearch, _⟩ := h.exists_clientId s.currentClientId
  have hfound := hsearch (s.clients.keys.length + 1) (Nat.lt_succ_self _)
  unfold MidiServiceController.createMidiInServer
  dsimp only
  rw [hfound, happ, hkeys]
  rfl

theorem Timed.createMidiInServer {uid : Uid} {object : RemoteObject} {server : MidiInServer}
    {added : Bool} (h : Timed u (.createMidiInServer uid object server added ::ₘ ts))
    (hkeeps : KeepsTimer u ts (.createMidiInServer uid object server added)) :
    Timed
      { u with controller := (u.controller.createMidiInServer uid object server added).state }
      ts := by
  have hcancelled := UnloadTask.waiting_cancelUnloadTask h.pending
  have hunloads := UnloadTask.unloads_cancelUnloadTask u.controller.unload
  have hbound := h.emptiedAt
  have hrest := h.tail (by nofun)
  rcases MidiServiceController.createMidiInServer_cases uid object server added u.controller with
    ⟨hfailed, hsame⟩ | ⟨c, hsearch, htotal, hshare, henrols⟩
  · have hunload := hsame.unload
    have hclients := hsame.clients
    constructor
    · exact h.enrolled.same _ hsame
    · rw [hunload, hcancelled]
      exact fun hwaiting => absurd hwaiting Bool.false_ne_true
    · rw [hunload, hunloads]
      exact hbound
    · unfold Unused Pending Fired
      rw [hunload, hclients, hunloads]
      intro hunused
      have hlive : ¬u.Pending := by
        intro hpending
        rcases hkeeps with rfl | hnot
        · exact hfailed (createMidiInServer_ok h.enrolled hunused uid object server)
        · exact hnot ⟨hunused, hpending⟩
      rcases hrest.unused hunused with hnone | hmem | hpending | hfired
      · exact Or.inl hnone
      · exact Or.inr (Or.inl hmem)
      · contradiction
      · exact Or.inr (Or.inr (Or.inr hfired))
    · unfold Pending
      rw [hunload, hcancelled]
      exact fun _ => Bool.false_ne_true
  · have hunload := henrols.unload
    have hfree := MidiServiceController.searchClientId_notMem _ _ hsearch
    constructor
    · exact h.enrolled.enrols hfree htotal hshare henrols
    · rw [hunload, hcancelled]
      exact fun hwaiting => absurd hwaiting Bool.false_ne_true
    · rw [hunload, hunloads]
      exact hbound
    · unfold Unused
      rw [henrols.clients, AList.keys_insert]
      exact fun hunused => absurd hunused Bool.false_ne_true
    · unfold Pending
      rw [hunload, hcancelled]
      exact fun _ => Bool.false_ne_true

theorem Timed.destroyMidiClient {c : ClientId} {controller : MidiServiceController M}
    (h : Timed u (.destroyMidiClient c ::ₘ ts)) (hlive : c ∈ u.controller.clients)
    (hdismisses : u.controller.Dismisses controller c) :
    Timed
      { controller := controller
        destroyed := u.destroyed + 1
        emptiedAt :=
          if controller.clients.keys.isEmpty then controller.unload.unloads else u.emptiedAt }
      (([.finishDestroyMidiClient] : List (ControllerOp M)) + ts) where
  enrolled := h.enrolled.dismisses hlive hdismisses
  pending := by
    rw [hdismisses.unload]
    exact h.pending
  emptiedAt := by
    dsimp only
    split
    · exact Nat.le_refl _
    · rw [hdismisses.unload]
      exact h.emptiedAt
  unused := fun _ => Or.inr (Or.inl (Multiset.mem_add.mpr (Or.inl (Multiset.mem_singleton_self _))))
  used := by
    intro _
    have hused : ¬u.Unused := by
      intro hunused
      have hmem := AList.mem_keys.mp hlive
      rw [List.isEmpty_iff.mp hunused] at hmem
      contradiction
    unfold Pending
    rw [hdismisses.unload]
    exact h.used hused

theorem Timed.finishDestroyMidiClient (h : Timed u (.finishDestroyMidiClient ::ₘ ts)) :
    Timed { u with controller := u.controller.finishDestroyMidiClient } ts := by
  unfold MidiServiceController.finishDestroyMidiClient
  split
  · next hunused =>
      constructor
      · exact h.enrolled.same _ (MidiServiceController.SameClients.refl _)
      · exact fun _ => rfl
      · exact h.emptiedAt
      · exact fun _ => Or.inr (Or.inr (Or.inl rfl))
      · exact fun hused => absurd hunused hused
  · next hused =>
      constructor
      · exact h.enrolled
      · exact h.pending
      · exact h.emptiedAt
      · exact fun hunused => absurd hunused hused
      · exact h.used

theorem Timed.run {op : ControllerOp M} (h : Timed u (op ::ₘ ts)) (hkeeps : KeepsTimer u ts op) :
    Timed (run api op u).1 (((run api op u).2 : Multiset (ControllerOp M)) + ts) := by
  have hnothing : (([] : List (ControllerOp M)) : Multiset (ControllerOp M)) + ts = ts :=
    Multiset.zero_add ts
  cases op with
  | createMidiInServer uid object server added =>
      have hrun : Unloading.run api (.createMidiInServer uid object server added) u =
        ({ u with
            controller := (u.controller.createMidiInServer uid object server added).state }, []) :=
        rfl
      rw [hrun, hnothing]
      exact h.createMidiInServer hkeeps
  | destroyMidiClient c =>
      unfold Unloading.run
      dsimp only
      split
      · next hgone =>
          have hsame := MidiServiceController.destroyMidiClient_of_notMem api hgone
          rw [hnothing]
          apply (h.tail (by nofun)).same
          change u.controller.SameClients (u.controller.destroyMidiClient api c).state
          rw [hsame]
          exact MidiServiceController.SameClients.refl _
      · next hlive =>
          have hmem := not_not.mp hlive
          exact h.destroyMidiClient hmem
            (MidiServiceController.dismisses_destroyMidiClient api hmem)
  | finishDestroyMidiClient =>
      have hrun : Unloading.run api .finishDestroyMidiClient u =
        ({ u with controller := u.controller.finishDestroyMidiClient }, []) := rfl
      rw [hrun, hnothing]
      exact h.finishDestroyMidiClient
  | _ =>
      rw [show (Unloading.run api _ u).2 = [] from rfl, hnothing]
      exact (h.tail (by nofun)).same (MidiServiceController.sameClients_run api rfl)

theorem Timed.environment (h : Timed u ts) (hmove : Environment u v) : Timed v ts := by
  cases hmove with
  | expire =>
      unfold UnloadTask.expire
      split
      · constructor
        · exact h.enrolled.same _ (MidiServiceController.SameClients.refl _)
        · exact fun hwaiting => absurd hwaiting Bool.false_ne_true
        · exact h.emptiedAt.trans (Nat.le_succ _)
        · exact fun _ => Or.inr (Or.inr (Or.inr (Nat.lt_succ_of_le h.emptiedAt)))
        · exact fun _ => Bool.false_ne_true
      · exact h
  | unlocked hunlocked => exact h.same (MidiServiceController.sameClients_unlocked hunlocked)

theorem timed_reached {c : Config (Unloading M) (ControllerOp M)}
    (reach : (sections api).ReachedWith KeepsTimer c) : Timed c.shared c.outstanding := by
  apply reach.invariant Timed
  · rintro u ⟨m, rfl⟩
    constructor
    · exact MidiServiceController.enrolled_reachable api (.init ⟨m, rfl⟩)
    · exact fun hwaiting => hwaiting
    · exact Nat.le_refl _
    · exact fun _ => Or.inl rfl
    · exact fun _ => Bool.false_ne_true
  · intro u ts op hop h
    constructor
    · exact h.enrolled
    · exact h.pending
    · exact h.emptiedAt
    · intro hunused
      rcases h.unused hunused with hnone | hmem | htimer
      · exact Or.inl hnone
      · exact Or.inr (Or.inl (Multiset.mem_cons_of_mem hmem))
      · exact Or.inr (Or.inr htimer)
    · exact h.used
  · exact fun u ts op hkeeps h => h.run api hkeeps
  · exact fun u ts v hmove h => h.environment hmove

/-- Once a client has been destroyed and no destruction is half done: without clients the timer
waits or has ended since the last one went, and with clients it does not wait. -/
theorem unloads_exactly_when_unused {c : Config (Unloading M) (ControllerOp M)}
    (reach : (sections api).ReachedWith KeepsTimer c)
    (hdone : .finishDestroyMidiClient ∉ c.outstanding) (hdestroyed : 0 < c.shared.destroyed) :
    (c.shared.Unused → c.shared.Pending ∨ c.shared.Fired) ∧
      (¬c.shared.Unused → ¬c.shared.Pending) := by
  have h := timed_reached api reach
  constructor
  · intro hunused
    rcases h.unused hunused with hnone | hmem | htimer
    · exact absurd hnone (Nat.pos_iff_ne_zero.mp hdestroyed)
    · contradiction
    · exact htimer
  · exact h.used

/-! ### Two runs -/

instance : DecidablePred (sections api).starts :=
  fun op => inferInstanceAs (Decidable (external op = true))

/-- Before the first thread. -/
def start : Config (Unloading Unit) (ControllerOp Unit) where
  shared := { controller := { deviceManager := () } }

/-- A client comes and goes. -/
def oneClient : List (Turn (Unloading Unit) (ControllerOp Unit)) :=
  [.start (.createMidiInServer 7 0 {} true), .run 0, .start (.destroyMidiClient 1), .run 1, .run 1]

/-- Another asks for the service and has died before its death recipient is added. -/
def refusedClient : List (Turn (Unloading Unit) (ControllerOp Unit)) :=
  oneClient ++ [.start (.createMidiInServer 7 1 {} false), .run 2]

theorem reachedWith_after {ok : Unloading Unit → Multiset (ControllerOp Unit) → ControllerOp Unit →
      Prop} (check : Unloading Unit → ControllerOp Unit → Bool)
    (hcheck : ∀ u ts op, check u op → ok u ts op)
    {turns : List (Turn (Unloading Unit) (ControllerOp Unit))}
    (h : (sections openingManager).Schedules check start turns) :
    (sections openingManager).ReachedWith ok ((sections openingManager).after start turns) :=
  Sections.ReachedWith.after (.init ⟨⟨(), rfl⟩, rfl⟩) (Sections.permits_of_schedules hcheck h)

def afterOneClient : Config (Unloading Unit) (ControllerOp Unit) :=
  (sections openingManager).after start oneClient

theorem unloads_after_oneClient :
    afterOneClient.shared.Unused ∧ (afterOneClient.shared.Pending ∨ afterOneClient.shared.Fired) := by
  have hreach : (sections openingManager).ReachedWith KeepsTimer afterOneClient := by
    apply reachedWith_after fun _ op => match op with
      | .createMidiInServer _ _ _ added => added
      | _ => true
    · intro u ts op hcheck
      cases op with
      | createMidiInServer uid object server added => exact Or.inl hcheck
      | _ => trivial
    · decide +kernel
  have hquiet : afterOneClient.outstanding = 0 :=
    Config.quiet_of_isEmpty (by decide +kernel)
  have hunused : afterOneClient.shared.controller.clients.keys.isEmpty := by decide +kernel
  have hunloads := unloads_exactly_when_unused openingManager hreach (by simp [hquiet])
    (by decide +kernel)
  exact ⟨hunused, hunloads.1 hunused⟩

/-- The client that is refused leaves the service without clients and without a timer. -/
theorem not_unloaded_when_unused :
    ¬∀ c, (sections openingManager).Reached c → c.Quiet → 0 < c.shared.destroyed →
      (c.shared.Unused → c.shared.Pending ∨ c.shared.Fired) ∧
        (¬c.shared.Unused → ¬c.shared.Pending) := by
  intro h
  have hreach : (sections openingManager).Reached
      ((sections openingManager).after start refusedClient) :=
    reachedWith_after (fun _ _ => true) (fun _ _ _ _ => trivial) (by decide +kernel)
  have hunused : ((sections openingManager).after start
      refusedClient).shared.controller.clients.keys.isEmpty := by decide +kernel
  have hunloads := (h _ hreach (Config.quiet_of_isEmpty (by decide +kernel))
    (by decide +kernel)).1 hunused
  rcases hunloads with hpending | hfired
  · have hwaiting : ((sections openingManager).after start
        refusedClient).shared.controller.unload.waiting = false := by decide +kernel
    rw [Pending, hwaiting] at hpending
    contradiction
  · have hunloads : ((sections openingManager).after start
        refusedClient).shared.controller.unload.unloads = 0 := by decide +kernel
    rw [Fired, hunloads] at hfired
    exact Nat.not_lt_zero _ hfired

end Unloading

end MidiFramework.Server
