import SpendPlanner.CallbackQueue
import Mathlib.Data.List.Induction

/-!
# What becomes of callbacks

Callbacks are delivered from anywhere, the worker takes steps and runtimes are dropped, in any
order whatever.  In the order of their delivery every callback runs or is lost with the runtime of
the worker that it waits for, until those that still wait.  So none runs twice or out of turn, and
how the ones before it have ended makes no difference to a callback.
-/

namespace SpendPlanner

/-- A callback that returns. -/
def Callback.quiet {α : Type} (callback : Callback α) : Callback α :=
  { callback with ending := .returns }

namespace CallbackQueue

variable {α : Type}

/-! ## Runs -/

theorem run_concat (q : CallbackQueue α) (events : List (Event α)) (event : Event α) :
    q.run (events ++ [event]) =
      (((q.run events).1.apply event).1, (q.run events).2 ++ ((q.run events).1.apply event).2) := by
  induction events generalizing q with
  | nil => simp [run]
  | cons first events ih => simp [run, ih]

/-- The callback that is delivered in an event. -/
def Event.callback? : Event α → Option (Callback α)
  | .delivered _ callback => some callback
  | .workerStepped | .runtimeDropped _ => none

/-- The callbacks that are delivered in the course of events. -/
def deliveries (events : List (Event α)) : List (Callback α) := events.filterMap Event.callback?

theorem deliveries_concat (events : List (Event α)) (event : Event α) :
    deliveries (events ++ [event]) = deliveries events ++ event.callback?.toList := by
  rw [deliveries, deliveries, List.filterMap_append]
  cases event <;> rfl

/-- The callbacks that are lost in an event: those that wait for a worker on a runtime that is
dropped. -/
def lostIn (q : CallbackQueue α) : Event α → List (Callback α)
  | .delivered _ _ | .workerStepped => []
  | .runtimeDropped runtime =>
    match q.worker with
    | .alive home waiting => if home = runtime then waiting else []
    | .none | .gone => []

/-- The callbacks that are lost in the course of events. -/
def lost (q : CallbackQueue α) : List (Event α) → List (Callback α)
  | [] => []
  | event :: events => q.lostIn event ++ lost (q.apply event).1 events

theorem lost_concat (q : CallbackQueue α) (events : List (Event α)) (event : Event α) :
    q.lost (events ++ [event]) = q.lost events ++ (q.run events).1.lostIn event := by
  induction events generalizing q with
  | nil => simp [lost, run]
  | cons first events ih => simp [lost, run, ih]

/-! ## Accounting for callbacks -/

/-- What becomes of a callback that no longer waits. -/
inductive Fate where
  | ran
  /-- The runtime of the worker is dropped while the callback waits for it. -/
  | lost
  deriving DecidableEq

/-- The callbacks that meet a fate. -/
def met (fate : Fate) (settled : List (Callback α × Fate)) : List (Callback α) :=
  (settled.filter fun pair => pair.2 = fate).map Prod.fst

theorem met_append (fate : Fate) (settled later : List (Callback α × Fate)) :
    met fate (settled ++ later) = met fate settled ++ met fate later := by
  simp [met]

theorem met_map_self (fate : Fate) (callbacks : List (Callback α)) :
    met fate (callbacks.map fun callback => (callback, fate)) = callbacks := by
  simp [met, List.filter_map, Function.comp_def]

theorem met_map_of_ne {fate other : Fate} (h : other ≠ fate) (callbacks : List (Callback α)) :
    met fate (callbacks.map fun callback => (callback, other)) = [] := by
  simp [met, List.filter_map, Function.comp_def, h]

theorem met_sublist (fate : Fate) (settled : List (Callback α × Fate)) :
    (met fate settled).Sublist (settled.map Prod.fst) :=
  List.filter_sublist.map Prod.fst

/-- Callbacks are delivered, and in this order each of them runs or is lost, up to those that
wait. -/
def Accounted (delivered waiting : List (Callback α)) (ran : List α)
    (lost : List (Callback α)) : Prop :=
  ∃ settled : List (Callback α × Fate),
    delivered = settled.map Prod.fst ++ waiting ∧
      ran = (met .ran settled).map Callback.value ∧ lost = met .lost settled

namespace Accounted

variable {delivered waiting lost : List (Callback α)} {ran : List α}

theorem wait (h : Accounted delivered waiting ran lost) (callback : Callback α) :
    Accounted (delivered ++ [callback]) (waiting ++ [callback]) ran lost := by
  obtain ⟨settled, rfl, hran, hlost⟩ := h
  exact ⟨settled, List.append_assoc _ _ _, hran, hlost⟩

/-- The callback that has waited longest runs. -/
theorem runFirst {callback : Callback α}
    (h : Accounted delivered (callback :: waiting) ran lost) :
    Accounted delivered waiting (ran ++ [callback.value]) lost := by
  obtain ⟨settled, rfl, rfl, rfl⟩ := h
  refine ⟨settled ++ [(callback, .ran)], ?_, ?_, ?_⟩
  · simp
  · rw [met_append, List.map_append]
    rfl
  · rw [met_append]
    exact (List.append_nil _).symm

/-- Where nothing waits, a callback runs at once. -/
theorem runAtOnce (h : Accounted delivered [] ran lost) (callback : Callback α) :
    Accounted (delivered ++ [callback]) [] (ran ++ [callback.value]) lost :=
  (h.wait callback).runFirst

/-- Everything that waits is lost. -/
theorem loseAll (h : Accounted delivered waiting ran lost) :
    Accounted delivered [] ran (lost ++ waiting) := by
  obtain ⟨settled, rfl, rfl, rfl⟩ := h
  refine ⟨settled ++ waiting.map fun callback => (callback, .lost), ?_, ?_, ?_⟩
  · simp [Function.comp_def]
  · rw [met_append, met_map_of_ne (by decide), List.append_nil]
  · rw [met_append, met_map_self]

/-- What runs is part of what is delivered, in the same order, and no delivery runs twice. -/
theorem ran_sublist (h : Accounted delivered waiting ran lost) :
    ran.Sublist (delivered.map Callback.value) := by
  obtain ⟨settled, rfl, rfl, -⟩ := h
  exact ((met_sublist .ran settled).trans (List.sublist_append_left _ _)).map Callback.value

end Accounted

section Events

variable {q : CallbackQueue α} {delivered lost : List (Callback α)}

theorem Accounted.deliver (h : Accounted delivered q.waiting q.ran lost) (caller : Caller)
    (callback : Callback α) :
    Accounted (delivered ++ [callback]) (q.deliver caller callback).1.waiting
      (q.deliver caller callback).1.ran lost := by
  obtain ⟨worker, ran⟩ := q
  cases worker with
  | alive runtime waiting => exact h.wait callback
  | none =>
      cases caller with
      | inside runtime => exact h.wait callback
      | outside | closing => exact h.runAtOnce callback
  | gone =>
      cases caller with
      | inside runtime => exact h.wait callback
      | outside | closing => exact h.runAtOnce callback

theorem Accounted.stepWorker (h : Accounted delivered q.waiting q.ran lost) :
    Accounted delivered q.stepWorker.1.waiting q.stepWorker.1.ran lost := by
  obtain ⟨worker, ran⟩ := q
  cases worker with
  | alive runtime waiting =>
      cases waiting with
      | nil => exact h
      | cons callback waiting => exact h.runFirst
  | none | gone => exact h

theorem Accounted.dropRuntime (h : Accounted delivered q.waiting q.ran lost) (runtime : ℕ) :
    Accounted delivered (q.dropRuntime runtime).waiting (q.dropRuntime runtime).ran
      (lost ++ q.lostIn (.runtimeDropped runtime)) := by
  obtain ⟨worker, ran⟩ := q
  cases worker with
  | alive home waiting =>
      simp only [CallbackQueue.dropRuntime, lostIn]
      split
      · exact h.loseAll
      · rw [List.append_nil]
        exact h
  | none | gone =>
      rw [lostIn, List.append_nil]
      exact h

/-- An event keeps account of the callbacks. -/
theorem Accounted.step (h : Accounted delivered q.waiting q.ran lost) (event : Event α) :
    Accounted (delivered ++ event.callback?.toList) (q.apply event).1.waiting
      (q.apply event).1.ran (lost ++ q.lostIn event) := by
  cases event with
  | delivered caller callback =>
      rw [lostIn, List.append_nil]
      exact h.deliver caller callback
  | workerStepped =>
      rw [lostIn, Event.callback?, Option.toList_none, List.append_nil, List.append_nil]
      exact h.stepWorker
  | runtimeDropped runtime =>
      rw [Event.callback?, Option.toList_none, List.append_nil]
      exact h.dropRuntime runtime

end Events

/-- Whatever happens to a queue, the callbacks that are delivered to it are accounted for. -/
theorem accounted_run (events : List (Event α)) :
    Accounted (deliveries events) (empty.run events).1.waiting (empty.run events).1.ran
      (empty.lost events) := by
  induction events using List.reverseRecOn with
  | nil => exact ⟨[], rfl, rfl, rfl⟩
  | append_singleton events event ih =>
      rw [run_concat, lost_concat, deliveries_concat]
      exact ih.step event

/-! ## Other callbacks in their place -/

section Map

variable {β : Type} (f : Callback α → Callback β) (g : α → β)

/-- The queue with other callbacks in the place of those that wait, and other values in the place
of those that have run. -/
def map (q : CallbackQueue α) : CallbackQueue β where
  worker :=
    match q.worker with
    | .none => .none
    | .alive runtime waiting => .alive runtime (waiting.map f)
    | .gone => .gone
  ran := q.ran.map g

/-- The event with another callback in the place of the one that is delivered. -/
def Event.map : Event α → Event β
  | .delivered caller callback => .delivered caller (f callback)
  | .workerStepped => .workerStepped
  | .runtimeDropped runtime => .runtimeDropped runtime

/-- What a queue does with its callbacks does not depend on what they are. -/
theorem map_apply (hvalue : ∀ callback, (f callback).value = g callback.value)
    (q : CallbackQueue α) (event : Event α) :
    ((q.map f g).apply (event.map f)).1 = (q.apply event).1.map f g := by
  obtain ⟨worker, ran⟩ := q
  cases event with
  | delivered caller callback =>
      cases worker with
      | alive runtime waiting => simp [apply, deliver, map, Event.map]
      | none | gone =>
          cases caller with
          | inside runtime => rfl
          | outside | closing =>
              simp [apply, deliver, deliverAnew, runAtOnce, map, Event.map, hvalue]
  | workerStepped =>
      cases worker with
      | none | gone => rfl
      | alive runtime waiting =>
          cases waiting with
          | nil => rfl
          | cons callback waiting =>
              simp [apply, stepWorker, runAtOnce, map, Event.map, hvalue]
  | runtimeDropped runtime =>
      cases worker with
      | none | gone => rfl
      | alive home waiting =>
          simp only [apply, dropRuntime, map, Event.map]
          split <;> rfl

/-- The callback that runs in an event, if one does. -/
def runIn? (q : CallbackQueue α) : Event α → Option (Callback α)
  | .delivered caller callback =>
    match q.worker, caller with
    | .alive _ _, _ | .none, .inside _ | .gone, .inside _ => none
    | .none, .outside | .none, .closing | .gone, .outside | .gone, .closing => some callback
  | .workerStepped => q.waiting.head?
  | .runtimeDropped _ => none

/-- What is written where a delivery finds the worker gone. -/
def restartLines (q : CallbackQueue α) : Event α → List Log.Line
  | .delivered _ _ =>
    match q.worker with
    | .gone => [⟨.warn, ["Delivery task stopped; restarting"]⟩]
    | .none | .alive _ _ => []
  | .workerStepped | .runtimeDropped _ => []

theorem log_apply (q : CallbackQueue α) (event : Event α) :
    (q.apply event).2 = q.restartLines event ++ (q.runIn? event).elim [] Callback.log := by
  obtain ⟨worker, ran⟩ := q
  cases event with
  | delivered caller callback => cases worker <;> cases caller <;> rfl
  | workerStepped =>
      cases worker with
      | none | gone => rfl
      | alive runtime waiting => cases waiting <;> rfl
  | runtimeDropped runtime => rfl

theorem runIn?_map (q : CallbackQueue α) (event : Event α) :
    (q.map f g).runIn? (event.map f) = (q.runIn? event).map f := by
  obtain ⟨worker, ran⟩ := q
  cases event with
  | delivered caller callback => cases worker <;> cases caller <;> rfl
  | workerStepped =>
      cases worker with
      | none | gone => rfl
      | alive runtime waiting => cases waiting <;> rfl
  | runtimeDropped runtime => rfl

theorem restartLines_map (q : CallbackQueue α) (event : Event α) :
    (q.map f g).restartLines (event.map f) = q.restartLines event := by
  obtain ⟨worker, ran⟩ := q
  cases event with
  | delivered caller callback => cases worker <;> rfl
  | workerStepped | runtimeDropped runtime => rfl

end Map

/-! ## Panics -/

/-- The same event with a callback that returns. -/
def Event.quiet : Event α → Event α
  | .delivered caller callback => .delivered caller callback.quiet
  | .workerStepped => .workerStepped
  | .runtimeDropped runtime => .runtimeDropped runtime

theorem Event.quiet_eq_map (event : Event α) : event.quiet = event.map Callback.quiet := by
  cases event <;> rfl

/-- How callbacks end makes no difference to what runs. -/
theorem ran_run_quiet (events : List (Event α)) :
    (empty.run (events.map Event.quiet)).1.ran = (empty.run events).1.ran := by
  have hrun : (empty.run (events.map Event.quiet)).1 =
      (empty.run events).1.map Callback.quiet id := by
    induction events using List.reverseRecOn with
    | nil => rfl
    | append_singleton events event ih =>
        rw [List.map_append, List.map_singleton, run_concat, run_concat, ih, Event.quiet_eq_map]
        exact map_apply Callback.quiet id (fun _ => rfl) _ _
  rw [hrun]
  exact List.map_id _

/-! ## Running out of work -/

theorem waiting_stepWorker (q : CallbackQueue α) :
    q.stepWorker.1.waiting = q.waiting.tail := by
  obtain ⟨worker, ran⟩ := q
  cases worker with
  | none => rfl
  | gone => rfl
  | alive runtime waiting => cases waiting <;> rfl

section WorkerSteps

variable (events : List (Event α)) (n : ℕ)

theorem waiting_run_workerStepped :
    (empty.run (events ++ List.replicate n .workerStepped)).1.waiting =
      (empty.run events).1.waiting.drop n := by
  induction n with
  | zero => simp
  | succ n ih =>
      rw [List.replicate_succ', ← List.append_assoc, run_concat, apply, waiting_stepWorker, ih,
        List.tail_drop]

theorem deliveries_workerStepped :
    deliveries (events ++ List.replicate n .workerStepped) = deliveries events := by
  induction n with
  | zero => simp
  | succ n ih =>
      rw [List.replicate_succ', ← List.append_assoc, deliveries_concat, ih, Event.callback?,
        Option.toList_none, List.append_nil]

theorem lost_workerStepped :
    empty.lost (events ++ List.replicate n .workerStepped) = empty.lost events := by
  induction n with
  | zero => simp
  | succ n ih =>
      rw [List.replicate_succ', ← List.append_assoc, lost_concat, ih, lostIn, List.append_nil]

end WorkerSteps

/-- A worker that goes on leaves nothing waiting. -/
theorem exists_workerStepped (events : List (Event α)) :
    ∃ n, let later := (empty.run (events ++ List.replicate n .workerStepped)).1
      later.waiting = [] ∧ Accounted (deliveries events) [] later.ran (empty.lost events) := by
  refine ⟨(empty.run events).1.waiting.length, ?_⟩
  intro later
  have hwaiting : later.waiting = [] := by
    rw [waiting_run_workerStepped, List.drop_length]
  have haccounted := accounted_run
    (events ++ List.replicate (empty.run events).1.waiting.length .workerStepped)
  rw [deliveries_workerStepped, lost_workerStepped] at haccounted
  exact ⟨hwaiting, hwaiting ▸ haccounted⟩

end CallbackQueue
end SpendPlanner
