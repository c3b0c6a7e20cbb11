import SpendPlanner.Proofs.CallbackQueue.Accounting
import SpendPlanner.Proofs.Redaction.Estimates

/-!
# What the logs of completions show

A queue writes of the endings of its callbacks and never of what they are given.  How a callback
ends is up to it, though, once it has been given a result.  So stages on which events of one
outline happen are written of alike to a reader as far as the endings are known to it, and the
queries that are computed by their outlines.
-/

namespace SpendPlanner

open Log

/-! ## Queues of callbacks -/

variable {α : Type}

/-- A callback of which only the ending is known, as far as it is. -/
def Callback.blank (known : Ending → Ending) (callback : Callback α) : Callback Unit :=
  ⟨(), known callback.ending⟩

namespace CallbackQueue

/-- A queue whose callbacks are known by their endings. -/
def blank (known : Ending → Ending) (q : CallbackQueue α) : CallbackQueue Unit :=
  q.map (Callback.blank known) fun _ => ()

/-- An event in which a callback is known by its ending. -/
def Event.blank (known : Ending → Ending) (event : Event α) : Event Unit :=
  event.map (Callback.blank known)

section TwoRuns

variable {reader : Reader} {q q' : CallbackQueue α}

/-- What is known of a queue after an event depends on what is known before. -/
theorem blank_apply_eq {event event' : Event α} (hq : q.blank reader.known = q'.blank reader.known)
    (hevent : event.blank reader.known = event'.blank reader.known) :
    (q.apply event).1.blank reader.known = (q'.apply event').1.blank reader.known := by
  have happly : ∀ (q : CallbackQueue α) (event : Event α),
      (q.apply event).1.blank reader.known =
        ((q.blank reader.known).apply (event.blank reader.known)).1 :=
    fun q event => (map_apply (Callback.blank reader.known) _ (fun _ => rfl) q event).symm
  rw [happly, happly, hq, hevent]

/-- Where the same is known of two queues and of what happens to them, one logs what the other
logs. -/
theorem same_log_apply {event event' : Event α} (hq : q.blank reader.known = q'.blank reader.known)
    (hevent : event.blank reader.known = event'.blank reader.known) :
    List.Forall₂ reader.Same (q.apply event).2 (q'.apply event').2 := by
  have hrestart : q.restartLines event = q'.restartLines event' := by
    rw [← restartLines_map (Callback.blank reader.known) (fun _ => ()) q,
      ← restartLines_map (Callback.blank reader.known) (fun _ => ()) q']
    exact congrArg₂ restartLines hq hevent
  have hrun : (q.runIn? event).map (Callback.blank reader.known) =
      (q'.runIn? event').map (Callback.blank reader.known) := by
    rw [← runIn?_map (Callback.blank reader.known) (fun _ => ()) q,
      ← runIn?_map (Callback.blank reader.known) (fun _ => ()) q']
    exact congrArg₂ runIn? hq hevent
  rw [log_apply, log_apply, hrestart]
  refine List.rel_append (Reader.forall₂_of_shown rfl) ?_
  cases hcallback : q.runIn? event with
  | none =>
      rw [hcallback] at hrun
      rw [Option.map_eq_none_iff.mp hrun.symm]
      exact .nil
  | some callback =>
      rw [hcallback, Option.map_some] at hrun
      obtain ⟨callback', hcallback', hblank⟩ := Option.map_eq_some_iff.mp hrun.symm
      rw [hcallback']
      exact reader.same_log (congrArg Callback.ending hblank.symm)

/-- What a queue writes in the course of events depends on what is known of the endings of its
callbacks. -/
theorem same_log_run {events events' : List (Event α)}
    (hq : q.blank reader.known = q'.blank reader.known)
    (hevents : events.map (Event.blank reader.known) = events'.map (Event.blank reader.known)) :
    List.Forall₂ reader.Same (q.run events).2 (q'.run events').2 := by
  induction events generalizing q q' events' with
  | nil =>
      obtain rfl := List.map_eq_nil_iff.mp hevents.symm
      exact .nil
  | cons event events ih =>
      cases events' with
      | nil => cases hevents
      | cons event' events' =>
          obtain ⟨hevent, hrest⟩ := List.cons.inj hevents
          exact List.rel_append (same_log_apply hq hevent) (ih (blank_apply_eq hq hevent) hrest)

end TwoRuns

end CallbackQueue

/-! ## Stages -/

namespace Stage

variable {ω : Type}

/-- What may be known of an event. -/
inductive EventOutline where
  /-- A query is started; if it is refused at once, its callback ends as it is known to. -/
  | started (refused : Option Ending)
  | changed
  /-- A task takes a turn, in which it makes an estimate, if it is there. -/
  | computed (made : Option (EstimateOutline × Ending))
  | worked

/-- What may be known of an event that happens on a stage. -/
def eventOutline (known : Ending → Ending) (e : Estimator ω) (x : Stage ω) :
    Event → EventOutline
  | .started ticket =>
    .started <| match ticket.query.check with
      | .ok () => none
      | .error failure => some (known (ticket.ending (.error failure)))
  | .changed _ => .changed
  | .computed place =>
    .computed (x.pending[place]?.map fun ticket =>
      (e.outline x.scene ticket.query, known (ticket.ending (x.awaited e ticket))))
  | .worked => .worked

/-- What may be known of events in order. -/
def outlines (known : Ending → Ending) (e : Estimator ω) (x : Stage ω) :
    List Event → List EventOutline
  | [] => []
  | event :: events => eventOutline known e x event :: outlines known e (x.step e event) events

/-- Stages on alike scenes, of whose queues the same is known to a reader. -/
structure Alike (reader : Reader) (x x' : Stage ω) : Prop where
  scene : x.scene.Alike reader x'.scene
  queue : x.queue.blank reader.known = x'.queue.blank reader.known

variable {reader : Reader} {e e' : Estimator ω} {x x' : Stage ω}

theorem Alike.deliver (h : x.Alike reader x') {ticket ticket' : Ticket}
    {result result' : Except Failure Query.Answer}
    (hending : reader.known (ticket.ending result) = reader.known (ticket'.ending result')) :
    (x.deliver ticket result).Alike reader (x'.deliver ticket' result') := by
  have hevent : (CallbackQueue.Event.delivered (.inside runtime) (ticket.callback result)).blank
      reader.known =
        (CallbackQueue.Event.delivered (.inside runtime) (ticket'.callback result')).blank
          reader.known :=
    congrArg (fun ending => CallbackQueue.Event.delivered (.inside runtime) ⟨(), ending⟩) hending
  exact ⟨h.scene.write (CallbackQueue.same_log_apply h.queue hevent),
    CallbackQueue.blank_apply_eq h.queue hevent⟩

theorem Alike.work (h : x.Alike reader x') : x.work.Alike reader x'.work := by
  let event : CallbackQueue.Event Completion := .workerStepped
  have hevent : event.blank reader.known = event.blank reader.known := rfl
  exact ⟨h.scene.write (CallbackQueue.same_log_apply h.queue hevent),
    CallbackQueue.blank_apply_eq h.queue hevent⟩

theorem Alike.start (h : x.Alike reader x') {ticket ticket' : Ticket}
    (houtline : eventOutline reader.known e x (.started ticket) =
      eventOutline reader.known e' x' (.started ticket')) :
    (x.start ticket).Alike reader (x'.start ticket') := by
  simp only [eventOutline, EventOutline.started.injEq] at houtline
  cases hcheck : ticket.query.check with
  | ok =>
      cases hcheck' : ticket'.query.check with
      | ok =>
          rw [start_of_ok hcheck, start_of_ok hcheck']
          exact ⟨h.scene, h.queue⟩
      | error failure' => simp [hcheck, hcheck'] at houtline
  | error failure =>
      cases hcheck' : ticket'.query.check with
      | ok => simp [hcheck, hcheck'] at houtline
      | error failure' =>
          simp only [hcheck, hcheck', Option.some.injEq] at houtline
          rw [start_of_error hcheck, start_of_error hcheck']
          exact h.deliver houtline

theorem Alike.compute (hsource : e.source.still = e'.source.still) (h : x.Alike reader x')
    {place place' : ℕ}
    (houtline : eventOutline reader.known e x (.computed place) =
      eventOutline reader.known e' x' (.computed place')) :
    (x.compute e place).Alike reader (x'.compute e' place') := by
  simp only [eventOutline, EventOutline.computed.injEq] at houtline
  cases hplace : x.pending[place]? with
  | none =>
      rw [hplace, Option.map_none] at houtline
      rw [compute_of_none hplace, compute_of_none (Option.map_eq_none_iff.mp houtline.symm)]
      exact h
  | some ticket =>
      rw [hplace, Option.map_some] at houtline
      obtain ⟨ticket', hplace', hmade⟩ := Option.map_eq_some_iff.mp houtline.symm
      obtain ⟨hestimate, hending⟩ := Prod.mk.inj hmade.symm
      rw [compute_of_some hplace, compute_of_some hplace']
      have hcomputed : Alike reader
          ⟨((e.answer ticket.query).run.run x.scene).2, x.pending.eraseIdx place, x.queue⟩
          ⟨((e'.answer ticket'.query).run.run x'.scene).2, x'.pending.eraseIdx place', x'.queue⟩ :=
        ⟨Estimator.alike_answer hsource h.scene hestimate, h.queue⟩
      exact hcomputed.deliver hending

/-- An event of which the same is known keeps stages alike. -/
theorem Alike.step (hsource : e.source.still = e'.source.still) (h : x.Alike reader x')
    {event event' : Event}
    (houtline : eventOutline reader.known e x event = eventOutline reader.known e' x' event') :
    (x.step e event).Alike reader (x'.step e' event') := by
  cases event with
  | started ticket =>
      cases event' with
      | started ticket' => exact h.start houtline
      | _ => cases houtline
  | changed changes =>
      cases event' with
      | changed changes' => exact ⟨h.scene.change changes changes', h.queue⟩
      | _ => cases houtline
  | computed place =>
      cases event' with
      | computed place' => exact h.compute hsource houtline
      | _ => cases houtline
  | worked =>
      cases event' with
      | worked => exact h.work
      | _ => cases houtline

/-- Events of which the same is known keep stages alike. -/
theorem Alike.run (hsource : e.source.still = e'.source.still) (h : x.Alike reader x')
    {events events' : List Event}
    (houtlines : outlines reader.known e x events = outlines reader.known e' x' events') :
    (x.run e events).Alike reader (x'.run e' events') := by
  induction events generalizing x x' events' with
  | nil =>
      cases events' with
      | nil => exact h
      | cons event' events' => cases houtlines
  | cons event events ih =>
      cases events' with
      | nil => cases houtlines
      | cons event' events' =>
          obtain ⟨houtline, hrest⟩ := List.cons.inj houtlines
          exact ih (h.step hsource houtline) hrest

/-! ## A ticket alone -/

/-- A ticket is started, its result is computed, and its callback runs. -/
def alone (ticket : Ticket) : List Event := [.started ticket, .computed 0, .worked]

/-- Of a callback that is delivered through an empty queue and runs, only its ending is written. -/
theorem log_work_deliver (scene : Scene ω) (pending : List Ticket) (ticket : Ticket)
    (result : Except Failure Query.Answer) :
    ((Stage.deliver ⟨scene, pending, .empty⟩ ticket result).work).scene.log =
      scene.log ++ (ticket.ending result).log :=
  congrArg (· ++ (ticket.ending result).log) (List.append_nil scene.log)

/-- Of a ticket alone is written what its query writes, and then how its callback ends. -/
theorem log_run_alone (e : Estimator ω) (scene : Scene ω) (ticket : Ticket) :
    ((ofScene scene).run e (alone ticket)).scene.log =
      ((e.answer ticket.query).run.run scene).2.log ++
        (ticket.ending ((e.answer ticket.query).run.run scene).1).log := by
  cases hcheck : ticket.query.check with
  | ok =>
      have hstart : (ofScene scene).start ticket = ⟨scene, [ticket], .empty⟩ :=
        start_of_ok hcheck
      simp only [alone, run, List.foldl, step, hstart]
      exact log_work_deliver _ _ ticket _
  | error failure =>
      have hstart : (ofScene scene).start ticket =
          (ofScene scene).deliver ticket (.error failure) := start_of_error hcheck
      rw [Estimator.run_answer_of_check hcheck]
      simp only [alone, run, List.foldl, step, hstart]
      exact log_work_deliver _ _ ticket _

/-- What may be known of a ticket alone is the outline of its query, and what is known of how its
callback ends. -/
theorem outlines_alone (known : Ending → Ending) (e : Estimator ω) (scene : Scene ω)
    {ticket : Ticket} (h : ticket.query.check = .ok ()) :
    outlines known e (ofScene scene) (alone ticket) =
      [.started none,
        .computed (some (e.outline scene ticket.query,
          known (ticket.ending ((e.answer ticket.query).run.run scene).1))),
        .worked] := by
  have hstart : (ofScene scene).start ticket = ⟨scene, [ticket], .empty⟩ := start_of_ok h
  simp only [alone, outlines, eventOutline, h, step, hstart]
  rfl

end Stage
end SpendPlanner
