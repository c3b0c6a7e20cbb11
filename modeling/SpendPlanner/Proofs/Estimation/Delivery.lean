import SpendPlanner.Estimation.Completion
import SpendPlanner.Proofs.Estimation.Arrival

/-!
# Completions are delivered once

Queries are started, the account changes, and tasks and the worker take turns, in any order
whatever.  Every query that is started is either still pending or has had its result delivered,
and the result is what awaiting the query would have yielded on the scene it was computed on.  In
whatever order turns are taken there are only so many of them.  After the last one every callback
has run, and none has run twice.
-/

namespace SpendPlanner

namespace CallbackQueue

variable {α : Type}

/-- What has been delivered: the callbacks that have run, and those that wait. -/
def delivered (q : CallbackQueue α) : List α := q.ran ++ q.waiting.map Callback.value

theorem delivered_deliver_inside (q : CallbackQueue α) (runtime : ℕ) (callback : Callback α) :
    (q.deliver (.inside runtime) callback).1.delivered = q.delivered ++ [callback.value] := by
  obtain ⟨worker, ran⟩ := q
  cases worker <;> simp [deliver, deliverAnew, delivered, waiting]

theorem length_waiting_deliver_inside (q : CallbackQueue α) (runtime : ℕ)
    (callback : Callback α) :
    (q.deliver (.inside runtime) callback).1.waiting.length = q.waiting.length + 1 := by
  obtain ⟨worker, ran⟩ := q
  cases worker <;> simp [deliver, deliverAnew, waiting]

/-- The worker only moves a callback from those that wait to those that have run. -/
theorem delivered_stepWorker (q : CallbackQueue α) : q.stepWorker.1.delivered = q.delivered := by
  obtain ⟨worker, ran⟩ := q
  cases worker with
  | none | gone => rfl
  | alive runtime callbacks => cases callbacks <;> simp [stepWorker, runAtOnce, delivered, waiting]

theorem length_waiting_stepWorker (q : CallbackQueue α) :
    q.stepWorker.1.waiting.length = q.waiting.length - 1 := by
  obtain ⟨worker, ran⟩ := q
  cases worker with
  | none | gone => rfl
  | alive runtime callbacks => cases callbacks <;> rfl

end CallbackQueue

/-- The failure that makes computing a query needless is what awaiting it yields, and then
nothing happens on the scene. -/
theorem Estimator.run_answer_of_check {ω : Type} {e : Estimator ω} {query : Query}
    {failure : Failure} (h : query.check = .error failure) (scene : Scene ω) :
    (e.answer query).run.run scene = (.error failure, scene) := by
  have hzero : ∀ {amount : Amount}, checkPositive amount = .error failure →
      amount.value = 0 ∧ failure = .invalidInput "amount must be positive" := by
    intro amount hcheck
    rw [checkPositive] at hcheck
    split_ifs at hcheck with hvalue
    · exact ⟨hvalue, by cases hcheck; rfl⟩
  cases query with
  | transferable token level => cases h
  | totalFee amount level =>
      obtain ⟨hvalue, rfl⟩ := hzero h
      simp only [answer, totalFee, Activity.run_map, run_estimate_of_zero hvalue]
      rfl
  | needsConsolidation amount level =>
      obtain ⟨hvalue, rfl⟩ := hzero h
      simp only [answer, needsConsolidation, Activity.run_map, run_estimate_of_zero hvalue]
      rfl

namespace Stage

variable {ω : Type}

/-- Something that happens on a stage. -/
inductive Event where
  /-- A query is started. -/
  | started (ticket : Ticket)
  /-- The account changes. -/
  | changed (changes : List Account.Change)
  /-- A task takes a turn, that of the ticket at a place among those that are pending. -/
  | computed (place : ℕ)
  /-- The worker takes a turn. -/
  | worked

/-- What comes of an event. -/
def step (e : Estimator ω) (x : Stage ω) : Event → Stage ω
  | .started ticket => x.start ticket
  | .changed changes => { x with scene := x.scene.change changes }
  | .computed place => x.compute e place
  | .worked => x.work

/-- What comes of events in order. -/
def run (e : Estimator ω) (x : Stage ω) (events : List Event) : Stage ω :=
  events.foldl (step e) x

/-- The tickets that are asked for in the course of events. -/
def asked (events : List Event) : List Ticket :=
  events.filterMap fun
    | .started ticket => some ticket
    | .changed _ | .computed _ | .worked => none

/-- The ticket whose result is delivered in an event. -/
def served? (x : Stage ω) : Event → Option Ticket
  | .started ticket =>
    match ticket.query.check with
    | .ok () => none
    | .error _ => some ticket
  | .computed place => x.pending[place]?
  | .changed _ | .worked => none

/-- What awaiting the query of a ticket would yield on the scene as it is. -/
def awaited (e : Estimator ω) (x : Stage ω) (ticket : Ticket) : Except Failure Query.Answer :=
  ((e.answer ticket.query).run.run x.scene).1

/-- The tickets whose results are delivered in the course of events, each with what awaiting
its query would have yielded at that event. -/
def served (e : Estimator ω) (x : Stage ω) :
    List Event → List (Ticket × Except Failure Query.Answer)
  | [] => []
  | event :: events =>
    ((x.served? event).map fun ticket => (ticket, x.awaited e ticket)).toList ++
      served e (x.step e event) events

/-- What the callback of a ticket is given. -/
def completion (pair : Ticket × Except Failure Query.Answer) : Completion :=
  ⟨pair.1.number, pair.2⟩

/-- The event is a turn, and whoever takes it has something to do. -/
def Ready (x : Stage ω) : Event → Prop
  | .computed place => place < x.pending.length
  | .worked => x.queue.waiting ≠ []
  | .started _ | .changed _ => False

/-- Turns are taken one after the other, each by someone who has something to do. -/
def Turns (e : Estimator ω) (x : Stage ω) : List Event → Prop
  | [] => True
  | turn :: turns => x.Ready turn ∧ Turns e (x.step e turn) turns

/-- Nothing is left to do. -/
def Settled (x : Stage ω) : Prop := ∀ turn, ¬x.Ready turn

/-- The number of turns that are still to be taken.  A ticket takes two, that of its task and one
of the worker. -/
def turnsLeft (x : Stage ω) : ℕ := 2 * x.pending.length + x.queue.waiting.length

variable {e : Estimator ω} {x : Stage ω}

/-! ## What one event does -/

theorem start_of_ok {ticket : Ticket} (h : ticket.query.check = .ok ()) :
    x.start ticket = { x with pending := x.pending ++ [ticket] } := by
  simp only [start, h]

theorem start_of_error {ticket : Ticket} {failure : Failure}
    (h : ticket.query.check = .error failure) :
    x.start ticket = x.deliver ticket (.error failure) := by
  simp only [start, h]

theorem compute_of_some {place : ℕ} {ticket : Ticket} (h : x.pending[place]? = some ticket) :
    x.compute e place =
      Stage.deliver ⟨((e.answer ticket.query).run.run x.scene).2, x.pending.eraseIdx place, x.queue⟩
        ticket (x.awaited e ticket) := by
  simp only [compute, h]
  rfl

theorem compute_of_none {place : ℕ} (h : x.pending[place]? = none) : x.compute e place = x := by
  simp only [compute, h]

/-- What an event delivers is the result of the ticket that it serves, as awaiting it would
have been. -/
theorem delivered_step (e : Estimator ω) (x : Stage ω) (event : Event) :
    (x.step e event).queue.delivered =
      x.queue.delivered ++
        (((x.served? event).map fun ticket => (ticket, x.awaited e ticket)).toList).map
          completion := by
  cases event with
  | started ticket =>
      rw [step, served?]
      cases hcheck : ticket.query.check with
      | ok =>
          rw [start_of_ok hcheck]
          exact (List.append_nil _).symm
      | error failure =>
          have hawaited : x.awaited e ticket = .error failure := by
            rw [awaited, Estimator.run_answer_of_check hcheck]
          rw [start_of_error hcheck]
          refine (CallbackQueue.delivered_deliver_inside _ _ _).trans ?_
          simp [hawaited, completion, Ticket.callback]
  | changed changes => exact (List.append_nil _).symm
  | computed place =>
      rw [step, served?]
      cases hplace : x.pending[place]? with
      | none =>
          rw [compute_of_none hplace]
          exact (List.append_nil _).symm
      | some ticket =>
          rw [compute_of_some hplace]
          exact CallbackQueue.delivered_deliver_inside _ _ _
  | worked => exact (CallbackQueue.delivered_stepWorker _).trans (List.append_nil _).symm

/-- Every ticket that is pending or asked for is served in the event or goes on waiting. -/
theorem pending_step (e : Estimator ω) (x : Stage ω) (event : Event) :
    (x.pending ++ asked [event]).Perm
      ((x.served? event).toList ++ (x.step e event).pending) := by
  cases event with
  | started ticket =>
      rw [step, served?]
      cases hcheck : ticket.query.check with
      | ok =>
          rw [start_of_ok hcheck]
          exact List.Perm.refl _
      | error failure =>
          rw [start_of_error hcheck]
          exact List.perm_append_comm
  | changed changes => exact .of_eq (List.append_nil _)
  | computed place =>
      refine (List.Perm.of_eq (List.append_nil _)).trans ?_
      rw [step, served?]
      cases hplace : x.pending[place]? with
      | none =>
          rw [compute_of_none hplace]
          exact List.Perm.refl _
      | some ticket =>
          rw [compute_of_some hplace]
          obtain ⟨hlt, rfl⟩ := List.getElem?_eq_some_iff.mp hplace
          exact (List.getElem_cons_eraseIdx_perm hlt).symm
  | worked => exact .of_eq (List.append_nil _)

/-- Someone who has something to do takes one of the turns that are left. -/
theorem turnsLeft_step {turn : Event} (h : x.Ready turn) :
    (x.step e turn).turnsLeft + 1 = x.turnsLeft := by
  cases turn with
  | started ticket => exact h.elim
  | changed changes => exact h.elim
  | computed place =>
      rw [Ready] at h
      rw [step, compute_of_some (List.getElem?_eq_getElem h), turnsLeft, turnsLeft]
      have hwaiting := CallbackQueue.length_waiting_deliver_inside x.queue runtime
        (x.pending[place].callback (x.awaited e x.pending[place]))
      have hpending := List.length_eraseIdx_of_lt h
      simp only [deliver]
      omega
  | worked =>
      have hpositive := List.length_pos_iff.mpr h
      have hwaiting := CallbackQueue.length_waiting_stepWorker x.queue
      simp only [step, work, turnsLeft]
      omega

theorem Settled.pending (h : x.Settled) : x.pending = [] :=
  List.length_eq_zero_iff.mp (Nat.le_zero.mp (not_lt.mp (h (.computed 0))))

theorem Settled.waiting (h : x.Settled) : x.queue.waiting = [] := not_not.mp (h .worked)

/-- Nothing is left to do where no turns are left. -/
theorem settled_iff : x.Settled ↔ x.turnsLeft = 0 := by
  constructor
  · intro h
    rw [turnsLeft, h.pending, h.waiting]
    rfl
  · intro h turn hturn
    rw [turnsLeft] at h
    cases turn with
    | started ticket => exact hturn
    | changed changes => exact hturn
    | computed place =>
        rw [Ready] at hturn
        omega
    | worked => exact hturn (List.length_eq_zero_iff.mp (by omega))

theorem Settled.delivered_eq_ran (h : x.Settled) : x.queue.delivered = x.queue.ran := by
  rw [CallbackQueue.delivered, h.waiting, List.map_nil, List.append_nil]

/-! ## What events in order do -/

theorem run_cons (e : Estimator ω) (x : Stage ω) (event : Event) (events : List Event) :
    x.run e (event :: events) = (x.step e event).run e events := rfl

theorem run_append (e : Estimator ω) (x : Stage ω) (first second : List Event) :
    x.run e (first ++ second) = (x.run e first).run e second := List.foldl_append

theorem asked_append (first second : List Event) :
    asked (first ++ second) = asked first ++ asked second := List.filterMap_append

theorem delivered_run (e : Estimator ω) (x : Stage ω) (events : List Event) :
    (x.run e events).queue.delivered =
      x.queue.delivered ++ (served e x events).map completion := by
  induction events generalizing x with
  | nil => exact (List.append_nil _).symm
  | cons event events ih =>
      rw [run_cons, ih, delivered_step, served, List.map_append, List.append_assoc]

open scoped List in
theorem pending_run (e : Estimator ω) (x : Stage ω) (events : List Event) :
    (x.pending ++ asked events).Perm
      ((served e x events).map Prod.fst ++ (x.run e events).pending) := by
  induction events generalizing x with
  | nil => exact .of_eq (List.append_nil _)
  | cons event events ih =>
      have hserved : (((x.served? event).map fun ticket =>
          (ticket, x.awaited e ticket)).toList).map Prod.fst = (x.served? event).toList := by
        cases x.served? event <;> rfl
      calc x.pending ++ asked (event :: events)
          = (x.pending ++ asked [event]) ++ asked events := by
            rw [List.append_assoc, ← asked_append, List.singleton_append]
        _ ~ ((x.served? event).toList ++ (x.step e event).pending) ++ asked events :=
            (pending_step e x event).append_right _
        _ = (x.served? event).toList ++ ((x.step e event).pending ++ asked events) :=
            List.append_assoc _ _ _
        _ ~ (x.served? event).toList ++ ((served e (x.step e event) events).map Prod.fst ++
              ((x.step e event).run e events).pending) := (ih _).append_left _
        _ = (served e x (event :: events)).map Prod.fst ++
              (x.run e (event :: events)).pending := by
            rw [served, List.map_append, hserved, List.append_assoc, run_cons]

/-! ## Taking turns -/

theorem Turns.turnsLeft_run {turns : List Event} (h : Turns e x turns) :
    (x.run e turns).turnsLeft + turns.length = x.turnsLeft := by
  induction turns generalizing x with
  | nil => rfl
  | cons turn turns ih =>
      rw [run_cons, List.length_cons, ← turnsLeft_step h.1, ← ih h.2, Nat.add_assoc]

/-- No query is started in a turn. -/
theorem Turns.asked_eq_nil {turns : List Event} (h : Turns e x turns) : asked turns = [] := by
  induction turns generalizing x with
  | nil => rfl
  | cons turn turns ih =>
      have hturn : asked [turn] = [] := by
        cases turn with
        | started ticket => exact h.1.elim
        | changed changes | computed place | worked => rfl
      rw [← List.singleton_append, asked_append, hturn, ih h.2, List.append_nil]

theorem exists_turns_settled (e : Estimator ω) (x : Stage ω) :
    ∃ turns, Turns e x turns ∧ (x.run e turns).Settled := by
  by_cases hsettled : x.Settled
  · exact ⟨[], trivial, hsettled⟩
  · obtain ⟨turn, hturn⟩ : ∃ turn, x.Ready turn := by
      simpa only [Settled, not_forall, not_not] using hsettled
    have hfewer := turnsLeft_step (e := e) hturn
    obtain ⟨turns, hturns, hend⟩ := exists_turns_settled e (x.step e turn)
    exact ⟨turn :: turns, ⟨hturn, hturns⟩, hend⟩
termination_by x.turnsLeft

/-- From a scene on which nothing has been started, every ticket that is asked for in the course
of events is served once, and its callback is given what awaiting the query would have yielded.
Where nothing is left to do all of these callbacks have run.  It comes to this in whatever order
turns are taken, and after as many of them as are left. -/
structure DeliversOnce (e : Estimator ω) (x : Stage ω) (events : List Event) : Prop where
  delivered : (x.run e events).queue.delivered = (served e x events).map completion
  accounted : (asked events).Perm
    ((served e x events).map Prod.fst ++ (x.run e events).pending)
  settled : (x.run e events).Settled →
    (x.run e events).queue.ran = (served e x events).map completion ∧
      (asked events).Perm ((served e x events).map Prod.fst)
  settles : ∀ turns, Turns e (x.run e events) turns → ∃ more,
    let all := events ++ turns ++ more
    Turns e (x.run e (events ++ turns)) more ∧
      turns.length + more.length = (x.run e events).turnsLeft ∧
      (x.run e all).Settled ∧ (x.run e all).queue.ran = (served e x all).map completion ∧
      (asked events).Perm ((served e x all).map Prod.fst)

theorem ran_of_settled (scene : Scene ω) {events : List Event}
    (h : ((ofScene scene).run e events).Settled) :
    ((ofScene scene).run e events).queue.ran =
        (served e (ofScene scene) events).map completion ∧
      (asked events).Perm ((served e (ofScene scene) events).map Prod.fst) := by
  have hpending := pending_run e (ofScene scene) events
  rw [h.pending, List.append_nil] at hpending
  exact ⟨h.delivered_eq_ran.symm.trans (delivered_run e (ofScene scene) events), hpending⟩

theorem deliversOnce (e : Estimator ω) (scene : Scene ω) (events : List Event) :
    DeliversOnce e (ofScene scene) events where
  delivered := delivered_run e (ofScene scene) events
  accounted := pending_run e (ofScene scene) events
  settled := ran_of_settled scene
  settles := by
    intro turns hturns
    obtain ⟨more, hmore, hend⟩ := exists_turns_settled e ((ofScene scene).run e (events ++ turns))
    have hleft := hmore.turnsLeft_run
    rw [settled_iff.mp hend, Nat.zero_add] at hleft
    have hcount := hturns.turnsLeft_run
    rw [← run_append, ← hleft, Nat.add_comm] at hcount
    rw [← run_append] at hend
    obtain ⟨hran, hserved⟩ := ran_of_settled scene hend
    rw [asked_append, asked_append, hturns.asked_eq_nil, hmore.asked_eq_nil, List.append_nil,
      List.append_nil] at hserved
    exact ⟨more, hmore, hcount, hend, hran, hserved⟩

end Stage

namespace Estimator

variable {ω : Type}

/-- Paying nothing is refused on the spot, awaited or not: nothing is asked of the source and
no snapshot is taken. -/
structure RefusesOutright (e : Estimator ω) (level : FeeLevel) (amount : Amount) : Prop where
  estimate : ∀ scene, (e.estimate amount level).run.run scene =
    (.error (.invalidInput "amount must be positive"), scene)
  totalFee : ∀ scene, (e.totalFee amount level).run.run scene =
    (.error (.invalidInput "amount must be positive"), scene)
  needsConsolidation : ∀ scene, (e.needsConsolidation amount level).run.run scene =
    (.error (.invalidInput "amount must be positive"), scene)
  completion : ∀ (x : Stage ω) (ticket : Ticket),
    ticket.query = .totalFee amount level ∨ ticket.query = .needsConsolidation amount level →
    let y := x.step e (.started ticket)
    y.queue.delivered = x.queue.delivered ++
        [⟨ticket.number, .error (.invalidInput "amount must be positive")⟩] ∧
      y.pending = x.pending ∧ ∃ lines, y.scene = x.scene.write lines

theorem refusesOutright_of_zero (e : Estimator ω) (level : FeeLevel) {amount : Amount}
    (h : amount.value = 0) : e.RefusesOutright level amount where
  estimate := fun _ => run_estimate_of_zero h
  totalFee := fun _ => by
    rw [totalFee, Activity.run_map, run_estimate_of_zero h]
    rfl
  needsConsolidation := fun _ => by
    rw [needsConsolidation, Activity.run_map, run_estimate_of_zero h]
    rfl
  completion := by
    intro x ticket hquery y
    have hcheck : ticket.query.check = .error (.invalidInput "amount must be positive") := by
      rcases hquery with hquery | hquery <;> rw [hquery] <;> exact if_pos h
    rw [show y = _ from Stage.start_of_error hcheck]
    exact ⟨CallbackQueue.delivered_deliver_inside _ _ _, rfl, _, rfl⟩

/-- An estimator does what its selector says of the records held when the fee arrives.

A transferable amount fails as the selector does, for an overflow or for fees that are too high.
Paying nothing is refused outright; of anything else the fees are estimated, and only a lack of
balance is reported.  A query that is started with a callback is served once, with the result
that awaiting it yields. -/
theorem selects_on_arrival (e : Estimator ω) (level : FeeLevel) (token : TokenId)
    (amount : Amount) :
    (e.SelectsOnArrival level token SelectionError.toFailure (e.selector.transferable token)
        (e.transferable token level) ∧
      ∀ rule records error, e.selector.transferable token rule records = .error error →
        error.kind = .balanceOverflow ∧ error.toFailure = .balanceOverflow error.reason ∨
        error.kind = .feeExceedsBalance ∧ error.toFailure = .feeExceedsBalance error.reason) ∧
    (amount.value = 0 → e.RefusesOutright level amount) ∧
    (amount.value ≠ 0 →
      let estimate := e.selector.estimate amount
      e.SelectsOnArrival level amount.token SelectionError.toEstimateFailure estimate
          (e.estimate amount level) ∧
        e.SelectsOnArrival level amount.token SelectionError.toEstimateFailure
          (fun rule records => (estimate rule records).map FeeEstimate.totalFee)
          (e.totalFee amount level) ∧
        e.SelectsOnArrival level amount.token SelectionError.toEstimateFailure
          (fun rule records => (estimate rule records).map FeeEstimate.needsConsolidation)
          (e.needsConsolidation amount level) ∧
        ∀ rule records error, estimate rule records = .error error →
          error.toEstimateFailure = .insufficientBalance error.reason) ∧
    ∀ scene events, Stage.DeliversOnce e (.ofScene scene) events := by
  refine ⟨⟨e.transferable_selectsOnArrival level token, ?_⟩, ?_, ?_, Stage.deliversOnce e⟩
  · intro rule records error herror
    rcases Selector.kind_of_transferable herror with hkind | hkind
    · exact Or.inl ⟨hkind, by rw [SelectionError.toFailure, hkind]; rfl⟩
    · exact Or.inr ⟨hkind, by rw [SelectionError.toFailure, hkind]; rfl⟩
  · exact e.refusesOutright_of_zero level
  · intro hpositive estimate
    have hestimate := e.estimate_selectsOnArrival level hpositive
    refine ⟨hestimate, hestimate.map _, hestimate.map _, ?_⟩
    intro rule records error herror
    exact SelectionError.toEstimateFailure_of_ne
      (Selector.kind_ne_of_estimate hpositive herror)

/-- A third ten that turns up while the fee is fetched is merged and spent; the first of them,
which is spent later, still counts.  Paying nothing leaves the scene alone. -/
theorem selects_on_arrival_three_tens :
    let found : FeeReply := ⟨.ok (.fixed 2), 5, [.observed (.numbered 10 2 .mob 0)], []⟩
    let e : Estimator ℕ := ⟨.prepared [] found, .ofLimit 2⟩
    let first : Record := .numbered 10 0 .mob 0
    let opening : Scene ℕ := .start (.ofRecords [first, .numbered 10 1 .mob 0]) 0
    let (outcome, after) := (e.estimate ⟨25, .mob⟩ .standard).run.run opening
    (0 : UInt64) = 0 ∧
      (e.estimate ⟨0, .mob⟩ .standard).run.run opening =
        (.error (.invalidInput "amount must be positive"), opening) ∧
      (25 : UInt64) ≠ 0 ∧ outcome = .ok ⟨4, true, 1⟩ ∧
      (after.change [.spent [first.keyImage]]).account.size = 2 := by
  intro found e first opening
  obtain ⟨-, hzero, -⟩ := selects_on_arrival e .standard .mob ⟨0, .mob⟩
  obtain ⟨-, -, hpositive, -⟩ := selects_on_arrival e .standard .mob ⟨25, .mob⟩
  obtain ⟨houtcome, -, hlater⟩ := (hpositive (by decide)).1.selected opening []
    [.spent [first.keyImage]] (.fixed 2) rfl
  exact ⟨rfl, (hzero rfl).estimate opening, by decide, houtcome.trans (by cbv),
    (congrArg Account.size hlater).trans (by cbv)⟩

end Estimator
end SpendPlanner
