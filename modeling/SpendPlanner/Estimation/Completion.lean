import SpendPlanner.CallbackQueue
import SpendPlanner.Estimation.Estimator

/-!
# Estimates with completions

A query can be started without waiting; its result is then delivered to a callback.  A query
that is started becomes a task, which computes its result and delivers it, and the worker of the
queue runs the callbacks.  In what order tasks and worker get their turns is for the runtime to
say.  A payment of nothing is not computed but delivered when it is asked for.
-/

namespace SpendPlanner

/-- Something an estimator can be asked and called back for. -/
inductive Query where
  | transferable (token : TokenId) (level : FeeLevel)
  | totalFee (amount : Amount) (level : FeeLevel)
  | needsConsolidation (amount : Amount) (level : FeeLevel)

/-- The answer to a query. -/
inductive Query.Answer where
  | amount (value : UInt64)
  | flag (value : Bool)

/-- The failure that makes computing a query needless, if there is one. -/
def Query.check : Query → Except Failure Unit
  | transferable _ _ => .ok ()
  | totalFee amount _ | needsConsolidation amount _ => Estimator.checkPositive amount

/-- Answers a query. -/
def Estimator.answer {ω : Type} (e : Estimator ω) : Query → Estimating ω Query.Answer
  | .transferable token level => .amount <$> e.transferable token level
  | .totalFee amount level => .amount <$> e.totalFee amount level
  | .needsConsolidation amount level => .flag <$> e.needsConsolidation amount level

/-- A query with the number its callback is known by. -/
structure Ticket where
  number : Nat
  query : Query
  /-- How the callback ends, which is up to it once it has been given the result. -/
  ending : Except Failure Query.Answer → Ending

/-- What a callback is given. -/
structure Completion where
  number : Nat
  result : Except Failure Query.Answer

/-- The callback of a ticket with its result. -/
def Ticket.callback (ticket : Ticket) (result : Except Failure Query.Answer) :
    Callback Completion :=
  ⟨⟨ticket.number, result⟩, ticket.ending result⟩

/-- A scene with the queries that are under way, and the queue their completions are delivered
through. -/
structure Stage (ω : Type) where
  scene : Scene ω
  /-- The tickets whose results are still to be computed, in the order they were started. -/
  pending : List Ticket
  queue : CallbackQueue Completion

namespace Stage

variable {ω : Type}

/-- A scene before anything has been started. -/
def ofScene (scene : Scene ω) : Stage ω := ⟨scene, [], .empty⟩

/-- The runtime that every task of a stage lives on. -/
def runtime : Nat := 0

/-- Delivers the result of a ticket. -/
def deliver (stage : Stage ω) (ticket : Ticket) (result : Except Failure Query.Answer) :
    Stage ω :=
  let (queue, lines) := stage.queue.deliver (.inside runtime) (ticket.callback result)
  ⟨stage.scene.write lines, stage.pending, queue⟩

/-- Starts the query of a ticket, unless there is nothing to compute. -/
def start (stage : Stage ω) (ticket : Ticket) : Stage ω :=
  match ticket.query.check with
  | .ok () => { stage with pending := stage.pending ++ [ticket] }
  | .error failure => stage.deliver ticket (.error failure)

/-- Computes the result of the ticket that stands at a place among those that are pending, and
delivers it. -/
def compute (stage : Stage ω) (e : Estimator ω) (place : Nat) : Stage ω :=
  match stage.pending[place]? with
  | some ticket =>
    let (result, scene) := (e.answer ticket.query).run.run stage.scene
    Stage.deliver ⟨scene, stage.pending.eraseIdx place, stage.queue⟩ ticket result
  | none => stage

/-- Lets the worker run the callback that has waited longest. -/
def work (stage : Stage ω) : Stage ω :=
  let (queue, lines) := stage.queue.stepWorker
  ⟨stage.scene.write lines, stage.pending, queue⟩

end Stage
end SpendPlanner
