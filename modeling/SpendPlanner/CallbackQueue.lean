import SpendPlanner.Log

/-!
# Delivering completions

Callbacks are run one at a time, in the order they are delivered.  Inside a runtime a worker
runs them; it is started with the first callback and lives on the runtime it was started on,
until that runtime is dropped together with whatever the worker has not yet run.  The next
callback then starts a new worker.  Outside any runtime a callback runs at once.
-/

namespace SpendPlanner

/-- How a callback ends. -/
inductive Ending where
  | returns
  | panics (message : String)
  /-- The callback panics with something that is no text. -/
  | panicsOddly

/-- A callback, known by a value. -/
structure Callback (α : Type) where
  value : α
  ending : Ending

/-- The line that is written of a panic. -/
def panicLine (message : String) : Log.Line := ⟨.error, ["Completion callback panicked: ", message]⟩

/-- The log of an ending: a panic is contained and written down. -/
def Ending.log : Ending → List Log.Line
  | returns => []
  | panics message => [panicLine message]
  | panicsOddly => [panicLine "non-string panic payload"]

/-- The log of running a callback. -/
def Callback.log {α : Type} (callback : Callback α) : List Log.Line := callback.ending.log

/-- Where a callback is delivered from. -/
inductive Caller where
  | outside
  | inside (runtime : Nat)
  /-- From a runtime that is shutting down and starts nothing more. -/
  | closing

/-- What a queue knows of its worker. -/
inductive Worker (α : Type) where
  /-- No worker has been started, or the last one has been given up. -/
  | none
  /-- The worker lives on a runtime and has callbacks waiting. -/
  | alive (runtime : Nat) (waiting : List (Callback α))
  /-- The runtime of the worker has been dropped. -/
  | gone

/-- A queue of callbacks, with what has run of them. -/
structure CallbackQueue (α : Type) where
  worker : Worker α
  /-- The callbacks that have run, in the order they did. -/
  ran : List α

namespace CallbackQueue

variable {α : Type}

/-- A queue nothing has been delivered to. -/
def empty : CallbackQueue α := ⟨.none, []⟩

/-- Runs a callback on the spot. -/
def runAtOnce (callback : Callback α) (q : CallbackQueue α) : CallbackQueue α × List Log.Line :=
  ({ q with ran := q.ran ++ [callback.value] }, callback.log)

/-- Delivers a callback while there is no worker. -/
def deliverAnew (caller : Caller) (callback : Callback α) (q : CallbackQueue α) :
    CallbackQueue α × List Log.Line :=
  match caller with
  | .inside runtime => ({ q with worker := .alive runtime [callback] }, [])
  | .outside | .closing => runAtOnce callback { q with worker := .none }

/-- Delivers a callback. -/
def deliver (caller : Caller) (callback : Callback α) (q : CallbackQueue α) :
    CallbackQueue α × List Log.Line :=
  match q.worker with
  | .alive runtime waiting =>
    ({ q with worker := .alive runtime (waiting ++ [callback]) }, [])
  | .none => deliverAnew caller callback q
  | .gone =>
    let (q, lines) := deliverAnew caller callback q
    (q, ⟨.warn, ["Delivery task stopped; restarting"]⟩ :: lines)

/-- Lets the worker run the callback that has waited longest. -/
def stepWorker (q : CallbackQueue α) : CallbackQueue α × List Log.Line :=
  match q.worker with
  | .alive runtime (callback :: waiting) =>
    runAtOnce callback { q with worker := .alive runtime waiting }
  | .alive _ [] | .none | .gone => (q, [])

/-- Drops a runtime; what waits for a worker on it is lost. -/
def dropRuntime (runtime : Nat) (q : CallbackQueue α) : CallbackQueue α :=
  match q.worker with
  | .alive home _ => if home = runtime then { q with worker := .gone } else q
  | .none | .gone => q

/-- The callbacks that wait for the worker. -/
def waiting (q : CallbackQueue α) : List (Callback α) :=
  match q.worker with
  | .alive _ callbacks => callbacks
  | .none | .gone => []

/-- Closes the queue: its worker runs everything that waits and ends. -/
def close (q : CallbackQueue α) : CallbackQueue α × List Log.Line :=
  match q.worker with
  | .alive _ callbacks =>
    (⟨.none, q.ran ++ callbacks.map Callback.value⟩,
      callbacks.flatMap Callback.log ++ [⟨.debug, ["Delivery queue closed"]⟩])
  | .none | .gone => (q, [])

/-- Something that happens to a queue. -/
inductive Event (α : Type) where
  | delivered (caller : Caller) (callback : Callback α)
  | workerStepped
  | runtimeDropped (runtime : Nat)

/-- The queue after an event, with the log of the event. -/
def apply (q : CallbackQueue α) : Event α → CallbackQueue α × List Log.Line
  | .delivered caller callback => q.deliver caller callback
  | .workerStepped => q.stepWorker
  | .runtimeDropped runtime => (q.dropRuntime runtime, [])

/-- The queue after events in order, with their log. -/
def run (q : CallbackQueue α) : List (Event α) → CallbackQueue α × List Log.Line
  | [] => (q, [])
  | event :: events =>
    let (q, first) := q.apply event
    let (q, rest) := q.run events
    (q, first ++ rest)

end CallbackQueue
end SpendPlanner
