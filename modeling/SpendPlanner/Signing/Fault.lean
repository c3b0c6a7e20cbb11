import SpendPlanner.Signing.Backend

/-!
# Faulty backends

A fault makes one call of every session go wrong: it fails with a given error, or it returns
nothing where something was built.  Calls that no fault strikes are answered as ever.
-/

namespace SpendPlanner

/-- What goes wrong in a call. -/
inductive FaultEffect where
  /-- The call fails before the backend hears of it. -/
  | fails (error : BackendFailure)
  /-- An output comes back empty; a transaction comes back empty unheard by the backend. -/
  | empties

/-- A fault of one call of every session. -/
structure Fault where
  operation : Operation
  /-- How many calls of the operation go well before the fault. -/
  after : Nat
  effect : FaultEffect

/-- The memory of a faulty backend. -/
structure Faulty (σ : Type) where
  inner : σ
  /-- The operations of the open session. -/
  made : List Operation

namespace Fault

/-- Whether the fault strikes a call, given the operations made before it. -/
def strikes (fault : Fault) (made : List Operation) (operation : Operation) : Bool :=
  operation = fault.operation && made.count operation = fault.after

/-- What the fault's effect makes of a call that it strikes. -/
def struck {σ : Type} (backend : Backend σ) :
    FaultEffect → (call : Call) → σ → Except BackendFailure call.Reply × σ
  | .fails error, _, s => (.error error, s)
  | .empties, .addInput viewKey spendKey realIndex ring, s =>
    backend.answer (.addInput viewKey spendKey realIndex ring) s
  | .empties, .addOutput recipient amount, s =>
    let (outcome, s) := backend.answer (.addOutput recipient amount) s
    (outcome.map fun (output : BuiltOutput) => { output with txOut := [] }, s)
  | .empties, .addChange account amount, s =>
    let (outcome, s) := backend.answer (.addChange account amount) s
    (outcome.map fun (output : BuiltOutput) => { output with txOut := [] }, s)
  | .empties, .finalize, s => (.ok [], s)

/-- The backend with faults; of several that strike one call the first decides. -/
def inject {σ : Type} (faults : List Fault) (sound : Backend σ) : Backend (Faulty σ) where
  openSession session s := ⟨sound.openSession session s.inner, []⟩
  answer call s :=
    let (outcome, inner) :=
      match faults.find? fun fault => fault.strikes s.made call.operation with
      | some fault => struck sound fault.effect call s.inner
      | none => sound.answer call s.inner
    (outcome, ⟨inner, call.operation :: s.made⟩)
  release s := ⟨sound.release s.inner, s.made⟩

end Fault
end SpendPlanner
