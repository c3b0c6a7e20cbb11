import SpendPlanner.FeeSource
import SpendPlanner.Selection.Payment
import SpendPlanner.Selection.Transferable

/-!
# Estimates

An estimate asks the fee source first and then works on the records the account holds when
the fee arrives, whatever happened to it meanwhile.  A payment of nothing is refused before
anything is asked.
-/

namespace SpendPlanner

/-- What estimates work on. -/
structure Scene (ω : Type) where
  account : Account
  /-- The memory of the fee source. -/
  source : ω
  /-- The time in milliseconds. -/
  clock : Nat
  log : List Log.Line

namespace Scene

variable {ω : Type}

/-- An account before anything has happened. -/
def start (account : Account) (source : ω) : Scene ω := ⟨account, source, 0, []⟩

/-- The scene with lines added to the log. -/
def write (scene : Scene ω) (lines : List Log.Line) : Scene ω :=
  { scene with log := scene.log ++ lines }

end Scene

/-- A fee source with the selector that spends at its fees. -/
structure Estimator (ω : Type) where
  source : FeeSource ω
  selector : Selector

/-- An activity on a scene that may fail. -/
abbrev Estimating (ω : Type) := ExceptT Failure (StateM (Scene ω))

/-- The failure of estimating a fee: anything but a zero amount is a lack of balance. -/
def SelectionError.toEstimateFailure (e : SelectionError) : Failure :=
  match e.kind with
  | .invalidAmount => .invalidInput e.reason
  | .insufficientBalance | .balanceOverflow | .feeExceedsBalance =>
    .insufficientBalance e.reason

namespace Estimator

variable {ω α : Type}

/-- Adds lines to the log. -/
def write (lines : List Log.Line) : Estimating ω Unit := modify (·.write lines)

/-- Asks the fee source, letting happen what happens meanwhile. -/
def askSource (e : Estimator ω) (level : FeeLevel) (token : TokenId) :
    Estimating ω (Except FeeSourceError FeeRule) :=
  modifyGet fun scene =>
    let (reply, source) := e.source.ask level token scene.clock scene.source
    (reply.answer,
      { account := scene.account.applyChanges reply.changes
        source := source
        clock := scene.clock + reply.took
        log := scene.log ++ reply.log })

/-- The fee rule, and the records that are held once it has arrived. -/
def fetch (e : Estimator ω) (level : FeeLevel) (token : TokenId) :
    Estimating ω (FeeRule × List Record) := do
  match ← e.askSource level token with
  | .error error =>
    write [⟨.warn, ["Fee strategy fetch failed for ", level.name, " ", token.name, ": ",
      error.message]⟩]
    throw (.connection error)
  | .ok rule =>
    let scene ← get
    write [scene.account.snapshotLine token]
    return (rule, scene.account.ofToken token)

/-- Goes on with the value of a selection, or fails as the given reading of its error says. -/
def accept (reading : SelectionError → Failure) :
    Except SelectionError α → Estimating ω α
  | .ok a => pure a
  | .error error => throw (reading error)

/-- The largest amount a single recipient could receive. -/
def transferable (e : Estimator ω) (token : TokenId) (level : FeeLevel) :
    Estimating ω UInt64 := do
  let (rule, records) ← e.fetch level token
  write (e.selector.transferableLog token rule records)
  let amount ← accept SelectionError.toFailure (e.selector.transferable token rule records)
  write [⟨.info, ["Amount transferable (", level.name, " ", token.name, "): ",
    Log.hidden (Decimal.text amount.toNat)]⟩]
  return amount

/-- Refuses to pay nothing. -/
def checkPositive (amount : Amount) : Except Failure Unit :=
  if amount.value = 0 then .error (.invalidInput "amount must be positive") else .ok ()

/-- The fees of paying an amount. -/
def estimate (e : Estimator ω) (amount : Amount) (level : FeeLevel) :
    Estimating ω FeeEstimate := do
  checkPositive amount
  let (rule, records) ← e.fetch level amount.token
  write (e.selector.estimateLog amount rule records)
  let estimate ← accept SelectionError.toEstimateFailure
    (e.selector.estimate amount rule records)
  write [⟨.info, ["Estimated fee for ", Log.hidden amount.text, ": ",
    Decimal.text estimate.totalFee.toNat, " (defrag: ",
    if estimate.needsConsolidation then "true" else "false", ")"]⟩]
  return estimate

/-- The total fee of paying an amount. -/
def totalFee (e : Estimator ω) (amount : Amount) (level : FeeLevel) : Estimating ω UInt64 :=
  FeeEstimate.totalFee <$> e.estimate amount level

/-- Whether paying an amount takes consolidations first. -/
def needsConsolidation (e : Estimator ω) (amount : Amount) (level : FeeLevel) :
    Estimating ω Bool :=
  FeeEstimate.needsConsolidation <$> e.estimate amount level

end Estimator
end SpendPlanner
