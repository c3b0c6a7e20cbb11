import SpendPlanner.CommandLine.Arguments
import SpendPlanner.Estimation.Estimator
import SpendPlanner.FeeCache
import SpendPlanner.Selection.Gathering

/-!
# Answering command lines

A command is answered from the configuration and the records of a file.  Of records with one
key image the first counts.  Fees are those of the configured minimum, or else the built-in
one, at the chosen level.
-/

namespace SpendPlanner.CommandLine

/-- The answer to a command. -/
inductive Answer where
  | transferable (token : TokenId) (amount : UInt64)
  | fee (estimate : FeeEstimate)
  | defragmentation (steps : List ReadyMerge)
  | sweep (selection : Sweep)

/-- The global indices of records as JSON. -/
def globalIndices (records : List Record) : Json.Value :=
  Json.encode (records.map Record.globalIndex)

namespace Answer

def toJson : Answer → Json.Value
  | transferable token amount => .ofFields
    [("amount_transferable", Json.encode amount), ("token_id", Json.encode token)]
  | fee estimate => .ofFields
    [("total_fee", Json.encode estimate.totalFee),
     ("requires_defrag", .bool estimate.needsConsolidation),
     ("defrag_transactions", .ofNat estimate.consolidations)]
  | defragmentation steps => .array <| steps.map fun step => .ofFields
    [("fee", Json.encode step.fee),
     ("inputs", globalIndices step.inputs),
     ("output_value", Json.encode step.output)]
  | sweep selection => .ofFields
    [("amount", Json.encode selection.amount),
     ("fee", Json.encode selection.fee),
     ("inputs", globalIndices selection.inputs)]

/-- The answer as it is printed: on one line if it is a single amount. -/
def text (answer : Answer) : String :=
  String.ofList <| match answer with
    | transferable .. => Json.write answer.toJson
    | fee _ | defragmentation _ | sweep _ => Json.writeIndented 0 answer.toJson

end Answer

/-- Why a command has no answer. -/
inductive CommandError where
  | config (error : ConfigError)
  | recordsFile (error : FileError)
  | recordsNotJson
  | failed (failure : Failure)
  | selection (error : SelectionError)

def CommandError.message : CommandError → String
  | config error => error.message
  | recordsFile error => error.message
  | recordsNotJson => Failure.serialization.message
  | failed failure => failure.message
  | selection error => error.message

/-- The configuration of a command line, given the text of its file if there is one. -/
def configurationOf : Option (Except FileError String) → Except CommandError Configuration
  | some text => (Configuration.ofFile text).mapError .config
  | none => .ok .default

/-- The records of a file. -/
def recordsOf : Except FileError String → Except CommandError (List Record)
  | .error error => .error (.recordsFile error)
  | .ok text =>
    match Record.listOfJson? text with
    | some records => .ok records
    | none => .error .recordsNotJson

/-- The estimator that a configuration sets up. -/
def estimatorOf (config : Configuration) : Estimator (FeeCache × Unit) :=
  ⟨.ofConfig config, .ofLimits config.limits⟩

/-- The rule that fees follow under a configuration. -/
def feeRule (config : Configuration) (level : FeeLevel) (token : TokenId) : FeeRule :=
  .fixed (level.apply (servedMinimumFee config.minimumFees token))

/-- Does an estimate on an account nothing else happens to. -/
def estimateOn {α : Type} (account : Account) (activity : Estimating (FeeCache × Unit) α) :
    Except CommandError α × List Log.Line :=
  let (outcome, scene) := activity.run.run (.start account (.empty, ()))
  (outcome.mapError .failed, scene.log)

/-- Answers a command on an account. -/
def answerOn (arguments : Arguments) (config : Configuration) (account : Account) :
    Except CommandError Answer × List Log.Line :=
  let estimator := estimatorOf config
  let rule := feeRule config arguments.level arguments.token
  let records := account.ofToken arguments.token
  match arguments.command with
  | .transferable =>
    let (outcome, log) :=
      estimateOn account (estimator.transferable arguments.token arguments.level)
    (outcome.map (.transferable arguments.token), log)
  | .fee amount =>
    let (outcome, log) :=
      estimateOn account (estimator.estimate ⟨amount, arguments.token⟩ arguments.level)
    let warning := match outcome with
      | .ok estimate =>
        if estimate.needsConsolidation then
          [⟨.warn, ["Send needs ", Decimal.text estimate.consolidations,
            " consolidation transactions first"]⟩]
        else []
      | .error _ => []
    (outcome.map .fee, log ++ warning)
  | .defragment amount =>
    let outcome := estimator.selector.defragment ⟨amount, arguments.token⟩ rule records
    let note := match outcome with
      | .ok [] => [⟨.info, ["No consolidation needed"]⟩]
      | .ok _ | .error _ => []
    ((outcome.map .defragmentation).mapError .selection,
      account.snapshotLine arguments.token :: note)
  | .sweep =>
    let outcome := estimator.selector.sweep arguments.token rule records
    ((outcome.map .sweep).mapError .selection, [account.snapshotLine arguments.token])

/-- Answers a command line, given the texts of its files. -/
def answer (arguments : Arguments) (configText : Option (Except FileError String))
    (recordsText : Except FileError String) : Except CommandError Answer × List Log.Line :=
  match configurationOf configText with
  | .error error => (.error error, [])
  | .ok config =>
    match recordsOf recordsText with
    | .error error => (.error error, [])
    | .ok records =>
      let loaded : Log.Line := ⟨.info, ["Loaded ", Decimal.text records.length,
        " records on ", config.limits.network.name]⟩
      let (outcome, log) := answerOn arguments config (.ofRecords records)
      (outcome, loaded :: log)

end SpendPlanner.CommandLine
