import SpendPlanner.Signing.Transaction

/-!
# Compositions

A composition is the choice of inputs, payments and change of a transaction.  It is checked
against the limits, the account and the fog reports before any backend hears of it.  The
first check, that the inputs are worth exactly what is paid, is on exact sums.
-/

namespace SpendPlanner

/-- Why a composition, or a request that leads to one, is refused. -/
inductive Refusal where
  | unbalanced
  | noOutputs
  | tooManyInputs (count limit : Nat)
  | tooManyOutputs (count limit : Nat)
  | tokenUnsupported (version : BlockVersion) (token : TokenId)
  | ringTooLarge (size limit : Nat)
  | fogUnsupported (network : Network)
  | fogReportMissing (url : String)
  | tokenMismatch (token feeToken : TokenId)
  | ringEmpty
  | realIndexOutside (index size : Nat)
  | subaddressUnknown
  /-- The inputs are worth no more than the fee. -/
  | nothingToSend
  /-- What the inputs leave for the recipient is no word. -/
  | outputOverflow
  /-- The inputs are worth exactly the fee. -/
  | feeTakesAll
  /-- The inputs are worth less than the payments and the fee. -/
  | inputsTooSmall
  /-- What the payments leave is no word. -/
  | changeOverflow
  | notSinglePayment (count : Nat)
  deriving DecidableEq

namespace Refusal

def reason : Refusal → String
  | unbalanced => "Input values != output values + fee"
  | noOutputs => "no outputs requested"
  | tooManyInputs count limit =>
    Decimal.text count ++ " inputs exceed the limit of " ++ Decimal.text limit
  | tooManyOutputs count limit =>
    Decimal.text count ++ " outputs exceed the limit of " ++ Decimal.text limit
  | tokenUnsupported version token =>
    "block version " ++ version.text ++ " does not support token " ++ token.name
  | ringTooLarge size limit =>
    "ring of " ++ Decimal.text size ++ " exceeds ring size " ++ Decimal.text limit
  | fogUnsupported network => "fog recipients are not supported on " ++ network.name
  | fogReportMissing url => "no fog report for " ++ url
  | tokenMismatch token feeToken =>
    "input token " ++ token.name ++ " does not match fee token " ++ feeToken.name
  | ringEmpty => "input ring is empty"
  | realIndexOutside index size =>
    "real input index " ++ Decimal.text index ++ " outside ring of " ++ Decimal.text size
  | subaddressUnknown => "Tx subaddress index out of bounds"
  | nothingToSend => "Total input amount <= fee"
  | outputOverflow => "Output amount overflows u64"
  | feeTakesAll => "Total input amount == fee"
  | inputsTooSmall => "Total input amount < total output amount + fee"
  | changeOverflow => "Change amount overflows u64"
  | notSinglePayment count =>
    "expected one payment output, transaction has " ++ Decimal.text count

/-- Every refusal is a failure of the input. -/
def toFailure (refusal : Refusal) : Failure := .invalidInput refusal.reason

end Refusal

/-- The terms of a proposal: everything but the inputs, payments and change. -/
structure ProposalTerms where
  account : AccountKey
  /-- The fee, in the token that every input has to be of. -/
  fee : Amount
  tombstone : UInt64
  fog : FogReports
  blockVersion : BlockVersion

namespace ProposalTerms

/-- Terms without fog reports, for the main network's block version. -/
def standard (account : AccountKey) (fee : Amount) (tombstone : UInt64) : ProposalTerms :=
  ⟨account, fee, tombstone, .empty, ProtocolLimits.standard.network.blockVersion⟩

/-- The terms of a transaction built at a block, valid for as long as the limits allow. -/
def atBlock (account : AccountKey) (fee : Amount) (block : UInt64) (limits : ProtocolLimits) :
    ProposalTerms :=
  ⟨account, fee, limits.tombstoneAt block, .empty, limits.network.blockVersion⟩

/-- What a backend is told of a transaction in this terms. -/
def session (terms : ProposalTerms) : SessionTerms :=
  ⟨terms.fee, terms.tombstone, terms.fog, terms.blockVersion⟩

end ProposalTerms

/-- The inputs, payments and change of a transaction. -/
structure Composition where
  inputs : List PreparedInput
  outputs : List PaymentRequest
  change : Option UInt64

/-- The values of inputs. -/
def inputValues (inputs : List PreparedInput) : List UInt64 :=
  inputs.map fun input => input.record.value

/-- The amounts of payments. -/
def requestedAmounts (outputs : List PaymentRequest) : List UInt64 :=
  outputs.map fun output => output.amount.value

/-- Checks the ring and token of an input, and finds the key that spends it. -/
def spendKeyFor (input : PreparedInput) (token : TokenId) (account : AccountKey) :
    Except Refusal PrivateKey :=
  if input.record.token ≠ token then .error (.tokenMismatch input.record.token token)
  else if input.ring.isEmpty then .error .ringEmpty
  else if input.ring.length ≤ input.realIndex then
    .error (.realIndexOutside input.realIndex input.ring.length)
  else
    match account.subaddressKey? input.record.subaddress with
    | some key => .ok key
    | none => .error .subaddressUnknown

/-- Checks that a recipient with fog is on a network that serves it and has a report. -/
def checkFog (limits : ProtocolLimits) (fog : FogReports) (recipient : Address) :
    Except Refusal Unit :=
  match recipient.fog with
  | none => .ok ()
  | some info =>
    if !limits.network.servesFog then .error (.fogUnsupported limits.network)
    else if (fog.find? info.reportUrl).isNone then .error (.fogReportMissing info.reportUrl)
    else .ok ()

/-- Checks that transactions of a block version may spend a token. -/
def checkToken (version : BlockVersion) (token : TokenId) : Except Refusal Unit :=
  if version.supports token then .ok () else .error (.tokenUnsupported version token)

/-- Runs a check on the items of a list up to the first refusal. -/
def checkEach {α : Type} (check : α → Except Refusal Unit) : List α → Except Refusal Unit
  | [] => .ok ()
  | a :: as =>
    match check a with
    | .ok () => checkEach check as
    | .error refusal => .error refusal

namespace Composition

/-- What is spent: the payments, the fee and the change. -/
def spent (c : Composition) (fee : UInt64) : List UInt64 :=
  requestedAmounts c.outputs ++ fee :: c.change.toList

/-- The number of outputs, change included. -/
def outputCount (c : Composition) : Nat := c.outputs.length + c.change.toList.length

/-- Checks the size of a composition against the limits. -/
def checkLimits (c : Composition) (limits : ProtocolLimits) (terms : ProposalTerms) :
    Except Refusal Unit := do
  if limits.maxInputs < c.inputs.length then
    .error (.tooManyInputs c.inputs.length limits.maxInputs)
  if limits.maxOutputs < c.outputCount then
    .error (.tooManyOutputs c.outputCount limits.maxOutputs)
  checkToken terms.blockVersion terms.fee.token
  checkEach (fun input =>
    if limits.ringSize < input.ring.length then
      .error (.ringTooLarge input.ring.length limits.ringSize)
    else .ok ()) c.inputs

/-- Checks a composition, stopping at the first refusal. -/
def check (c : Composition) (limits : ProtocolLimits) (terms : ProposalTerms) :
    Except Refusal Unit := do
  if !Comparison.equal.holds (inputValues c.inputs) (c.spent terms.fee.value) then
    .error .unbalanced
  if c.outputs.isEmpty then .error .noOutputs
  c.checkLimits limits terms
  checkEach (fun output => checkFog limits terms.fog output.recipient) c.outputs
  checkEach (fun input =>
    (spendKeyFor input terms.fee.token terms.account).map fun _ => ()) c.inputs

end Composition
end SpendPlanner
