import SpendPlanner.Signing.Draft

/-!
# Transaction proposals

A proposer checks a composition against its limits and then builds it in a session of its
own.  The other requests work out the one composition that balances: the change that is left
over, or the single payment that takes everything.
-/

namespace SpendPlanner

/-- The transaction as one with a single payment. -/
def BuiltTransaction.single (built : BuiltTransaction) : Except Refusal SinglePayment :=
  match built.payments with
  | [payment] => .ok ⟨built.transaction, payment, built.change⟩
  | payments => .error (.notSinglePayment payments.length)

/-- A backend with the limits its transactions have to keep. -/
structure Proposer (σ : Type) where
  backend : Backend σ
  limits : ProtocolLimits

namespace Proposer

variable {σ : Type}

/-- The log line that opens the building of a composition. -/
def buildingLine (c : Composition) (terms : ProposalTerms) : Log.Line where
  severity := .info
  parts := [
    "Building transaction: ", Decimal.text c.inputs.length, " inputs, ",
    Decimal.text c.outputs.length, " outputs, fee ", terms.fee.text, ", change ",
    match c.change with
    | some change => Log.hidden (Decimal.text change.toNat)
    | none => "none",
    ", block version ", terms.blockVersion.text]

/-- Makes the calls for a composition on the open session. -/
def drive (p : Proposer σ) (c : Composition) (terms : ProposalTerms) :
    Signing σ BuiltTransaction := do
  let draft ← c.inputs.foldlM
    (fun draft input => draft.addInput p.backend terms.account input)
    (Draft.ofSession terms.session)
  let payments ← c.outputs.mapM fun output =>
    draft.addOutput p.backend output.recipient output.amount.value
  let change ← match c.change with
    | some amount => some <$> draft.addChange p.backend terms.account amount
    | none => pure none
  let transaction ← draft.finalize p.backend
  return ⟨transaction, payments, change⟩

/-- Builds a composition that passes every check. -/
def build (p : Proposer σ) (c : Composition) (terms : ProposalTerms) :
    Signing σ BuiltTransaction := do
  Signing.accept (c.check p.limits terms)
  Signing.write (buildingLine c terms)
  let built ← Signing.inSession p.backend terms.session (p.drive c terms)
  Signing.write ⟨.info, ["Built transaction ", built.transaction.id.text]⟩
  return built

/-- What the payments and the fee leave of the inputs. -/
def changeOf (inputs : List PreparedInput) (outputs : List PaymentRequest) (fee : UInt64) :
    Except Refusal UInt64 :=
  match checkedDifference (inputValues inputs) (requestedAmounts outputs ++ [fee]) with
  | .ok change => .ok change
  | .error .underflow => .error .inputsTooSmall
  | .error .overflow => .error .changeOverflow

/-- Makes payments and returns what they leave as change, which may be zero. -/
def toOutputs (p : Proposer σ) (inputs : List PreparedInput) (outputs : List PaymentRequest)
    (terms : ProposalTerms) : Signing σ BuiltTransaction := do
  let change ← Signing.accept (changeOf inputs outputs terms.fee.value)
  p.build ⟨inputs, outputs, some change⟩ terms

/-- Makes one payment and returns what it leaves as change. -/
def toRecipient (p : Proposer σ) (inputs : List PreparedInput) (recipient : Address)
    (amount : PositiveWord) (terms : ProposalTerms) : Signing σ SinglePayment := do
  let built ← p.toOutputs inputs [⟨recipient, amount⟩] terms
  Signing.accept built.single

/-- What the fee leaves of the inputs. -/
def remainderOf (inputs : List PreparedInput) (fee : UInt64) : Except Refusal PositiveWord :=
  if !Comparison.greater.holds (inputValues inputs) [fee] then .error .nothingToSend
  else
    match checkedDifference (inputValues inputs) [fee] with
    | .error _ => .error .outputOverflow
    | .ok remainder =>
      match PositiveWord.ofWord? remainder with
      | some amount => .ok amount
      | none => .error .feeTakesAll

/-- Sends everything the inputs are worth, less the fee, to one recipient. -/
def sendingAllTo (p : Proposer σ) (inputs : List PreparedInput) (recipient : Address)
    (terms : ProposalTerms) : Signing σ SinglePayment := do
  let amount ← Signing.accept (remainderOf inputs terms.fee.value)
  let built ← p.build ⟨inputs, [⟨recipient, amount⟩], none⟩ terms
  Signing.accept built.single

/-- Builds an output with its receipt, outside any transaction. -/
def standaloneOutput (p : Proposer σ) (recipient : Address) (amount : Amount)
    (tombstone : UInt64) (fog : FogReports) (version : BlockVersion) :
    Signing σ OutputContext := do
  Signing.accept (checkFog p.limits fog recipient)
  Signing.accept (checkToken version amount.token)
  let session : SessionTerms := ⟨⟨0, amount.token⟩, tombstone, fog, version⟩
  Signing.inSession p.backend session
    ((Draft.ofSession session).addOutput p.backend recipient amount.value)

/-- Something that is asked of a proposer. -/
inductive Request where
  | build (composition : Composition) (terms : ProposalTerms)
  | toOutputs (inputs : List PreparedInput) (outputs : List PaymentRequest)
      (terms : ProposalTerms)
  | toRecipient (inputs : List PreparedInput) (recipient : Address) (amount : PositiveWord)
      (terms : ProposalTerms)
  | sendingAllTo (inputs : List PreparedInput) (recipient : Address)
      (terms : ProposalTerms)
  | standaloneOutput (recipient : Address) (amount : Amount) (tombstone : UInt64)
      (fog : FogReports) (version : BlockVersion)

/-- What comes of a request. -/
inductive Proposal where
  | transaction (built : BuiltTransaction)
  | single (payment : SinglePayment)
  | output (context : OutputContext)

/-- Answers a request. -/
def perform (p : Proposer σ) : Request → Signing σ Proposal
  | .build composition terms => .transaction <$> p.build composition terms
  | .toOutputs inputs outputs terms => .transaction <$> p.toOutputs inputs outputs terms
  | .toRecipient inputs recipient amount terms =>
    .single <$> p.toRecipient inputs recipient amount terms
  | .sendingAllTo inputs recipient terms => .single <$> p.sendingAllTo inputs recipient terms
  | .standaloneOutput recipient amount tombstone fog version =>
    .output <$> p.standaloneOutput recipient amount tombstone fog version

/-- Answers requests one after the other; one that stops does not keep the next from being
answered. -/
def run (p : Proposer σ) :
    List Request → Exchange σ → List (Except Stop Proposal) × Exchange σ
  | [], x => ([], x)
  | request :: requests, x =>
    let (outcome, x) := (p.perform request).run.run x
    let (outcomes, x) := p.run requests x
    (outcome :: outcomes, x)

end Proposer
end SpendPlanner
