import SpendPlanner.Log
import SpendPlanner.Selection.Consolidation

/-!
# Payments

A payment is priced as one transaction where a prefix within the limit covers it, and
otherwise with the consolidations that have to come first.  Its inputs can be chosen only in
the first case.
-/

namespace SpendPlanner

/-- The price of a payment. -/
inductive Quote where
  /-- One transaction with this many inputs will do. -/
  | single (inputs : Nat) (fee : UInt64)
  /-- These merges have to come first; the fee is that of all transactions. -/
  | consolidated (merges : List Merge) (totalFee : UInt64)
  deriving DecidableEq

/-- The price of a payment without its particulars. -/
structure FeeEstimate where
  totalFee : UInt64
  needsConsolidation : Bool
  consolidations : Nat
  deriving DecidableEq

/-- What a quote says about the fees. -/
def Quote.estimate : Quote → FeeEstimate
  | single _ fee => ⟨fee, false, 0⟩
  | consolidated merges totalFee => ⟨totalFee, true, merges.length⟩

/-- The log line of a quote. -/
def Quote.logLine (amount : Amount) : Quote → Log.Line
  | single inputs _ =>
    ⟨.debug, ["Send of ", Log.hidden amount.text, " fits in one transaction with ",
      Decimal.text inputs, " inputs"]⟩
  | consolidated merges totalFee =>
    ⟨.debug, ["Send of ", Log.hidden amount.text, " needs ", Decimal.text merges.length,
      " consolidation transactions, total fee ", Decimal.text totalFee.toNat]⟩

/-- The inputs of one transaction, with what they are worth, its fee and its change. -/
structure InputSelection where
  inputs : List Record
  total : UInt64
  fee : UInt64
  change : UInt64
  deriving DecidableEq

namespace Selector

/-- Prices the payment of an amount to one recipient. -/
def quote (s : Selector) (amount : Amount) (rule : FeeRule) (records : List Record) :
    Except SelectionError Quote :=
  if amount.value = 0 then .error .zeroAmount
  else
    let values := Record.values (spendingOrder amount.token records)
    match s.fit? rule paymentOutputs amount.value values with
    | some k => .ok (.single k (rule ⟨k, paymentOutputs⟩))
    | none =>
      match s.plan rule amount.value values with
      | .error error => .error error
      | .ok plan =>
        match checkedSum (plan.sendFee :: plan.merges.map Merge.fee) with
        | .error _ => .error .totalFeeOverflow
        | .ok totalFee => .ok (.consolidated plan.merges totalFee)

/-- Estimates the fees of paying an amount, consolidation included. -/
def estimate (s : Selector) (amount : Amount) (rule : FeeRule) (records : List Record) :
    Except SelectionError FeeEstimate :=
  (s.quote amount rule records).map Quote.estimate

/-- The log of estimating the fees of a payment. -/
def estimateLog (s : Selector) (amount : Amount) (rule : FeeRule) (records : List Record) :
    List Log.Line :=
  match s.quote amount rule records with
  | .error _ => []
  | .ok quote => [quote.logLine amount]

/-- Chooses the inputs of one transaction that pays every amount of a list. -/
def selectPaying (s : Selector) (token : TokenId) (amounts : List UInt64)
    (rule : FeeRule) (records : List Record) : Except SelectionError InputSelection :=
  if amounts.isEmpty then .error .noOutputs
  else if 0 ∈ amounts then .error .zeroAmount
  else
    match checkedSum amounts with
    | .error _ => .error .outlayOverflow
    | .ok outlay =>
      let ordered := spendingOrder token records
      let values := Record.values ordered
      let outputs := amounts.length + 1
      match s.fit? rule outputs outlay values with
      | none =>
        if outlay.toNat + (rule ⟨1, outputs⟩).toNat ≤ SpendPlanner.total values then
          .error (.needsConsolidation (min s.limit values.length) outlay)
        else .error (.balanceTooSmall outlay)
      | some k =>
        let fee := rule ⟨k, outputs⟩
        match checkedSum (values.take k) with
        | .error error => .error (.arithmetic error)
        | .ok total =>
          match checkedDifference [total] [outlay, fee] with
          | .error error => .error (.arithmetic error)
          | .ok change => .ok ⟨ordered.take k, total, fee, change⟩

/-- Chooses the inputs of one transaction that pays an amount to one recipient. -/
def select (s : Selector) (amount : Amount) (rule : FeeRule) (records : List Record) :
    Except SelectionError InputSelection :=
  s.selectPaying amount.token [amount.value] rule records

/-- The log line of a selection. -/
def selectionLine (selection : InputSelection) : Log.Line :=
  ⟨.info, ["Selected ", Decimal.text selection.inputs.length, " inputs, total=",
    Log.hidden (Decimal.text selection.total.toNat), ", fee=",
    Decimal.text selection.fee.toNat, ", change=",
    Log.hidden (Decimal.text selection.change.toNat)]⟩

/-- The log of choosing the inputs of a transaction. -/
def selectPayingLog (s : Selector) (token : TokenId) (amounts : List UInt64)
    (rule : FeeRule) (records : List Record) : List Log.Line :=
  match s.selectPaying token amounts rule records with
  | .error _ => []
  | .ok selection => [selectionLine selection]

/-- The log of choosing the inputs of a payment to one recipient. -/
def selectLog (s : Selector) (amount : Amount) (rule : FeeRule) (records : List Record) :
    List Log.Line :=
  s.selectPayingLog amount.token [amount.value] rule records

end Selector
end SpendPlanner
