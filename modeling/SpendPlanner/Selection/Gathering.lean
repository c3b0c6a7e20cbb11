import SpendPlanner.Selection.Consolidation

/-!
# Gathering records

Of the merges a payment needs, those that spend records alone can be built at once; the
others wait until these have landed.  A sweep sends the largest records that one transaction
may spend, all of them, to one recipient.
-/

namespace SpendPlanner

/-- A consolidation transaction that spends records only. -/
structure ReadyMerge where
  inputs : List Record
  fee : UInt64
  output : UInt64
  deriving DecidableEq

/-- The inputs of a sweep, its fee and what is left for the recipient. -/
structure Sweep where
  inputs : List Record
  fee : UInt64
  amount : UInt64
  deriving DecidableEq

/-- The record an origin stands for, unless it is the output of a merge. -/
def Origin.record? (ordered : List Record) : Origin → Option Record
  | record place => ordered[place]?
  | merged _ => none

/-- The step of a merge, if it spends records only. -/
def Merge.step? (ordered : List Record) (m : Merge) : Option ReadyMerge := do
  let inputs ← m.origins.mapM (Origin.record? ordered)
  return ⟨inputs, m.fee, m.output⟩

namespace Selector

/-- The consolidations that can be built now for a payment of an amount.  There are none
where the payment already fits in one transaction. -/
def defragment (s : Selector) (amount : Amount) (rule : FeeRule) (records : List Record) :
    Except SelectionError (List ReadyMerge) :=
  if amount.value = 0 then .error .zeroAmount
  else
    let ordered := spendingOrder amount.token records
    let values := Record.values ordered
    match s.fit? rule paymentOutputs amount.value values with
    | some _ => .ok []
    | none =>
      match s.plan rule amount.value values with
      | .error error => .error error
      | .ok plan => .ok (plan.merges.filterMap (Merge.step? ordered))

/-- Chooses the inputs of one transaction that sends as much as it can. -/
def sweep (s : Selector) (token : TokenId) (rule : FeeRule) (records : List Record) :
    Except SelectionError Sweep :=
  let ordered := spendingOrder token records
  if ordered.isEmpty then .error (.noTokenRecords token)
  else
    let inputs := ordered.take s.limit
    match checkedSum (Record.values inputs) with
    | .error error => .error (.arithmetic error)
    | .ok total =>
      let fee := rule ⟨inputs.length, gatherOutputs⟩
      if total ≤ fee then .error (.feeCoversBalance fee total)
      else .ok ⟨inputs, fee, total - fee⟩

end Selector
end SpendPlanner
