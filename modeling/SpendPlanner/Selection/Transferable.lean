import SpendPlanner.Log
import SpendPlanner.Selection.Error
import SpendPlanner.Selection.Order

/-!
# The transferable amount

The most a single recipient could receive is found among the prefixes of the selection
order: the sum of a prefix less the fee of sending all of it.  A prefix longer than the
limit is first merged, each merge replacing as many values as the limit by one, so its fee
follows from the number of merges and the number of values that remain.
-/

namespace SpendPlanner.Selector

/-- How many merges of `limit` values bring `k` values down to the limit. -/
def mergesNeeded (s : Selector) (k : Nat) : Nat :=
  (k - s.limit + (s.limit - 2)) / (s.limit - 1)

/-- How many values remain once `k` values have been brought down to the limit. -/
def remainingAfterMerges (s : Selector) (k : Nat) : Nat :=
  k - s.mergesNeeded k * (s.limit - 1)

/-- The fee of sending `k` values to one recipient, merging first where they are too many. -/
def gatherFee (s : Selector) (rule : FeeRule) (k : Nat) : UInt64 :=
  if k ≤ s.limit then rule ⟨k, gatherOutputs⟩
  else
    let mergeFee := rule ⟨s.limit, gatherOutputs⟩
    let sendFee := rule ⟨s.remainingAfterMerges k, gatherOutputs⟩
    clip (mergeFee.toNat * s.mergesNeeded k + sendFee.toNat)

/-- What the `k` leading values leave a recipient, zero where the fee takes it all. -/
def netOfLeading (s : Selector) (rule : FeeRule) (values : List UInt64) (k : Nat) : Nat :=
  total (values.take k) - (s.gatherFee rule k).toNat

/-- The most that any number of leading values leaves a recipient. -/
def bestNet (s : Selector) (rule : FeeRule) (values : List UInt64) : Nat :=
  ((List.range' 1 values.length).map (s.netOfLeading rule values)).foldl max 0

/-- The largest amount a single recipient could receive. -/
def transferable (s : Selector) (token : TokenId) (rule : FeeRule) (records : List Record) :
    Except SelectionError UInt64 :=
  let values := Record.values (spendingOrder token records)
  match checkedSum values with
  | .error _ => .error (.recordsOverflow values.length token)
  | .ok balance =>
    let least := rule ⟨1, gatherOutputs⟩
    if balance ≤ least then .error (.feeCoversBalance least balance)
    else if s.bestNet rule values = 0 then .error (.nothingLeft values.length)
    else .ok (clip (s.bestNet rule values))

/-- The log of finding the largest transferable amount. -/
def transferableLog (s : Selector) (token : TokenId) (rule : FeeRule)
    (records : List Record) : List Log.Line :=
  match s.transferable token rule records with
  | .error _ => []
  | .ok amount =>
    let values := Record.values (spendingOrder token records)
    [⟨.debug, ["Transferable ", token.name, ": ", Log.hidden (Decimal.text amount.toNat),
      " of ", Log.hidden (Decimal.text (total values)), " from ",
      Decimal.text values.length, " records"]⟩]

end SpendPlanner.Selector
