import SpendPlanner.Amount
import SpendPlanner.Failure

/-!
# Why a selection fails

Each cause belongs to one of four kinds and has its own text.
-/

namespace SpendPlanner

/-- The kinds of selection failures. -/
inductive SelectionKind where
  | invalidAmount
  | insufficientBalance
  | balanceOverflow
  | feeExceedsBalance
  deriving DecidableEq

/-- The words that open the text of a failure. -/
def SelectionKind.heading : SelectionKind → String
  | invalidAmount => "invalid amount: "
  | insufficientBalance => "insufficient balance: "
  | balanceOverflow => "balance overflow: "
  | feeExceedsBalance => "fee exceeds balance: "

/-- The failure a caller sees for a selection failure of some kind. -/
def SelectionKind.toFailure (reason : String) : SelectionKind → Failure
  | invalidAmount => .invalidInput reason
  | insufficientBalance => .insufficientBalance reason
  | balanceOverflow => .balanceOverflow reason
  | feeExceedsBalance => .feeExceedsBalance reason

/-- Why a selection failed. -/
inductive SelectionError where
  /-- An amount is zero. -/
  | zeroAmount
  /-- There is nothing to pay. -/
  | noOutputs
  /-- The requested amounts have no sum. -/
  | outlayOverflow
  /-- A sum or difference of chosen values is no word. -/
  | arithmetic (error : RangeError)
  /-- The records of a token have no sum. -/
  | recordsOverflow (count : Nat) (token : TokenId)
  /-- The fees of all transactions have no sum. -/
  | totalFeeOverflow
  /-- The output of a consolidation would be no word. -/
  | mergedValueOverflow
  /-- There are no records at all. -/
  | noRecords
  /-- There are no records of the token to sweep. -/
  | noTokenRecords (token : TokenId)
  /-- The whole balance would do, but not the records one transaction may spend. -/
  | needsConsolidation (count : Nat) (outlay : UInt64)
  /-- The whole balance is too small. -/
  | balanceTooSmall (outlay : UInt64)
  /-- The balance is too small even after consolidating. -/
  | tooSmallAfterConsolidation (outlay : UInt64) (merges : Nat)
  /-- A consolidation would leave nothing. -/
  | consolidationTooDear (count : Nat) (fee : UInt64)
  /-- The fee takes the whole balance. -/
  | feeCoversBalance (fee balance : UInt64)
  /-- No number of records leaves anything after fees. -/
  | nothingLeft (count : Nat)
  deriving DecidableEq

namespace SelectionError

def kind : SelectionError → SelectionKind
  | zeroAmount | noOutputs => .invalidAmount
  | outlayOverflow | arithmetic _ | recordsOverflow _ _ | totalFeeOverflow
  | mergedValueOverflow => .balanceOverflow
  | noRecords | noTokenRecords _ | needsConsolidation _ _ | balanceTooSmall _
  | tooSmallAfterConsolidation _ _ | consolidationTooDear _ _ => .insufficientBalance
  | feeCoversBalance _ _ | nothingLeft _ => .feeExceedsBalance

def reason : SelectionError → String
  | zeroAmount => "amount must be positive"
  | noOutputs => "no outputs requested"
  | outlayOverflow => "requested amounts overflow"
  | arithmetic error => error.message
  | recordsOverflow count token =>
    "sum of " ++ Decimal.text count ++ " records of " ++ token.name ++ " overflows"
  | totalFeeOverflow => "total fee overflows"
  | mergedValueOverflow => "consolidated value overflows"
  | noRecords => "no spendable records"
  | noTokenRecords token => "no spendable " ++ token.name ++ " records"
  | needsConsolidation count outlay =>
    Decimal.text count ++ " largest records do not cover " ++ Decimal.text outlay.toNat ++
      " plus fee; defragmentation required"
  | balanceTooSmall outlay =>
    "balance does not cover " ++ Decimal.text outlay.toNat ++ " plus fee"
  | tooSmallAfterConsolidation outlay merges =>
    "balance does not cover " ++ Decimal.text outlay.toNat ++ " plus fee after " ++
      Decimal.text merges ++ " consolidation transactions"
  | consolidationTooDear count fee =>
    "consolidating " ++ Decimal.text count ++ " records does not cover its fee " ++
      Decimal.text fee.toNat
  | feeCoversBalance fee balance =>
    "fee " ++ Decimal.text fee.toNat ++ " covers balance " ++ Decimal.text balance.toNat
  | nothingLeft count =>
    "no selection of " ++ Decimal.text count ++ " records leaves a positive amount"

/-- The text of a failure, its kind first. -/
def message (e : SelectionError) : String := e.kind.heading ++ e.reason

/-- The failure a caller sees. -/
def toFailure (e : SelectionError) : Failure := e.kind.toFailure e.reason

end SelectionError
end SpendPlanner
