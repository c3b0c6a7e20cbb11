import SpendPlanner.Fee
import SpendPlanner.Network
import SpendPlanner.Record

/-!
# Spending order and covering prefixes

Records of a token are always considered from the largest value down, records of equal value
by ascending global index.  A request is served by the shortest prefix of that order that
covers the outlay and the fee of spending the prefix.
-/

namespace SpendPlanner

namespace Record

/-- Whether a record may stand before another: it is larger, or as large and no younger. -/
def precedes (a b : Record) : Bool :=
  b.value < a.value || (a.value = b.value && a.globalIndex ≤ b.globalIndex)

end Record

/-- The records of one token in spending order. -/
def spendingOrder (token : TokenId) (records : List Record) : List Record :=
  (records.filter fun r => r.token = token).mergeSort Record.precedes

/-- Chooses records for transactions that spend at most `limit` inputs.  The limit is at
least two, so that merging records leaves fewer of them. -/
structure Selector where
  limit : Nat
  two_le_limit : 2 ≤ limit

namespace Selector

/-- The selector with the given limit, raised to two if it is lower. -/
def ofLimit (limit : Nat) : Selector := ⟨max 2 limit, Nat.le_max_left 2 limit⟩

/-- The selector with the input limit of a network. -/
def ofLimits (limits : ProtocolLimits) : Selector := ofLimit limits.maxInputs

/-- The selector with the limit of the main network. -/
def standard : Selector := ofLimits .standard

/-- The number of outputs of a payment: the recipient's and the change. -/
def paymentOutputs : Nat := 2

/-- The number of outputs of a transaction that only gathers values. -/
def gatherOutputs : Nat := 1

/-- Whether the first `k` values cover the outlay and the fee of spending them. -/
def covers (rule : FeeRule) (outputs : Nat) (outlay : UInt64) (values : List UInt64)
    (k : Nat) : Bool :=
  outlay.toNat + (rule ⟨k, outputs⟩).toNat ≤ total (values.take k)

/-- The least number of leading values, within the limit, that cover the outlay. -/
def fit? (s : Selector) (rule : FeeRule) (outputs : Nat) (outlay : UInt64)
    (values : List UInt64) : Option Nat :=
  (List.range' 1 (min s.limit values.length)).find? (covers rule outputs outlay values)

end Selector
end SpendPlanner
