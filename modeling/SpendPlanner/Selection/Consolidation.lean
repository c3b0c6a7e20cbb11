import SpendPlanner.Selection.Error
import SpendPlanner.Selection.Order

/-!
# Consolidation

Where no prefix within the limit covers a payment, small values are first merged into larger
ones.  The planner keeps a pool of holdings, records at first, arranged from the largest
down.  As long as no prefix of the pool fits, it merges the smallest holdings, as many as
one transaction may spend, into a single output that takes their place in the pool.  Each
merge makes the pool smaller, so planning ends.
-/

namespace SpendPlanner

/-- Where a holding comes from: a record, by its place in spending order, or an earlier
merge, by its number. -/
inductive Origin where
  | record (place : Nat)
  | merged (step : Nat)
  deriving DecidableEq

/-- A value that can be spent in the plan. -/
structure Holding where
  value : UInt64
  origin : Origin
  deriving DecidableEq

/-- One consolidation transaction of a plan. -/
structure Merge where
  origins : List Origin
  fee : UInt64
  output : UInt64
  deriving DecidableEq

/-- The merges that make a payment possible, and the fee of the payment after them. -/
structure Plan where
  merges : List Merge
  sendFee : UInt64
  deriving DecidableEq

/-- How planning went: the merges made, then the payment's fee or why there is none. -/
structure PlanningRun where
  merges : List Merge
  outcome : Except SelectionError UInt64

namespace Holding

/-- The values of holdings, in their order. -/
def values (pool : List Holding) : List UInt64 := pool.map Holding.value

/-- The holdings of values in spending order. -/
def ofValues (values : List UInt64) : List Holding :=
  values.zipIdx.map fun (value, place) => ⟨value, .record place⟩

/-- Arranges holdings from the largest down; among equals the earlier stays first. -/
def arrange (pool : List Holding) : List Holding :=
  pool.mergeSort fun a b => b.value ≤ a.value

@[simp] theorem length_arrange (pool : List Holding) :
    (arrange pool).length = pool.length := List.length_mergeSort pool

end Holding

/-- The value left of a merge once its fee is paid, which has to be positive. -/
def mergedValue (values : List UInt64) (fee : UInt64) : Except SelectionError UInt64 :=
  match checkedDifference values [fee] with
  | .ok value =>
    if value = 0 then .error (.consolidationTooDear values.length fee) else .ok value
  | .error .underflow => .error (.consolidationTooDear values.length fee)
  | .error .overflow => .error .mergedValueOverflow

namespace Selector

/-- How many holdings of a pool are merged at once. -/
def batch (s : Selector) (pool : List Holding) : Nat := min s.limit pool.length

/-- The holdings that a merge of the smallest leaves alone. -/
def kept (s : Selector) (pool : List Holding) : List Holding :=
  pool.take (pool.length - s.batch pool)

/-- The smallest holdings, which are merged. -/
def smallest (s : Selector) (pool : List Holding) : List Holding :=
  pool.drop (pool.length - s.batch pool)

theorem length_kept (s : Selector) (pool : List Holding) :
    (s.kept pool).length = pool.length - s.batch pool := by
  simp [kept]

theorem length_smallest (s : Selector) (pool : List Holding) :
    (s.smallest pool).length = s.batch pool := by
  simp only [smallest, batch, List.length_drop]
  omega

/-- Merges the smallest holdings until the payment of `outlay` fits.  `merges` are the
merges made so far. -/
def consolidate (s : Selector) (rule : FeeRule) (outlay : UInt64) (merges : List Merge)
    (pool : List Holding) : PlanningRun :=
  let arranged := Holding.arrange pool
  match s.fit? rule paymentOutputs outlay (Holding.values arranged) with
  | some k => ⟨merges, .ok (rule ⟨k, paymentOutputs⟩)⟩
  | none =>
    if pool.length < 2 then
      ⟨merges, .error (.tooSmallAfterConsolidation outlay merges.length)⟩
    else
      let merging := s.smallest arranged
      let fee := rule ⟨s.batch arranged, gatherOutputs⟩
      match mergedValue (Holding.values merging) fee with
      | .error error => ⟨merges, .error error⟩
      | .ok output =>
        s.consolidate rule outlay (merges ++ [⟨merging.map Holding.origin, fee, output⟩])
          (s.kept arranged ++ [⟨output, .merged merges.length⟩])
termination_by pool.length
decreasing_by
  have := s.two_le_limit
  simp only [List.length_append, length_kept, batch, Holding.length_arrange,
    List.length_singleton]
  omega

/-- The planning run for values in spending order. -/
def planningRun (s : Selector) (rule : FeeRule) (outlay : UInt64) (values : List UInt64) :
    PlanningRun :=
  s.consolidate rule outlay [] (Holding.ofValues values)

/-- The merges that make the payment of `outlay` possible. -/
def plan (s : Selector) (rule : FeeRule) (outlay : UInt64) (values : List UInt64) :
    Except SelectionError Plan :=
  if values.isEmpty then .error .noRecords
  else
    let run := s.planningRun rule outlay values
    match run.outcome with
    | .ok sendFee => .ok ⟨run.merges, sendFee⟩
    | .error error => .error error

end Selector
end SpendPlanner
