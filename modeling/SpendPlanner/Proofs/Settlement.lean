import SpendPlanner.Proofs.Account
import SpendPlanner.Proofs.Selection.Prefix
import SpendPlanner.Selection.Gathering
import SpendPlanner.Selection.Payment

/-!
# Settling transactions

When a wallet has sent a transaction it takes the inputs out of its account, and what comes
back is put in as a new record.  Where transactions spend different records of one token,
every input is taken out once, the records of other tokens stay as they are, and the account
loses in value exactly what the transactions take away.
-/

namespace SpendPlanner

/-- A transaction that spends records of one token: its inputs, what it takes away, the fee
included, and the value that comes back, if any does. -/
structure Settlement where
  inputs : List Record
  outlay : ℕ
  returned : Option UInt64

namespace Settlement

/-- The inputs are worth what is taken away and what comes back. -/
def Balanced (t : Settlement) : Prop :=
  total (Record.values t.inputs) = t.outlay + total t.returned.toList

theorem total_inputs {ts : List Settlement} (h : ∀ t ∈ ts, t.Balanced) :
    total (Record.values (ts.flatMap inputs)) =
      (ts.map outlay).sum + total (ts.flatMap fun t => t.returned.toList) := by
  induction ts with
  | nil => rfl
  | cons t ts ih =>
      obtain ⟨ht, hts⟩ := List.forall_mem_cons.mp h
      have hlater := ih hts
      rw [Balanced] at ht
      rw [Record.values] at ht hlater ⊢
      rw [List.flatMap_cons, List.flatMap_cons, List.map_append, total_append, total_append,
        List.map_cons, List.sum_cons]
      omega

end Settlement

/-- The transaction of a payment.  There is a record of change only if any is left. -/
def InputSelection.settlement (selection : InputSelection) (amount : UInt64) : Settlement where
  inputs := selection.inputs
  outlay := amount.toNat + selection.fee.toNat
  returned := if selection.change = 0 then none else some selection.change

/-- The transaction of a consolidation. -/
def ReadyMerge.settlement (step : ReadyMerge) : Settlement where
  inputs := step.inputs
  outlay := step.fee.toNat
  returned := some step.output

/-- The transaction of a sweep. -/
def Sweep.settlement (selection : Sweep) : Settlement where
  inputs := selection.inputs
  outlay := selection.amount.toNat + selection.fee.toNat
  returned := none

theorem ReadyMerge.flatMap_inputs_settlement (steps : List ReadyMerge) :
    (steps.map settlement).flatMap Settlement.inputs = steps.flatMap inputs :=
  List.flatMap_map settlement Settlement.inputs steps

theorem ReadyMerge.flatMap_returned_settlement (steps : List ReadyMerge) :
    ((steps.map settlement).flatMap fun t => t.returned.toList) = steps.map output := by
  rw [List.flatMap_map, List.map_eq_flatMap]
  rfl

namespace Account

/-- The values of the records of one token. -/
def valuesOf (account : Account) (token : TokenId) : Multiset UInt64 :=
  (account.ofToken token : Multiset Record).map Record.value

theorem coe_spendingOrder_ofToken (account : Account) (token : TokenId) :
    (spendingOrder token (account.ofToken token) : Multiset Record) =
      account.ofToken token := by
  rw [Multiset.coe_eq_coe.mpr (spendingOrder_perm _ _), Account.ofToken, List.filter_filter]
  simp

/-- A value that comes back is put in as a record of the token under a key image that is not
held. -/
inductive Receives (token : TokenId) (account : Account) : Option UInt64 → Account → Prop where
  | nothing : Receives token account none account
  | record {r : Record} (htoken : r.token = token)
      (hfresh : account.holds r.keyImage = false) :
      Receives token account (some r.value) (account.insert r)

/-- Transactions that spend records of a token are settled one after the other.  For each the
number of records that were taken out is counted. -/
inductive Settles (token : TokenId) : Account → List Settlement → List ℕ → Account → Prop where
  | done (account : Account) : Settles token account [] [] account
  | next {account current later : Account} {t : Settlement} {ts : List Settlement}
      {count : ℕ} {counts : List ℕ}
      (hcount : (account.spendAll (t.inputs.map Record.keyImage)).1 = count)
      (hreceived : Receives token (account.spendAll (t.inputs.map Record.keyImage)).2
        t.returned current)
      (hlater : Settles token current ts counts later) :
      Settles token account (t :: ts) (count :: counts) later

variable {token : TokenId} {account current later : Account}

namespace Receives

variable {returned : Option UInt64}

theorem le (h : Receives token account returned later) :
    (account.ofToken token : Multiset Record) ≤ later.ofToken token := by
  cases h with
  | nothing => exact le_rfl
  | @record r htoken hfresh =>
      subst htoken
      rw [coe_ofToken_insert hfresh]
      exact Multiset.le_cons_self _ r

theorem valuesOf_eq (h : Receives token account returned later) :
    later.valuesOf token = account.valuesOf token + (returned.toList : Multiset UInt64) := by
  cases h with
  | nothing => simp
  | @record r htoken hfresh =>
      subst htoken
      rw [valuesOf, coe_ofToken_insert hfresh, Multiset.map_cons, ← valuesOf,
        ← Multiset.singleton_add, add_comm]
      rfl

theorem ofToken_of_ne (h : Receives token account returned later) {other : TokenId}
    (hne : other ≠ token) : later.ofToken other = account.ofToken other := by
  cases h with
  | nothing => rfl
  | @record r htoken hfresh => exact ofToken_insert_of_ne (htoken ▸ hne.symm)

end Receives

theorem valuesOf_spendAll_add {spent : List Record}
    (h : (spent : Multiset Record) ≤ account.ofToken token) :
    (account.spendAll (spent.map Record.keyImage)).2.valuesOf token + Record.values spent =
      account.valuesOf token := by
  rw [valuesOf, valuesOf, ← coe_ofToken_spendAll h, Multiset.map_add]
  rfl

/-- The inputs of transactions that follow a settled one are still there. -/
theorem Receives.inputs_le {t : Settlement} {ts : List Settlement}
    (h : Receives token (account.spendAll (t.inputs.map Record.keyImage)).2 t.returned current)
    (hinputs : ((t :: ts).flatMap Settlement.inputs : Multiset Record) ≤ account.ofToken token) :
    (t.inputs : Multiset Record) ≤ account.ofToken token ∧
      (ts.flatMap Settlement.inputs : Multiset Record) ≤ current.ofToken token := by
  rw [List.flatMap_cons, ← Multiset.coe_add] at hinputs
  have hfirst := (Multiset.le_add_right _ _).trans hinputs
  refine ⟨hfirst, le_trans ?_ h.le⟩
  rw [← coe_ofToken_spendAll hfirst, add_comm] at hinputs
  exact le_of_add_le_add_right hinputs

namespace Settles

variable {ts : List Settlement} {counts : List ℕ}

theorem length_counts (h : Settles token account ts counts later) :
    counts.length = ts.length := by
  induction h with
  | done account => rfl
  | next hcount hreceived hlater ih => rw [List.length_cons, List.length_cons, ih]

/-- Settling exchanges the values of the inputs for those that come back. -/
theorem valuesOf_add (h : Settles token account ts counts later)
    (hinputs : (ts.flatMap Settlement.inputs : Multiset Record) ≤ account.ofToken token) :
    later.valuesOf token + Record.values (ts.flatMap Settlement.inputs) =
      account.valuesOf token + (ts.flatMap fun t => t.returned.toList : List UInt64) := by
  induction h with
  | done account => simp [Record.values]
  | @next account current later t ts count counts hcount hreceived hlater ih =>
      obtain ⟨hfirst, hrest⟩ := hreceived.inputs_le hinputs
      have hvalues : (Record.values ((t :: ts).flatMap Settlement.inputs) :
          Multiset UInt64) =
            Record.values t.inputs + Record.values (ts.flatMap Settlement.inputs) := by
        rw [List.flatMap_cons, Record.values, List.map_append, ← Multiset.coe_add]
        rfl
      calc later.valuesOf token + Record.values ((t :: ts).flatMap Settlement.inputs)
          = (later.valuesOf token + Record.values (ts.flatMap Settlement.inputs)) +
              Record.values t.inputs := by
            rw [hvalues]
            abel
        _ = current.valuesOf token + Record.values t.inputs +
              (ts.flatMap fun t => t.returned.toList : List UInt64) := by
            rw [ih hrest]
            abel
        _ = account.valuesOf token +
              ((t :: ts).flatMap fun t => t.returned.toList : List UInt64) := by
            rw [hreceived.valuesOf_eq, ← valuesOf_spendAll_add hfirst, List.flatMap_cons,
              ← Multiset.coe_add]
            abel

/-- The account loses what balanced transactions take away. -/
theorem worth_add (h : Settles token account ts counts later)
    (hinputs : (ts.flatMap Settlement.inputs : Multiset Record) ≤ account.ofToken token)
    (hbalanced : ∀ t ∈ ts, t.Balanced) :
    worth (later.valuesOf token) + (ts.map Settlement.outlay).sum =
      worth (account.valuesOf token) := by
  have hworth := congrArg worth (h.valuesOf_add hinputs)
  rw [SpendPlanner.worth_add, SpendPlanner.worth_add, worth_coe, worth_coe,
    Settlement.total_inputs hbalanced] at hworth
  omega

/-- Every input is taken out once. -/
theorem counts_eq (h : Settles token account ts counts later)
    (hinputs : (ts.flatMap Settlement.inputs : Multiset Record) ≤ account.ofToken token) :
    counts = ts.map fun t => t.inputs.length := by
  induction h with
  | done account => rfl
  | @next account current later t ts count counts hcount hreceived hlater ih =>
      obtain ⟨hfirst, hrest⟩ := hreceived.inputs_le hinputs
      rw [List.map_cons, ← count_spendAll hfirst, hcount, ih hrest]

/-- The records of other tokens stay as they are. -/
theorem ofToken_of_ne (h : Settles token account ts counts later)
    (hinputs : (ts.flatMap Settlement.inputs : Multiset Record) ≤ account.ofToken token)
    {other : TokenId} (hne : other ≠ token) :
    later.ofToken other = account.ofToken other := by
  induction h with
  | done account => rfl
  | @next account current later t ts count counts hcount hreceived hlater ih =>
      obtain ⟨hfirst, hrest⟩ := hreceived.inputs_le hinputs
      rw [ih hrest, hreceived.ofToken_of_ne hne, ofToken_spendAll_of_ne hfirst hne]

end Settles
end Account
end SpendPlanner
