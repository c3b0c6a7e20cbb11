import SpendPlanner.Proofs.Selection.Dust
import SpendPlanner.Proofs.Selection.Reachable
import SpendPlanner.Proofs.Selection.Rounds
import SpendPlanner.Proofs.Selection.TransferableBound

/-!
# Payments after a further record

Under a fixed fee a payment has an estimate exactly where merges of the smallest records lead to
it.  So a further record that is worth more than the fee leaves the payment possible.  A smaller
record may become part of the first batch, and the merges that the planner goes on to make may
then lose too much to their fees.
-/

namespace SpendPlanner
namespace Selector

variable {s : Selector} {fee outlay : UInt64}

/-! ## Plans -/

theorem Reaches.of_fullBatches {number k : ℕ} {pool final : Multiset Holding}
    {batches : List Batch} (h : Consolidates (.fixed fee) s.FullBatch number pool batches final)
    (hafford : s.Affords (.fixed fee) paymentOutputs outlay (poolValues final) k) :
    s.Reaches fee outlay (poolValues pool) := by
  induction h with
  | done number pool =>
      obtain ⟨-, hlimit, chosen, hchosen, rfl, hcovers⟩ := hafford
      exact .covered hchosen hlimit hcovers
  | @merge number pool rest final b batches hpool hfull hbalance hpositive hlater ih =>
      rw [hpool, poolValues_add]
      rw [hfull.fee_eq] at hbalance
      have hnext := ih hafford
      rw [poolValues_cons, Batch.value_holding] at hnext
      exact .merge hfull.card_values (poolValues_le_of_forall_le hfull.smallest) hbalance
        hpositive hnext

/-- The planner makes the merges that lead to a payment. -/
theorem Reaches.exists_plansWithin {values : Multiset UInt64} (h : s.Reaches fee outlay values)
    (hpositive : outlay ≠ 0) :
    ∃ merges k, s.PlansWithin (.fixed fee) outlay values merges k := by
  induction h with
  | @covered values chosen hchosen hcard hcovers =>
      have hne : 1 ≤ chosen.card := by
        rw [Nat.one_le_iff_ne_zero, Ne, Multiset.card_eq_zero]
        rintro rfl
        rw [worth_zero, Nat.le_zero, Nat.add_eq_zero_iff] at hcovers
        exact hpositive (UInt64.toNat_inj.mp hcovers.1)
      have hafford : {k | s.Affords (.fixed fee) paymentOutputs outlay values k}.Nonempty :=
        ⟨chosen.card, hne, hcard, chosen, hchosen, rfl, hcovers⟩
      exact ⟨0, _, plansWithin_of_isLeast (isLeast_csInf hafford)⟩
  | merge hcard hsmallest hworth hpositive hlater ih =>
      obtain ⟨merges, k, hplans⟩ := ih
      exact ⟨merges + 1, k, hplans.merge (.fixed fee) hcard hsmallest hworth hpositive⟩

variable {amount : Amount} {records : List Record}

/-- A payment has an estimate exactly where merges of the smallest records lead to it. -/
theorem exists_estimate_iff_reaches (hpositive : amount.value ≠ 0)
    (hword : total (Record.values (spendingOrder amount.token records)) < UInt64.size) :
    (∃ e, s.estimate amount (.fixed fee) records = .ok e) ↔
      s.Reaches fee amount.value (Record.values (spendingOrder amount.token records)) := by
  constructor
  · rintro ⟨e, he⟩
    obtain ⟨-, batches, final, k, hbatches, hleast, -⟩ :=
      exists_fullBatches_of_estimate (.fixed fee) he
    have hreaches := Reaches.of_fullBatches hbatches hleast.1
    rwa [Holding.poolValues_ofValues] at hreaches
  · intro hreaches
    obtain ⟨merges, k, hplans⟩ := hreaches.exists_plansWithin hpositive
    obtain ⟨more, sendFee, hrun, -⟩ := hplans [] (Holding.ofValues _)
      (Holding.poolValues_ofValues _)
    have hplan : s.plan (.fixed fee) amount.value
        (Record.values (spendingOrder amount.token records)) = .ok ⟨more, sendFee⟩ :=
      plan_eq_ok_iff.mpr hrun
    rcases estimate_ok_or_insufficient hpositive hword with hok | ⟨error, -, -, -, herror⟩
    · exact hok
    · rw [hplan] at herror
      cases herror

/-! ## A further record -/

theorem coe_values_spendingOrder_concat {token : TokenId} (records : List Record) {r : Record}
    (htoken : r.token = token) :
    (Record.values (spendingOrder token (records ++ [r])) : Multiset UInt64) =
      r.value ::ₘ Record.values (spendingOrder token records) := by
  rw [coe_values_spendingOrder, coe_values_spendingOrder, List.filter_append,
    List.filter_cons_of_pos (by simpa using htoken), List.filter_nil, Record.values,
    List.map_append, ← Multiset.coe_add, add_comm]
  rfl

/-- Further values leave the best choice no worse off. -/
theorem bestNet_le_of_le {rule : FeeRule} {values values' : List UInt64}
    (hdesc : values'.Pairwise (· ≥ ·)) (hle : (values : Multiset UInt64) ≤ values') :
    s.bestNet rule values ≤ s.bestNet rule values' := by
  by_cases hzero : s.bestNet rule values = 0
  · omega
  · obtain ⟨k, hk, hlength, hnet⟩ := exists_netOfLeading_eq_bestNet hzero
    have hleading : (values.take k : Multiset UInt64) ≤ values' :=
      (Multiset.coe_le.mpr (List.take_sublist k values).subperm).trans hle
    have hcard : (values.take k : Multiset UInt64).card = k := by
      rw [Multiset.coe_card, List.length_take]
      omega
    have hcap := s.capped_bestNet rule hdesc _ hleading (Multiset.card_pos.mp (by omega))
    rw [hcard, worth_coe] at hcap
    rw [← hnet, netOfLeading]
    omega

/-- A plan for no more than the best choice leaves only fails over dust. -/
theorem exists_dust_of_plan_error {values : List UInt64} (hdesc : values.Pairwise (· ≥ ·))
    (hword : total values < UInt64.size) (hpositive : 0 < outlay)
    (hle : outlay.toNat ≤ s.bestNet (.fixed fee) values) {error : SelectionError}
    (hplan : s.plan (.fixed fee) outlay values = .error error) :
    ∃ w ∈ values, w < fee ∨ w = 0 := by
  rcases dust_of_plan_error hdesc hword hpositive hplan with hover | ⟨-, hlosing⟩
  · exact exists_dust (Or.inl (hover.trans_le hle))
  · exact exists_dust hlosing

section Receiving

variable {r : Record} (htoken : r.token = amount.token)
  (hword : total (Record.values (spendingOrder amount.token (records ++ [r]))) < UInt64.size)

include htoken hword

/-- A record worth more than the fee leaves a payment possible. -/
theorem exists_estimate_of_fee_lt (hfee : fee < r.value) {e : FeeEstimate}
    (h : s.estimate amount (.fixed fee) records = .ok e) :
    ∃ e', s.estimate amount (.fixed fee) (records ++ [r]) = .ok e' := by
  obtain ⟨hpositive, -⟩ := exists_planningRun_of_estimate rfl h
  have hvalues := coe_values_spendingOrder_concat records htoken
  have hworth := hword
  rw [← worth_coe, hvalues] at hworth
  have hstart : total (Record.values (spendingOrder amount.token records)) < UInt64.size := by
    rw [worth_cons, worth_coe] at hworth
    omega
  rw [exists_estimate_iff_reaches hpositive hword, hvalues]
  exact ((exists_estimate_iff_reaches hpositive hstart).mp ⟨e, h⟩).cons hfee hworth

omit hword in
/-- A payment with an estimate is no more than the best choice leaves after a further record. -/
theorem le_bestNet_concat {e : FeeEstimate}
    (h : s.estimate amount (.fixed fee) records = .ok e) :
    amount.value.toNat ≤ s.bestNet (.fixed fee)
      (Record.values (spendingOrder amount.token (records ++ [r]))) := by
  rw [← LinearFee.rule_constant] at h ⊢
  obtain ⟨-, hbest⟩ := le_bestNet_of_estimate h
  refine hbest.trans (bestNet_le_of_le (values_spendingOrder_descending _ _) ?_)
  rw [coe_values_spendingOrder_concat records htoken]
  exact Multiset.le_cons_self _ _

end Receiving

/-- Under a fixed fee a payment that has an estimate still has one after a further record of
the token is received, if that record is worth more than the fee.  Otherwise the payment is
still within the transferable amount, but dust may stand in its way. -/
theorem estimate_after_receiving (s : Selector) (fee : UInt64) (amount : Amount)
    (records : List Record) (r : Record) (htoken : r.token = amount.token)
    (hword : total (Record.values
      ((records ++ [r]).filter fun r => r.token = amount.token)) < UInt64.size)
    {e : FeeEstimate} (h : s.estimate amount (.fixed fee) records = .ok e) :
    let values := Record.values (spendingOrder amount.token (records ++ [r]))
    (∃ e', s.estimate amount (.fixed fee) (records ++ [r]) = .ok e') ∨
      ∃ error, s.estimate amount (.fixed fee) (records ++ [r]) = .error error ∧
        error.kind = .insufficientBalance ∧
        r.value ≤ fee ∧
        s.limit < values.length ∧
        total (values.take s.limit) < amount.value.toNat + fee.toNat ∧
        (s.netOfLeading (.fixed fee) values values.length < amount.value.toNat ∨
          ∃ count, error = .consolidationTooDear count fee) ∧
        (∃ w ∈ values, w < fee ∨ w = 0) ∧
        ∃ a, s.transferable amount.token (.fixed fee) (records ++ [r]) = .ok a ∧
          amount.value ≤ a := by
  intro values
  have hdesc : values.Pairwise (· ≥ ·) := values_spendingOrder_descending _ _
  have hbest : amount.value.toNat ≤ s.bestNet (.fixed fee) values := le_bestNet_concat htoken h
  obtain ⟨hne, -⟩ := exists_planningRun_of_estimate rfl h
  have hpositive := UInt64.pos_iff_ne_zero.mpr hne
  have htransferable : ∃ a, s.transferable amount.token (.fixed fee) (records ++ [r]) = .ok a ∧
      amount.value ≤ a := by
    rw [← LinearFee.rule_constant] at hbest ⊢
    exact exists_transferable_of_le_bestNet hword hne hbest
  rw [← total_values_spendingOrder] at hword
  rcases estimate_ok_or_insufficient hne hword with hok | ⟨error, herror, hkind, hfit, hplan⟩
  · exact Or.inl hok
  have hsmall : r.value ≤ fee := by
    by_contra hlarge
    obtain ⟨e', he'⟩ := exists_estimate_of_fee_lt htoken hword (UInt64.not_le.mp hlarge) h
    rw [herror] at he'
    cases he'
  have hmany := limit_lt_length_of_fit? hfit hpositive hbest
  have hshort := total_take_lt_of_fit? hfit (one_le_two.trans s.two_le_limit) le_rfl hmany.le
  have hlosing := dust_of_plan_error hdesc hword hpositive hplan
  exact Or.inr ⟨error, herror, hkind, hsmall, hmany, hshort, hlosing.imp_right And.left,
    exists_dust_of_plan_error hdesc hword hpositive hbest hplan, htransferable⟩

/-- Two of three records of 100 are merged for a payment of 280.  With a record of 5 beside
them the planner starts with that one, and ends with a single holding of less. -/
theorem estimate_lost_after_receiving :
    let records : List Record := [.numbered 100 0 .mob 0, .numbered 100 1 .mob 0,
      .numbered 100 2 .mob 0]
    let dust : Record := .numbered 5 3 .mob 0
    total (Record.values ((records ++ [dust]).filter fun r => r.token = .mob)) < UInt64.size ∧
      (ofLimit 2).estimate ⟨280, .mob⟩ (.fixed 10) records = .ok ⟨20, true, 1⟩ ∧
      (ofLimit 2).estimate ⟨280, .mob⟩ (.fixed 10) (records ++ [dust]) =
        .error (.tooSmallAfterConsolidation 280 3) := by
  intro records dust
  refine ⟨by decide, by cbv, by cbv⟩

/-- A record of 11 is worth more than the fee, and the payment of 280 stays possible. -/
theorem estimate_after_receiving_eleven :
    let records : List Record := [.numbered 100 0 .mob 0, .numbered 100 1 .mob 0,
      .numbered 100 2 .mob 0]
    let received : Record := .numbered 11 3 .mob 0
    received.token = .mob ∧
      total (Record.values
        ((records ++ [received]).filter fun r => r.token = .mob)) < UInt64.size ∧
      (ofLimit 2).estimate ⟨280, .mob⟩ (.fixed 10) records = .ok ⟨20, true, 1⟩ ∧
      ∃ e, (ofLimit 2).estimate ⟨280, .mob⟩ (.fixed 10) (records ++ [received]) = .ok e := by
  intro records received
  have hword : total (Record.values
      ((records ++ [received]).filter fun r => r.token = .mob)) < UInt64.size := by decide
  have hquoted : (ofLimit 2).estimate ⟨280, .mob⟩ (.fixed 10) records = .ok ⟨20, true, 1⟩ := by
    cbv
  refine ⟨rfl, hword, hquoted, ?_⟩
  rcases estimate_after_receiving (ofLimit 2) 10 ⟨280, .mob⟩ records received rfl hword hquoted
    with hok | ⟨error, -, -, hsmall, -⟩
  · exact hok
  · exact absurd hsmall (by decide)

end Selector
end SpendPlanner
