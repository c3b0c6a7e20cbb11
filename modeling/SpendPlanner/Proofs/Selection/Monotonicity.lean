import SpendPlanner.Proofs.Selection.Receiving

/-!
# More records and smaller amounts

Further records never lower the transferable amount, whatever the fee rule: any choice of the old
records is still there, and the best prefix of the new spending order is worth as much as the
best choice.

Under a built-in rule a smaller amount is never dearer to pay.  The merges that lead to the
larger payment are merges of the smallest holdings, whatever is to be paid, and where they end
the smaller payment fits as well.  So the planner makes these merges for it too, or it stops
before, and stopping before saves more in merges than the payment can cost in inputs.
-/

namespace SpendPlanner
namespace Selector

variable {s : Selector} {rule : FeeRule}

/-! ## Further records -/

/-- The token's values among some records are among those of any further records. -/
theorem coe_values_spendingOrder_le {records records' : List Record} (token : TokenId)
    (hsub : (records : Multiset Record) ≤ records') :
    (Record.values (spendingOrder token records) : Multiset UInt64) ≤
      Record.values (spendingOrder token records') := by
  rw [coe_values_spendingOrder, coe_values_spendingOrder]
  exact Multiset.map_le_map (f := Record.value)
    (Multiset.filter_le_filter (fun r => r.token = token) hsub)

/-- Whatever fees are asked for, what can be sent from some records is no more than what can be
sent with further records beside them, as long as the records of the token have a sum. -/
theorem transferable_le_of_le (s : Selector) (rule : FeeRule) (token : TokenId)
    {records records' : List Record} (hsub : (records : Multiset Record) ≤ records')
    (hword : total (Record.values (records'.filter fun r => r.token = token)) < UInt64.size)
    {a : UInt64} (h : s.transferable token rule records = .ok a) :
    ∃ a', s.transferable token rule records' = .ok a' ∧ a ≤ a' := by
  rw [← total_values_spendingOrder] at hword
  obtain ⟨-, hfee, hpositive, hbest⟩ := (transferable_eq_ok_iff rfl).mp h
  have hvalues := coe_values_spendingOrder_le token hsub
  have htotal := worth_le_of_le hvalues
  rw [worth_coe, worth_coe] at htotal
  let best := s.bestNet rule (Record.values (spendingOrder token records'))
  have hnet : (UInt64.ofNat best).toNat = best :=
    UInt64.toNat_ofNat_of_lt ((s.bestNet_le_total rule _).trans_lt hword)
  have hle : a ≤ UInt64.ofNat best := by
    rw [UInt64.le_iff_toNat_le, hnet, hbest]
    exact bestNet_le_of_le (values_spendingOrder_descending token records') hvalues
  exact ⟨_, (transferable_eq_ok_iff rfl).mpr
    ⟨hword, hfee.trans_le htotal, UInt64.lt_of_lt_of_le hpositive hle, hnet⟩, hle⟩

/-- Two inputs are dear here and three are cheap.  One record of 10 can send all but its fee; with
two more beside it, and one of another token, all three are sent. -/
theorem transferable_le_of_le_three_tens :
    let rule : FeeRule := .table 1 [(⟨2, 1⟩, 100)]
    let records : List Record := [.numbered 10 4 .mob 0]
    let records' : List Record := [.numbered 10 1 .mob 0, .numbered 50 2 .eusd 0,
      .numbered 9 3 .mob 0, .numbered 10 4 .mob 0]
    (records : Multiset Record) ≤ records' ∧
      total (Record.values (records'.filter fun r => r.token = .mob)) < UInt64.size ∧
      (ofLimit 3).transferable .mob rule records = .ok 9 ∧
      ∃ a', (ofLimit 3).transferable .mob rule records' = .ok a' ∧ 9 ≤ a' := by
  intro rule records records'
  have hsub : (records : Multiset Record) ≤ records' := Multiset.coe_le.mpr (by decide)
  have hword : total (Record.values (records'.filter fun r => r.token = .mob)) < UInt64.size := by
    decide
  have hfew : (ofLimit 3).transferable .mob rule records = .ok 9 := by cbv
  exact ⟨hsub, hword, hfew, transferable_le_of_le (ofLimit 3) rule .mob hsub hword hfew⟩

/-! ## Smaller amounts -/

/-- The fewest values that make a smaller payment are no more than those of the larger one. -/
theorem exists_isLeast_affords_le {outlay outlay' : UInt64} (hle : outlay' ≤ outlay)
    {outputs k : ℕ} {values : Multiset UInt64}
    (h : IsLeast {k | s.Affords rule outputs outlay values k} k) :
    ∃ k' ≤ k, IsLeast {k | s.Affords rule outputs outlay' values k} k' := by
  obtain ⟨hk, hlimit, chosen, hchosen, hcard, hcovers⟩ := h.1
  rw [UInt64.le_iff_toNat_le] at hle
  have hmem : k ∈ {k | s.Affords rule outputs outlay' values k} :=
    ⟨hk, hlimit, chosen, hchosen, hcard, by omega⟩
  have hleast := isLeast_csInf ⟨k, hmem⟩
  exact ⟨_, hleast.2 hmem, hleast⟩

/-- Full batches that end with a payment that fits bound the plans for it. -/
theorem plansWithin_length (hrule : rule.BuiltIn) {outlay : UInt64} {number k : ℕ}
    {pool final : Multiset Holding} {batches : List Batch}
    (h : Consolidates rule s.FullBatch number pool batches final)
    (hleast : IsLeast {k | s.Affords rule paymentOutputs outlay (poolValues final) k} k) :
    s.PlansWithin rule outlay (poolValues pool) batches.length k := by
  induction h with
  | done number pool => exact plansWithin_of_isLeast hleast
  | @merge number pool rest final b batches hpool hfull hbalance hpositive hlater ih =>
      have hnext := ih hleast
      rw [poolValues_cons, Batch.value_holding] at hnext
      rw [hpool, poolValues_add]
      exact hnext.merge hrule hfull.card_values (poolValues_le_of_forall_le hfull.smallest)
        (hfull.fee_eq rule ▸ hbalance) hpositive

/-- Where a payment has an estimate, a smaller payment has one too.  It is no dearer, takes no
more consolidations, and needs consolidation only if the larger payment does. -/
theorem estimate_le_of_le (s : Selector) (hrule : rule.BuiltIn) (token : TokenId)
    (records : List Record) {v v' : UInt64} (hpositive : 0 < v') (hle : v' ≤ v) {e : FeeEstimate}
    (h : s.estimate ⟨v, token⟩ rule records = .ok e) :
    ∃ e', s.estimate ⟨v', token⟩ rule records = .ok e' ∧
      e'.totalFee ≤ e.totalFee ∧ e'.consolidations ≤ e.consolidations ∧
      (e'.needsConsolidation = true → e.needsConsolidation = true) := by
  obtain ⟨-, batches, final, k, hbatches, hleast, htotal, -, hcount, -⟩ :=
    exists_fullBatches_of_estimate hrule h
  obtain ⟨k', hk, hleast'⟩ := exists_isLeast_affords_le hle hleast
  have hsend : (rule ⟨k', paymentOutputs⟩).toNat ≤ (rule ⟨k, paymentOutputs⟩).toNat := by
    obtain ⟨f, rfl⟩ := hrule.exists_linear
    exact f.toNat_rule_mono hk _
  let smaller : Amount := ⟨v', token⟩
  have hplans : s.PlansWithin rule smaller.value (Record.values (spendingOrder token records))
      batches.length k' := by
    rw [← Holding.poolValues_ofValues]
    exact plansWithin_length hrule hbatches hleast'
  rw [hbatches.fees_eq_length_mul (List.Subset.refl _)] at htotal
  have hword := e.totalFee.toNat_lt
  obtain ⟨e', he', hfee, hmerges⟩ :=
    hplans.exists_estimate (UInt64.pos_iff_ne_zero.mp hpositive) (by
      simp only [UInt64.size]
      omega)
  refine ⟨e', he', ?_, by omega, fun hneeds => ?_⟩
  · rw [UInt64.le_iff_toNat_le]
    omega
  · rw [needsConsolidation_iff_of_estimate h]
    have hpos := (needsConsolidation_iff_of_estimate he').mp hneeds
    omega

/-- From five records of 10 a payment of 30 takes two merges and a payment of 20 one, after which
it spends as many inputs. -/
theorem estimate_le_of_le_five_tens :
    let f : LinearFee := ⟨1, 1, 0⟩
    let tens : List Record := (List.range 5).map fun i => .numbered 10 (UInt64.ofNat i) .mob 0
    f.rule.BuiltIn ∧ (0 : UInt64) < 20 ∧ (20 : UInt64) ≤ 30 ∧
      (ofLimit 2).estimate ⟨30, .mob⟩ f.rule tens = .ok ⟨9, true, 2⟩ ∧
      ∃ e', (ofLimit 2).estimate ⟨20, .mob⟩ f.rule tens = .ok e' ∧ e'.totalFee ≤ 9 ∧
        e'.consolidations ≤ 2 := by
  intro f tens
  have hlarger : (ofLimit 2).estimate ⟨30, .mob⟩ f.rule tens = .ok ⟨9, true, 2⟩ := by cbv
  have hpositive : (0 : UInt64) < 20 := by decide
  have hsmaller : (20 : UInt64) ≤ 30 := by decide
  obtain ⟨e', he', hfee, hcount, -⟩ :=
    estimate_le_of_le (ofLimit 2) (.linear f) .mob tens hpositive hsmaller hlarger
  exact ⟨.linear f, hpositive, hsmaller, hlarger, e', he', hfee, hcount⟩

end Selector
end SpendPlanner
