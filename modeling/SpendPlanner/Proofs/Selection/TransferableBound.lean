import SpendPlanner.Proofs.Selection.Agreement
import SpendPlanner.Proofs.Selection.TransferableOptimum

/-!
# Nothing promises more than the transferable amount

A quoted payment, a payment whose inputs are chosen and a sweep all end with one transaction
that spends some values of a pool, which is what the records have been consolidated into.
Under a built-in fee rule the leading values of the records bound every choice from every such
pool.  A payment with change pays no less for its second output than it would without, so the
bound on what a single recipient can receive holds for payments as well.
-/

namespace SpendPlanner

/-- A further output never makes a transaction cheaper. -/
theorem LinearFee.toNat_rule_gather_le (f : LinearFee) (k : ℕ) {outputs : ℕ}
    (houtputs : Selector.gatherOutputs ≤ outputs) :
    (f.rule ⟨k, Selector.gatherOutputs⟩).toNat ≤ (f.rule ⟨k, outputs⟩).toNat := by
  apply toNat_clip_mono
  exact Nat.add_le_add_left (Nat.mul_le_mul_left _ houtputs) _

namespace Selector

variable {s : Selector} {f : LinearFee} {token : TokenId} {records : List Record}

/-- One transaction delivers no more than a bound on all choices of values. -/
theorem Capped.le_of_affords {bound outputs k : ℕ} {outlay : UInt64}
    {values : Multiset UInt64} (h : s.Capped f.rule bound values)
    (houtputs : gatherOutputs ≤ outputs)
    (hafford : s.Affords f.rule outputs outlay values k) : outlay.toNat ≤ bound := by
  obtain ⟨hk, hlimit, chosen, hchosen, rfl, hcovers⟩ := hafford
  have hcap := h chosen hchosen (Multiset.card_pos.mp hk)
  have hfee := f.toNat_rule_gather_le chosen.card houtputs
  rw [gatherFee, if_pos hlimit] at hcap
  omega

theorem exists_transferable_of_le_bestNet {v : UInt64}
    (hword : total (Record.values (records.filter fun r => r.token = token)) < UInt64.size)
    (hpositive : v ≠ 0)
    (hle : v.toNat ≤ s.bestNet f.rule (Record.values (spendingOrder token records))) :
    ∃ a, s.transferable token f.rule records = .ok a ∧ v ≤ a := by
  have hpos : v.toNat ≠ 0 := by
    rwa [Ne, ← UInt64.toNat_zero, UInt64.toNat_inj]
  rw [← total_values_spendingOrder] at hword
  obtain ⟨a, ha, hnet⟩ := transferable_of_bestNet_ne_zero rfl hword
    (show s.bestNet f.rule (Record.values (spendingOrder token records)) ≠ 0 by omega)
  exact ⟨a, ha, UInt64.le_iff_toNat_le.mpr (hnet ▸ hle)⟩

/-- An estimated payment is no more than the best choice of the records leaves. -/
theorem le_bestNet_of_estimate {amount : Amount} {e : FeeEstimate}
    (h : s.estimate amount f.rule records = .ok e) :
    amount.value ≠ 0 ∧ amount.value.toNat ≤
      s.bestNet f.rule (Record.values (spendingOrder amount.token records)) := by
  obtain ⟨hpositive, merges, fee, hrun⟩ := exists_planningRun_of_estimate rfl h
  obtain ⟨batches, final, k, hbatches, -, hleast, -⟩ := exists_consolidates_of_planningRun hrun
  have hmade : Consolidates f.rule (s.MayMerge 1) 0
      (Holding.ofValues (Record.values (spendingOrder amount.token records))) batches final :=
    hbatches.mono fun _ _ hdue => ⟨one_le_two.trans hdue.mayMerge.1, hdue.mayMerge.2⟩
  have hcapped : s.Capped f.rule
      (s.bestNet f.rule (Record.values (spendingOrder amount.token records)))
      (poolValues final) := by
    refine Capped.consolidates hmade ?_
    rw [Holding.poolValues_ofValues]
    exact s.capped_bestNet f.rule (values_spendingOrder_descending amount.token records)
  exact ⟨hpositive, hcapped.le_of_affords one_le_two hleast.1⟩

theorem exists_estimate_of_select {rule : FeeRule} {amount : Amount}
    {selection : InputSelection} (h : s.select amount rule records = .ok selection) :
    ∃ e, s.estimate amount rule records = .ok e := by
  obtain ⟨-, hpositive, outlay, k, houtlay, hfit, -⟩ := selectPaying_eq_ok_iff.mp h
  rw [total_cons, total_nil, add_zero, UInt64.toNat_inj] at houtlay
  rw [List.mem_singleton, eq_comm] at hpositive
  exact ⟨_, estimate_of_fit? hpositive (houtlay ▸ hfit)⟩

theorem le_bestNet_of_sweep {swept : Sweep} (h : s.sweep token f.rule records = .ok swept) :
    swept.amount.toNat ≤
      s.bestNet f.rule (Record.values (spendingOrder token records)) := by
  obtain ⟨hne, hinputs, hfee, -, hbalance, -⟩ := sweep_eq_ok_iff.mp h
  have hchosen : (Record.values swept.inputs : Multiset UInt64) ≤
      Record.values (spendingOrder token records) := by
    rw [hinputs]
    exact Multiset.coe_le.mpr ((List.take_sublist _ _).map Record.value).subperm
  have hcard : (Record.values swept.inputs : Multiset UInt64).card = swept.inputs.length := by
    rw [Multiset.coe_card, Record.values, List.length_map]
  have hlength : swept.inputs.length = min s.limit (spendingOrder token records).length := by
    rw [hinputs, List.length_take]
  have hafford : s.Affords f.rule gatherOutputs swept.amount
      (Record.values (spendingOrder token records)) swept.inputs.length := by
    have hpos := List.length_pos_iff.mpr hne
    have htwo := s.two_le_limit
    refine ⟨by omega, by omega, _, hchosen, hcard, ?_⟩
    rw [worth_coe, hbalance, hfee]
  have hcapped := s.capped_bestNet f.rule (values_spendingOrder_descending token records)
  exact hcapped.le_of_affords le_rfl hafford

/-- No answer promises more than the transferable amount: neither the estimate of a payment,
with consolidations or without, nor a choice of inputs, nor a sweep. -/
theorem promises_le_transferable (s : Selector) {rule : FeeRule} (hrule : rule.BuiltIn)
    (token : TokenId) (records : List Record)
    (hword : total (Record.values (records.filter fun r => r.token = token)) < UInt64.size) :
    (∀ (v : UInt64) (e : FeeEstimate), s.estimate ⟨v, token⟩ rule records = .ok e →
      ∃ a, s.transferable token rule records = .ok a ∧ v ≤ a) ∧
    (∀ (v : UInt64) (selection : InputSelection),
      s.select ⟨v, token⟩ rule records = .ok selection →
        ∃ a, s.transferable token rule records = .ok a ∧ v ≤ a) ∧
    (∀ swept : Sweep, s.sweep token rule records = .ok swept →
      ∃ a, s.transferable token rule records = .ok a ∧ swept.amount ≤ a) := by
  obtain ⟨f, rfl⟩ := hrule.exists_linear
  have hestimated : ∀ (v : UInt64) (e : FeeEstimate),
      s.estimate ⟨v, token⟩ f.rule records = .ok e →
        ∃ a, s.transferable token f.rule records = .ok a ∧ v ≤ a := by
    intro v e he
    obtain ⟨hpositive, hle⟩ := le_bestNet_of_estimate he
    exact exists_transferable_of_le_bestNet hword hpositive hle
  refine ⟨hestimated, fun v selection hselection => ?_, fun swept hswept => ?_⟩
  · obtain ⟨e, he⟩ := exists_estimate_of_select hselection
    exact hestimated v e he
  · obtain ⟨-, -, -, hpositive, -⟩ := sweep_eq_ok_iff.mp hswept
    exact exists_transferable_of_le_bestNet hword (UInt64.pos_iff_ne_zero.mp hpositive)
      (le_bestNet_of_sweep hswept)

/-- With a limit of two, five records of 10 can pay 46 after three merges, and a sweep of two of
them sends 19 at once. -/
theorem promises_le_transferable_five_tens :
    let records : List Record := [.numbered 10 0 .mob 0, .numbered 10 1 .mob 0,
      .numbered 10 2 .mob 0, .numbered 10 3 .mob 0, .numbered 10 4 .mob 0]
    let swept : Sweep := ⟨[.numbered 10 0 .mob 0, .numbered 10 1 .mob 0], 1, 19⟩
    FeeRule.BuiltIn (.fixed 1) ∧
      total (Record.values (records.filter fun r => r.token = .mob)) < UInt64.size ∧
      (ofLimit 2).estimate ⟨46, .mob⟩ (.fixed 1) records = .ok ⟨4, true, 3⟩ ∧
      (∃ a, (ofLimit 2).transferable .mob (.fixed 1) records = .ok a ∧ 46 ≤ a) ∧
      (ofLimit 2).select ⟨18, .mob⟩ (.fixed 1) records = .ok ⟨swept.inputs, 20, 1, 1⟩ ∧
      (∃ a, (ofLimit 2).transferable .mob (.fixed 1) records = .ok a ∧ 18 ≤ a) ∧
      (ofLimit 2).sweep .mob (.fixed 1) records = .ok swept ∧
      ∃ a, (ofLimit 2).transferable .mob (.fixed 1) records = .ok a ∧ 19 ≤ a := by
  intro records swept
  have hword : total (Record.values (records.filter fun r => r.token = .mob)) < UInt64.size := by
    decide
  have hquoted : (ofLimit 2).estimate ⟨46, .mob⟩ (.fixed 1) records = .ok ⟨4, true, 3⟩ := by cbv
  have hchosen : (ofLimit 2).select ⟨18, .mob⟩ (.fixed 1) records =
      .ok ⟨swept.inputs, 20, 1, 1⟩ := by cbv
  have hswept : (ofLimit 2).sweep .mob (.fixed 1) records = .ok swept := by cbv
  obtain ⟨hestimate, hselect, hsweep⟩ :=
    promises_le_transferable (ofLimit 2) (.fixed 1) .mob records hword
  exact ⟨.fixed 1, hword, hquoted, hestimate _ _ hquoted, hchosen, hselect _ _ hchosen, hswept,
    hsweep _ hswept⟩

end Selector
end SpendPlanner
