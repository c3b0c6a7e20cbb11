import SpendPlanner.Proofs.Selection.InputSelection
import SpendPlanner.Proofs.Selection.ReadyMerges

/-!
# Estimates, selections and consolidations agree

Pricing a payment, choosing its inputs and listing the consolidations that can be carried out
now are three questions about one request.  They look at the same prefix first: either it
covers the payment for all three, or the two that plan consolidations go by the same plan, and
no inputs are chosen.
-/

namespace SpendPlanner

theorem total_le_of_sublist {xs ys : List UInt64} (h : xs.Sublist ys) : total xs ≤ total ys := by
  have hle := worth_le_of_le (Multiset.coe_le.mpr h.subperm)
  simpa using hle

theorem Merge.fee_of_step? {ordered : List Record} {m : Merge} {step : ReadyMerge}
    (h : m.step? ordered = some step) : step.fee = m.fee := by
  obtain ⟨inputs, -, hstep⟩ := Option.bind_eq_some_iff.mp h
  cases hstep
  rfl

/-- The steps that can be carried out pay fees of merges of the plan. -/
theorem Merge.sublist_fees (ordered : List Record) (merges : List Merge) :
    ((merges.filterMap (Merge.step? ordered)).map ReadyMerge.fee).Sublist
      (merges.map Merge.fee) := by
  induction merges with
  | nil => exact List.Sublist.refl []
  | cons m merges ih =>
      cases hstep : m.step? ordered with
      | none =>
          rw [List.filterMap_cons_none hstep]
          exact ih.cons m.fee
      | some step =>
          rw [List.filterMap_cons_some hstep, List.map_cons, List.map_cons,
            Merge.fee_of_step? hstep]
          exact ih.cons_cons m.fee

namespace Selector

variable {s : Selector} {rule : FeeRule} {amount : Amount} {records : List Record}

/-! ## A payment that one transaction can make -/

theorem estimate_of_fit? {k : ℕ} (hpositive : amount.value ≠ 0)
    (hfit : s.fit? rule paymentOutputs amount.value
      (Record.values (spendingOrder amount.token records)) = some k) :
    s.estimate amount rule records = .ok ⟨rule ⟨k, paymentOutputs⟩, false, 0⟩ := by
  simp only [estimate, quote, hpositive, if_false, hfit]
  rfl

theorem defragment_of_fit? {k : ℕ} (hpositive : amount.value ≠ 0)
    (hfit : s.fit? rule paymentOutputs amount.value
      (Record.values (spendingOrder amount.token records)) = some k) :
    s.defragment amount rule records = .ok [] := by
  simp only [defragment, hpositive, if_false, hfit]

theorem select_of_fit? {k : ℕ} (hpositive : amount.value ≠ 0)
    (hfit : s.fit? rule paymentOutputs amount.value
      (Record.values (spendingOrder amount.token records)) = some k)
    (hword : total ((Record.values (spendingOrder amount.token records)).take k) <
      UInt64.size) :
    ∃ selection, s.select amount rule records = .ok selection ∧
      selection.inputs = (spendingOrder amount.token records).take k ∧
      selection.fee = rule ⟨k, paymentOutputs⟩ :=
  exists_selectPaying_of_fit? (List.cons_ne_nil _ _) (by simpa using Ne.symm hpositive)
    (by simp) hfit hword

/-! ## A payment that takes consolidations -/

theorem select_of_fit?_eq_none (hpositive : amount.value ≠ 0)
    (hfit : s.fit? rule paymentOutputs amount.value
      (Record.values (spendingOrder amount.token records)) = none) :
    ∃ error, s.select amount rule records = .error error ∧
      error.kind = .insufficientBalance :=
  selectPaying_of_fit?_eq_none (List.cons_ne_nil _ _) (by simpa using Ne.symm hpositive)
    (by simp) hfit

/-- Where planning fails, both the estimate and the consolidations fail for its reason. -/
theorem estimate_of_plan_error {error : SelectionError} (hpositive : amount.value ≠ 0)
    (hfit : s.fit? rule paymentOutputs amount.value
      (Record.values (spendingOrder amount.token records)) = none)
    (hplan : s.plan rule amount.value (Record.values (spendingOrder amount.token records)) =
      .error error) :
    s.defragment amount rule records = .error error ∧
      s.estimate amount rule records = .error error := by
  simp only [defragment, estimate, quote, hpositive, if_false, hfit, hplan, true_and]
  rfl

/-- What a plan leads to: steps to carry out now, at least one, and an estimate, unless the
fees of the plan have no sum. -/
theorem estimate_of_plan_ok {plan : Plan} (hpositive : amount.value ≠ 0)
    (hfit : s.fit? rule paymentOutputs amount.value
      (Record.values (spendingOrder amount.token records)) = none)
    (hplan : s.plan rule amount.value (Record.values (spendingOrder amount.token records)) =
      .ok plan) :
    (∃ steps, s.defragment amount rule records = .ok steps ∧ steps ≠ [] ∧
      steps.length ≤ plan.merges.length ∧
      total (steps.map ReadyMerge.fee) ≤ total (plan.merges.map Merge.fee)) ∧
    (∀ fee : UInt64, fee.toNat = total (plan.sendFee :: plan.merges.map Merge.fee) →
      s.estimate amount rule records = .ok ⟨fee, true, plan.merges.length⟩) ∧
    (UInt64.size ≤ total (plan.sendFee :: plan.merges.map Merge.fee) →
      s.estimate amount rule records = .error .totalFeeOverflow) := by
  have hrun := plan_eq_ok_iff.mp hplan
  have hne := merges_ne_nil_of_fit?_eq_none (values_spendingOrder_descending _ _) hfit hrun
  refine ⟨⟨_, defragment_of_plan hpositive hrun, ?_, List.length_filterMap_le _ _,
    total_le_of_sublist (Merge.sublist_fees _ _)⟩, fun fee hfee => ?_, fun hlarge => ?_⟩
  · obtain ⟨batches, final, k, hbatches, hmerges, -, -⟩ :=
      exists_consolidates_of_planningRun hrun
    rw [hmerges, Batch.filterMap_step?_merge hbatches.stands_of_mem_readySpent]
    refine mt List.map_eq_nil_iff.mp
      (hbatches.filter_isReady_ne_nil (fun x hx => Holding.isRecord_of_mem_ofValues hx) ?_)
    rintro rfl
    exact hne hmerges
  · have hsum := checkedSum_eq_ok_iff.mpr hfee
    simp only [estimate, quote, hpositive, if_false, hfit, hplan, hsum]
    rfl
  · have hsum := checkedSum_eq_error_iff.mpr ⟨rfl, hlarge⟩
    simp only [estimate, quote, hpositive, if_false, hfit, hplan, hsum]
    rfl

/-- An estimate for a payment that no prefix covers counts consolidations. -/
theorem needsConsolidation_of_fit?_eq_none (hpositive : amount.value ≠ 0)
    (hfit : s.fit? rule paymentOutputs amount.value
      (Record.values (spendingOrder amount.token records)) = none)
    {e : FeeEstimate} (h : s.estimate amount rule records = .ok e) :
    e.needsConsolidation = true := by
  cases hplan : s.plan rule amount.value
      (Record.values (spendingOrder amount.token records)) with
  | error error => simp [(estimate_of_plan_error hpositive hfit hplan).2] at h
  | ok plan =>
      obtain ⟨-, hok, hoverflow⟩ := estimate_of_plan_ok hpositive hfit hplan
      by_cases hword : total (plan.sendFee :: plan.merges.map Merge.fee) < UInt64.size
      · obtain rfl := Except.ok.inj (h.symm.trans (hok _ (UInt64.toNat_ofNat_of_lt hword)))
        rfl
      · simp [hoverflow (not_lt.mp hword)] at h

/-! ## The three together -/

/-- The consolidations of a payment are the empty list exactly where a prefix covers it. -/
theorem defragment_eq_nil_iff (hpositive : amount.value ≠ 0) :
    s.defragment amount rule records = .ok [] ↔
      ∃ k, s.fit? rule paymentOutputs amount.value
        (Record.values (spendingOrder amount.token records)) = some k := by
  cases hfit : s.fit? rule paymentOutputs amount.value
      (Record.values (spendingOrder amount.token records)) with
  | some k => simp [defragment_of_fit? hpositive hfit]
  | none =>
      simp only [reduceCtorEq, exists_false, iff_false]
      cases hplan : s.plan rule amount.value
          (Record.values (spendingOrder amount.token records)) with
      | error error => simp [(estimate_of_plan_error hpositive hfit hplan).1]
      | ok plan =>
          obtain ⟨⟨steps, hsteps, hne, -⟩, -⟩ := estimate_of_plan_ok hpositive hfit hplan
          simp [hsteps, hne]

/-- Pricing a payment, choosing its inputs and listing its consolidations classify every
request alike.  No consolidation is needed for one exactly where it is for the others, and the
inputs can then be chosen at the estimated fee, unless those of the covering prefix have no
sum.  Otherwise the inputs cannot be chosen; either planning fails, which both report alike, or
there is something to carry out, which is part of what the estimate counts. -/
theorem requests_classified_alike (s : Selector) (rule : FeeRule) (amount : Amount)
    (records : List Record) (hpositive : amount.value ≠ 0) :
    let ordered := spendingOrder amount.token records
    ((∃ e, s.estimate amount rule records = .ok e ∧ e.needsConsolidation = false) ↔
      s.defragment amount rule records = .ok []) ∧
    (∀ e, s.estimate amount rule records = .ok e → e.needsConsolidation = false →
      ∃ k, IsLeast {k | s.Affords rule paymentOutputs amount.value (Record.values ordered) k} k ∧
        (total (Record.values (ordered.take k)) < UInt64.size →
          ∃ selection, s.select amount rule records = .ok selection ∧
            selection.inputs = ordered.take k ∧ selection.fee = e.totalFee) ∧
        (UInt64.size ≤ total (Record.values (ordered.take k)) →
          ∃ error, s.select amount rule records = .error error ∧
            error.kind = .balanceOverflow)) ∧
    (s.defragment amount rule records ≠ .ok [] →
      (∃ error, s.select amount rule records = .error error ∧
        error.kind = .insufficientBalance) ∧
      ((∃ error, s.defragment amount rule records = .error error ∧
          s.estimate amount rule records = .error error) ∨
        ∃ (steps : List ReadyMerge) (plan : Plan),
          s.defragment amount rule records = .ok steps ∧ steps ≠ [] ∧
          s.plan rule amount.value (Record.values ordered) = .ok plan ∧
          (total (plan.sendFee :: plan.merges.map Merge.fee) < UInt64.size →
            ∃ e, s.estimate amount rule records = .ok e ∧ e.needsConsolidation = true ∧
              steps.length ≤ e.consolidations ∧
              total (steps.map ReadyMerge.fee) ≤ e.totalFee.toNat) ∧
          (UInt64.size ≤ total (plan.sendFee :: plan.merges.map Merge.fee) →
            ∃ error, s.estimate amount rule records = .error error ∧
              error.kind = .balanceOverflow))) := by
  intro ordered
  have hnil : s.defragment amount rule records = .ok [] ↔ _ := defragment_eq_nil_iff hpositive
  have hdesc := values_spendingOrder_descending amount.token records
  have hvalues : ∀ k, Record.values (ordered.take k) = (Record.values ordered).take k :=
    fun k => List.map_take
  cases hfit : s.fit? rule paymentOutputs amount.value (Record.values ordered) with
  | some k =>
      have hestimate := estimate_of_fit? hpositive hfit
      have hdefragment := defragment_of_fit? hpositive hfit
      refine ⟨by simp [hestimate, hdefragment], fun e he _ => ?_,
        fun hne => absurd hdefragment hne⟩
      obtain rfl := Except.ok.inj (hestimate.symm.trans he)
      refine ⟨k, (fit?_eq_some_iff hdesc s rule _ _ k).mp hfit, ?_, ?_⟩
      · intro hword
        exact select_of_fit? hpositive hfit (hvalues k ▸ hword)
      · intro hlarge
        exact ⟨_, selectPaying_of_overflow (List.cons_ne_nil _ _)
          (by simpa using Ne.symm hpositive) (by simp) hfit (hvalues k ▸ hlarge), rfl⟩
  | none =>
      have hselect := select_of_fit?_eq_none hpositive hfit
      have hsome : s.defragment amount rule records ≠ .ok [] := by
        rw [Ne, hnil]
        rintro ⟨k, hk⟩
        simp [ordered, hk] at hfit
      have hneeded : ∀ e, s.estimate amount rule records = .ok e → e.needsConsolidation = true :=
        fun e he => needsConsolidation_of_fit?_eq_none hpositive hfit he
      refine ⟨?_, fun e he hneeds => ?_, fun _ => ⟨hselect, ?_⟩⟩
      · simp only [hsome, iff_false, not_exists, not_and]
        intro e he
        simp [hneeded e he]
      · simp [hneeded e he] at hneeds
      · cases hplan : s.plan rule amount.value (Record.values ordered) with
        | error error =>
            obtain ⟨hdefragment, hestimate⟩ := estimate_of_plan_error hpositive hfit hplan
            exact Or.inl ⟨error, hdefragment, hestimate⟩
        | ok plan =>
            obtain ⟨⟨steps, hdefragment, hne, hcount, hfees⟩, hok, hoverflow⟩ :=
              estimate_of_plan_ok hpositive hfit hplan
            refine Or.inr ⟨steps, plan, hdefragment, hne, rfl, fun hword => ?_, fun hlarge =>
              ⟨_, hoverflow hlarge, rfl⟩⟩
            have hfee := UInt64.toNat_ofNat_of_lt hword
            refine ⟨_, hok _ hfee, rfl, hcount, ?_⟩
            rw [hfee, total_cons]
            omega

/-- Paying 46 from five records of 10 is classified as taking consolidations, two of which can
be carried out now. -/
theorem requests_classified_alike_five_tens :
    let records : List Record := [.numbered 10 0 .mob 0, .numbered 10 1 .mob 0,
      .numbered 10 2 .mob 0, .numbered 10 3 .mob 0, .numbered 10 4 .mob 0]
    (46 : UInt64) ≠ 0 ∧
      (∃ error, (ofLimit 2).select ⟨46, .mob⟩ (.fixed 1) records = .error error ∧
        error.kind = .insufficientBalance) ∧
      ∃ e, (ofLimit 2).estimate ⟨46, .mob⟩ (.fixed 1) records = .ok e ∧
        e.needsConsolidation = true ∧ 2 ≤ e.consolidations := by
  intro records
  have hready : (ofLimit 2).defragment ⟨46, .mob⟩ (.fixed 1) records =
      .ok [⟨[.numbered 10 3 .mob 0, .numbered 10 4 .mob 0], 1, 19⟩,
        ⟨[.numbered 10 1 .mob 0, .numbered 10 2 .mob 0], 1, 19⟩] := by cbv
  have hquoted : (ofLimit 2).estimate ⟨46, .mob⟩ (.fixed 1) records = .ok ⟨4, true, 3⟩ := by cbv
  obtain ⟨-, -, hconsolidated⟩ :=
    requests_classified_alike (ofLimit 2) (.fixed 1) ⟨46, .mob⟩ records (by decide)
  obtain ⟨hselect, hagree⟩ := hconsolidated (by simp [hready])
  refine ⟨by decide, hselect, ?_⟩
  rcases hagree with ⟨error, hfailed, -⟩ | ⟨steps, plan, hsteps, -, -, hestimate, hoverflow⟩
  · simp [hready] at hfailed
  · obtain rfl := Except.ok.inj (hready.symm.trans hsteps)
    by_cases hword : total (plan.sendFee :: plan.merges.map Merge.fee) < UInt64.size
    · obtain ⟨e, he, hneeds, hcount, -⟩ := hestimate hword
      exact ⟨e, he, hneeds, hcount⟩
    · obtain ⟨error, herror, -⟩ := hoverflow (not_lt.mp hword)
      simp [hquoted] at herror

end Selector
end SpendPlanner
