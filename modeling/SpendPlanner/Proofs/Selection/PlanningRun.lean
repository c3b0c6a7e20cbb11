import SpendPlanner.Proofs.CheckedSum
import SpendPlanner.Proofs.Selection.Consolidates
import SpendPlanner.Selection.Payment

/-!
# What the planner does

The planner's loop is a run of consolidations, each of them due: no choice of holdings
covers the payment yet, and the batch consists of the smallest holdings, as many as one
transaction may spend.  The loop ends when a payment fits, when the pool is exhausted or
when a merge would leave nothing.  An estimate is the account of such a run.
-/

namespace SpendPlanner

theorem mergedValue_eq_ok_iff {values : List UInt64} {fee output : UInt64} :
    mergedValue values fee = .ok output ↔
      total values = fee.toNat + output.toNat ∧ 0 < output := by
  have hdifference : checkedDifference values [fee] = .ok output ↔
      total values = fee.toNat + output.toNat := by
    rw [checkedDifference_eq_ok_iff, total_cons, total_nil, add_zero]
  rw [mergedValue, ← hdifference, UInt64.pos_iff_ne_zero]
  cases checkedDifference values [fee] with
  | ok value =>
      by_cases hzero : value = 0
      · subst hzero
        simp [eq_comm]
      · simp only [hzero, if_false, Except.ok.injEq, iff_self_and]
        rintro rfl
        exact hzero
  | error error => cases error <;> simp

namespace Selector

variable {s : Selector} {rule : FeeRule} {outlay : UInt64}

/-- The merge of `spent` beside `rest` is the planner's next: the payment of `outlay` does not
fit yet, and the smallest holdings are spent, as many as possible. -/
structure Due (s : Selector) (rule : FeeRule) (outlay : UInt64)
    (spent rest : Multiset Holding) : Prop where
  two_le_card : 2 ≤ spent.card
  card_eq : spent.card = min s.limit (spent + rest).card
  smallest : ∀ x ∈ spent, ∀ y ∈ rest, x.value ≤ y.value
  not_affords : ∀ k, ¬s.Affords rule paymentOutputs outlay (poolValues (spent + rest)) k

theorem Due.mayMerge {spent rest : Multiset Holding} (h : s.Due rule outlay spent rest) :
    s.MayMerge 2 spent rest :=
  ⟨h.two_le_card, h.card_eq ▸ Nat.min_le_left _ _⟩

/-- How the planner stops at a pool after a number of merges. -/
inductive StopsAt (s : Selector) (rule : FeeRule) (outlay : UInt64) (made : ℕ)
    (pool : Multiset Holding) : Except SelectionError UInt64 → Prop where
  | fits {k : ℕ}
      (hleast : IsLeast {k | s.Affords rule paymentOutputs outlay (poolValues pool) k} k) :
      StopsAt s rule outlay made pool (.ok (rule ⟨k, paymentOutputs⟩))
  | exhausted (hcard : pool.card < 2)
      (hnot : ∀ k, ¬s.Affords rule paymentOutputs outlay (poolValues pool) k) :
      StopsAt s rule outlay made pool (.error (.tooSmallAfterConsolidation outlay made))
  | refused {spent : List Holding} {rest : Multiset Holding} {error : SelectionError}
      (hpool : pool = spent + rest) (hdue : s.Due rule outlay spent rest)
      (hmerge : mergedValue (Holding.values spent) (rule ⟨spent.length, gatherOutputs⟩) =
        .error error) :
      StopsAt s rule outlay made pool (.error error)

theorem fit?_arrange_eq_some_iff (pool : List Holding) (k : ℕ) :
    s.fit? rule paymentOutputs outlay (Holding.values (Holding.arrange pool)) = some k ↔
      IsLeast {k | s.Affords rule paymentOutputs outlay (poolValues pool) k} k := by
  rw [fit?_eq_some_iff (Holding.values_arrange_descending pool), ← poolValues_coe,
    Holding.coe_arrange]

theorem fit?_arrange_eq_none_iff (pool : List Holding) :
    s.fit? rule paymentOutputs outlay (Holding.values (Holding.arrange pool)) = none ↔
      ∀ k, ¬s.Affords rule paymentOutputs outlay (poolValues pool) k := by
  rw [fit?_eq_none_iff (Holding.values_arrange_descending pool), ← poolValues_coe,
    Holding.coe_arrange]

theorem StopsAt.exists_isLeast {made : ℕ} {pool : Multiset Holding} {fee : UInt64}
    (h : s.StopsAt rule outlay made pool (.ok fee)) :
    ∃ k, IsLeast {k | s.Affords rule paymentOutputs outlay (poolValues pool) k} k ∧
      fee = rule ⟨k, paymentOutputs⟩ := by
  cases h with
  | fits hleast => exact ⟨_, hleast, rfl⟩

theorem coe_smallest_add_kept (s : Selector) (pool : List Holding) :
    (s.smallest pool + s.kept pool : Multiset Holding) = pool := by
  rw [add_comm, Multiset.coe_add, smallest, kept, List.take_append_drop]

theorem due_smallest {pool : List Holding} (htwo : 2 ≤ pool.length)
    (hfit : s.fit? rule paymentOutputs outlay (Holding.values (Holding.arrange pool)) = none) :
    s.Due rule outlay (s.smallest (Holding.arrange pool)) (s.kept (Holding.arrange pool)) := by
  have hlimit := s.two_le_limit
  have hsplit := coe_smallest_add_kept s (Holding.arrange pool)
  have hcard : (s.smallest (Holding.arrange pool)).length = min s.limit pool.length := by
    rw [length_smallest, batch, Holding.length_arrange]
  refine ⟨?_, ?_, ?_, ?_⟩
  · rw [Multiset.coe_card, hcard]
    omega
  · rw [hsplit, Multiset.coe_card, Multiset.coe_card, Holding.length_arrange, hcard]
  · intro x hx y hy
    have hsorted := Holding.arrange_pairwise pool
    rw [← List.take_append_drop ((Holding.arrange pool).length - s.batch (Holding.arrange pool))
      (Holding.arrange pool)] at hsorted
    exact (List.pairwise_append.mp hsorted).2.2 y hy x hx
  · rw [hsplit, poolValues_coe]
    rw [← poolValues_coe, Holding.coe_arrange]
    exact (fit?_arrange_eq_none_iff pool).mp hfit

/-- The planner's loop makes the merges of a run of due consolidations and stops for one of
the three reasons. -/
theorem consolidate_spec (s : Selector) (rule : FeeRule) (outlay : UInt64)
    (merges : List Merge) (pool : List Holding) :
    ∃ (batches : List Batch) (final : Multiset Holding),
      Consolidates rule (s.Due rule outlay) merges.length pool batches final ∧
        (s.consolidate rule outlay merges pool).merges =
          merges ++ batches.map (Batch.merge rule) ∧
        s.StopsAt rule outlay (merges.length + batches.length) final
          (s.consolidate rule outlay merges pool).outcome := by
  fun_induction s.consolidate rule outlay merges pool with
  | case1 merges pool arranged k hfit =>
      exact ⟨[], pool, .done _ _, by simp, .fits ((fit?_arrange_eq_some_iff pool k).mp hfit)⟩
  | case2 merges pool arranged hfit hlt =>
      exact ⟨[], pool, .done _ _, by simp,
        .exhausted hlt ((fit?_arrange_eq_none_iff pool).mp hfit)⟩
  | case3 merges pool arranged hfit hlen merging fee error hmerge =>
      have hdue := due_smallest (not_lt.mp hlen) hfit
      refine ⟨[], pool, .done _ _, by simp, .refused ?_ hdue ?_⟩
      · rw [coe_smallest_add_kept, Holding.coe_arrange]
      · rwa [length_smallest]
  | case4 merges pool arranged hfit hlen merging fee output hmerge ih =>
      have hdue := due_smallest (not_lt.mp hlen) hfit
      obtain ⟨hbalance, hpositive⟩ := mergedValue_eq_ok_iff.mp hmerge
      have hfee : Batch.fee rule ⟨merging, output⟩ = fee := by
        rw [Batch.fee, length_smallest]
      have hmade : Batch.merge rule ⟨merging, output⟩ =
          ⟨merging.map Holding.origin, fee, output⟩ := by
        rw [Batch.merge, hfee]
      obtain ⟨batches, final, hrun, hmerges, hstop⟩ := ih
      rw [List.length_append, List.length_singleton] at hrun hstop
      have hsplit : (pool : Multiset Holding) = merging + s.kept arranged := by
        rw [coe_smallest_add_kept, Holding.coe_arrange]
      refine ⟨⟨merging, output⟩ :: batches, final, ?_, ?_, ?_⟩
      · refine .merge hsplit hdue ?_ hpositive ?_
        · rwa [poolValues_coe, worth_coe, hfee]
        · rwa [Multiset.coe_eq_coe.mpr (List.perm_append_singleton _ _)] at hrun
      · rw [hmerges, List.append_assoc, List.map_cons, hmade]
        rfl
      · rwa [List.length_cons, add_comm batches.length, ← add_assoc]

/-- Where a payment fits, nothing is merged. -/
theorem consolidate_of_isLeast (merges : List Merge) {pool : List Holding} {k : ℕ}
    (h : IsLeast {k | s.Affords rule paymentOutputs outlay (poolValues pool) k} k) :
    s.consolidate rule outlay merges pool = ⟨merges, .ok (rule ⟨k, paymentOutputs⟩)⟩ := by
  have hfit := (fit?_arrange_eq_some_iff pool k).mpr h
  rw [consolidate]
  simp only [hfit]

/-! ## Estimates as accounts of planning runs -/

variable {amount : Amount} {records : List Record} {values : List UInt64}

/-- The planning run for a payment that fits makes no merge. -/
theorem planningRun_of_fit? (hdesc : values.Pairwise (· ≥ ·)) {k : ℕ}
    (hfit : s.fit? rule paymentOutputs outlay values = some k) :
    s.planningRun rule outlay values = ⟨[], .ok (rule ⟨k, paymentOutputs⟩)⟩ := by
  apply consolidate_of_isLeast
  rw [poolValues_coe, Holding.values_ofValues]
  exact (fit?_eq_some_iff hdesc s rule _ _ k).mp hfit

/-- A successful planning run makes due consolidations until the payment fits. -/
theorem exists_consolidates_of_planningRun {merges : List Merge} {fee : UInt64}
    (hrun : s.planningRun rule outlay values = ⟨merges, .ok fee⟩) :
    ∃ (batches : List Batch) (final : Multiset Holding) (k : ℕ),
      Consolidates rule (s.Due rule outlay) 0 (Holding.ofValues values) batches final ∧
        merges = batches.map (Batch.merge rule) ∧
        IsLeast {k | s.Affords rule paymentOutputs outlay (poolValues final) k} k ∧
        fee = rule ⟨k, paymentOutputs⟩ := by
  obtain ⟨batches, final, hbatches, hmerges, hstop⟩ :=
    consolidate_spec s rule outlay [] (Holding.ofValues values)
  rw [planningRun] at hrun
  rw [hrun] at hmerges hstop
  obtain ⟨k, hleast, hfee⟩ := hstop.exists_isLeast
  exact ⟨batches, final, k, hbatches, by simpa using hmerges, hleast, hfee⟩

/-- A successful planning run for a payment that does not fit makes a merge. -/
theorem merges_ne_nil_of_fit?_eq_none (hdesc : values.Pairwise (· ≥ ·))
    (hfit : s.fit? rule paymentOutputs outlay values = none) {merges : List Merge}
    {fee : UInt64} (hrun : s.planningRun rule outlay values = ⟨merges, .ok fee⟩) :
    merges ≠ [] := by
  rintro rfl
  obtain ⟨batches, final, k, hbatches, hmerges, hleast, -⟩ :=
    exists_consolidates_of_planningRun hrun
  obtain rfl : batches = [] := by simpa using hmerges
  cases hbatches
  rw [poolValues_coe, Holding.values_ofValues] at hleast
  exact (fit?_eq_none_iff hdesc s rule _ _).mp hfit k hleast.1

theorem plan_eq_ok_iff {plan : Plan} :
    s.plan rule outlay values = .ok plan ↔
      s.planningRun rule outlay values = ⟨plan.merges, .ok plan.sendFee⟩ := by
  obtain ⟨merges, sendFee⟩ := plan
  rw [Selector.plan]
  split
  · next hempty =>
    obtain rfl : values = [] := List.isEmpty_iff.mp hempty
    rw [planningRun, consolidate]
    simp [fit?, Holding.ofValues, Holding.arrange, Holding.values]
  · next hnonempty =>
    obtain ⟨made, outcome⟩ := s.planningRun rule outlay values
    cases outcome <;> simp

/-- A quote is the account of a plan, the plan without merges included. -/
theorem estimate_of_plan {merges : List Merge} {fee : UInt64} {estimate : FeeEstimate}
    (hpositive : amount.value ≠ 0)
    (hvalues : Record.values (spendingOrder amount.token records) = values)
    (hrun : s.planningRun rule amount.value values = ⟨merges, .ok fee⟩) :
    s.estimate amount rule records = .ok estimate ↔
      estimate.totalFee.toNat = fee.toNat + total (merges.map Merge.fee) ∧
        estimate.needsConsolidation = !merges.isEmpty ∧
        estimate.consolidations = merges.length := by
  have hdesc : values.Pairwise (· ≥ ·) :=
    hvalues ▸ values_spendingOrder_descending amount.token records
  obtain ⟨totalFee, needsConsolidation, consolidations⟩ := estimate
  simp only [Selector.estimate, quote, hpositive, if_false, hvalues]
  cases hfit : s.fit? rule paymentOutputs amount.value values with
  | some k =>
      rw [planningRun_of_fit? hdesc hfit] at hrun
      cases hrun
      simp [Except.map, Quote.estimate, ← UInt64.toNat_inj, eq_comm]
  | none =>
      have hmerges : merges.isEmpty = false := by
        simpa using merges_ne_nil_of_fit?_eq_none hdesc hfit hrun
      have hplan : s.plan rule amount.value values = .ok ⟨merges, fee⟩ := plan_eq_ok_iff.mpr hrun
      simp only [hplan]
      cases hsum : checkedSum (fee :: merges.map Merge.fee) with
      | ok sum =>
          rw [checkedSum_eq_ok_iff, total_cons] at hsum
          simp [Except.map, Quote.estimate, ← hsum, ← UInt64.toNat_inj, hmerges, eq_comm]
      | error error =>
          have hlarge := (checkedSum_eq_error_iff.mp hsum).2
          have hlt := totalFee.toNat_lt
          rw [total_cons] at hlarge
          simp only [Except.map, reduceCtorEq, false_iff]
          rintro ⟨hfee, -⟩
          simp only [UInt64.size] at hlarge
          omega

/-- What an estimate says is what the planning run does. -/
theorem exists_planningRun_of_estimate {estimate : FeeEstimate}
    (hvalues : Record.values (spendingOrder amount.token records) = values)
    (h : s.estimate amount rule records = .ok estimate) :
    amount.value ≠ 0 ∧ ∃ (merges : List Merge) (fee : UInt64),
      s.planningRun rule amount.value values = ⟨merges, .ok fee⟩ := by
  have hdesc : values.Pairwise (· ≥ ·) :=
    hvalues ▸ values_spendingOrder_descending amount.token records
  by_cases hzero : amount.value = 0
  · simp [Selector.estimate, quote, hzero, Except.map] at h
  refine ⟨hzero, ?_⟩
  simp only [Selector.estimate, quote, hzero, if_false, hvalues] at h
  cases hfit : s.fit? rule paymentOutputs amount.value values with
  | some k => exact ⟨[], _, planningRun_of_fit? hdesc hfit⟩
  | none =>
      simp only [hfit] at h
      cases hplan : s.plan rule amount.value values with
      | ok plan => exact ⟨plan.merges, plan.sendFee, plan_eq_ok_iff.mp hplan⟩
      | error error => simp [hplan, Except.map] at h

theorem needsConsolidation_iff_of_estimate {estimate : FeeEstimate}
    (h : s.estimate amount rule records = .ok estimate) :
    estimate.needsConsolidation = true ↔ 0 < estimate.consolidations := by
  obtain ⟨hpositive, merges, fee, hrun⟩ := exists_planningRun_of_estimate rfl h
  obtain ⟨-, hneeds, hcount⟩ := (estimate_of_plan hpositive rfl hrun).mp h
  rw [hneeds, hcount]
  cases merges <;> simp

theorem total_fee_merges (batches : List Batch) :
    total ((batches.map (Batch.merge rule)).map Merge.fee) = Batch.fees rule batches := by
  rw [List.map_map, total_map]
  rfl

/-- Every estimate is that of transactions which can be made one after the other: as many
consolidations as it says, each of several holdings available at that point, and a payment
that what is then available covers.  The total fee is the exact sum of their fees, so the
records hold the amount and all fees. -/
theorem estimate_realised (s : Selector) (rule : FeeRule) (amount : Amount)
    (records : List Record) {estimate : FeeEstimate}
    (h : s.estimate amount rule records = .ok estimate) :
    ∃ (batches : List Batch) (available : Multiset Holding) (k : ℕ),
      Consolidates rule (s.MayMerge 2) 0
          (Holding.ofValues (Record.values (spendingOrder amount.token records))) batches
          available ∧
        batches.length = estimate.consolidations ∧
        ((batches.flatMap Batch.spent).map Holding.origin).Nodup ∧
        (∀ (i : ℕ) (b : Batch), batches[i]? = some b →
          ∀ x ∈ b.spent, ∀ step, x.origin = .merged step → step < i) ∧
        s.Affords rule paymentOutputs amount.value (poolValues available) k ∧
        estimate.totalFee.toNat =
          Batch.fees rule batches + (rule ⟨k, paymentOutputs⟩).toNat ∧
        (estimate.needsConsolidation = true ↔ 0 < estimate.consolidations) ∧
        amount.value.toNat + estimate.totalFee.toNat ≤
          total (Record.values (records.filter fun r => r.token = amount.token)) := by
  obtain ⟨hpositive, merges, fee, hrun⟩ := exists_planningRun_of_estimate rfl h
  obtain ⟨htotal, -, hcount⟩ := (estimate_of_plan hpositive rfl hrun).mp h
  obtain ⟨batches, available, k, hbatches, rfl, ⟨hafford, -⟩, rfl⟩ :=
    exists_consolidates_of_planningRun hrun
  rw [total_fee_merges, add_comm] at htotal
  rw [List.length_map] at hcount
  have hearlier : ∀ x ∈ (Holding.ofValues (Record.values (spendingOrder amount.token records)) :
      Multiset Holding), ∀ step, x.origin = .merged step → step < 0 := by
    intro x hx step horigin
    obtain ⟨place, hplace, -⟩ := Holding.origin_of_mem_ofValues hx
    rw [hplace] at horigin
    cases horigin
  refine ⟨batches, available, k, hbatches.mono fun _ _ hdue => hdue.mayMerge, hcount.symm, ?_,
    ?_, hafford, htotal, needsConsolidation_iff_of_estimate h, ?_⟩
  · exact hbatches.nodup_spent (Holding.nodup_origins_ofValues _) hearlier
  · intro i b hb x hx step horigin
    simpa using hbatches.origin_lt hearlier hb x hx step horigin
  · obtain ⟨-, -, chosen, hchosen, rfl, hcovers⟩ := hafford
    have hconserved := hbatches.worth_eq
    have hle := worth_le_of_le hchosen
    rw [poolValues_coe, Holding.values_ofValues, worth_coe, total_values_spendingOrder]
      at hconserved
    omega

/-- Paying 46 from five records of 10 takes three consolidations of two, the last of which
spends an output of the others. -/
theorem estimate_realised_five_tens :
    (ofLimit 2).estimate ⟨46, .mob⟩ (.fixed 1)
        [.numbered 10 0 .mob 0, .numbered 10 1 .mob 0, .numbered 10 2 .mob 0,
          .numbered 10 3 .mob 0, .numbered 10 4 .mob 0] = .ok ⟨4, true, 3⟩ ∧
      ∃ (batches : List Batch) (available : Multiset Holding) (k : ℕ),
        Consolidates (.fixed 1) ((ofLimit 2).MayMerge 2) 0
            (Holding.ofValues [10, 10, 10, 10, 10]) batches available ∧
          batches.length = 3 ∧
          (ofLimit 2).Affords (.fixed 1) paymentOutputs 46 (poolValues available) k ∧
          4 = Batch.fees (.fixed 1) batches + 1 := by
  have hestimate : (ofLimit 2).estimate ⟨46, .mob⟩ (.fixed 1)
      [.numbered 10 0 .mob 0, .numbered 10 1 .mob 0, .numbered 10 2 .mob 0,
        .numbered 10 3 .mob 0, .numbered 10 4 .mob 0] = .ok ⟨4, true, 3⟩ := by cbv
  obtain ⟨batches, available, k, hrun, hcount, -, -, hafford, hfee, -, -⟩ :=
    estimate_realised (ofLimit 2) (.fixed 1) _ _ hestimate
  have hordered : Record.values (spendingOrder .mob
      [.numbered 10 0 .mob 0, .numbered 10 1 .mob 0, .numbered 10 2 .mob 0,
        .numbered 10 3 .mob 0, .numbered 10 4 .mob 0]) = [10, 10, 10, 10, 10] := by cbv
  rw [hordered] at hrun
  exact ⟨hestimate, batches, available, k, hrun, hcount, hafford, hfee⟩

end Selector
end SpendPlanner
