import SpendPlanner.Proofs.Selection.Receiving

/-!
# What a failed selection says

When the inputs of a payment cannot be chosen, the failure says either that consolidations are
required or that the balance is too small.  Which of the two depends on the whole balance and
the fee of one transaction, while whether consolidations help depends on the fee of each merge.
So a failure that calls the balance too small is right, and one that calls for consolidations
may be wrong: the merges may take what is left over, or one of them may not be worth its fee.
-/

namespace SpendPlanner.Selector

variable {s : Selector} {fee : UInt64} {amount : Amount} {records : List Record}

/-- The failure of a payment that no prefix covers. -/
theorem select_eq_of_fit?_eq_none {rule : FeeRule} (hpositive : amount.value ≠ 0)
    (hfit : s.fit? rule paymentOutputs amount.value
      (Record.values (spendingOrder amount.token records)) = none) :
    s.select amount rule records = .error
      (if amount.value.toNat + (rule ⟨1, paymentOutputs⟩).toNat ≤
          total (Record.values (spendingOrder amount.token records)) then
        .needsConsolidation
          (min s.limit (Record.values (spendingOrder amount.token records)).length) amount.value
      else .balanceTooSmall amount.value) := by
  have hsum : checkedSum [amount.value] = .ok amount.value :=
    checkedSum_eq_ok_iff.mpr (by simp)
  have hmem : 0 ∉ [amount.value] := by simpa using Ne.symm hpositive
  rw [paymentOutputs] at hfit ⊢
  simp only [select, selectPaying, List.isEmpty_cons, Bool.false_eq_true, if_false, hmem, hsum,
    List.length_singleton, Nat.reduceAdd, hfit]
  split <;> rfl

/-- Where the values of the token are a word together, selection only fails because no prefix
covers the payment. -/
theorem fit?_eq_none_of_select {rule : FeeRule} (hpositive : amount.value ≠ 0)
    (hword : total (Record.values (spendingOrder amount.token records)) < UInt64.size)
    {error : SelectionError} (h : s.select amount rule records = .error error) :
    s.fit? rule paymentOutputs amount.value
      (Record.values (spendingOrder amount.token records)) = none := by
  cases hfit : s.fit? rule paymentOutputs amount.value
      (Record.values (spendingOrder amount.token records)) with
  | none => rfl
  | some k =>
      obtain ⟨selection, hselection, -⟩ := select_of_fit? hpositive hfit
        ((total_take_le _ k).trans_lt hword)
      rw [hselection] at h
      cases h

/-- A payment that all values together cover, but no prefix does, has more values than one
transaction may spend. -/
theorem limit_lt_length_of_le_total {values : List UInt64} {outputs : ℕ} {outlay : UInt64}
    (hfit : s.fit? (.fixed fee) outputs outlay values = none) (hpositive : 0 < outlay)
    (hcovered : outlay.toNat + fee.toNat ≤ total values) : s.limit < values.length := by
  rw [UInt64.lt_iff_toNat_lt, UInt64.toNat_zero] at hpositive
  by_contra hfew
  rw [not_lt] at hfew
  have hne : 1 ≤ values.length := by
    rw [Nat.one_le_iff_ne_zero, Ne, List.length_eq_zero_iff]
    rintro rfl
    rw [total_nil] at hcovered
    omega
  have hshort := total_take_lt_of_fit? hfit hne hfew le_rfl
  rw [List.take_length, FeeRule.fixed] at hshort
  omega

/-- What gathering all values leaves is short of a payment only where the values are short of
it and of one fee for each transaction. -/
theorem total_lt_of_netOfLeading_lt {values : List UInt64} {outlay : ℕ}
    (h : s.netOfLeading (.fixed fee) values values.length < outlay) :
    total values < outlay + (s.mergesNeeded values.length + 1) * fee.toNat := by
  rw [netOfLeading, toNat_gatherFee_fixed, List.take_length] at h
  omega

/-- What the failure of a selection says, against the estimate of the same payment.  Where the
balance is called too small the estimate fails as well, and an estimate that succeeds counts
consolidations where they are said to be required.  The estimate of a payment that is said to
require consolidations may fail, but only where there are more records than one transaction may
spend, and either the balance is short of the payment and one fee for every transaction on the
way, or a merge is not worth its fee and there is dust. -/
theorem select_failure_against_estimate (s : Selector) (fee : UInt64) (amount : Amount)
    (records : List Record) (hpositive : amount.value ≠ 0)
    (hword : total (Record.values (records.filter fun r => r.token = amount.token)) <
      UInt64.size)
    {error : SelectionError} (h : s.select amount (.fixed fee) records = .error error) :
    let values := Record.values (spendingOrder amount.token records)
    (error = .needsConsolidation (min s.limit values.length) amount.value ∧
        amount.value.toNat + fee.toNat ≤ total values ∨
      error = .balanceTooSmall amount.value ∧
        total values < amount.value.toNat + fee.toNat) ∧
    (∀ e, s.estimate amount (.fixed fee) records = .ok e →
      e.needsConsolidation = true ∧ amount.value.toNat + fee.toNat ≤ total values) ∧
    ∀ refusal, s.estimate amount (.fixed fee) records = .error refusal →
      refusal.kind = .insufficientBalance ∧
        (amount.value.toNat + fee.toNat ≤ total values →
          s.limit < values.length ∧
            (total values <
                amount.value.toNat + (s.mergesNeeded values.length + 1) * fee.toNat ∨
              (∃ count, refusal = .consolidationTooDear count fee) ∧
                ∃ w ∈ values, w < fee ∨ w = 0)) := by
  intro values
  rw [← total_values_spendingOrder] at hword
  have hfit := fit?_eq_none_of_select hpositive hword h
  have houtlay := UInt64.pos_iff_ne_zero.mpr hpositive
  refine ⟨?_, fun e he => ⟨?_, ?_⟩, fun refusal hrefusal => ?_⟩
  · rw [select_eq_of_fit?_eq_none hpositive hfit, Except.error.injEq] at h
    split at h
    · next hcovered => exact Or.inl ⟨h.symm, hcovered⟩
    · next hshort => exact Or.inr ⟨h.symm, not_le.mp hshort⟩
  · exact needsConsolidation_of_fit?_eq_none hpositive hfit he
  · have hreaches := (exists_estimate_iff_reaches hpositive hword).mp ⟨e, he⟩
    have hworth := hreaches.le_worth
    rwa [worth_coe] at hworth
  · rcases estimate_ok_or_insufficient hpositive hword with
      ⟨e, he⟩ | ⟨other, hother, hkind, -, hplan⟩
    · rw [hrefusal] at he
      cases he
    obtain rfl := Except.error.inj (hrefusal.symm.trans hother)
    refine ⟨hkind, fun hcovered => ⟨limit_lt_length_of_le_total hfit houtlay hcovered, ?_⟩⟩
    rcases dust_of_plan_error (values_spendingOrder_descending amount.token records) hword
      houtlay hplan with hover | ⟨hdear, hlosing⟩
    · exact Or.inl (total_lt_of_netOfLeading_lt hover)
    · exact Or.inr ⟨hdear, exists_dust hlosing⟩

/-- Three records of 10 are said to require consolidations for a payment of 29 at a fee of 1,
but after the two merges that are possible it is still not covered. -/
theorem consolidation_called_for_in_vain :
    let records : List Record :=
      [.numbered 10 0 .mob 0, .numbered 10 1 .mob 0, .numbered 10 2 .mob 0]
    (29 : UInt64) ≠ 0 ∧
      total (Record.values (records.filter fun r => r.token = .mob)) < UInt64.size ∧
      (ofLimit 2).select ⟨29, .mob⟩ (.fixed 1) records = .error (.needsConsolidation 2 29) ∧
      (SelectionError.needsConsolidation 2 29).reason =
        "2 largest records do not cover 29 plus fee; defragmentation required" ∧
      (ofLimit 2).estimate ⟨29, .mob⟩ (.fixed 1) records =
        .error (.tooSmallAfterConsolidation 29 2) := by
  intro records
  refine ⟨by decide, by decide, by cbv, by decide +kernel, by cbv⟩

/-- A payment of 28 is covered after the first of these merges. -/
theorem consolidation_called_for_three_tens :
    let records : List Record :=
      [.numbered 10 0 .mob 0, .numbered 10 1 .mob 0, .numbered 10 2 .mob 0]
    (28 : UInt64) ≠ 0 ∧
      total (Record.values (records.filter fun r => r.token = .mob)) < UInt64.size ∧
      (ofLimit 2).select ⟨28, .mob⟩ (.fixed 1) records = .error (.needsConsolidation 2 28) ∧
      ∃ e, (ofLimit 2).estimate ⟨28, .mob⟩ (.fixed 1) records = .ok e ∧
        e.needsConsolidation = true := by
  intro records
  have hword : total (Record.values (records.filter fun r => r.token = .mob)) < UInt64.size := by
    decide
  have hselect : (ofLimit 2).select ⟨28, .mob⟩ (.fixed 1) records =
      .error (.needsConsolidation 2 28) := by cbv
  refine ⟨by decide, hword, hselect, ?_⟩
  obtain ⟨-, hok, herror⟩ := select_failure_against_estimate (ofLimit 2) 1 ⟨28, .mob⟩ records
    (show (28 : UInt64) ≠ 0 by decide) hword hselect
  have htens : Record.values (spendingOrder .mob records) = [10, 10, 10] := by cbv
  cases he : (ofLimit 2).estimate ⟨28, .mob⟩ (.fixed 1) records with
  | ok e => exact ⟨e, rfl, (hok e he).1⟩
  | error refusal =>
      -- The balance leaves room for both fees, and no record is dust.
      obtain ⟨-, hcovered⟩ := herror refusal he
      rw [htens] at hcovered
      rcases (hcovered (by decide)).2 with hshort | ⟨-, hdust⟩
      · exact absurd hshort (by decide)
      · exact absurd hdust (by decide)

end SpendPlanner.Selector
