import SpendPlanner.Proofs.CheckedSum
import SpendPlanner.Proofs.Selection.Prefix
import SpendPlanner.Selection.Gathering
import SpendPlanner.Selection.Payment

/-!
# Chosen inputs

The inputs of a payment are the shortest prefix of the spending order that covers it, those of
a sweep the longest prefix that one transaction may spend.  In both, the inputs are worth
exactly what is paid, the fee and the change.  Where a prefix covers the payment, choosing it
fails only if its values have no sum.
-/

namespace SpendPlanner.Selector

variable {s : Selector} {token : TokenId} {amounts : List UInt64} {rule : FeeRule}
  {records : List Record}

theorem length_take_of_fit? {values : List UInt64} {outputs k : ℕ} {outlay : UInt64}
    (hfit : s.fit? rule outputs outlay values = some k) :
    1 ≤ k ∧ k ≤ s.limit ∧ k ≤ values.length ∧
      outlay.toNat + (rule ⟨k, outputs⟩).toNat ≤ total (values.take k) := by
  rw [fit?, List.find?_range'_eq_some, List.mem_range'_1] at hfit
  obtain ⟨hcovers, ⟨hk, hbound⟩, -⟩ := hfit
  rw [covers, decide_eq_true_eq] at hcovers
  exact ⟨hk, by omega, by omega, hcovers⟩

/-- A prefix that covers a payment leaves some change. -/
theorem exists_change {values : List UInt64} {outputs k : ℕ} {outlay sum : UInt64}
    (hfit : s.fit? rule outputs outlay values = some k)
    (hsum : sum.toNat = total (values.take k)) :
    ∃ change, checkedDifference [sum] [outlay, rule ⟨k, outputs⟩] = .ok change := by
  obtain ⟨-, -, -, hcovers⟩ := length_take_of_fit? hfit
  let left := sum.toNat - (outlay.toNat + (rule ⟨k, outputs⟩).toNat)
  have hleft : (UInt64.ofNat left).toNat = left := by
    have hlt := sum.toNat_lt
    exact UInt64.toNat_ofNat_of_lt (by simp only [UInt64.size]; omega)
  refine ⟨UInt64.ofNat left, checkedDifference_eq_ok_iff.mpr ?_⟩
  simp only [total_cons, total_nil, hleft]
  omega

/-- What a choice of inputs consists of. -/
theorem selectPaying_eq_ok_iff {selection : InputSelection} :
    s.selectPaying token amounts rule records = .ok selection ↔
      amounts ≠ [] ∧ 0 ∉ amounts ∧ ∃ (outlay : UInt64) (k : ℕ),
        outlay.toNat = total amounts ∧
        s.fit? rule (amounts.length + 1) outlay
          (Record.values (spendingOrder token records)) = some k ∧
        selection.inputs = (spendingOrder token records).take k ∧
        selection.fee = rule ⟨k, amounts.length + 1⟩ ∧
        selection.total.toNat = total (Record.values selection.inputs) ∧
        selection.total.toNat =
          outlay.toNat + selection.fee.toNat + selection.change.toNat := by
  obtain ⟨inputs, sum, fee, change⟩ := selection
  rw [selectPaying]
  split
  · next hempty => simp [List.isEmpty_iff.mp hempty]
  next hempty =>
  split
  · next hzero => simp [hzero]
  next hzero =>
  have hne : amounts ≠ [] := mt List.isEmpty_iff.mpr hempty
  cases houtlay : checkedSum amounts with
  | error error =>
      obtain ⟨-, hlarge⟩ := checkedSum_eq_error_iff.mp houtlay
      simp only [reduceCtorEq, false_iff]
      rintro ⟨-, -, outlay, -, hword, -⟩
      have hlt := outlay.toNat_lt
      simp only [UInt64.size] at hlarge
      omega
  | ok outlay =>
      rw [checkedSum_eq_ok_iff] at houtlay
      have hunique : ∀ word : UInt64, word.toNat = total amounts ↔ word = outlay := by
        intro word
        rw [← houtlay, UInt64.toNat_inj]
      simp only [hne, hzero, hunique, ne_eq, not_false_eq_true, true_and, exists_eq_left,
        exists_and_left]
      cases hfit : s.fit? rule (amounts.length + 1) outlay
          (Record.values (spendingOrder token records)) with
      | none =>
          simp only
          split <;> simp
      | some k =>
          simp only [Option.some.injEq, exists_eq_left']
          have hvalues : Record.values ((spendingOrder token records).take k) =
              (Record.values (spendingOrder token records)).take k := List.map_take
          cases hsum : checkedSum
              ((Record.values (spendingOrder token records)).take k) with
          | error error =>
              obtain ⟨-, hlarge⟩ := checkedSum_eq_error_iff.mp hsum
              simp only [reduceCtorEq, false_iff]
              rintro ⟨rfl, -, hword, -⟩
              have hlt := sum.toNat_lt
              rw [hvalues] at hword
              simp only [UInt64.size] at hlarge
              omega
          | ok word =>
              obtain ⟨left, hleft⟩ := exists_change hfit (checkedSum_eq_ok_iff.mp hsum)
              rw [checkedSum_eq_ok_iff] at hsum
              have hbalance := checkedDifference_eq_ok_iff.mp hleft
              simp only [total_cons, total_nil, add_zero] at hbalance
              simp only [hleft, Except.ok.injEq, InputSelection.mk.injEq]
              constructor
              · rintro ⟨rfl, rfl, rfl, rfl⟩
                exact ⟨rfl, rfl, by rw [hvalues, hsum], hbalance⟩
              · rintro ⟨rfl, rfl, hword, hchange⟩
                rw [hvalues, ← hsum, UInt64.toNat_inj] at hword
                subst hword
                refine ⟨rfl, rfl, rfl, UInt64.toNat_inj.mp ?_⟩
                omega

/-- Where no prefix within the limit covers a payment its inputs cannot be chosen. -/
theorem selectPaying_of_fit?_eq_none {outlay : UInt64} (hne : amounts ≠ [])
    (hpositive : 0 ∉ amounts) (houtlay : outlay.toNat = total amounts)
    (hfit : s.fit? rule (amounts.length + 1) outlay
      (Record.values (spendingOrder token records)) = none) :
    ∃ error, s.selectPaying token amounts rule records = .error error ∧
      error.kind = .insufficientBalance := by
  have hsum := checkedSum_eq_ok_iff.mpr houtlay
  simp only [selectPaying, List.isEmpty_iff, hne, hpositive, if_false, hsum, hfit]
  split
  · exact ⟨_, rfl, rfl⟩
  · exact ⟨_, rfl, rfl⟩

/-- Where a prefix covers a payment and has a sum, it is chosen. -/
theorem exists_selectPaying_of_fit? {outlay : UInt64} {k : ℕ} (hne : amounts ≠ [])
    (hpositive : 0 ∉ amounts) (houtlay : outlay.toNat = total amounts)
    (hfit : s.fit? rule (amounts.length + 1) outlay
      (Record.values (spendingOrder token records)) = some k)
    (hword : total ((Record.values (spendingOrder token records)).take k) < UInt64.size) :
    ∃ selection, s.selectPaying token amounts rule records = .ok selection ∧
      selection.inputs = (spendingOrder token records).take k ∧
      selection.fee = rule ⟨k, amounts.length + 1⟩ := by
  obtain ⟨sum, hsum, hsumNat⟩ := exists_checkedSum hword
  obtain ⟨change, hchange⟩ := exists_change hfit hsumNat
  have hbalance := checkedDifference_eq_ok_iff.mp hchange
  refine ⟨⟨(spendingOrder token records).take k, sum, rule ⟨k, amounts.length + 1⟩, change⟩,
    ?_, rfl, rfl⟩
  refine selectPaying_eq_ok_iff.mpr
    ⟨hne, hpositive, outlay, k, houtlay, hfit, rfl, rfl, ?_, ?_⟩
  · rw [hsumNat]
    exact congrArg total List.map_take.symm
  · simpa using hbalance

/-- Where the covering prefix has no sum the choice overflows. -/
theorem selectPaying_of_overflow {outlay : UInt64} {k : ℕ} (hne : amounts ≠ [])
    (hpositive : 0 ∉ amounts) (houtlay : outlay.toNat = total amounts)
    (hfit : s.fit? rule (amounts.length + 1) outlay
      (Record.values (spendingOrder token records)) = some k)
    (hlarge : UInt64.size ≤
      total ((Record.values (spendingOrder token records)).take k)) :
    s.selectPaying token amounts rule records = .error (.arithmetic .overflow) := by
  have hoverflow := checkedSum_eq_error_iff.mpr ⟨rfl, hlarge⟩
  have hsum := checkedSum_eq_ok_iff.mpr houtlay
  simp only [selectPaying, List.isEmpty_iff, hne, hpositive, if_false, hsum, hfit, hoverflow]

/-- What a sweep consists of. -/
theorem sweep_eq_ok_iff {selection : Sweep} :
    s.sweep token rule records = .ok selection ↔
      spendingOrder token records ≠ [] ∧
        selection.inputs = (spendingOrder token records).take s.limit ∧
        selection.fee = rule ⟨selection.inputs.length, gatherOutputs⟩ ∧
        0 < selection.amount ∧
        total (Record.values selection.inputs) =
          selection.amount.toNat + selection.fee.toNat ∧
        total (Record.values selection.inputs) < UInt64.size := by
  obtain ⟨inputs, fee, amount⟩ := selection
  simp only [sweep]
  split
  · next hempty => simp [List.isEmpty_iff.mp hempty]
  next hempty =>
  have hne : spendingOrder token records ≠ [] := mt List.isEmpty_iff.mpr hempty
  simp only [hne, ne_eq, not_false_eq_true, true_and]
  cases hsum : checkedSum (Record.values ((spendingOrder token records).take s.limit)) with
  | error error =>
      obtain ⟨-, hlarge⟩ := checkedSum_eq_error_iff.mp hsum
      simp only [reduceCtorEq, false_iff]
      rintro ⟨rfl, -, -, -, hword⟩
      omega
  | ok sum =>
      rw [checkedSum_eq_ok_iff] at hsum
      have hlt := sum.toNat_lt
      simp only
      split
      · next hcovered =>
        rw [UInt64.le_iff_toNat_le] at hcovered
        simp only [reduceCtorEq, false_iff]
        rintro ⟨rfl, rfl, hpositive, hbalance, -⟩
        rw [UInt64.lt_iff_toNat_lt, UInt64.toNat_zero] at hpositive
        omega
      · next hleft =>
        rw [UInt64.not_le, UInt64.lt_iff_toNat_lt] at hleft
        have hdifference := UInt64.toNat_sub_of_le _ _ (UInt64.le_iff_toNat_le.mpr hleft.le)
        simp only [Except.ok.injEq, Sweep.mk.injEq]
        constructor
        · rintro ⟨rfl, rfl, rfl⟩
          refine ⟨rfl, rfl, ?_, ?_, ?_⟩
          · rw [UInt64.lt_iff_toNat_lt, UInt64.toNat_zero]
            omega
          · omega
          · simp only [UInt64.size]
            omega
        · rintro ⟨rfl, rfl, hpositive, hbalance, -⟩
          refine ⟨rfl, rfl, UInt64.toNat_inj.mp ?_⟩
          omega

/-! ## Numbers of inputs -/

theorem length_le_of_selectPaying {selection : InputSelection}
    (h : s.selectPaying token amounts rule records = .ok selection) :
    selection.inputs.length ≤ s.limit := by
  obtain ⟨-, -, outlay, k, -, hfit, hinputs, -⟩ := selectPaying_eq_ok_iff.mp h
  obtain ⟨-, hlimit, -, -⟩ := length_take_of_fit? hfit
  rw [hinputs]
  exact (List.length_take_le _ _).trans hlimit

theorem length_le_of_sweep {selection : Sweep}
    (h : s.sweep token rule records = .ok selection) :
    selection.inputs.length ≤ s.limit := by
  obtain ⟨-, hinputs, -⟩ := sweep_eq_ok_iff.mp h
  rw [hinputs]
  exact List.length_take_le _ _

end SpendPlanner.Selector
