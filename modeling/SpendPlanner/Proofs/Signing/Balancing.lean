import SpendPlanner.Proofs.Signing.Protocol

/-!
# Amounts that are worked out

The change of a payment, and the amount of a payment that takes everything, are worked out from
the inputs and checked again when the transaction is built.  The two agree on exact sums: an
amount is worked out exactly where one balances, it is the only one that does, and a transaction
built for one payment is a transaction with one payment.
-/

namespace SpendPlanner

theorem exists_toNat_eq {n : ℤ} (hnonneg : 0 ≤ n) (hlt : n < UInt64.size) :
    ∃ w : UInt64, (w.toNat : ℤ) = n := by
  obtain ⟨w, -, hw⟩ := exists_word? (show n.toNat < UInt64.size by omega)
  exact ⟨w, by omega⟩

theorem exists_positive_toNat_eq {n : ℤ} (hpositive : 0 < n) (hlt : n < UInt64.size) :
    ∃ amount : PositiveWord, (amount.value.toNat : ℤ) = n := by
  obtain ⟨w, hw⟩ := exists_toNat_eq hpositive.le hlt
  refine ⟨⟨w, ?_⟩, hw⟩
  rintro rfl
  rw [UInt64.toNat_zero] at hw
  omega

/-- What payments and a fee leave of inputs; below zero where the inputs do not cover them. -/
def leftOver (inputs : List PreparedInput) (outputs : List PaymentRequest) (fee : UInt64) : ℤ :=
  (inputs.map fun input => (input.record.value.toNat : ℤ)).sum -
    (outputs.map fun output => (output.amount.value.toNat : ℤ)).sum - fee.toNat

variable {inputs : List PreparedInput} {outputs : List PaymentRequest} {fee : UInt64}

theorem leftOver_eq (inputs : List PreparedInput) (outputs : List PaymentRequest)
    (fee : UInt64) :
    leftOver inputs outputs fee =
      (total (inputValues inputs) : ℤ) - (total (requestedAmounts outputs) + fee.toNat : ℕ) := by
  rw [leftOver, inputValues, requestedAmounts, total_map, total_map, Nat.cast_add,
    Nat.cast_list_sum, Nat.cast_list_sum, List.map_map, List.map_map, sub_sub]
  rfl

theorem leftOver_nil_eq (inputs : List PreparedInput) (fee : UInt64) :
    leftOver inputs [] fee = (total (inputValues inputs) : ℤ) - fee.toNat := by
  rw [leftOver_eq, requestedAmounts, List.map_nil, total_nil, zero_add]

/-- A change balances if it is what is left over. -/
theorem Composition.balances_some_iff (change : UInt64) :
    Comparison.equal.holds (inputValues inputs)
        (Composition.spent ⟨inputs, outputs, some change⟩ fee) = true ↔
      (change.toNat : ℤ) = leftOver inputs outputs fee := by
  rw [leftOver_eq]
  simp only [Comparison.holds, spent, Option.toList_some, total_append, total_cons, total_nil,
    decide_eq_true_eq]
  omega

/-- Without change, a single payment balances if it is all that is left over. -/
theorem Composition.balances_single_iff (recipient : Address) (amount : PositiveWord) :
    Comparison.equal.holds (inputValues inputs)
        (Composition.spent ⟨inputs, [⟨recipient, amount⟩], none⟩ fee) = true ↔
      (amount.value.toNat : ℤ) = leftOver inputs [] fee := by
  rw [leftOver_nil_eq]
  simp only [Comparison.holds, spent, requestedAmounts, List.map_cons, List.map_nil,
    Option.toList_none, total_append, total_cons, total_nil, decide_eq_true_eq]
  omega

namespace Proposer

open Signing

/-! ## Working amounts out -/

theorem changeOf_eq_ok_iff_leftOver {change : UInt64} :
    changeOf inputs outputs fee = .ok change ↔
      (change.toNat : ℤ) = leftOver inputs outputs fee := by
  rw [changeOf_eq_ok_iff, leftOver_eq]
  omega

theorem changeOf_eq_inputsTooSmall_iff :
    changeOf inputs outputs fee = .error .inputsTooSmall ↔ leftOver inputs outputs fee < 0 := by
  have hunderflow : changeOf inputs outputs fee = .error .inputsTooSmall ↔
      checkedDifference (inputValues inputs) (requestedAmounts outputs ++ [fee]) =
        .error .underflow := by
    rw [changeOf]
    cases checkedDifference (inputValues inputs) (requestedAmounts outputs ++ [fee]) with
    | ok left => simp
    | error error => cases error <;> simp
  rw [hunderflow, checkedDifference_eq_underflow_iff, total_append, total_cons, total_nil,
    add_zero, leftOver_eq]
  omega

theorem changeOf_eq_changeOverflow_iff :
    changeOf inputs outputs fee = .error .changeOverflow ↔
      (UInt64.size : ℤ) ≤ leftOver inputs outputs fee := by
  have hoverflow : changeOf inputs outputs fee = .error .changeOverflow ↔
      checkedDifference (inputValues inputs) (requestedAmounts outputs ++ [fee]) =
        .error .overflow := by
    rw [changeOf]
    cases checkedDifference (inputValues inputs) (requestedAmounts outputs ++ [fee]) with
    | ok left => simp
    | error error => cases error <;> simp
  rw [hoverflow, checkedDifference_eq_overflow_iff, total_append, total_cons, total_nil,
    add_zero, leftOver_eq]
  omega

theorem remainderOf_eq_ok_iff_leftOver {amount : PositiveWord} :
    remainderOf inputs fee = .ok amount ↔
      (amount.value.toNat : ℤ) = leftOver inputs [] fee := by
  rw [remainderOf_eq_ok_iff, leftOver_nil_eq]
  omega

theorem remainderOf_of_le_zero (h : leftOver inputs [] fee ≤ 0) :
    remainderOf inputs fee = .error .nothingToSend := by
  rw [leftOver_nil_eq] at h
  have hcovered : ¬fee.toNat < total (inputValues inputs) := by omega
  simp [remainderOf, Comparison.holds, hcovered]

theorem remainderOf_of_size_le (h : (UInt64.size : ℤ) ≤ leftOver inputs [] fee) :
    remainderOf inputs fee = .error .outputOverflow := by
  rw [leftOver_nil_eq] at h
  have hmore : fee.toNat < total (inputValues inputs) := by
    simp only [UInt64.size] at h
    omega
  have hoverflow : checkedDifference (inputValues inputs) [fee] = .error .overflow := by
    rw [checkedDifference_eq_overflow_iff, total_cons, total_nil]
    omega
  simp [remainderOf, Comparison.holds, hmore, hoverflow]

/-- That the inputs are worth exactly the fee is noticed before the difference is taken. -/
theorem remainderOf_ne_feeTakesAll (inputs : List PreparedInput) (fee : UInt64) :
    remainderOf inputs fee ≠ .error .feeTakesAll := by
  intro hrefused
  rcases le_or_gt (leftOver inputs [] fee) 0 with hnone | hsome
  · rw [remainderOf_of_le_zero hnone] at hrefused
    cases hrefused
  rcases lt_or_ge (leftOver inputs [] fee) UInt64.size with hword | hlarge
  · obtain ⟨amount, hamount⟩ := exists_positive_toNat_eq hsome hword
    rw [remainderOf_eq_ok_iff_leftOver.mpr hamount] at hrefused
    cases hrefused
  · rw [remainderOf_of_size_le hlarge] at hrefused
    cases hrefused

/-! ## Building with them -/

variable {σ : Type} {p : Proposer σ} {terms : ProposalTerms}

/-- A transaction that is built has a payment for every request. -/
theorem length_payments_of_build {c : Composition} {x : Exchange σ} {built : BuiltTransaction}
    (h : ((p.build c terms).run.run x).1 = .ok built) :
    built.payments.length = c.outputs.length := by
  by_cases hwell : c.WellFormed p.limits terms
  · obtain ⟨script, hscript⟩ := hwell.exists_script
    obtain ⟨answers, hmade⟩ := (holdsSession_build hwell hscript).exists_fits h
    exact hmade.length_payments
  · obtain ⟨reason, hrun⟩ := build_of_not_wellFormed hwell x
    rw [hrun] at h
    cases h

/-- Singling out the payment changes nothing for an activity that builds one payment. -/
theorem map_built_single {activity : Signing σ BuiltTransaction}
    (h : ∀ (x : Exchange σ) (built : BuiltTransaction),
      (activity.run.run x).1 = .ok built → built.payments.length = 1) :
    SinglePayment.built <$> (activity >>= fun built => accept built.single) = activity := by
  funext x
  change (SinglePayment.built <$> (activity >>= fun built => accept built.single)).run.run x =
    activity.run.run x
  rw [Activity.run_map, Activity.run_bind]
  cases hrun : activity.run.run x with
  | mk outcome y =>
      cases outcome with
      | error stop => rfl
      | ok built =>
          obtain ⟨payment, hsingle, hbuilt⟩ := exists_single (h x built (by rw [hrun]))
          simp only [hsingle]
          exact congrArg (fun b => (Except.ok b, y)) hbuilt

theorem toOutputs_of_refused {refusal : Refusal}
    (h : changeOf inputs outputs terms.fee.value = .error refusal) (x : Exchange σ) :
    (p.toOutputs inputs outputs terms).run.run x =
      (.error (.failed (.invalidInput refusal.reason)), x) := by
  rw [toOutputs, h]
  rfl

theorem toOutputs_of_leftOver {change : UInt64}
    (h : (change.toNat : ℤ) = leftOver inputs outputs terms.fee.value) :
    p.toOutputs inputs outputs terms = p.build ⟨inputs, outputs, some change⟩ terms := by
  rw [toOutputs, changeOf_eq_ok_iff_leftOver.mpr h, accept, pure_bind]

theorem sendingAllTo_of_refused {recipient : Address} {refusal : Refusal}
    (h : remainderOf inputs terms.fee.value = .error refusal) (x : Exchange σ) :
    (p.sendingAllTo inputs recipient terms).run.run x =
      (.error (.failed (.invalidInput refusal.reason)), x) := by
  rw [sendingAllTo, h]
  rfl

/-- Sending everything is building the payment of what is left over. -/
theorem map_built_sendingAllTo {recipient : Address} {amount : PositiveWord}
    (h : (amount.value.toNat : ℤ) = leftOver inputs [] terms.fee.value) :
    SinglePayment.built <$> p.sendingAllTo inputs recipient terms =
      p.build ⟨inputs, [⟨recipient, amount⟩], none⟩ terms := by
  rw [sendingAllTo, remainderOf_eq_ok_iff_leftOver.mpr h, accept, pure_bind]
  exact map_built_single fun x built hbuilt => length_payments_of_build hbuilt

theorem length_payments_of_toOutputs {x : Exchange σ} {built : BuiltTransaction}
    (h : ((p.toOutputs inputs outputs terms).run.run x).1 = .ok built) :
    built.payments.length = outputs.length := by
  cases hchange : changeOf inputs outputs terms.fee.value with
  | ok change =>
      rw [toOutputs_of_leftOver (changeOf_eq_ok_iff_leftOver.mp hchange)] at h
      exact length_payments_of_build h
  | error refusal =>
      rw [toOutputs_of_refused hchange] at h
      cases h

/-- Paying one recipient is paying a list of one. -/
theorem map_built_toRecipient (p : Proposer σ) (inputs : List PreparedInput)
    (recipient : Address) (amount : PositiveWord) (terms : ProposalTerms) :
    SinglePayment.built <$> p.toRecipient inputs recipient amount terms =
      p.toOutputs inputs [⟨recipient, amount⟩] terms :=
  map_built_single fun _ _ hbuilt => length_payments_of_toOutputs hbuilt

/-- The amounts that requests work out are the ones that balance.  The change of a payment is what
is left over, and the request is that of building with this change; it is refused with nothing
passed to the backend where what is left over is negative or no word.  The payment that takes
everything is what the fee leaves, in the same way, and has to be positive; that it is exactly
nothing is never noticed late.  And the payment of a transaction that was built can always be
singled out. -/
theorem requests_build_what_balances (p : Proposer σ) (inputs : List PreparedInput)
    (outputs : List PaymentRequest) (recipient : Address) (payment : PositiveWord)
    (terms : ProposalTerms) :
    let change := leftOver inputs outputs terms.fee.value
    let everything := leftOver inputs [] terms.fee.value
    (change < 0 → ∀ x, (p.toOutputs inputs outputs terms).run.run x =
      (.error (.failed (.invalidInput Refusal.inputsTooSmall.reason)), x)) ∧
    (UInt64.size ≤ change → ∀ x, (p.toOutputs inputs outputs terms).run.run x =
      (.error (.failed (.invalidInput Refusal.changeOverflow.reason)), x)) ∧
    (0 ≤ change → change < UInt64.size → ∃ w : UInt64, (w.toNat : ℤ) = change ∧
      p.toOutputs inputs outputs terms = p.build ⟨inputs, outputs, some w⟩ terms ∧
      ∀ w', Comparison.equal.holds (inputValues inputs)
        (Composition.spent ⟨inputs, outputs, some w'⟩ terms.fee.value) = true ↔ w' = w) ∧
    (everything ≤ 0 → ∀ x, (p.sendingAllTo inputs recipient terms).run.run x =
      (.error (.failed (.invalidInput Refusal.nothingToSend.reason)), x)) ∧
    (UInt64.size ≤ everything → ∀ x, (p.sendingAllTo inputs recipient terms).run.run x =
      (.error (.failed (.invalidInput Refusal.outputOverflow.reason)), x)) ∧
    (0 < everything → everything < UInt64.size → ∃ amount : PositiveWord,
      (amount.value.toNat : ℤ) = everything ∧
      SinglePayment.built <$> p.sendingAllTo inputs recipient terms =
        p.build ⟨inputs, [⟨recipient, amount⟩], none⟩ terms ∧
      ∀ amount', Comparison.equal.holds (inputValues inputs)
        (Composition.spent ⟨inputs, [⟨recipient, amount'⟩], none⟩ terms.fee.value) = true ↔
          amount' = amount) ∧
    SinglePayment.built <$> p.toRecipient inputs recipient payment terms =
      p.toOutputs inputs [⟨recipient, payment⟩] terms ∧
    (∀ (change : Option UInt64) (x : Exchange σ) (built : BuiltTransaction),
      ((p.build ⟨inputs, [⟨recipient, payment⟩], change⟩ terms).run.run x).1 = .ok built →
        ∃ single, built.single = .ok single ∧ single.built = built) ∧
    remainderOf inputs terms.fee.value ≠ .error .feeTakesAll := by
  intro change everything
  refine ⟨fun h => ?_, fun h => ?_, fun hnonneg hlt => ?_, fun h => ?_, fun h => ?_,
    fun hpositive hlt => ?_, map_built_toRecipient p inputs recipient payment terms,
    fun change x built hbuilt => exists_single (length_payments_of_build hbuilt),
    remainderOf_ne_feeTakesAll inputs terms.fee.value⟩
  · exact toOutputs_of_refused (changeOf_eq_inputsTooSmall_iff.mpr h)
  · exact toOutputs_of_refused (changeOf_eq_changeOverflow_iff.mpr h)
  · obtain ⟨w, hw⟩ := exists_toNat_eq hnonneg hlt
    refine ⟨w, hw, toOutputs_of_leftOver hw, fun w' => ?_⟩
    rw [Composition.balances_some_iff, ← UInt64.toNat_inj]
    change _ = change ↔ _
    omega
  · exact sendingAllTo_of_refused (remainderOf_of_le_zero h)
  · exact sendingAllTo_of_refused (remainderOf_of_size_le h)
  · obtain ⟨⟨w, hne⟩, hw⟩ := exists_positive_toNat_eq hpositive hlt
    refine ⟨⟨w, hne⟩, hw, map_built_sendingAllTo hw, fun amount' => ?_⟩
    rw [Composition.balances_single_iff, PositiveWord.mk.injEq, ← UInt64.toNat_inj]
    change (w.toNat : ℤ) = everything at hw
    change _ = everything ↔ _
    omega

end Proposer
end SpendPlanner
