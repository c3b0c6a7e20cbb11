import SpendPlanner.Proofs.Selection.Listings
import SpendPlanner.Proofs.Selection.TransferableOptimum

/-!
# Clipped fees

A linear fee that is beyond the largest word is clipped to it, and is then less than what the
transaction owes.  Whatever an answer adds up in a word leaves no room for such a fee: neither
the transferable amount, nor a choice of inputs, nor a sweep, nor the total fee of a payment
with consolidations has one in it.  Coverage, however, is decided on exact sums.  So the one
transaction of a payment, and a consolidation that is listed, may have a clipped fee where its
inputs together are worth more than a word, and there only.
-/

namespace SpendPlanner

namespace LinearFee

/-- The rule charges a shape what it owes. -/
def ExactAt (f : LinearFee) (shape : Shape) : Prop := (f.rule shape).toNat = f.exact shape

variable {f : LinearFee} {shape : Shape}

theorem exactAt_iff : f.ExactAt shape ↔ f.exact shape < UInt64.size := by
  rw [ExactAt, toNat_rule]
  simp only [UInt64.size]
  omega

/-- Below the largest word nothing has been clipped. -/
theorem exactAt_of_lt (h : (f.rule shape).toNat < UInt64.size - 1) : f.ExactAt shape := by
  rw [toNat_rule] at h
  rw [exactAt_iff]
  omega

/-- A fee with something left beside it in a word is exact. -/
theorem exactAt_of_add_lt {left : UInt64} (hleft : 0 < left)
    (hword : (f.rule shape).toNat + left.toNat < UInt64.size) : f.ExactAt shape := by
  rw [UInt64.lt_iff_toNat_lt, UInt64.toNat_zero] at hleft
  exact exactAt_of_lt (by omega)

theorem toNat_rule_of_not_exactAt (h : ¬f.ExactAt shape) :
    (f.rule shape).toNat = UInt64.size - 1 := by
  rw [exactAt_iff] at h
  rw [toNat_rule]
  omega

/-- Where one transaction costs something, every transaction does. -/
theorem rule_pos_of_exact_pos {other : Shape} (hother : 0 < f.exact other)
    (hinputs : 0 < shape.inputs) (houtputs : 0 < shape.outputs) :
    0 < (f.rule shape).toNat := by
  have hpositive : 0 < f.exact shape := by
    by_contra hzero
    have hinput := Nat.le_mul_of_pos_right f.perInput.toNat hinputs
    have houtput := Nat.le_mul_of_pos_right f.perOutput.toNat houtputs
    simp only [exact] at hzero hother
    have hbase : f.base.toNat = 0 := by omega
    have hperInput : f.perInput.toNat = 0 := by omega
    have hperOutput : f.perOutput.toNat = 0 := by omega
    simp [hbase, hperInput, hperOutput] at hother
  rw [toNat_rule]
  simp only [UInt64.size]
  omega

/-- Several transactions whose fees add up to a word all pay what they owe. -/
theorem exactAt_of_sum_lt {shapes : List Shape} (hmany : 2 ≤ shapes.length)
    (hshapes : ∀ shape ∈ shapes, 0 < shape.inputs ∧ 0 < shape.outputs)
    (hword : (shapes.map fun shape => (f.rule shape).toNat).sum < UInt64.size) :
    ∀ shape ∈ shapes, f.ExactAt shape := by
  intro shape hshape
  by_contra hclipped
  have hfee := toNat_rule_of_not_exactAt hclipped
  rw [exactAt_iff, not_lt] at hclipped
  obtain ⟨other, hother⟩ : ∃ other, other ∈ shapes.erase shape := by
    rw [← List.length_pos_iff_exists_mem, List.length_erase_of_mem hshape]
    omega
  -- Some other transaction pays as well, so the sum is beyond the largest word.
  obtain ⟨hinputs, houtputs⟩ := hshapes other (List.mem_of_mem_erase hother)
  have hpays : 0 < (f.rule other).toNat :=
    rule_pos_of_exact_pos (Nat.lt_of_lt_of_le (by decide) hclipped) hinputs houtputs
  have hrest : (f.rule other).toNat ≤
      ((shapes.erase shape).map fun shape => (f.rule shape).toNat).sum :=
    List.le_sum_of_mem (List.mem_map_of_mem hother)
  rw [((List.perm_cons_erase hshape).map _).sum_eq, List.map_cons, List.sum_cons, hfee] at hword
  omega

end LinearFee

/-- The shape of a consolidation. -/
def Batch.shape (b : Batch) : Shape := ⟨b.spent.length, Selector.gatherOutputs⟩

namespace Selector

variable {s : Selector} {f : LinearFee} {token : TokenId} {records : List Record}

/-- Leading values that leave something pay every fee on the way in full. -/
theorem exactAt_of_gatherFee_lt {k : ℕ} {values : List UInt64}
    (hword : total values < UInt64.size)
    (hfee : (s.gatherFee f.rule k).toNat < total (values.take k)) :
    (s.gatherFee f.rule k).toNat = ((s.gatherSteps k).map f.exact).sum ∧
      ∀ shape ∈ s.gatherSteps k, f.ExactAt shape := by
  have hprefix := total_take_le values k
  rw [f.gatherFee_rule, toNat_clip, ← f.sum_exact_gatherSteps] at hfee ⊢
  have hsum : ((s.gatherSteps k).map f.exact).sum < UInt64.size := by omega
  refine ⟨by omega, fun shape hshape => ?_⟩
  have hle : f.exact shape ≤ ((s.gatherSteps k).map f.exact).sum :=
    List.le_sum_of_mem (List.mem_map_of_mem hshape)
  exact LinearFee.exactAt_iff.mpr (hle.trans_lt hsum)

/-- The transferable amount is what some leading values leave when all fees are paid in full. -/
theorem exactAt_of_transferable {a : UInt64}
    (h : s.transferable token f.rule records = .ok a) :
    ∃ k, 1 ≤ k ∧ k ≤ (spendingOrder token records).length ∧
      (∀ shape ∈ s.gatherSteps k, f.ExactAt shape) ∧
      a.toNat + ((s.gatherSteps k).map f.exact).sum =
        total ((Record.values (spendingOrder token records)).take k) := by
  obtain ⟨hword, -, hpositive, hnet⟩ := (transferable_eq_ok_iff rfl).mp h
  rw [UInt64.lt_iff_toNat_lt, UInt64.toNat_zero] at hpositive
  obtain ⟨k, hk, hlength, hleaves⟩ :=
    exists_netOfLeading_eq_bestNet (hnet ▸ Nat.pos_iff_ne_zero.mp hpositive)
  rw [netOfLeading] at hleaves
  obtain ⟨hfee, hexact⟩ := exactAt_of_gatherFee_lt (f := f) (s := s) (k := k) hword (by omega)
  rw [Record.values, List.length_map] at hlength
  exact ⟨k, hk, hlength, hexact, by omega⟩

theorem exactAt_of_selectPaying {amounts : List UInt64} {selection : InputSelection}
    (h : s.selectPaying token amounts f.rule records = .ok selection) :
    selection.fee = f.rule ⟨selection.inputs.length, amounts.length + 1⟩ ∧
      f.ExactAt ⟨selection.inputs.length, amounts.length + 1⟩ := by
  obtain ⟨hne, hpositive, outlay, k, houtlay, hfit, hinputs, hfee, -, hbalance⟩ :=
    selectPaying_eq_ok_iff.mp h
  obtain ⟨-, -, hlength, -⟩ := length_take_of_fit? hfit
  have hk : selection.inputs.length = k := by
    rw [Record.values, List.length_map] at hlength
    rw [hinputs, List.length_take, min_eq_left hlength]
  obtain ⟨v, hv⟩ := List.exists_mem_of_ne_nil amounts hne
  have hpaid : 0 < v.toNat := by
    rw [Nat.pos_iff_ne_zero, ← UInt64.toNat_zero, Ne, UInt64.toNat_inj]
    rintro rfl
    exact hpositive hv
  have hpart : v.toNat ≤ total amounts := by
    rw [← List.map_id amounts, total_map]
    exact List.le_sum_of_mem (List.mem_map_of_mem hv)
  have hlt := selection.total.toNat_lt
  rw [hk]
  refine ⟨hfee, LinearFee.exactAt_of_lt ?_⟩
  rw [← hfee]
  simp only [UInt64.size]
  omega

theorem exactAt_of_sweep {swept : Sweep} (h : s.sweep token f.rule records = .ok swept) :
    swept.fee = f.rule ⟨swept.inputs.length, gatherOutputs⟩ ∧
      f.ExactAt ⟨swept.inputs.length, gatherOutputs⟩ := by
  obtain ⟨-, -, hfee, hpositive, hbalance, hword⟩ := sweep_eq_ok_iff.mp h
  refine ⟨hfee, LinearFee.exactAt_of_add_lt hpositive ?_⟩
  rw [← hfee]
  omega

/-- Consolidations and a payment whose fees add up to a word are all paid in full. -/
theorem exactAt_of_fees_lt {outlay : UInt64} {number k : ℕ} {pool final : Multiset Holding}
    {batches : List Batch} (h : Consolidates f.rule (s.Due f.rule outlay) number pool batches final)
    (hne : batches ≠ []) (hk : 1 ≤ k)
    (hword : Batch.fees f.rule batches + (f.rule ⟨k, paymentOutputs⟩).toNat < UInt64.size) :
    (∀ b ∈ batches, f.ExactAt b.shape) ∧ f.ExactAt ⟨k, paymentOutputs⟩ := by
  have hall : ∀ shape ∈ ⟨k, paymentOutputs⟩ :: batches.map Batch.shape, f.ExactAt shape := by
    apply LinearFee.exactAt_of_sum_lt
    · have hpos := List.length_pos_iff.mpr hne
      rw [List.length_cons, List.length_map]
      omega
    · refine List.forall_mem_cons.mpr ⟨⟨hk, two_pos⟩, fun shape hshape => ?_⟩
      obtain ⟨b, hb, rfl⟩ := List.mem_map.mp hshape
      obtain ⟨⟨rest, hdue⟩, -⟩ := h.of_mem hb
      exact ⟨two_pos.trans_le hdue.two_le_card, one_pos⟩
    · rw [List.map_cons, List.sum_cons, List.map_map, add_comm]
      exact hword
  obtain ⟨hsend, hmerges⟩ := List.forall_mem_cons.mp hall
  exact ⟨fun b hb => hmerges _ (List.mem_map_of_mem hb), hsend⟩

/-- The transactions of an estimate, whose fees it adds up.  With consolidations all of them
are paid in full; without, the one transaction is where its inputs are worth a word. -/
theorem exactAt_of_estimate {v : UInt64} {e : FeeEstimate}
    (h : s.estimate ⟨v, token⟩ f.rule records = .ok e) :
    ∃ (batches : List Batch) (final : Multiset Holding) (k : ℕ),
      Consolidates f.rule (s.Due f.rule v) 0
          (Holding.ofValues (Record.values (spendingOrder token records))) batches final ∧
        IsLeast {k | s.Affords f.rule paymentOutputs v (poolValues final) k} k ∧
        e.consolidations = batches.length ∧
        e.totalFee.toNat = Batch.fees f.rule batches + (f.rule ⟨k, paymentOutputs⟩).toNat ∧
        (0 < e.consolidations ∨
            total ((Record.values (spendingOrder token records)).take k) < UInt64.size →
          (∀ b ∈ batches, f.ExactAt b.shape) ∧ f.ExactAt ⟨k, paymentOutputs⟩) := by
  obtain ⟨hpositive, merges, fee, hrun⟩ := exists_planningRun_of_estimate rfl h
  obtain ⟨htotal, -, hcount⟩ := (estimate_of_plan hpositive rfl hrun).mp h
  obtain ⟨batches, final, k, hbatches, rfl, hleast, rfl⟩ :=
    exists_consolidates_of_planningRun hrun
  rw [total_fee_merges, add_comm] at htotal
  rw [List.length_map] at hcount
  refine ⟨batches, final, k, hbatches, hleast, hcount, htotal, ?_⟩
  obtain ⟨hk, -, chosen, hchosen, rfl, hcovers⟩ := hleast.1
  rintro hfull
  by_cases hnone : batches = []
  · subst hnone
    have hword := hfull.resolve_left (by simp [hcount])
    cases hbatches
    rw [Holding.poolValues_ofValues] at hchosen
    have hworth := worth_le_total_take (values_spendingOrder_descending token records) hchosen
    refine ⟨by simp, LinearFee.exactAt_of_add_lt (UInt64.pos_iff_ne_zero.mpr hpositive) ?_⟩
    rw [add_comm]
    exact (hcovers.trans hworth).trans_lt hword
  · exact exactAt_of_fees_lt hbatches hnone hk (htotal ▸ e.totalFee.toNat_lt)

/-- The fee of a consolidation that can be carried out now is exact where its inputs are worth a
word. -/
theorem exactAt_of_defragment {amount : Amount} {steps : List ReadyMerge}
    (h : s.defragment amount f.rule records = .ok steps) {step : ReadyMerge}
    (hstep : step ∈ steps) :
    step.fee = f.rule ⟨step.inputs.length, gatherOutputs⟩ ∧
      (total (Record.values step.inputs) < UInt64.size →
        f.ExactAt ⟨step.inputs.length, gatherOutputs⟩) := by
  obtain ⟨hfee, hbalance, hpositive⟩ := balance_of_mem_defragment h hstep
  refine ⟨hfee, fun hword => LinearFee.exactAt_of_add_lt hpositive ?_⟩
  rwa [← hfee, ← hbalance]

/-- Answers have no clipped fee in them, but for two: the estimate of a payment that one
transaction can make, and a consolidation that can be carried out now.  These may have one where
the inputs of the transaction together are worth more than the largest word. -/
theorem clipped_fee_only_beyond_word (s : Selector) (f : LinearFee) (token : TokenId)
    (records : List Record) :
    let values := Record.values (spendingOrder token records)
    (∀ a, s.transferable token f.rule records = .ok a →
      ∃ k, 1 ≤ k ∧ k ≤ values.length ∧ (∀ shape ∈ s.gatherSteps k, f.ExactAt shape) ∧
        a.toNat + ((s.gatherSteps k).map f.exact).sum = total (values.take k)) ∧
    (∀ amounts selection, s.selectPaying token amounts f.rule records = .ok selection →
      selection.fee.toNat = f.exact ⟨selection.inputs.length, amounts.length + 1⟩) ∧
    (∀ swept, s.sweep token f.rule records = .ok swept →
      swept.fee.toNat = f.exact ⟨swept.inputs.length, gatherOutputs⟩) ∧
    (∀ v e, s.estimate ⟨v, token⟩ f.rule records = .ok e →
      ∃ (batches : List Batch) (final : Multiset Holding) (k : ℕ),
        Consolidates f.rule (s.Due f.rule v) 0 (Holding.ofValues values) batches final ∧
          IsLeast {k | s.Affords f.rule paymentOutputs v (poolValues final) k} k ∧
          e.consolidations = batches.length ∧
          e.totalFee.toNat = Batch.fees f.rule batches + (f.rule ⟨k, paymentOutputs⟩).toNat ∧
          (0 < e.consolidations ∨ total (values.take k) < UInt64.size →
            (∀ b ∈ batches, f.ExactAt b.shape) ∧ f.ExactAt ⟨k, paymentOutputs⟩)) ∧
    ∀ v steps, s.defragment ⟨v, token⟩ f.rule records = .ok steps → ∀ step ∈ steps,
      step.fee = f.rule ⟨step.inputs.length, gatherOutputs⟩ ∧
        (total (Record.values step.inputs) < UInt64.size →
          step.fee.toNat = f.exact ⟨step.inputs.length, gatherOutputs⟩) := by
  refine ⟨fun a ha => ?_, fun amounts selection h => ?_, fun swept h => ?_,
    fun v e h => exactAt_of_estimate h, fun v steps h step hstep => ?_⟩
  · rw [Record.values, List.length_map]
    exact exactAt_of_transferable ha
  · obtain ⟨hfee, hexact⟩ := exactAt_of_selectPaying h
    rw [hfee]
    exact hexact
  · obtain ⟨hfee, hexact⟩ := exactAt_of_sweep h
    rw [hfee]
    exact hexact
  · obtain ⟨hfee, hexact⟩ := exactAt_of_defragment h hstep
    refine ⟨hfee, fun hword => ?_⟩
    rw [hfee]
    exact hexact hword

/-- A clipped fee may be taken for what is owed.  Two records of the largest word make a payment
that owes three times the largest word, and three records that are worth less than twice the
largest word are listed for a consolidation that owes four times of it. -/
theorem clipped_fee_accepted :
    let f : LinearFee := ⟨maxWord, maxWord, 0⟩
    let large : List Record := [.numbered maxWord 0 .mob 0, .numbered maxWord 1 .mob 0]
    let five : List Record := (List.range 5).map fun i =>
      .numbered 11529215046068469760 (UInt64.ofNat i) .mob 0
    let step : ReadyMerge := ⟨five.drop 2, maxWord, 16140901064495857665⟩
    (ofLimit 2).fit? f.rule paymentOutputs 1 (Record.values (spendingOrder .mob large)) =
        some 2 ∧
      (ofLimit 2).estimate ⟨1, .mob⟩ f.rule large =
        .ok ⟨f.rule ⟨2, paymentOutputs⟩, false, 0⟩ ∧
      (f.rule ⟨2, paymentOutputs⟩).toNat < f.exact ⟨2, paymentOutputs⟩ ∧
      (ofLimit 3).defragment ⟨17293822569102704640, .mob⟩ f.rule five = .ok [step] ∧
      step.fee.toNat < f.exact ⟨step.inputs.length, gatherOutputs⟩ := by
  refine ⟨by cbv, by cbv, by decide, by cbv, by decide⟩

end Selector
end SpendPlanner
