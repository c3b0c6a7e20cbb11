import SpendPlanner.Proofs.BuiltInFee
import SpendPlanner.Proofs.Selection.ReadyMerges

/-!
# Full batches

Under a built-in fee rule a planning run that ends with a payment that fits only ever merges
as many holdings as one transaction may spend: were a batch smaller, it would spend the whole
pool, and the payment would have fitted before.  Along a run of full batches of smallest
holdings, what a ready batch leaves is no smaller than anything spent before it.
-/

namespace SpendPlanner

namespace Selector

variable {s : Selector} {rule : FeeRule} {outlay : UInt64}

/-- A batch of the smallest holdings that has as many as one transaction may spend. -/
structure FullBatch (s : Selector) (spent rest : Multiset Holding) : Prop where
  card_eq : spent.card = s.limit
  smallest : ∀ x ∈ spent, ∀ y ∈ rest, x.value ≤ y.value

theorem FullBatch.fee_eq {b : Batch} {rest : Multiset Holding}
    (h : s.FullBatch b.spent rest) (rule : FeeRule) :
    b.fee rule = rule ⟨s.limit, gatherOutputs⟩ := by
  rw [Batch.fee, ← h.card_eq, Multiset.coe_card]

theorem FullBatch.card_values {spent rest : Multiset Holding} (h : s.FullBatch spent rest) :
    (poolValues spent).card = s.limit := by
  rw [card_poolValues, h.card_eq]

theorem FullBatch.value_le {spent rest : Multiset Holding} (h : s.FullBatch spent rest) :
    ∀ v ∈ poolValues spent, ∀ y ∈ rest, v ≤ y.value := by
  intro v hv y hy
  obtain ⟨x, hx, rfl⟩ := mem_poolValues.mp hv
  exact h.smallest x hx y hy

/-- A due batch that leads to a payment is full. -/
theorem Due.fullBatch (hrule : rule.BuiltIn) {number k : ℕ} {b : Batch}
    {rest final : Multiset Holding} {batches : List Batch}
    (hdue : s.Due rule outlay b.spent rest)
    (hbalance : worth (poolValues b.spent) = (b.fee rule).toNat + b.output.toNat)
    (hlater : Consolidates rule (s.Due rule outlay) (number + 1) (b.holding number ::ₘ rest)
      batches final)
    (hafford : s.Affords rule paymentOutputs outlay (poolValues final) k) :
    s.FullBatch b.spent rest := by
  have hcard := hdue.card_eq
  rw [Multiset.card_add] at hcard
  refine ⟨?_, hdue.smallest⟩
  by_contra hne
  -- A smaller batch takes the whole pool, so that only its output is left to pay from.
  obtain rfl : rest = 0 := Multiset.card_eq_zero.mp (by omega)
  obtain ⟨f, rfl⟩ := hrule.exists_linear
  cases hlater with
  | merge hpool hdue' _ _ _ =>
      have htwo := hdue'.two_le_card
      have hone := congrArg Multiset.card hpool
      rw [Multiset.card_add, Multiset.card_cons, Multiset.card_zero] at hone
      omega
  | done =>
      obtain ⟨hk, hlimit, chosen, hchosen, rfl, hcovers⟩ := hafford
      have hle := worth_le_of_le hchosen
      have hcheap := f.toNat_rule_pair_le le_rfl chosen.card (b := b.spent.length)
      rw [poolValues_cons, worth_cons, poolValues_zero, worth_zero, Batch.value_holding] at hle
      refine hdue.not_affords b.spent.length ⟨?_, ?_, poolValues b.spent, ?_, ?_, ?_⟩
      · exact one_le_two.trans hdue.two_le_card
      · exact hdue.mayMerge.2
      · rw [add_zero]
      · rw [card_poolValues, Multiset.coe_card]
      · rw [hbalance]
        simp only [Batch.fee, gatherOutputs, paymentOutputs] at *
        omega

end Selector

namespace Consolidates

variable {s : Selector} {rule : FeeRule} {outlay : UInt64}
variable {number : ℕ} {pool final : Multiset Holding} {batches : List Batch}

theorem fullBatches (hrule : rule.BuiltIn) {k : ℕ}
    (h : Consolidates rule (s.Due rule outlay) number pool batches final)
    (hafford : s.Affords rule Selector.paymentOutputs outlay (poolValues final) k) :
    Consolidates rule s.FullBatch number pool batches final := by
  induction h with
  | done number pool => exact .done number pool
  | merge hpool hdue hbalance hpositive hlater ih =>
      exact .merge hpool (hdue.fullBatch hrule hbalance hlater hafford) hbalance hpositive
        (ih hafford)

/-- Every batch pays the fee of a full one. -/
theorem fees_eq_length_mul (h : Consolidates rule s.FullBatch number pool batches final)
    {part : List Batch} (hpart : part ⊆ batches) :
    Batch.fees rule part = part.length * (rule ⟨s.limit, Selector.gatherOutputs⟩).toNat := by
  refine Batch.fees_eq_length_mul fun b hb => ?_
  obtain ⟨⟨rest, hfull⟩, -⟩ := h.of_mem (hpart hb)
  exact hfull.fee_eq rule

/-- The batches that are not ready pay the fee of a full batch each. -/
theorem fees_eq (h : Consolidates rule s.FullBatch number pool batches final) :
    Batch.fees rule batches =
      Batch.fees rule (batches.filter Batch.isReady) +
        (batches.countP fun b => !b.isReady) *
          (rule ⟨s.limit, Selector.gatherOutputs⟩).toNat := by
  rw [h.fees_eq_length_mul (List.Subset.refl _), h.fees_eq_length_mul (List.filter_subset_self _),
    ← Nat.add_mul, ← Batch.length_eq_ready_add]

/-- After a full batch, what a ready batch leaves is no smaller than the least record that
was left beside the first. -/
theorem le_output_of_isReady {spent : Multiset UInt64} {left : Holding}
    {rest : Multiset Holding} {least : UInt64}
    (h : Consolidates rule s.FullBatch number (left ::ₘ rest) batches final)
    (hmerged : left.origin.isRecord = false)
    (hcard : spent.card = s.limit)
    (hworth : worth spent =
      (rule ⟨s.limit, Selector.gatherOutputs⟩).toNat + left.value.toNat)
    (hspent : ∀ v ∈ spent, ∀ y ∈ rest, v ≤ y.value)
    (hleast : ∀ y ∈ rest, y.origin.isRecord = true → least ≤ y.value) :
    ∀ b ∈ batches, b.isReady = true → least ≤ b.output := by
  generalize hstart : left ::ₘ rest = pool at h
  induction h generalizing spent left rest with
  | done number pool => simp
  | @merge number pool rest' final b batches hpool hfull hbalance hpositive hlater ih =>
      rw [← hstart] at hpool
      rw [hfull.fee_eq] at hbalance
      have hrecord : ∀ y ∈ left ::ₘ rest, y.origin.isRecord = true → least ≤ y.value := by
        intro y hy horigin
        rcases Multiset.mem_cons.mp hy with rfl | hy
        · simp [hmerged] at horigin
        · exact hleast y hy horigin
      rw [List.forall_mem_cons]
      refine ⟨fun hready => ?_, ih rfl hfull.card_values hbalance hfull.value_le
        (fun y hy => hrecord y (by simp [hpool, hy])) rfl⟩
      -- The output of the earlier batch stays behind, and this batch spends larger values.
      have hnot : left ∉ (b.spent : Multiset Holding) := by
        intro hmem
        simp [Batch.isReady_iff.mp hready left hmem] at hmerged
      have hsub : (b.spent : Multiset Holding) ≤ rest :=
        (Multiset.le_cons_of_notMem hnot).mp (hpool ▸ Multiset.le_add_right _ _)
      have hleft : left ∈ rest' := by
        have hmem : left ∈ (b.spent : Multiset Holding) + rest' := by simp [← hpool]
        exact (Multiset.mem_add.mp hmem).resolve_left hnot
      have haverage : (poolValues b.spent).card * worth spent ≤
          spent.card * worth (poolValues b.spent) := by
        apply card_mul_worth_le
        intro v hv w hw
        obtain ⟨x, hx, rfl⟩ := mem_poolValues.mp hw
        exact hspent v hv x (Multiset.mem_of_le hsub hx)
      rw [hfull.card_values, hcard, hworth, hbalance] at haverage
      have hlimit : 0 < s.limit := two_pos.trans_le s.two_le_limit
      have hgrown : left.value ≤ b.output := by
        have hle := Nat.le_of_mul_le_mul_left haverage hlimit
        exact UInt64.le_iff_toNat_le.mpr (by omega)
      obtain ⟨x, hx⟩ := Multiset.card_pos_iff_exists_mem.mp (hfull.card_eq ▸ hlimit)
      have hx_least : least ≤ x.value :=
        hleast x (Multiset.mem_of_le hsub hx) (Batch.isReady_iff.mp hready x hx)
      exact UInt64.le_trans hx_least
        (UInt64.le_trans (hfull.smallest x hx left hleft) hgrown)

/-- A full batch still has the smallest values after the ready ones among those that follow
it. -/
theorem smallest_after_ready {b : Batch} {left : Multiset Holding}
    (h : Consolidates rule s.FullBatch (number + 1)
      (b.holding number ::ₘ (readySpent batches + left)) batches final)
    (hfull : s.FullBatch b.spent (readySpent batches + left))
    (hbalance : worth (poolValues b.spent) = (b.fee rule).toNat + b.output.toNat) :
    ∀ v ∈ poolValues b.spent, ∀ w ∈ poolValues left + readyOutputs batches, v ≤ w := by
  rw [hfull.fee_eq] at hbalance
  intro v hv w hw
  rcases Multiset.mem_add.mp hw with hw | hw
  · obtain ⟨y, hy, rfl⟩ := mem_poolValues.mp hw
    exact hfull.value_le v hv y (Multiset.mem_add.mpr (Or.inr hy))
  · obtain ⟨c, hc, hready, rfl⟩ := mem_readyOutputs.mp hw
    exact h.le_output_of_isReady rfl hfull.card_values hbalance hfull.value_le
      (fun y hy _ => hfull.value_le v hv y hy) c hc hready

end Consolidates
end SpendPlanner
