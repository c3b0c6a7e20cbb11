import SpendPlanner.Proofs.Selection.FullBatches

/-!
# Planning again

Once the ready merges of a plan have been carried out, what is left is planned from scratch.
The new plan is no longer than the merges that had been put off, and no dearer.  The reason
is that those merges could still be made in their order, since every batch still consists of
the smallest values: the planner makes the same merges, except that it may stop earlier.
-/

namespace SpendPlanner
namespace Selector

variable {s : Selector} {rule : FeeRule} {outlay : UInt64}

/-- From every pool of the given values the planner makes at most `merges` merges, and its
fees are at most those of as many full merges and of a payment from `k` values. -/
def PlansWithin (s : Selector) (rule : FeeRule) (outlay : UInt64) (values : Multiset UInt64)
    (merges k : ℕ) : Prop :=
  ∀ (made : List Merge) (pool : List Holding), poolValues pool = values →
    ∃ (more : List Merge) (fee : UInt64),
      s.consolidate rule outlay made pool = ⟨made ++ more, .ok fee⟩ ∧
        more.length ≤ merges ∧
        total (more.map Merge.fee) + fee.toNat ≤
          merges * (rule ⟨s.limit, gatherOutputs⟩).toNat + (rule ⟨k, paymentOutputs⟩).toNat

theorem plansWithin_of_isLeast {values : Multiset UInt64} {k : ℕ}
    (h : IsLeast {k | s.Affords rule paymentOutputs outlay values k} k) :
    s.PlansWithin rule outlay values 0 k := by
  rintro made pool rfl
  exact ⟨[], _, by rw [consolidate_of_isLeast made h, List.append_nil], le_rfl, by simp⟩

/-- What the planner merges next is determined by the values of its pool. -/
theorem values_smallest_kept {spent rest : Multiset UInt64} {pool : List Holding}
    (hpool : poolValues pool = spent + rest) (hcard : spent.card = s.limit)
    (hsmallest : ∀ v ∈ spent, ∀ w ∈ rest, v ≤ w) :
    s.batch (Holding.arrange pool) = s.limit ∧
      poolValues (s.smallest (Holding.arrange pool)) = spent ∧
      poolValues (s.kept (Holding.arrange pool)) = rest := by
  have hlength : (Holding.arrange pool).length = s.limit + rest.card := by
    rw [Holding.length_arrange, ← Multiset.coe_card, ← card_poolValues, hpool,
      Multiset.card_add, hcard]
  have hbatch : s.batch (Holding.arrange pool) = s.limit := by
    rw [Selector.batch, hlength]
    omega
  have hkeep : (Holding.arrange pool).length - s.batch (Holding.arrange pool) = rest.card := by
    omega
  have hvalues : (Holding.values (Holding.arrange pool) : Multiset UInt64) = spent + rest := by
    rw [← poolValues_coe, Holding.coe_arrange, hpool]
  obtain ⟨hlow, hhigh⟩ :=
    drop_descending (Holding.values_arrange_descending pool) hvalues hsmallest
  refine ⟨hbatch, ?_, ?_⟩
  · rw [smallest, hkeep, poolValues_coe, Holding.values, List.map_drop]
    exact hlow
  · rw [kept, hkeep, poolValues_coe, Holding.values, List.map_take]
    exact hhigh

/-- Where no payment fits, the planner merges the smallest values. -/
theorem exists_consolidate_eq {spent rest : Multiset UInt64} {output : UInt64}
    (hcard : spent.card = s.limit) (hsmallest : ∀ v ∈ spent, ∀ w ∈ rest, v ≤ w)
    (hworth : worth spent = (rule ⟨s.limit, gatherOutputs⟩).toNat + output.toNat)
    (hpositive : 0 < output)
    (made : List Merge) {pool : List Holding} (hpool : poolValues pool = spent + rest)
    (hfit : s.fit? rule paymentOutputs outlay (Holding.values (Holding.arrange pool)) = none) :
    ∃ (m : Merge) (later : List Holding),
      m.fee = rule ⟨s.limit, gatherOutputs⟩ ∧ poolValues later = output ::ₘ rest ∧
        s.consolidate rule outlay made pool = s.consolidate rule outlay (made ++ [m]) later := by
  obtain ⟨hbatch, hmerging, hkept⟩ := values_smallest_kept hpool hcard hsmallest
  have hlong : ¬pool.length < 2 := by
    have hlimit := s.two_le_limit
    have htotal := congrArg Multiset.card hpool
    rw [card_poolValues, Multiset.coe_card, Multiset.card_add, hcard] at htotal
    omega
  have hmerged : mergedValue (Holding.values (s.smallest (Holding.arrange pool)))
      (rule ⟨s.limit, gatherOutputs⟩) = .ok output := by
    rw [mergedValue_eq_ok_iff, ← worth_coe, ← poolValues_coe, hmerging]
    exact ⟨hworth, hpositive⟩
  refine ⟨⟨(s.smallest (Holding.arrange pool)).map Holding.origin,
    rule ⟨s.limit, gatherOutputs⟩, output⟩,
    s.kept (Holding.arrange pool) ++ [⟨output, .merged made.length⟩], rfl, ?_, ?_⟩
  · rw [Multiset.coe_eq_coe.mpr (List.perm_append_singleton _ _), ← Multiset.cons_coe,
      poolValues_cons, hkept]
  · rw [consolidate]
    simp only [hfit, hlong, if_false, hbatch, hmerged]

/-- Beside larger values, as many values as one transaction may spend make for one merge
more. -/
theorem PlansWithin.merge (hrule : rule.BuiltIn) {spent rest : Multiset UInt64}
    {output : UInt64} {merges k : ℕ}
    (h : s.PlansWithin rule outlay (output ::ₘ rest) merges k)
    (hcard : spent.card = s.limit) (hsmallest : ∀ v ∈ spent, ∀ w ∈ rest, v ≤ w)
    (hworth : worth spent = (rule ⟨s.limit, gatherOutputs⟩).toNat + output.toNat)
    (hpositive : 0 < output) :
    s.PlansWithin rule outlay (spent + rest) (merges + 1) k := by
  intro made pool hpool
  cases hfit : s.fit? rule paymentOutputs outlay (Holding.values (Holding.arrange pool)) with
  | some j =>
      -- Stopping here spends more inputs, but saves the fee of a merge.
      have hleast := (fit?_arrange_eq_some_iff pool j).mp hfit
      refine ⟨[], _, by rw [consolidate_of_isLeast made hleast, List.append_nil],
        Nat.zero_le _, ?_⟩
      obtain ⟨f, rfl⟩ := hrule.exists_linear
      have hcheap := f.toNat_rule_pair_le hleast.1.2.1 k
      simp only [List.map_nil, total_nil, Nat.add_mul, gatherOutputs, paymentOutputs]
      omega
  | none =>
      obtain ⟨m, later, hfee, hlater, heq⟩ :=
        exists_consolidate_eq hcard hsmallest hworth hpositive made hpool hfit
      obtain ⟨more, fee, hrun, hcount, hfees⟩ := h (made ++ [m]) later hlater
      refine ⟨m :: more, fee, ?_, ?_, ?_⟩
      · rw [heq, hrun, List.append_assoc, List.singleton_append]
      · rw [List.length_cons]
        omega
      · rw [List.map_cons, total_cons, hfee, Nat.add_mul]
        omega

/-- Suppose the ready ones among full batches are carried out first.  What is left then is
planned with no more merges than have been put off. -/
theorem plansWithin_of_fullBatches (hrule : rule.BuiltIn) {number k : ℕ}
    {pool final : Multiset Holding} {batches : List Batch}
    (h : Consolidates rule s.FullBatch number pool batches final)
    (hleast : IsLeast {k | s.Affords rule paymentOutputs outlay (poolValues final) k} k)
    {values : Multiset UInt64}
    (hvalues : values + poolValues (readySpent batches) =
      poolValues pool + readyOutputs batches) :
    s.PlansWithin rule outlay values (batches.countP fun b => !b.isReady) k := by
  induction h generalizing values with
  | done number pool =>
      have hpool : values = poolValues pool := by
        simpa [readySpent, readyOutputs] using hvalues
      rw [hpool]
      exact plansWithin_of_isLeast hleast
  | @merge number pool rest final b batches hpool hfull hbalance hpositive hlater ih =>
      rw [hpool, poolValues_add] at hvalues
      cases hready : b.isReady with
      | true =>
          rw [List.countP_cons_of_neg (by simp [hready])]
          apply ih hleast
          rw [readySpent_cons_of_isReady hready, readyOutputs_cons_of_isReady hready,
            poolValues_add, add_left_comm, add_assoc, add_right_inj] at hvalues
          rw [poolValues_cons, Multiset.cons_add, ← Multiset.add_cons]
          exact hvalues
      | false =>
          rw [readySpent_cons_of_not_isReady hready, readyOutputs_cons_of_not_isReady hready]
            at hvalues
          rw [List.countP_cons_of_pos (by simp [hready])]
          have hspent : (readySpent batches : Multiset Holding) ≤ rest := by
            have hle := hlater.readySpent_le
            rw [filter_isRecord_cons] at hle
            exact hle.trans (Multiset.filter_le _ _)
          obtain ⟨left, rfl⟩ := Multiset.le_iff_exists_add.mp hspent
          -- Without what the ready batches exchange, this batch is still to be made.
          rw [poolValues_add] at hvalues
          have hsplit : values = poolValues b.spent +
              (poolValues left + readyOutputs batches) := by
            apply add_right_cancel (b := poolValues (readySpent batches))
            rw [hvalues]
            abel
          have hnext : s.PlansWithin rule outlay
              (b.output ::ₘ (poolValues left + readyOutputs batches))
              (batches.countP fun b => !b.isReady) k := by
            apply ih hleast
            rw [poolValues_cons, poolValues_add, Batch.value_holding, Multiset.cons_add,
              Multiset.cons_add]
            congr 1
            abel
          rw [hsplit]
          exact hnext.merge hrule hfull.card_values
            (hlater.smallest_after_ready hfull hbalance) (hfull.fee_eq rule ▸ hbalance)
            hpositive

end Selector
end SpendPlanner
