import SpendPlanner.Proofs.BuiltInFee
import SpendPlanner.Selection.Transferable

/-!
# The cost of gathering values

Sending `k` values to one recipient takes merges of as many values as the limit, one after the
other, until no more than the limit remain, and a last transaction that spends those.  Under a
linear fee the flat part is paid once for each transaction, the part for inputs once for each
value and once more for each output of a merge.  The closed form says how the cost changes when
some of the values are merged at once.
-/

namespace SpendPlanner

namespace Selector

variable (s : Selector)

theorem mergesNeeded_of_le {k : ℕ} (h : k ≤ s.limit) : s.mergesNeeded k = 0 := by
  have htwo := s.two_le_limit
  rw [mergesNeeded]
  exact Nat.div_eq_of_lt (by omega)

/-- The merges take away enough values, and the last of them is not superfluous. -/
theorem mergesNeeded_bounds {k : ℕ} (h : s.limit < k) :
    k ≤ s.limit + s.mergesNeeded k * (s.limit - 1) ∧
      s.mergesNeeded k * (s.limit - 1) + 2 ≤ k := by
  have htwo := s.two_le_limit
  have hdiv := Nat.div_add_mod (k - s.limit + (s.limit - 2)) (s.limit - 1)
  have hmod := Nat.mod_lt (k - s.limit + (s.limit - 2)) (show s.limit - 1 > 0 by omega)
  rw [mul_comm] at hdiv
  rw [mergesNeeded]
  omega

/-- The first merge leaves `limit - 1` values fewer, and one merge less to make. -/
theorem mergesNeeded_step {k : ℕ} (h : s.limit < k) :
    s.mergesNeeded k = s.mergesNeeded (k - (s.limit - 1)) + 1 := by
  have htwo := s.two_le_limit
  rw [mergesNeeded, mergesNeeded, ← Nat.add_div_right _ (show 0 < s.limit - 1 by omega)]
  by_cases hk : k ≤ s.limit + (s.limit - 1)
  · have hleft : (k - s.limit + (s.limit - 2)) / (s.limit - 1) = 1 :=
      Nat.div_eq_of_lt_le (by omega) (by omega)
    have hright : (k - (s.limit - 1) - s.limit + (s.limit - 2) + (s.limit - 1)) /
        (s.limit - 1) = 1 :=
      Nat.div_eq_of_lt_le (by omega) (by omega)
    rw [hleft, hright]
  · congr 1
    omega

theorem remainingAfterMerges_of_le {k : ℕ} (h : k ≤ s.limit) : s.remainingAfterMerges k = k := by
  rw [remainingAfterMerges, s.mergesNeeded_of_le h, Nat.zero_mul, Nat.sub_zero]

/-- A merge does not change what remains in the end. -/
theorem remainingAfterMerges_step {k : ℕ} (h : s.limit < k) :
    s.remainingAfterMerges k = s.remainingAfterMerges (k - (s.limit - 1)) := by
  rw [remainingAfterMerges, remainingAfterMerges, s.mergesNeeded_step h, Nat.add_one_mul]
  omega

/-- Too many values are brought down to at least two and at most the limit. -/
theorem remainingAfterMerges_bounds {k : ℕ} (h : s.limit < k) :
    2 ≤ s.remainingAfterMerges k ∧ s.remainingAfterMerges k ≤ s.limit := by
  obtain ⟨henough, hlast⟩ := s.mergesNeeded_bounds h
  rw [remainingAfterMerges]
  omega

/-- Merging up to `limit` values at once saves at most one merge. -/
theorem mergesNeeded_add_le {j : ℕ} (hj : j ≤ s.limit) (t : ℕ) :
    s.mergesNeeded (j + t) ≤ s.mergesNeeded (1 + t) + 1 := by
  have htwo := s.two_le_limit
  rw [mergesNeeded, mergesNeeded, ← Nat.add_div_right _ (show 0 < s.limit - 1 by omega)]
  exact Nat.div_le_div_right (by omega)

/-- One value more takes at most one merge more. -/
theorem mergesNeeded_succ_le {k : ℕ} (hk : 1 ≤ k) :
    s.mergesNeeded (k + 1) ≤ s.mergesNeeded k + 1 := by
  have hle := s.mergesNeeded_add_le s.two_le_limit (k - 1)
  rwa [show 2 + (k - 1) = k + 1 by omega, show 1 + (k - 1) = k by omega] at hle

/-- The transactions that gather `count` values.  While they are more than the limit, as many
as the limit are replaced by one; those that remain are sent. -/
def gatherSteps (s : Selector) (count : ℕ) : List Shape :=
  if s.limit < count then
    ⟨s.limit, gatherOutputs⟩ :: s.gatherSteps (count - s.limit + 1)
  else [⟨count, gatherOutputs⟩]
termination_by count
decreasing_by
  have htwo := s.two_le_limit
  omega

/-- All merges spend as many values as the limit, and there are as many as reckoned. -/
theorem gatherSteps_eq (count : ℕ) :
    s.gatherSteps count =
      List.replicate (s.mergesNeeded count) ⟨s.limit, gatherOutputs⟩ ++
        [⟨s.remainingAfterMerges count, gatherOutputs⟩] := by
  have htwo := s.two_le_limit
  fun_induction s.gatherSteps count with
  | case1 count hlimit ih =>
      have hnext : count - s.limit + 1 = count - (s.limit - 1) := by omega
      rw [ih, hnext, s.mergesNeeded_step hlimit, s.remainingAfterMerges_step hlimit,
        List.replicate_succ, List.cons_append]
  | case2 count hlimit =>
      rw [s.mergesNeeded_of_le (not_lt.mp hlimit), s.remainingAfterMerges_of_le (not_lt.mp hlimit)]
      rfl

end Selector

namespace LinearFee

variable (f : LinearFee) (s : Selector)

/-- The fees of sending `k` values to one recipient before any clipping. -/
def gatherCost (k : ℕ) : ℕ :=
  (s.mergesNeeded k + 1) * (f.base.toNat + f.perOutput.toNat) +
    f.perInput.toNat * (k + s.mergesNeeded k)

theorem gatherCost_of_le {k : ℕ} (h : k ≤ s.limit) :
    f.gatherCost s k = f.exact ⟨k, Selector.gatherOutputs⟩ := by
  simp only [gatherCost, s.mergesNeeded_of_le h, exact, Selector.gatherOutputs]
  ring

/-- Gathering anything costs at least the least fee. -/
theorem exact_one_le_gatherCost {k : ℕ} (hk : 1 ≤ k) :
    f.exact ⟨1, Selector.gatherOutputs⟩ ≤ f.gatherCost s k := by
  have hflat := Nat.le_mul_of_pos_left (f.base.toNat + f.perOutput.toNat)
    (show 0 < s.mergesNeeded k + 1 by omega)
  have hinputs := Nat.mul_le_mul_left f.perInput.toNat
    (show 1 ≤ k + s.mergesNeeded k by omega)
  simp only [gatherCost, exact, Selector.gatherOutputs]
  omega

theorem gatherCost_step {k : ℕ} (h : s.limit < k) :
    f.gatherCost s k =
      f.exact ⟨s.limit, Selector.gatherOutputs⟩ + f.gatherCost s (k - (s.limit - 1)) := by
  have htwo := s.two_le_limit
  have hk : k = k - (s.limit - 1) + (s.limit - 1) := by omega
  have hlimit : s.limit = s.limit - 1 + 1 := by omega
  simp only [gatherCost, s.mergesNeeded_step h, exact, Selector.gatherOutputs]
  generalize s.mergesNeeded (k - (s.limit - 1)) = m
  generalize hr : k - (s.limit - 1) = r at *
  generalize hl : s.limit - 1 = l at *
  rw [hk, hlimit]
  ring

/-- The transactions that gather values cost together what gathering costs. -/
theorem sum_exact_gatherSteps (k : ℕ) : ((s.gatherSteps k).map f.exact).sum = f.gatherCost s k := by
  have htwo := s.two_le_limit
  fun_induction s.gatherSteps k with
  | case1 k hlimit ih =>
      have hnext : k - s.limit + 1 = k - (s.limit - 1) := by omega
      rw [List.map_cons, List.sum_cons, ih, hnext, f.gatherCost_step s hlimit]
  | case2 k hlimit =>
      rw [List.map_singleton, List.sum_singleton, f.gatherCost_of_le s (not_lt.mp hlimit)]

/-- Merging `j` of the values first never makes gathering cheaper. -/
theorem gatherCost_add_le {j : ℕ} (hj : j ≤ s.limit) (t : ℕ) :
    f.gatherCost s (j + t) ≤
      f.exact ⟨j, Selector.gatherOutputs⟩ + f.gatherCost s (1 + t) := by
  have hmerges := s.mergesNeeded_add_le hj t
  have hflat := Nat.mul_le_mul_right (f.base.toNat + f.perOutput.toNat)
    (Nat.add_le_add_right hmerges 1)
  have hinputs := Nat.mul_le_mul_left f.perInput.toNat
    (show j + t + s.mergesNeeded (j + t) ≤ j + (1 + t + s.mergesNeeded (1 + t)) by omega)
  simp only [gatherCost, exact, Selector.gatherOutputs]
  nlinarith

/-- On average a value costs no less than in a merge of `limit` values. -/
theorem mul_exact_le_mul_gatherCost {k : ℕ} (h : s.limit < k) :
    k * f.exact ⟨s.limit, Selector.gatherOutputs⟩ ≤ s.limit * f.gatherCost s k := by
  have htwo := s.two_le_limit
  have hk : k ≤ s.limit * (s.mergesNeeded k + 1) := by
    obtain ⟨hbound, -⟩ := s.mergesNeeded_bounds h
    calc
      k ≤ s.limit + s.mergesNeeded k * (s.limit - 1) := hbound
      _ ≤ s.limit + s.mergesNeeded k * s.limit :=
        Nat.add_le_add_left (Nat.mul_le_mul_left _ (Nat.sub_le _ _)) _
      _ = s.limit * (s.mergesNeeded k + 1) := by ring
  have hflat := Nat.mul_le_mul_right (f.base.toNat + f.perOutput.toNat) hk
  simp only [gatherCost, exact, Selector.gatherOutputs]
  nlinarith [Nat.zero_le (f.perInput.toNat * s.limit * s.mergesNeeded k)]

/-- The fees of the merges and of the last transaction add up to the cost. -/
theorem gatherCost_eq_sum {k : ℕ} (h : s.limit < k) :
    f.gatherCost s k =
      f.exact ⟨s.limit, Selector.gatherOutputs⟩ * s.mergesNeeded k +
        f.exact ⟨s.remainingAfterMerges k, Selector.gatherOutputs⟩ := by
  have htwo := s.two_le_limit
  obtain ⟨-, hremaining⟩ := s.mergesNeeded_bounds h
  simp only [gatherCost, exact, Selector.gatherOutputs, Selector.remainingAfterMerges]
  generalize s.mergesNeeded k = m at *
  obtain ⟨l, hl⟩ : ∃ l, s.limit = l + 1 := ⟨s.limit - 1, by omega⟩
  simp only [hl, Nat.add_sub_cancel] at hremaining ⊢
  obtain ⟨r, rfl⟩ : ∃ r, k = r + m * l := ⟨k - m * l, by omega⟩
  simp only [Nat.add_sub_cancel]
  ring

/-- The fee the selector reckons with is the clipped cost. -/
theorem gatherFee_rule (k : ℕ) : s.gatherFee f.rule k = clip (f.gatherCost s k) := by
  unfold Selector.gatherFee
  by_cases hk : k ≤ s.limit
  · rw [if_pos hk, gatherCost_of_le f s hk, rule]
  · rw [if_neg hk]
    have hmerges : 0 < s.mergesNeeded k := by
      rw [s.mergesNeeded_step (by omega)]
      exact Nat.succ_pos _
    rw [gatherCost_eq_sum f s (by omega)]
    exact clip_mul_add _ _ hmerges

end LinearFee

/-- Under a fixed fee, gathering costs as many fees as there are transactions. -/
theorem Selector.toNat_gatherFee_fixed (s : Selector) (fee : UInt64) (k : ℕ) :
    (s.gatherFee (.fixed fee) k).toNat =
      min ((s.mergesNeeded k + 1) * fee.toNat) (UInt64.size - 1) := by
  rw [← LinearFee.rule_constant, LinearFee.gatherFee_rule, toNat_clip]
  simp [LinearFee.gatherCost, LinearFee.constant]

end SpendPlanner
