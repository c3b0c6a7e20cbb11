import SpendPlanner.Fee
import Mathlib.Tactic

/-!
# Built-in fee rules

The library comes with two kinds of fee rules: one fee for every shape, and a fee that grows
linearly with inputs and outputs.  The first is a special case of the second.  Both stop at
the largest word, and both make one transaction with two outputs no dearer than a
consolidation followed by such a transaction.
-/

namespace SpendPlanner

/-- Adding up clipped amounts never falls below the clipped sum. -/
theorem toNat_clip_add_le (m n : ℕ) :
    (clip (m + n)).toNat ≤ (clip m).toNat + (clip n).toNat := by
  simp only [toNat_clip]
  omega

theorem toNat_clip_mono {m n : ℕ} (h : m ≤ n) : (clip m).toNat ≤ (clip n).toNat := by
  simp only [toNat_clip]
  omega

theorem clip_max (a b : ℕ) : clip (max a b) = max (clip a) (clip b) := by
  have hmax : max (clip a) (clip b) = if clip a ≤ clip b then clip b else clip a := rfl
  by_cases hle : clip a ≤ clip b
  · rw [hmax, if_pos hle, ← UInt64.toNat_inj]
    simp only [UInt64.le_iff_toNat_le, toNat_clip] at hle ⊢
    omega
  · rw [hmax, if_neg hle, ← UInt64.toNat_inj]
    simp only [UInt64.le_iff_toNat_le, toNat_clip] at hle ⊢
    omega

/-- Clipping a part of a sum first changes nothing. -/
theorem clip_toNat_clip_add (a b : ℕ) : clip ((clip a).toNat + b) = clip (a + b) := by
  apply UInt64.toNat_inj.mp
  simp only [toNat_clip]
  omega

/-- Clipping the parts of a sum, each of which counts, is no different from clipping the
sum. -/
theorem clip_mul_add (a b : ℕ) {m : ℕ} (hm : 0 < m) :
    clip ((clip a).toNat * m + (clip b).toNat) = clip (a * m + b) := by
  apply UInt64.toNat_inj.mp
  simp only [toNat_clip]
  generalize UInt64.size - 1 = largest
  by_cases ha : a ≤ largest
  · rw [Nat.min_eq_left ha]
    omega
  · rw [Nat.min_eq_right (by omega : largest ≤ a)]
    have hleft : largest ≤ largest * m := Nat.le_mul_of_pos_right largest hm
    have hright : a ≤ a * m := Nat.le_mul_of_pos_right a hm
    omega

namespace LinearFee

/-- The linear fee that is the same for every shape. -/
def constant (fee : UInt64) : LinearFee := ⟨fee, 0, 0⟩

theorem rule_constant (fee : UInt64) : (constant fee).rule = FeeRule.fixed fee := by
  funext shape
  apply UInt64.toNat_inj.mp
  have hlt := fee.toNat_lt
  simp only [rule, exact, constant, FeeRule.fixed, toNat_clip, UInt64.toNat_zero, zero_mul,
    add_zero]
  simp only [UInt64.size]
  omega

theorem toNat_rule (f : LinearFee) (shape : Shape) :
    (f.rule shape).toNat = min (f.exact shape) (UInt64.size - 1) :=
  toNat_clip _

/-- Fewer inputs are no dearer. -/
theorem toNat_rule_mono (f : LinearFee) {k k' : ℕ} (hk : k' ≤ k) (outputs : ℕ) :
    (f.rule ⟨k', outputs⟩).toNat ≤ (f.rule ⟨k, outputs⟩).toNat := by
  refine toNat_clip_mono ?_
  have hinputs : f.perInput.toNat * k' ≤ f.perInput.toNat * k := Nat.mul_le_mul_left _ hk
  simp only [exact]
  omega

/-- A payment from `k` values costs no more than merging as many first and paying then. -/
theorem toNat_rule_pair_le (f : LinearFee) {k b : ℕ} (hk : k ≤ b) (j : ℕ) :
    (f.rule ⟨k, 2⟩).toNat ≤ (f.rule ⟨b, 1⟩).toNat + (f.rule ⟨j, 2⟩).toNat := by
  have hexact : f.exact ⟨k, 2⟩ ≤ f.exact ⟨b, 1⟩ + f.exact ⟨j, 2⟩ := by
    have hinputs : f.perInput.toNat * k ≤ f.perInput.toNat * b := Nat.mul_le_mul_left _ hk
    simp only [exact]
    omega
  exact (toNat_clip_mono hexact).trans (toNat_clip_add_le _ _)

end LinearFee

namespace FeeRule

/-- The fee rules that come with the library. -/
inductive BuiltIn : FeeRule → Prop where
  | fixed (fee : UInt64) : BuiltIn (fixed fee)
  | linear (f : LinearFee) : BuiltIn f.rule

theorem BuiltIn.exists_linear {rule : FeeRule} (h : rule.BuiltIn) :
    ∃ f : LinearFee, f.rule = rule := by
  cases h with
  | fixed fee => exact ⟨.constant fee, LinearFee.rule_constant fee⟩
  | linear f => exact ⟨f, rfl⟩

end FeeRule
end SpendPlanner
