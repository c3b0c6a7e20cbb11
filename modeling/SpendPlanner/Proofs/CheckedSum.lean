import SpendPlanner.Amount
import Mathlib.Tactic

/-!
# Checked sums and differences

A sum of words that stops at the first partial sum beyond a word is the exact sum whenever
that is a word, whatever the order of the terms, and overflows in all other cases.
-/

namespace SpendPlanner

theorem total_map {α : Type} (f : α → UInt64) (items : List α) :
    total (items.map f) = (items.map fun a => (f a).toNat).sum := by
  induction items with
  | nil => rfl
  | cons a items ih => rw [List.map_cons, total_cons, ih, List.map_cons, List.sum_cons]

theorem exists_addChecked {a b : UInt64} (h : a.toNat + b.toNat < UInt64.size) :
    ∃ sum, addChecked a b = .ok sum ∧ sum.toNat = a.toNat + b.toNat := by
  obtain ⟨sum, hword, hsum⟩ := exists_word? h
  exact ⟨sum, by rw [addChecked, hword], hsum⟩

theorem foldlM_addChecked (values : List UInt64) (start : UInt64) :
    values.foldlM addChecked start =
      match word? (start.toNat + total values) with
      | some sum => .ok sum
      | none => .error .overflow := by
  induction values generalizing start with
  | nil => simp [word?_toNat, pure, Except.pure]
  | cons v values ih =>
      rw [List.foldlM_cons, addChecked]
      cases hword : word? (start.toNat + v.toNat) with
      | some partialSum =>
          have hsum := word?_eq_some_iff.mp hword
          change values.foldlM addChecked partialSum = _
          rw [ih, hsum, total_cons, add_assoc]
      | none =>
          have hlarge := word?_eq_none_iff.mp hword
          have hnone : word? (start.toNat + total (v :: values)) = none := by
            rw [word?_eq_none_iff, total_cons]
            omega
          rw [hnone]
          rfl

theorem checkedSum_eq (values : List UInt64) :
    checkedSum values =
      match word? (total values) with
      | some sum => .ok sum
      | none => .error .overflow := by
  rw [checkedSum, foldlM_addChecked, UInt64.toNat_zero, zero_add]

theorem checkedSum_eq_ok_iff {values : List UInt64} {sum : UInt64} :
    checkedSum values = .ok sum ↔ sum.toNat = total values := by
  rw [checkedSum_eq, ← word?_eq_some_iff]
  cases word? (total values) <;> simp

theorem checkedSum_perm {xs ys : List UInt64} (h : xs.Perm ys) :
    checkedSum xs = checkedSum ys := by
  rw [checkedSum_eq, checkedSum_eq, total_perm h]

theorem total_lt_of_checkedSum {values : List UInt64} {sum : UInt64}
    (h : checkedSum values = .ok sum) : total values < UInt64.size := by
  rw [← checkedSum_eq_ok_iff.mp h]
  exact sum.toNat_lt

theorem checkedSum_eq_error_iff {values : List UInt64} {error : RangeError} :
    checkedSum values = .error error ↔ error = .overflow ∧ UInt64.size ≤ total values := by
  rw [checkedSum_eq, ← word?_eq_none_iff]
  cases word? (total values) <;> simp [eq_comm]

theorem exists_checkedSum {values : List UInt64} (h : total values < UInt64.size) :
    ∃ sum, checkedSum values = .ok sum ∧ sum.toNat = total values := by
  obtain ⟨sum, -, hsum⟩ := exists_word? h
  exact ⟨sum, checkedSum_eq_ok_iff.mpr hsum, hsum⟩

theorem checkedDifference_eq_ok_iff {a b : List UInt64} {difference : UInt64} :
    checkedDifference a b = .ok difference ↔ total a = total b + difference.toNat := by
  rw [checkedDifference]
  split
  · next hless =>
    simp only [reduceCtorEq, false_iff]
    omega
  · next hless =>
    have hiff : word? (total a - total b) = some difference ↔
        difference.toNat = total a - total b := word?_eq_some_iff
    cases hword : word? (total a - total b) with
    | some w =>
        rw [hword, Option.some.injEq] at hiff
        simp only [Except.ok.injEq, hiff]
        omega
    | none =>
        rw [hword] at hiff
        simp only [reduceCtorEq, false_iff] at hiff ⊢
        omega

theorem checkedDifference_eq_underflow_iff {a b : List UInt64} :
    checkedDifference a b = .error .underflow ↔ total a < total b := by
  rw [checkedDifference]
  split
  · next hless => simpa using hless
  · next hless => cases word? (total a - total b) <;> simpa using hless

theorem checkedDifference_eq_overflow_iff {a b : List UInt64} :
    checkedDifference a b = .error .overflow ↔ total b + UInt64.size ≤ total a := by
  rw [checkedDifference]
  split
  · next hless =>
    simp only [Except.error.injEq, reduceCtorEq, false_iff]
    omega
  · next hless =>
    have hlarge : word? (total a - total b) = none ↔ total b + UInt64.size ≤ total a := by
      rw [word?_eq_none_iff]
      omega
    rw [← hlarge]
    cases word? (total a - total b) <;> simp

end SpendPlanner
