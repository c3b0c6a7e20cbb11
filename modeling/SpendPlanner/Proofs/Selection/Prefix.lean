import SpendPlanner.Selection.Order
import Mathlib.Algebra.Order.BigOperators.Group.Multiset
import Mathlib.Order.Bounds.Basic
import Mathlib.Tactic

/-!
# Leading values against arbitrary choices

The selector only looks at prefixes of a descending list.  Here a prefix is compared with
every other choice of as many values: it is worth at least as much.  Hence the shortest
prefix that covers an outlay has the least number of values with which the outlay can be
covered at all, and what the selector finds depends on the multiset of values alone.
-/

namespace SpendPlanner

/-- The exact sum of a multiset of words. -/
def worth (values : Multiset UInt64) : ℕ := (values.map UInt64.toNat).sum

@[simp] theorem worth_zero : worth 0 = 0 := rfl

@[simp] theorem worth_cons (w : UInt64) (values : Multiset UInt64) :
    worth (w ::ₘ values) = w.toNat + worth values := by
  simp [worth]

@[simp] theorem worth_add (xs ys : Multiset UInt64) :
    worth (xs + ys) = worth xs + worth ys := by
  simp [worth]

@[simp] theorem worth_coe (words : List UInt64) : worth words = total words := by
  induction words with
  | nil => rfl
  | cons w words ih => rw [← Multiset.cons_coe, worth_cons, ih, total_cons]

theorem worth_le_of_le {xs ys : Multiset UInt64} (h : xs ≤ ys) : worth xs ≤ worth ys := by
  obtain ⟨rest, rfl⟩ := Multiset.le_iff_exists_add.mp h
  rw [worth_add]
  exact Nat.le_add_right _ _

theorem total_take_le (words : List UInt64) (k : ℕ) : total (words.take k) ≤ total words := by
  have hle := worth_le_of_le (Multiset.coe_le.mpr (List.take_sublist k words).subperm)
  simpa using hle

theorem card_mul_le_worth {values : Multiset UInt64} {bound : ℕ}
    (h : ∀ w ∈ values, bound ≤ w.toNat) :
    values.card * bound ≤ worth values := by
  have hsum : (values.map UInt64.toNat).card • bound ≤ (values.map UInt64.toNat).sum :=
    Multiset.card_nsmul_le_sum (by simpa using h)
  simpa [worth] using hsum

/-- Where every word of one multiset is at most every word of another, averages compare the
same way. -/
theorem card_mul_worth_le {low high : Multiset UInt64}
    (h : ∀ x ∈ low, ∀ y ∈ high, x ≤ y) :
    high.card * worth low ≤ low.card * worth high := by
  induction low using Multiset.induction_on with
  | empty => simp
  | cons a low ih =>
      have hrest := ih fun x hx => h x (Multiset.mem_cons_of_mem hx)
      have ha : high.card * a.toNat ≤ worth high :=
        card_mul_le_worth fun y hy => h a (Multiset.mem_cons_self a low) y hy
      rw [worth_cons, Multiset.card_cons]
      nlinarith

/-- The leading values of a descending list are worth as much as any other choice of as
many. -/
theorem worth_le_total_take
    {values : List UInt64} (hdesc : values.Pairwise (· ≥ ·))
    {chosen : Multiset UInt64} (hchosen : chosen ≤ values) :
    worth chosen ≤ total (values.take chosen.card) := by
  induction values generalizing chosen with
  | nil =>
      have hzero : chosen = 0 := by simpa using hchosen
      simp [hzero]
  | cons a values ih =>
      obtain ⟨ha, hvalues⟩ := List.pairwise_cons.mp hdesc
      rw [← Multiset.cons_coe] at hchosen
      -- Whichever word of the choice gives way to the first, the others lie in the tail.
      have hexchange : chosen = 0 ∨
          ∃ x rest, chosen = x ::ₘ rest ∧ x ≤ a ∧ rest ≤ (values : Multiset UInt64) := by
        by_cases hmem : a ∈ chosen
        · obtain ⟨rest, rfl⟩ := Multiset.exists_cons_of_mem hmem
          exact Or.inr ⟨a, rest, rfl, UInt64.le_refl a,
            (Multiset.cons_le_cons_iff a).mp hchosen⟩
        · have hle := (Multiset.le_cons_of_notMem hmem).mp hchosen
          rcases Multiset.empty_or_exists_mem chosen with hzero | ⟨x, hx⟩
          · exact Or.inl hzero
          · obtain ⟨rest, rfl⟩ := Multiset.exists_cons_of_mem hx
            have hxa : x ≤ a := ha x (by simpa using Multiset.mem_of_le hle hx)
            exact Or.inr ⟨x, rest, rfl, hxa, (Multiset.le_cons_self rest x).trans hle⟩
      rcases hexchange with rfl | ⟨x, rest, rfl, hxa, hrest⟩
      · simp
      · have htail := ih hvalues hrest
        rw [worth_cons, Multiset.card_cons, List.take_succ_cons, total_cons]
        exact Nat.add_le_add (UInt64.le_iff_toNat_le.mp hxa) htail

/-- A multiset of words in descending order is determined by the words. -/
theorem eq_of_descending {xs ys : List UInt64}
    (hxs : xs.Pairwise (· ≥ ·)) (hys : ys.Pairwise (· ≥ ·))
    (h : (xs : Multiset UInt64) = ys) : xs = ys :=
  List.Perm.eq_of_pairwise
    (fun _ _ _ _ hab hba => UInt64.le_antisymm hba hab) hxs hys (Multiset.coe_eq_coe.mp h)

theorem exists_descending (values : Multiset UInt64) :
    ∃ words : List UInt64, words.Pairwise (· ≥ ·) ∧ (words : Multiset UInt64) = values := by
  refine ⟨values.toList.mergeSort fun a b => b ≤ a, ?_, ?_⟩
  · have hsorted := @List.pairwise_mergeSort _ (fun a b : UInt64 => decide (b ≤ a))
      (fun a b c hab hbc => by
        simp only [decide_eq_true_eq] at *
        exact UInt64.le_trans hbc hab)
      (fun a b => by simpa using UInt64.le_total b a) values.toList
    simpa using hsorted
  · have hperm := List.mergeSort_perm values.toList fun a b => decide (b ≤ a)
    rw [Multiset.coe_eq_coe.mpr hperm, Multiset.coe_toList]

/-- The end of a descending list consists of the smallest words. -/
theorem drop_descending {values : List UInt64} (hdesc : values.Pairwise (· ≥ ·))
    {low high : Multiset UInt64} (hsplit : (values : Multiset UInt64) = low + high)
    (hle : ∀ x ∈ low, ∀ y ∈ high, x ≤ y) :
    (values.drop high.card : Multiset UInt64) = low ∧
      (values.take high.card : Multiset UInt64) = high := by
  obtain ⟨lows, hlows, rfl⟩ := exists_descending low
  obtain ⟨highs, hhighs, rfl⟩ := exists_descending high
  have hboth : (highs ++ lows).Pairwise (· ≥ ·) := by
    refine List.pairwise_append.mpr ⟨hhighs, hlows, ?_⟩
    intro y hy x hx
    exact hle x hx y hy
  have heq : values = highs ++ lows := by
    apply eq_of_descending hdesc hboth
    rw [hsplit, ← Multiset.coe_add, add_comm]
  subst heq
  simp

/-! ## The least number of covering values -/

namespace Selector

/-- Some `k` of the values, no more than one transaction may spend, cover an outlay and the
fee of spending them. -/
def Affords (s : Selector) (rule : FeeRule) (outputs : ℕ) (outlay : UInt64)
    (values : Multiset UInt64) (k : ℕ) : Prop :=
  1 ≤ k ∧ k ≤ s.limit ∧
    ∃ chosen ≤ values, chosen.card = k ∧
      outlay.toNat + (rule ⟨k, outputs⟩).toNat ≤ worth chosen

theorem covers_iff {values : List UInt64} (hdesc : values.Pairwise (· ≥ ·))
    (rule : FeeRule) (outputs : ℕ) (outlay : UInt64) {k : ℕ} (hk : k ≤ values.length) :
    covers rule outputs outlay values k = true ↔
      ∃ chosen ≤ (values : Multiset UInt64), chosen.card = k ∧
        outlay.toNat + (rule ⟨k, outputs⟩).toNat ≤ worth chosen := by
  simp only [covers, decide_eq_true_eq]
  constructor
  · intro hcovers
    refine ⟨values.take k, ?_, ?_, ?_⟩
    · exact Multiset.coe_le.mpr (List.take_sublist k values).subperm
    · simpa using hk
    · simpa using hcovers
  · rintro ⟨chosen, hchosen, rfl, hworth⟩
    exact hworth.trans (worth_le_total_take hdesc hchosen)

theorem affords_iff {values : List UInt64} (hdesc : values.Pairwise (· ≥ ·))
    (s : Selector) (rule : FeeRule) (outputs : ℕ) (outlay : UInt64) (k : ℕ) :
    s.Affords rule outputs outlay values k ↔
      1 ≤ k ∧ k < 1 + min s.limit values.length ∧
        covers rule outputs outlay values k = true := by
  constructor
  · rintro ⟨hk, hlimit, chosen, hchosen, hcard, hworth⟩
    have hlength : k ≤ values.length := by
      simpa [hcard] using Multiset.card_le_card hchosen
    exact ⟨hk, by omega,
      (covers_iff hdesc rule outputs outlay hlength).mpr ⟨chosen, hchosen, hcard, hworth⟩⟩
  · rintro ⟨hk, hbound, hcovers⟩
    exact ⟨hk, by omega, (covers_iff hdesc rule outputs outlay (by omega)).mp hcovers⟩

/-- The prefix the selector finds has the least number of values that can cover the
outlay. -/
theorem fit?_eq_some_iff {values : List UInt64} (hdesc : values.Pairwise (· ≥ ·))
    (s : Selector) (rule : FeeRule) (outputs : ℕ) (outlay : UInt64) (k : ℕ) :
    s.fit? rule outputs outlay values = some k ↔
      IsLeast {k | s.Affords rule outputs outlay values k} k := by
  rw [fit?, List.find?_range'_eq_some, List.mem_range'_1]
  simp only [IsLeast, lowerBounds, Set.mem_ofPred_eq, affords_iff hdesc]
  constructor
  · rintro ⟨hcovers, ⟨hk, hbound⟩, hleast⟩
    refine ⟨⟨hk, hbound, hcovers⟩, ?_⟩
    rintro j ⟨hj, -, hcoversj⟩
    by_contra hlt
    have hnot := hleast j hj (by omega)
    simp [hcoversj] at hnot
  · rintro ⟨⟨hk, hbound, hcovers⟩, hleast⟩
    refine ⟨hcovers, ⟨hk, hbound⟩, ?_⟩
    intro j hj hjk
    by_contra hcoversj
    have hle := hleast ⟨hj, by omega, by simpa using hcoversj⟩
    omega

theorem fit?_eq_none_iff {values : List UInt64} (hdesc : values.Pairwise (· ≥ ·))
    (s : Selector) (rule : FeeRule) (outputs : ℕ) (outlay : UInt64) :
    s.fit? rule outputs outlay values = none ↔
      ∀ k, ¬s.Affords rule outputs outlay values k := by
  rw [fit?, List.find?_range'_eq_none]
  simp only [affords_iff hdesc]
  constructor
  · rintro hnone k ⟨hk, hbound, hcovers⟩
    have hnot := hnone k hk hbound
    simp [hcovers] at hnot
  · intro hnone k hk hbound
    by_contra hcovers
    exact hnone k ⟨hk, hbound, by simpa using hcovers⟩

end Selector

/-! ## Spending order -/

theorem Record.precedes_iff (a b : Record) :
    a.precedes b = true ↔
      b.value.toNat < a.value.toNat ∨
        a.value.toNat = b.value.toNat ∧ a.globalIndex.toNat ≤ b.globalIndex.toNat := by
  simp [precedes, UInt64.lt_iff_toNat_lt, UInt64.le_iff_toNat_le, UInt64.toNat_inj]

theorem spendingOrder_perm (token : TokenId) (records : List Record) :
    (spendingOrder token records).Perm (records.filter fun r => r.token = token) :=
  List.mergeSort_perm _ _

theorem spendingOrder_pairwise (token : TokenId) (records : List Record) :
    (spendingOrder token records).Pairwise fun a b => a.precedes b = true := by
  apply List.pairwise_mergeSort
  · intro a b c hab hbc
    rw [Record.precedes_iff] at *
    omega
  · intro a b
    rw [Bool.or_eq_true, Record.precedes_iff, Record.precedes_iff]
    omega

theorem values_spendingOrder_descending (token : TokenId) (records : List Record) :
    (Record.values (spendingOrder token records)).Pairwise (· ≥ ·) := by
  refine List.pairwise_map.mpr ((spendingOrder_pairwise token records).imp ?_)
  intro a b hab
  have hle := (Record.precedes_iff a b).mp hab
  exact UInt64.le_iff_toNat_le.mpr (by omega)

theorem coe_values_spendingOrder (token : TokenId) (records : List Record) :
    (Record.values (spendingOrder token records) : Multiset UInt64) =
      Record.values (records.filter fun r => r.token = token) :=
  Multiset.coe_eq_coe.mpr ((spendingOrder_perm token records).map Record.value)

theorem total_values_spendingOrder (token : TokenId) (records : List Record) :
    total (Record.values (spendingOrder token records)) =
      total (Record.values (records.filter fun r => r.token = token)) :=
  total_perm ((spendingOrder_perm token records).map Record.value)

end SpendPlanner
