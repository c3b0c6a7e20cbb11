import SpendPlanner.Proofs.Selection.Prefix

/-!
# Counting values above thresholds

Two collections of values can be compared without putting them in order: for every threshold
one counts how many of the values exceed it.  The counts determine what the values are worth,
and where a collection is split into its smallest values and the others, no count is taken
from both parts unless all the others are in it.
-/

namespace SpendPlanner

/-! ## Smallest values -/

/-- Any number of smallest values can be split off. -/
theorem exists_smallest_add (values : Multiset UInt64) {j : ℕ} (hj : j ≤ values.card) :
    ∃ low high : Multiset UInt64, values = low + high ∧ low.card = j ∧
      ∀ v ∈ low, ∀ w ∈ high, v ≤ w := by
  obtain ⟨words, hdesc, rfl⟩ := exists_descending values
  rw [Multiset.coe_card] at hj
  have hsplit := List.take_append_drop (words.length - j) words
  refine ⟨words.drop (words.length - j), words.take (words.length - j), ?_, ?_, ?_⟩
  · rw [add_comm, Multiset.coe_add, hsplit]
  · rw [Multiset.coe_card, List.length_drop]
    omega
  · intro v hv w hw
    rw [← hsplit] at hdesc
    exact (List.pairwise_append.mp hdesc).2.2 w hw v hv

/-- There is one way to split off a number of smallest values. -/
theorem smallest_unique {low high low' high' : Multiset UInt64}
    (hsplit : low + high = low' + high') (hcard : low.card = low'.card)
    (hle : ∀ v ∈ low, ∀ w ∈ high, v ≤ w) (hle' : ∀ v ∈ low', ∀ w ∈ high', v ≤ w) :
    low = low' ∧ high = high' := by
  obtain ⟨words, hdesc, hwords⟩ := exists_descending (low + high)
  have hcards := congrArg Multiset.card hsplit
  rw [Multiset.card_add, Multiset.card_add] at hcards
  obtain ⟨hlow, hhigh⟩ := drop_descending hdesc hwords hle
  obtain ⟨hlow', hhigh'⟩ := drop_descending hdesc (hwords.trans hsplit) hle'
  have hsame : high.card = high'.card := by omega
  rw [hsame] at hlow hhigh
  exact ⟨hlow.symm.trans hlow', hhigh.symm.trans hhigh'⟩

theorem exists_cons_forall_le {values : Multiset UInt64} (hne : values ≠ 0) :
    ∃ largest rest, values = largest ::ₘ rest ∧ ∀ v ∈ rest, v ≤ largest := by
  have hpos := Multiset.card_pos.mpr hne
  obtain ⟨rest, top, rfl, hcard, hle⟩ :=
    exists_smallest_add values (Nat.sub_le values.card 1)
  rw [Multiset.card_add] at hcard hpos
  obtain ⟨largest, rfl⟩ := Multiset.card_eq_one.mp (show top.card = 1 by omega)
  refine ⟨largest, rest, ?_, fun v hv => hle v hv largest (Multiset.mem_singleton_self _)⟩
  rw [add_comm, Multiset.singleton_add]

/-! ## Counts -/

/-- How many of the values exceed a threshold. -/
def exceeding (values : Multiset UInt64) (t : ℕ) : ℕ := values.countP fun w => t < w.toNat

section Counts

variable {low high values : Multiset UInt64} {w : UInt64} {t : ℕ}

@[simp] theorem exceeding_zero (t : ℕ) : exceeding 0 t = 0 := rfl

@[simp] theorem exceeding_add (low high : Multiset UInt64) (t : ℕ) :
    exceeding (low + high) t = exceeding low t + exceeding high t :=
  Multiset.countP_add _ low high

theorem exceeding_cons_of_lt (h : t < w.toNat) (values : Multiset UInt64) :
    exceeding (w ::ₘ values) t = exceeding values t + 1 :=
  Multiset.countP_cons_of_pos _ h

theorem exceeding_cons_of_le (h : w.toNat ≤ t) (values : Multiset UInt64) :
    exceeding (w ::ₘ values) t = exceeding values t :=
  Multiset.countP_cons_of_neg _ (not_lt.mpr h)

theorem exceeding_cons_le (w : UInt64) (values : Multiset UInt64) (t : ℕ) :
    exceeding (w ::ₘ values) t ≤ exceeding values t + 1 := by
  rcases lt_or_ge t w.toNat with h | h
  · rw [exceeding_cons_of_lt h]
  · rw [exceeding_cons_of_le h]
    omega

theorem exceeding_le_card (values : Multiset UInt64) (t : ℕ) :
    exceeding values t ≤ values.card :=
  Multiset.countP_le_card _ values

theorem exceeding_le_of_le {xs ys : Multiset UInt64} (h : xs ≤ ys) (t : ℕ) :
    exceeding xs t ≤ exceeding ys t :=
  Multiset.countP_le_of_le _ h

theorem exceeding_eq_card_iff : exceeding values t = values.card ↔ ∀ v ∈ values, t < v.toNat :=
  Multiset.countP_eq_card

theorem exceeding_pos_iff : 0 < exceeding values t ↔ ∃ v ∈ values, t < v.toNat :=
  Multiset.countP_pos

theorem exceeding_eq_zero_of_le {bound : UInt64} (h : ∀ v ∈ values, v ≤ bound)
    (hle : bound.toNat ≤ t) : exceeding values t = 0 := by
  rw [← Nat.le_zero, ← not_lt, exceeding_pos_iff]
  rintro ⟨v, hv, hlt⟩
  have hbound := UInt64.le_iff_toNat_le.mp (h v hv)
  omega

theorem exceeding_eq_card_of_lt {bound : UInt64} (h : ∀ v ∈ values, bound ≤ v)
    (hlt : t < bound.toNat) : exceeding values t = values.card := by
  rw [exceeding_eq_card_iff]
  intro v hv
  exact hlt.trans_le (UInt64.le_iff_toNat_le.mp (h v hv))

/-- Unless none of the smaller values exceeds a threshold, all of the larger ones do. -/
theorem exceeding_low_eq_zero_or (hle : ∀ v ∈ low, ∀ w ∈ high, v ≤ w) (t : ℕ) :
    exceeding low t = 0 ∨ exceeding high t = high.card := by
  rw [← Nat.le_zero, ← not_lt, or_iff_not_imp_left, not_not, exceeding_pos_iff]
  rintro ⟨v, hv, hlt⟩
  exact exceeding_eq_card_of_lt (hle v hv) hlt

/-- Each value counts once for every threshold below it. -/
theorem worth_eq_sum_exceeding (values : Multiset UInt64) :
    worth values = ∑ t ∈ Finset.range UInt64.size, exceeding values t := by
  induction values using Multiset.induction_on with
  | empty => simp
  | cons w values ih =>
      have hcount : ∀ t, exceeding (w ::ₘ values) t =
          (if t < w.toNat then 1 else 0) + exceeding values t := by
        intro t
        rw [exceeding, Multiset.countP_cons, add_comm]
        rfl
      have hbelow : (Finset.range UInt64.size).filter (fun t => t < w.toNat) =
          Finset.range w.toNat := by
        ext t
        have hlt := w.toNat_lt_size
        simp only [Finset.mem_filter, Finset.mem_range]
        omega
      simp only [hcount, Finset.sum_add_distrib, Finset.sum_boole, hbelow, Finset.card_range,
        worth_cons, ih, Nat.cast_id]

theorem worth_le_of_exceeding_le {xs ys : Multiset UInt64}
    (h : ∀ t, exceeding xs t ≤ exceeding ys t) : worth xs ≤ worth ys := by
  rw [worth_eq_sum_exceeding, worth_eq_sum_exceeding]
  exact Finset.sum_le_sum fun t _ => h t

end Counts
end SpendPlanner
