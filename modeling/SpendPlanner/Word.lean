/-!
# Words

Values, fees and indices are 64-bit words.  Sums and differences of words are taken in `Nat`,
where nothing wraps, and come back to a word through `word?`, which refuses what does not
fit, or through `clip`, which stops at the largest word.
-/

namespace SpendPlanner

/-- The exact sum of a list of words. -/
def total : List UInt64 → Nat
  | [] => 0
  | w :: words => w.toNat + total words

/-- The word with a given value, when there is one. -/
def word? (n : Nat) : Option UInt64 :=
  if n < UInt64.size then some (UInt64.ofNat n) else none

/-- The largest word. -/
def maxWord : UInt64 := UInt64.ofNat (UInt64.size - 1)

/-- The word with a given value, or the largest word where the value is beyond it. -/
def clip (n : Nat) : UInt64 := (word? n).getD maxWord

@[simp] theorem total_nil : total [] = 0 := rfl

@[simp] theorem total_cons (w : UInt64) (words : List UInt64) :
    total (w :: words) = w.toNat + total words := rfl

@[simp] theorem total_append (xs ys : List UInt64) :
    total (xs ++ ys) = total xs + total ys := by
  induction xs with
  | nil => simp
  | cons w words ih => simp [ih, Nat.add_assoc]

theorem total_perm {xs ys : List UInt64} (h : xs.Perm ys) : total xs = total ys := by
  induction h with
  | nil => rfl
  | cons w _ ih => simp [ih]
  | swap v w words => simp [Nat.add_left_comm]
  | trans _ _ ih₁ ih₂ => exact ih₁.trans ih₂

theorem word?_eq_some_iff {n : Nat} {w : UInt64} : word? n = some w ↔ w.toNat = n := by
  unfold word?
  constructor
  · intro h
    split at h
    · next hn =>
      cases h
      exact UInt64.toNat_ofNat_of_lt hn
    · cases h
  · intro h
    have hn : n < UInt64.size := h ▸ w.toNat_lt
    rw [if_pos hn, ← h, UInt64.ofNat_toNat]

theorem word?_eq_none_iff {n : Nat} : word? n = none ↔ UInt64.size ≤ n := by
  unfold word?
  split <;> simp_all

theorem word?_toNat (w : UInt64) : word? w.toNat = some w := word?_eq_some_iff.2 rfl

theorem exists_word? {n : Nat} (h : n < UInt64.size) : ∃ w, word? n = some w ∧ w.toNat = n :=
  ⟨UInt64.ofNat n, word?_eq_some_iff.2 (UInt64.toNat_ofNat_of_lt h), UInt64.toNat_ofNat_of_lt h⟩

theorem toNat_maxWord : maxWord.toNat = UInt64.size - 1 := rfl

theorem clip_toNat (w : UInt64) : clip w.toNat = w := by
  rw [clip, word?_toNat, Option.getD_some]

/-- Clipping keeps every value up to the largest word. -/
theorem toNat_clip (n : Nat) : (clip n).toNat = min n (UInt64.size - 1) := by
  unfold clip
  cases h : word? n with
  | some w =>
    have := word?_eq_some_iff.1 h
    have := w.toNat_lt
    simp [UInt64.size]
    omega
  | none =>
    have := word?_eq_none_iff.1 h
    simp only [Option.getD_none, toNat_maxWord]
    omega

end SpendPlanner
