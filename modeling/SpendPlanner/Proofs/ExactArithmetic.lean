import SpendPlanner.Proofs.CheckedSum

/-!
# Arithmetic on values is that of the integers

The sum, the comparison and the difference of lists of values are set against those of the
integers, for lists of any length and in any order.  They are then carried over to sums that
are kept in 128 bits, where an addition that does not fit is refused.  For a list with fewer
values than there are words none is refused.  So the sum in 64 bits, which stops at the first
partial sum beyond a word, and the sums in 128 bits, which run to the end, agree on every
answer.
-/

namespace SpendPlanner

/-! ## Against the integers -/

/-- The sum of the values as integers. -/
def integerSum (values : List UInt64) : ℤ := (values.map fun v => (v.toNat : ℤ)).sum

/-- The relation that a comparison asks for, between integers. -/
def Comparison.Relates : Comparison → ℤ → ℤ → Prop
  | greater, m, n => m > n
  | greaterOrEqual, m, n => m ≥ n
  | equal, m, n => m = n

/-- The answer is the word equal to `n`, or tells on which side of the words `n` lies. -/
structure Represents (answer : Except RangeError UInt64) (n : ℤ) : Prop where
  ok_iff : ∀ w : UInt64, answer = .ok w ↔ n = w.toNat
  underflow_iff : answer = .error .underflow ↔ n < 0
  overflow_iff : answer = .error .overflow ↔ UInt64.size ≤ n

/-- An integer has a single answer. -/
theorem Represents.unique {answer answer' : Except RangeError UInt64} {n : ℤ}
    (h : Represents answer n) (h' : Represents answer' n) : answer = answer' := by
  symm
  cases answer with
  | ok w => exact (h'.ok_iff w).mpr ((h.ok_iff w).mp rfl)
  | error error =>
      cases error with
      | overflow => exact h'.overflow_iff.mpr (h.overflow_iff.mp rfl)
      | underflow => exact h'.underflow_iff.mpr (h.underflow_iff.mp rfl)

theorem integerSum_eq_total (values : List UInt64) : integerSum values = total values := by
  induction values with
  | nil => rfl
  | cons v values ih =>
      rw [total_cons, Nat.cast_add, ← ih, integerSum, List.map_cons, List.sum_cons, integerSum]

theorem integerSum_singleton (value : UInt64) : integerSum [value] = value.toNat := by
  rw [integerSum_eq_total, total_cons, total_nil, add_zero]

theorem represents_checkedSum (values : List UInt64) :
    Represents (checkedSum values) (integerSum values) := by
  rw [integerSum_eq_total]
  refine ⟨fun w => ?_, ?_, ?_⟩
  · rw [checkedSum_eq_ok_iff, Nat.cast_inj, eq_comm]
  · simp [checkedSum_eq_error_iff]
  · simp [checkedSum_eq_error_iff]

theorem represents_checkedDifference (a b : List UInt64) :
    Represents (checkedDifference a b) (integerSum a - integerSum b) := by
  rw [integerSum_eq_total, integerSum_eq_total]
  refine ⟨fun d => ?_, ?_, ?_⟩
  · rw [checkedDifference_eq_ok_iff]
    omega
  · rw [checkedDifference_eq_underflow_iff]
    omega
  · rw [checkedDifference_eq_overflow_iff]
    omega

theorem Comparison.holds_iff_relates (c : Comparison) (a b : List UInt64) :
    c.holds a b = true ↔ c.Relates (integerSum a) (integerSum b) := by
  rw [integerSum_eq_total, integerSum_eq_total]
  cases c <;> simp [holds, Relates]

/-- What is not below the words is a word or beyond them. -/
theorem ok_or_overflow_iff {answer : Except RangeError UInt64} :
    ((∃ w, answer = .ok w) ∨ answer = .error .overflow) ↔ answer ≠ .error .underflow := by
  cases answer with
  | ok w => simp
  | error error => cases error <;> simp

/-- A difference is a word or beyond the words exactly when the sum that is taken away is not
the larger one. -/
theorem checkedDifference_ok_or_overflow_iff {a b : List UInt64} :
    ((∃ d, checkedDifference a b = .ok d) ∨ checkedDifference a b = .error .overflow) ↔
      Comparison.greaterOrEqual.holds a b = true := by
  rw [ok_or_overflow_iff, Ne, (represents_checkedDifference a b).underflow_iff,
    Comparison.holds_iff_relates, Comparison.Relates, sub_neg, not_lt]

/-! ## In 128 bits -/

/-- A word as a number of 128 bits. -/
def widen (w : UInt64) : BitVec 128 := w.toBitVec.setWidth 128

/-- Adds a word to a number of 128 bits, and refuses a sum that does not fit. -/
def addWide? (sum : BitVec 128) (value : UInt64) : Option (BitVec 128) :=
  if sum.uaddOverflow (widen value) then none else some (sum + widen value)

/-- Adds words one after the other in 128 bits. -/
def wideSum? (values : List UInt64) : Option (BitVec 128) := values.foldlM addWide? 0#128

/-- The difference of two numbers of 128 bits, refused below zero. -/
def subWide (m n : BitVec 128) : Except RangeError (BitVec 128) :=
  if m.usubOverflow n then .error .underflow else .ok (m - n)

/-- A number of 128 bits as a word, refused beyond the largest word. -/
def narrow (n : BitVec 128) : Except RangeError UInt64 :=
  if widen maxWord < n then .error .overflow else .ok (.ofBitVec (n.setWidth 64))

/-- Compares two sums in 128 bits. -/
def Comparison.holdsWide? (c : Comparison) (a b : List UInt64) : Option Bool := do
  let m ← wideSum? a
  let n ← wideSum? b
  return match c with
    | greater => n < m
    | greaterOrEqual => n ≤ m
    | equal => m = n

/-- Subtracts two sums in 128 bits, and brings what is left back to a word. -/
def wideDifference? (a b : List UInt64) : Option (Except RangeError UInt64) := do
  let m ← wideSum? a
  let n ← wideSum? b
  return subWide m n >>= narrow

@[simp] theorem toNat_widen (w : UInt64) : (widen w).toNat = w.toNat := by
  have hword := w.toNat_lt
  rw [widen, BitVec.toNat_setWidth, UInt64.toNat_toBitVec]
  omega

theorem addWide?_eq_some_iff {sum next : BitVec 128} {value : UInt64} :
    addWide? sum value = some next ↔ next.toNat = sum.toNat + value.toNat := by
  have hnext := next.isLt
  rw [addWide?, BitVec.uaddOverflow, toNat_widen]
  split
  · next hlarge =>
    simp only [decide_eq_true_eq] at hlarge
    simp only [reduceCtorEq, false_iff]
    omega
  · next hfits =>
    simp only [decide_eq_true_eq] at hfits
    rw [Option.some.injEq, ← BitVec.toNat_inj, BitVec.toNat_add, toNat_widen,
      Nat.mod_eq_of_lt (by omega), eq_comm]

/-- From any start, words are added up to the exact sum, which is refused only where 128 bits
do not hold it. -/
theorem foldlM_addWide?_eq_some_iff {values : List UInt64} {start sum : BitVec 128} :
    values.foldlM addWide? start = some sum ↔ sum.toNat = start.toNat + total values := by
  induction values generalizing start with
  | nil => simp [← BitVec.toNat_inj, eq_comm]
  | cons v values ih =>
      rw [List.foldlM_cons, total_cons, ← add_assoc]
      cases hnext : addWide? start v with
      | some next =>
          rw [← addWide?_eq_some_iff.mp hnext]
          exact ih
      | none =>
          -- the first partial sum is too large already, so no number of 128 bits is the whole sum
          have hlarge : ¬start.toNat + v.toNat < 2 ^ 128 := by
            intro hfits
            have hsome := addWide?_eq_some_iff.mpr (BitVec.toNat_ofNatLT _ hfits)
            rw [hnext] at hsome
            cases hsome
          have hsum := sum.isLt
          simp only [Option.bind_eq_bind, Option.bind_none, reduceCtorEq, false_iff]
          omega

theorem wideSum?_eq_some_iff {values : List UInt64} {sum : BitVec 128} :
    wideSum? values = some sum ↔ sum.toNat = total values := by
  rw [wideSum?, foldlM_addWide?_eq_some_iff, BitVec.toNat_zero, zero_add]

theorem total_le_length_mul (values : List UInt64) :
    total values ≤ values.length * UInt64.size := by
  induction values with
  | nil => simp
  | cons v values ih =>
      have hword : v.toNat < UInt64.size := v.toNat_lt
      rw [total_cons, List.length_cons, Nat.add_one_mul]
      omega

/-- A list with fewer values than there are words is added up in 128 bits. -/
theorem exists_wideSum? {values : List UInt64} (h : values.length < UInt64.size) :
    ∃ sum, wideSum? values = some sum ∧ sum.toNat = total values := by
  have hfits : total values < 2 ^ 128 := by
    calc
      total values ≤ values.length * UInt64.size := total_le_length_mul values
      _ < UInt64.size * UInt64.size := Nat.mul_lt_mul_of_pos_right h (by decide)
      _ = 2 ^ 128 := rfl
  exact ⟨.ofNatLT _ hfits, wideSum?_eq_some_iff.mpr (BitVec.toNat_ofNatLT _ hfits),
    BitVec.toNat_ofNatLT _ hfits⟩

theorem represents_narrow (n : BitVec 128) : Represents (narrow n) n.toNat := by
  have hbeyond : widen maxWord < n ↔ UInt64.size ≤ n.toNat := by
    have hpos : 0 < UInt64.size := by decide
    rw [BitVec.lt_def, toNat_widen, toNat_maxWord]
    omega
  rw [narrow]
  split
  · next hlarge =>
    rw [hbeyond] at hlarge
    refine ⟨fun w => ?_, ?_, ?_⟩
    · have hword : w.toNat < UInt64.size := w.toNat_lt
      simp only [reduceCtorEq, false_iff]
      omega
    · simp
    · simpa using hlarge
  · next hword =>
    rw [hbeyond, not_le] at hword
    refine ⟨fun w => ?_, ?_, ?_⟩
    · rw [Except.ok.injEq, ← UInt64.toNat_inj, UInt64.toNat_ofBitVec, BitVec.toNat_setWidth,
        Nat.mod_eq_of_lt hword, Nat.cast_inj]
    · simp
    · simpa using hword

theorem represents_subWide_bind_narrow (m n : BitVec 128) :
    Represents (subWide m n >>= narrow) ((m.toNat : ℤ) - n.toNat) := by
  rw [subWide, BitVec.usubOverflow]
  split
  · next hless =>
    simp only [decide_eq_true_eq] at hless
    change Represents (.error .underflow) _
    refine ⟨fun w => ?_, ?_, ?_⟩
    · simp only [reduceCtorEq, false_iff]
      omega
    · simp only [true_iff]
      omega
    · simp only [Except.error.injEq, reduceCtorEq, false_iff]
      omega
  · next hle =>
    simp only [decide_eq_true_eq, not_lt] at hle
    have hdifference : ((m - n).toNat : ℤ) = (m.toNat : ℤ) - n.toNat := by
      rw [BitVec.toNat_sub_of_le hle, Nat.cast_sub hle]
    exact hdifference ▸ represents_narrow (m - n)

theorem narrow_eq_checkedSum {values : List UInt64} {sum : BitVec 128}
    (h : sum.toNat = total values) : narrow sum = checkedSum values := by
  have hnarrow := represents_narrow sum
  rw [h, ← integerSum_eq_total] at hnarrow
  exact hnarrow.unique (represents_checkedSum values)

section Wide

variable {a b : List UInt64} (ha : a.length < UInt64.size) (hb : b.length < UInt64.size)

include ha hb

theorem Comparison.holdsWide?_eq (c : Comparison) : c.holdsWide? a b = some (c.holds a b) := by
  obtain ⟨m, hm, hmNat⟩ := exists_wideSum? ha
  obtain ⟨n, hn, hnNat⟩ := exists_wideSum? hb
  simp only [holdsWide?, hm, hn, Option.bind_eq_bind, Option.bind_some]
  cases c <;> simp [holds, BitVec.lt_def, BitVec.le_def, ← BitVec.toNat_inj, hmNat, hnNat]

theorem wideDifference?_eq : wideDifference? a b = some (checkedDifference a b) := by
  obtain ⟨m, hm, hmNat⟩ := exists_wideSum? ha
  obtain ⟨n, hn, hnNat⟩ := exists_wideSum? hb
  have hwide := represents_subWide_bind_narrow m n
  rw [hmNat, hnNat, ← integerSum_eq_total, ← integerSum_eq_total] at hwide
  simp only [wideDifference?, hm, hn, Option.bind_eq_bind, Option.bind_some]
  exact congrArg some (hwide.unique (represents_checkedDifference a b))

end Wide

/-- Sums, comparisons and differences of values, and of values and a single value, are those of
the integers: the answer is the word or tells why there is none, whatever the order of the
values.  A difference is found or too large exactly when the comparison allows it.  For lists
with fewer values than there are words, the sums fit in 128 bits, and an accumulator of that
width gives the same answers. -/
theorem checkedArithmetic_exact (a b : List UInt64) :
    (∀ a', a'.Perm a → Represents (checkedSum a') (integerSum a)) ∧
    (∀ c : Comparison, c.holds a b = true ↔ c.Relates (integerSum a) (integerSum b)) ∧
    (∀ (c : Comparison) (value : UInt64),
      c.holds a [value] = true ↔ c.Relates (integerSum a) value.toNat) ∧
    Represents (checkedDifference a b) (integerSum a - integerSum b) ∧
    (∀ value : UInt64, Represents (checkedDifference a [value]) (integerSum a - value.toNat)) ∧
    (((∃ d, checkedDifference a b = .ok d) ∨ checkedDifference a b = .error .overflow) ↔
      Comparison.greaterOrEqual.holds a b = true) ∧
    (a.length < UInt64.size → b.length < UInt64.size →
      (∃ sum, wideSum? a = some sum ∧ (sum.toNat : ℤ) = integerSum a ∧
        narrow sum = checkedSum a) ∧
      (∀ c : Comparison, c.holdsWide? a b = some (c.holds a b)) ∧
      wideDifference? a b = some (checkedDifference a b)) := by
  refine ⟨fun a' hperm => ?_, fun c => c.holds_iff_relates a b, fun c value => ?_,
    represents_checkedDifference a b, fun value => ?_, checkedDifference_ok_or_overflow_iff,
    fun ha hb => ⟨?_, Comparison.holdsWide?_eq ha hb, wideDifference?_eq ha hb⟩⟩
  · rw [checkedSum_perm hperm]
    exact represents_checkedSum a
  · rw [← integerSum_singleton]
    exact c.holds_iff_relates a [value]
  · rw [← integerSum_singleton]
    exact represents_checkedDifference a [value]
  · obtain ⟨sum, hsum, hsumNat⟩ := exists_wideSum? ha
    exact ⟨sum, hsum, (congrArg Nat.cast hsumNat).trans (integerSum_eq_total a).symm,
      narrow_eq_checkedSum hsumNat⟩

/-- The largest word and one are beyond a word together, in either order and in both widths.
Without the one the largest word is left. -/
theorem checkedArithmetic_exact_beyond_word :
    [1, maxWord].Perm [maxWord, 1] ∧ [maxWord, 1].length < UInt64.size ∧
      [(1 : UInt64)].length < UInt64.size ∧
      checkedSum [1, maxWord] = .error .overflow ∧
      Comparison.greater.holds [maxWord, 1] [maxWord] = true ∧
      checkedDifference [maxWord, 1] [1] = .ok maxWord ∧
      (∃ sum, wideSum? [maxWord, 1] = some sum ∧ narrow sum = .error .overflow) ∧
      wideDifference? [maxWord, 1] [1] = some (.ok maxWord) := by
  have hperm : [1, maxWord].Perm [maxWord, 1] := .swap _ _ _
  have hlarge : integerSum [maxWord, 1] = UInt64.size := by
    rw [integerSum_eq_total]
    rfl
  obtain ⟨hsums, -, hcompared, hdifference, -, -, hwide⟩ :=
    checkedArithmetic_exact [maxWord, 1] [1]
  obtain ⟨⟨sum, hsum, -, hnarrow⟩, -, hwideDifference⟩ := hwide (by decide) (by decide)
  have hoverflow (values : List UInt64) (h : values.Perm [maxWord, 1]) :
      checkedSum values = .error .overflow :=
    (hsums values h).overflow_iff.mpr hlarge.ge
  have hgreater : Comparison.greater.holds [maxWord, 1] [maxWord] = true := by
    rw [hcompared, hlarge, Comparison.Relates]
    decide
  have hleft : checkedDifference [maxWord, 1] [1] = .ok maxWord := by
    rw [hdifference.ok_iff, hlarge, integerSum_singleton]
    rfl
  exact ⟨hperm, by decide, by decide, hoverflow _ hperm, hgreater, hleft,
    ⟨sum, hsum, hnarrow.trans (hoverflow _ (.refl _))⟩,
    hwideDifference.trans (congrArg some hleft)⟩

end SpendPlanner
