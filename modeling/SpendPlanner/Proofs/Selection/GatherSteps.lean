import SpendPlanner.Proofs.Selection.ClippedFees
import Mathlib.Algebra.Order.Floor.Div

/-!
# Gathering step by step

The fee of sending many values to one recipient is found without making the merges.  Here it
is compared with what the merges that are made one after the other, and the transaction that
sends what they leave, cost together.  The comparison holds for every fee rule.  It is carried
over to words: with every difference, product and quotient refused where it is no word, the
computation still ends, and so does the running sum of the search for the best prefix.
-/

namespace SpendPlanner

/-! ## What the merges cost together -/

namespace Selector

variable (s : Selector) (rule : FeeRule)

/-- What the transactions that gather `count` values cost together. -/
def gatherExpense (s : Selector) (rule : FeeRule) (count : ℕ) : ℕ :=
  ((s.gatherSteps count).map fun shape => (rule shape).toNat).sum

theorem gatherExpense_eq (count : ℕ) :
    s.gatherExpense rule count =
      (rule ⟨s.limit, gatherOutputs⟩).toNat * s.mergesNeeded count +
        (rule ⟨s.remainingAfterMerges count, gatherOutputs⟩).toNat := by
  rw [gatherExpense, gatherSteps_eq, List.map_append, List.sum_append, List.map_replicate,
    List.sum_replicate, List.map_singleton, List.sum_singleton, smul_eq_mul, mul_comm]

/-- The fee that is reckoned with is what the transactions cost together, clipped. -/
theorem gatherFee_eq_clip (count : ℕ) :
    s.gatherFee rule count = clip (s.gatherExpense rule count) := by
  rw [gatherExpense_eq, gatherFee]
  split
  · next hlimit =>
    rw [s.mergesNeeded_of_le hlimit, s.remainingAfterMerges_of_le hlimit, Nat.mul_zero,
      Nat.zero_add, clip_toNat]
  · rfl

/-- Where the values are a word together, clipping the fee does not change what it leaves. -/
theorem netOfLeading_eq_sub {values : List UInt64} (hword : total values < UInt64.size) (k : ℕ) :
    s.netOfLeading rule values k = total (values.take k) - s.gatherExpense rule k := by
  have hprefix := total_take_le values k
  rw [netOfLeading, gatherFee_eq_clip, toNat_clip]
  omega

end Selector

/-! ## The fee in words -/

/-- The difference of two words, refused when it is no word. -/
def subChecked? (a b : UInt64) : Option UInt64 :=
  if b ≤ a then some (a - b) else none

/-- The product of two words, refused when it is no word. -/
def mulChecked? (a b : UInt64) : Option UInt64 := word? (a.toNat * b.toNat)

/-- The quotient of two words, rounded up, refused for a divisor of zero. -/
def ceilDivChecked? (a b : UInt64) : Option UInt64 :=
  if b = 0 then none else word? (a.toNat ⌈/⌉ b.toNat)

/-- The fee of sending `count` values to one recipient when all numbers are words.  Only the
fees are clipped; any other number that is no word leaves no answer. -/
def gatherFee? (rule : FeeRule) (limit count : UInt64) : Option UInt64 :=
  if count ≤ limit then some (rule ⟨count.toNat, Selector.gatherOutputs⟩)
  else do
    let shrink ← subChecked? limit 1
    let surplus ← subChecked? count limit
    let merges ← ceilDivChecked? surplus shrink
    let merged ← mulChecked? merges shrink
    let remaining ← subChecked? count merged
    let mergeFees := clip ((rule ⟨limit.toNat, Selector.gatherOutputs⟩).toNat * merges.toNat)
    return clip (mergeFees.toNat + (rule ⟨remaining.toNat, Selector.gatherOutputs⟩).toNat)

theorem exists_subChecked? {a b : UInt64} (h : b.toNat ≤ a.toNat) :
    ∃ difference, subChecked? a b = some difference ∧
      difference.toNat = a.toNat - b.toNat := by
  have hle : b ≤ a := UInt64.le_iff_toNat_le.mpr h
  exact ⟨a - b, if_pos hle, UInt64.toNat_sub_of_le a b hle⟩

theorem exists_mulChecked? {a b : UInt64} (h : a.toNat * b.toNat < UInt64.size) :
    ∃ product, mulChecked? a b = some product ∧ product.toNat = a.toNat * b.toNat :=
  exists_word? h

theorem exists_ceilDivChecked? {a b : UInt64} (hb : 0 < b.toNat) :
    ∃ quotient, ceilDivChecked? a b = some quotient ∧
      quotient.toNat = a.toNat ⌈/⌉ b.toNat := by
  have hle : a.toNat ⌈/⌉ b.toNat ≤ a.toNat := by
    rw [ceilDiv_le_iff_le_mul hb]
    exact Nat.le_mul_of_pos_left _ hb
  have hne : b ≠ 0 := by
    rintro rfl
    exact absurd hb (lt_irrefl 0)
  rw [ceilDivChecked?, if_neg hne]
  exact exists_word? (hle.trans_lt a.toNat_lt)

theorem Selector.mergesNeeded_eq_ceilDiv (s : Selector) (k : ℕ) :
    s.mergesNeeded k = (k - s.limit) ⌈/⌉ (s.limit - 1) := by
  have htwo := s.two_le_limit
  rw [mergesNeeded, Nat.ceilDiv_eq_add_pred_div, Nat.add_sub_assoc (by omega), Nat.sub_sub]

/-- No difference, product or quotient on the way to a fee leaves the words. -/
theorem gatherFee?_eq (s : Selector) (rule : FeeRule) {limit : UInt64}
    (hlimit : limit.toNat = s.limit) (count : UInt64) :
    gatherFee? rule limit count = some (s.gatherFee rule count.toNat) := by
  have htwo := s.two_le_limit
  have hfew : count ≤ limit ↔ count.toNat ≤ s.limit := by
    rw [UInt64.le_iff_toNat_le, hlimit]
  rw [gatherFee?, Selector.gatherFee]
  split
  · next hcount => rw [if_pos (hfew.mp hcount)]
  · next hcount =>
    have hmany : s.limit < count.toNat := not_le.mp (mt hfew.mpr hcount)
    rw [if_neg (not_le.mpr hmany)]
    obtain ⟨-, hlast⟩ := s.mergesNeeded_bounds hmany
    have hword := count.toNat_lt
    have hone : (1 : UInt64).toNat = 1 := rfl
    obtain ⟨shrink, hshrink, hshrinkNat⟩ :=
      exists_subChecked? (show (1 : UInt64).toNat ≤ limit.toNat by omega)
    obtain ⟨surplus, hsurplus, hsurplusNat⟩ :=
      exists_subChecked? (show limit.toNat ≤ count.toNat by omega)
    obtain ⟨merges, hmerges, hmergesNat⟩ :=
      exists_ceilDivChecked? (a := surplus) (show 0 < shrink.toNat by omega)
    rw [hsurplusNat, hshrinkNat, hlimit, hone, ← s.mergesNeeded_eq_ceilDiv] at hmergesNat
    rw [hlimit, hone] at hshrinkNat
    have hmerged : merges.toNat * shrink.toNat = s.mergesNeeded count.toNat * (s.limit - 1) := by
      rw [hmergesNat, hshrinkNat]
    obtain ⟨merged, hproduct, hproductNat⟩ := exists_mulChecked? (a := merges) (b := shrink) (by
      rw [hmerged]
      exact (Nat.le_of_add_right_le hlast).trans_lt hword)
    rw [hmerged] at hproductNat
    obtain ⟨remaining, hremaining, hremainingNat⟩ :=
      exists_subChecked? (show merged.toNat ≤ count.toNat by omega)
    rw [hproductNat, ← Selector.remainingAfterMerges] at hremainingNat
    simp only [hshrink, hsurplus, hmerges, hproduct, hremaining, Option.bind_eq_bind,
      Option.bind_some, hlimit, hmergesNat, hremainingNat, clip_toNat_clip_add]
    rfl

/-! ## The best prefix in words -/

/-- A number above zero as a word. -/
def positiveWord? (n : ℕ) : Option UInt64 := if n = 0 then none else some (clip n)

@[simp] theorem positiveWord?_zero : positiveWord? 0 = none := rfl

theorem merge_positiveWord? (a b : ℕ) :
    (positiveWord? a).merge max (positiveWord? b) = positiveWord? (max a b) := by
  by_cases ha : a = 0
  · rw [ha, positiveWord?_zero, Nat.zero_max, Option.merge_none_left]
  · by_cases hb : b = 0
    · rw [hb, positiveWord?_zero, Nat.max_zero, Option.merge_none_right]
    · have hmax : max a b ≠ 0 := by omega
      rw [positiveWord?, positiveWord?, positiveWord?, if_neg ha, if_neg hb, if_neg hmax, clip_max]
      rfl

namespace Selector

variable (s : Selector) (rule : FeeRule)

/-- Runs through the values with their sum so far in a word, and keeps the most that the sum
leaves after the fee, where it leaves anything. -/
def scanLeading (s : Selector) (rule : FeeRule) :
    List UInt64 → ℕ → UInt64 → Option UInt64 → Except RangeError (Option UInt64)
  | [], _, _, best => .ok best
  | value :: values, seen, sum, best => do
      let sum ← addChecked sum value
      let fee := s.gatherFee rule (seen + 1)
      let left := if fee < sum then some (sum - fee) else none
      s.scanLeading rule values (seen + 1) sum (best.merge max left)

theorem positiveWord?_sub (sum fee : UInt64) :
    positiveWord? (sum.toNat - fee.toNat) = if fee < sum then some (sum - fee) else none := by
  rw [positiveWord?]
  split
  · next hzero =>
    rw [if_neg]
    rw [UInt64.lt_iff_toNat_lt]
    omega
  · next hpositive =>
    have hlt : fee < sum := UInt64.lt_iff_toNat_lt.mpr (by omega)
    rw [if_pos hlt, ← UInt64.toNat_sub_of_le sum fee (UInt64.le_of_lt hlt), clip_toNat]

/-- The scan from the middle of the values on: with the sum of those seen, it takes the best
so far and the best of all longer prefixes. -/
theorem scanLeading_append (before rest : List UInt64) {sum : UInt64} (best : ℕ)
    (hsum : sum.toNat = total before) (hword : total (before ++ rest) < UInt64.size) :
    s.scanLeading rule rest before.length sum (positiveWord? best) =
      .ok (positiveWord? (((List.range' (before.length + 1) rest.length).map
        (s.netOfLeading rule (before ++ rest))).foldl max best)) := by
  induction rest generalizing before sum best with
  | nil => rfl
  | cons value rest ih =>
      have hassoc : before ++ value :: rest = before ++ [value] ++ rest := by simp
      rw [hassoc] at hword ⊢
      have hstep : total (before ++ [value]) = sum.toNat + value.toNat := by
        rw [total_append, total_cons, total_nil, add_zero, hsum]
      obtain ⟨next, hnext, hnextNat⟩ := exists_addChecked (a := sum) (b := value) (by
        rw [total_append] at hword
        omega)
      rw [← hstep] at hnextNat
      have hnet : s.netOfLeading rule (before ++ [value] ++ rest) (before.length + 1) =
          next.toNat - (s.gatherFee rule (before.length + 1)).toNat := by
        rw [netOfLeading, hnextNat, List.take_left' (by simp)]
      rw [List.length_cons, List.range'_succ, List.map_cons, List.foldl_cons, hnet]
      have htail := ih (before ++ [value])
        (max best (next.toNat - (s.gatherFee rule (before.length + 1)).toNat)) hnextNat hword
      rw [List.length_append, List.length_singleton, ← merge_positiveWord?,
        positiveWord?_sub] at htail
      rw [scanLeading, hnext]
      exact htail

/-- The scan of all values finds what the best prefix leaves. -/
theorem scanLeading_eq {values : List UInt64} {balance : UInt64}
    (h : checkedSum values = .ok balance) :
    s.scanLeading rule values 0 0 none = .ok (positiveWord? (s.bestNet rule values)) :=
  s.scanLeading_append rule [] values 0 rfl (total_lt_of_checkedSum h)

/-- The largest transferable amount, found with the sum of the values seen in a word. -/
def scanTransferable (s : Selector) (token : TokenId) (rule : FeeRule) (records : List Record) :
    Except SelectionError UInt64 :=
  let values := Record.values (spendingOrder token records)
  match checkedSum values with
  | .error _ => .error (.recordsOverflow values.length token)
  | .ok balance =>
    let least := rule ⟨1, gatherOutputs⟩
    if balance ≤ least then .error (.feeCoversBalance least balance)
    else
      match s.scanLeading rule values 0 0 none with
      | .error error => .error (.arithmetic error)
      | .ok none => .error (.nothingLeft values.length)
      | .ok (some amount) => .ok amount

/-- The sum is never refused, and the amount found is the transferable one. -/
theorem scanTransferable_eq (token : TokenId) (records : List Record) :
    s.scanTransferable token rule records = s.transferable token rule records := by
  rw [scanTransferable, transferable]
  cases hsum : checkedSum (Record.values (spendingOrder token records)) with
  | error error => rfl
  | ok balance =>
      simp only [s.scanLeading_eq rule hsum, positiveWord?]
      by_cases hnone : s.bestNet rule (Record.values (spendingOrder token records)) = 0
      · simp only [if_pos hnone]
      · simp only [if_neg hnone]

/-- The fee of gathering values is the clipped cost of the merges made one after the other and
of sending what they leave, which are at least two and at most the limit.  It is found in
words without leaving them.  The transferable amount is found with the running sum in a word,
and what a prefix leaves is the same as with its exact cost, so one whose fee was clipped
leaves nothing. -/
theorem gatherFee_eq_steps (s : Selector) (rule : FeeRule) :
    (∀ k, (s.gatherFee rule k).toNat = min (UInt64.size - 1) (s.gatherExpense rule k)) ∧
    (∀ k, s.limit < k →
      2 ≤ s.remainingAfterMerges k ∧ s.remainingAfterMerges k ≤ s.limit ∧
        s.gatherSteps k =
          List.replicate (s.mergesNeeded k) ⟨s.limit, gatherOutputs⟩ ++
            [⟨s.remainingAfterMerges k, gatherOutputs⟩]) ∧
    (∀ limit count : UInt64, limit.toNat = s.limit →
      gatherFee? rule limit count = some (s.gatherFee rule count.toNat)) ∧
    (∀ token records, s.scanTransferable token rule records = s.transferable token rule records) ∧
    ∀ values balance, checkedSum values = .ok balance →
      s.scanLeading rule values 0 0 none = .ok (positiveWord? (s.bestNet rule values)) ∧
        ∀ k, s.netOfLeading rule values k = total (values.take k) - s.gatherExpense rule k ∧
          (UInt64.size ≤ s.gatherExpense rule k → s.netOfLeading rule values k = 0) := by
  refine ⟨fun k => ?_, fun k hk => ?_, fun limit count hlimit => ?_,
    s.scanTransferable_eq rule, fun values balance h => ⟨s.scanLeading_eq rule h, fun k => ?_⟩⟩
  · rw [s.gatherFee_eq_clip, toNat_clip, min_comm]
  · obtain ⟨htwo, hle⟩ := s.remainingAfterMerges_bounds hk
    exact ⟨htwo, hle, s.gatherSteps_eq k⟩
  · exact gatherFee?_eq s rule hlimit count
  · have hword := total_lt_of_checkedSum h
    have hnet := s.netOfLeading_eq_sub rule hword k
    refine ⟨hnet, fun hclipped => ?_⟩
    have hprefix := total_take_le values k
    omega

end Selector
end SpendPlanner
