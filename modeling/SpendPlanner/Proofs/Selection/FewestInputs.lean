import SpendPlanner.Proofs.Selection.InputSelection

/-!
# The fewest inputs

The inputs of a payment are looked for among the prefixes of the spending order alone, and the
fee of a prefix may be any function of its length.  Even so nothing is missed: a payment is
refused for lack of balance exactly where no choice of the token's records within the limit can
make it, and otherwise as few records are spent as in any such choice.
-/

namespace SpendPlanner

/-- Part of the images is the images of a part. -/
theorem exists_map_eq_of_le_map {α β : Type} {f : α → β} {whole : Multiset α}
    {part : Multiset β} (h : part ≤ whole.map f) : ∃ chosen ≤ whole, chosen.map f = part := by
  induction whole using Quotient.inductionOn with
  | h items =>
      induction part using Quotient.inductionOn with
      | h images =>
          obtain ⟨arranged, harranged, hsublist⟩ := Multiset.coe_le.mp h
          obtain ⟨chosen, hchosen, rfl⟩ := List.sublist_map_iff.mp hsublist
          exact ⟨chosen, Multiset.coe_le.mpr hchosen.subperm, Multiset.coe_eq_coe.mpr harranged⟩

namespace Selector

variable {s : Selector} {token : TokenId} {amounts : List UInt64} {rule : FeeRule}
  {records : List Record}

/-- Some `k` of the records, no more than one transaction may spend, hold what every amount
takes together with the fee of a transaction that pays them and returns change. -/
def PayableFrom (s : Selector) (rule : FeeRule) (amounts : List UInt64) (held : Multiset Record)
    (k : ℕ) : Prop :=
  1 ≤ k ∧ k ≤ s.limit ∧ ∃ chosen ≤ held, chosen.card = k ∧
    total amounts + (rule ⟨k, amounts.length + 1⟩).toNat ≤ worth (chosen.map Record.value)

/-- Of the records only the values count. -/
theorem payableFrom_iff_affords {outlay : UInt64} (houtlay : outlay.toNat = total amounts)
    (held : Multiset Record) (k : ℕ) :
    s.PayableFrom rule amounts held k ↔
      s.Affords rule (amounts.length + 1) outlay (held.map Record.value) k := by
  rw [PayableFrom, Affords, houtlay]
  refine and_congr_right fun _ => and_congr_right fun _ => ?_
  constructor
  · rintro ⟨chosen, hchosen, hcard, hworth⟩
    exact ⟨chosen.map Record.value, Multiset.map_le_map hchosen,
      (Multiset.card_map _ _).trans hcard, hworth⟩
  · rintro ⟨values, hvalues, hcard, hworth⟩
    obtain ⟨chosen, hchosen, rfl⟩ := exists_map_eq_of_le_map hvalues
    exact ⟨chosen, hchosen, (Multiset.card_map _ _).symm.trans hcard, hworth⟩

theorem coe_values_spendingOrder_eq_map (token : TokenId) (records : List Record) :
    (Record.values (spendingOrder token records) : Multiset UInt64) =
      (records.filter fun r => r.token = token : Multiset Record).map Record.value :=
  coe_values_spendingOrder token records

/-- The prefix the selector settles on has as few records as any choice that pays. -/
theorem fit?_eq_some_iff_payableFrom {outlay : UInt64} (houtlay : outlay.toNat = total amounts)
    (k : ℕ) :
    s.fit? rule (amounts.length + 1) outlay (Record.values (spendingOrder token records)) =
        some k ↔
      IsLeast {k | s.PayableFrom rule amounts (records.filter fun r => r.token = token) k} k := by
  simp only [fit?_eq_some_iff (values_spendingOrder_descending token records),
    payableFrom_iff_affords houtlay, coe_values_spendingOrder_eq_map]

theorem fit?_eq_none_iff_payableFrom {outlay : UInt64}
    (houtlay : outlay.toNat = total amounts) :
    s.fit? rule (amounts.length + 1) outlay (Record.values (spendingOrder token records)) =
        none ↔
      ∀ k, ¬s.PayableFrom rule amounts (records.filter fun r => r.token = token) k := by
  simp only [fit?_eq_none_iff (values_spendingOrder_descending token records),
    payableFrom_iff_affords houtlay, coe_values_spendingOrder_eq_map]

/-! ## How a request ends -/

/-- Nothing to pay, or a payment of nothing, is refused whatever is held. -/
theorem selectPaying_of_invalid (h : amounts = [] ∨ 0 ∈ amounts) :
    ∃ error, s.selectPaying token amounts rule records = .error error ∧
      error.kind = .invalidAmount := by
  by_cases hempty : amounts = []
  · exact ⟨.noOutputs, by rw [selectPaying, if_pos (List.isEmpty_iff.mpr hempty)], rfl⟩
  · have hzero := h.resolve_left hempty
    refine ⟨.zeroAmount, ?_, rfl⟩
    rw [selectPaying, if_neg (mt List.isEmpty_iff.mp hempty), if_pos hzero]

theorem selectPaying_of_outlay_overflow (hne : amounts ≠ []) (hpositive : 0 ∉ amounts)
    (hlarge : UInt64.size ≤ total amounts) :
    s.selectPaying token amounts rule records = .error .outlayOverflow := by
  have hsum := checkedSum_eq_error_iff.mpr ⟨rfl, hlarge⟩
  simp only [selectPaying, List.isEmpty_iff, hne, hpositive, if_false, hsum]

/-- Each failure has its own cause. -/
theorem selectPaying_error_cases {error : SelectionError}
    (h : s.selectPaying token amounts rule records = .error error) :
    error.kind = .invalidAmount ∧ (amounts = [] ∨ 0 ∈ amounts) ∨
    error = .outlayOverflow ∧ UInt64.size ≤ total amounts ∨
    error.kind = .insufficientBalance ∧
      (∀ k, ¬s.PayableFrom rule amounts (records.filter fun r => r.token = token) k) ∨
    error = .arithmetic .overflow ∧ ∃ k,
      IsLeast {k | s.PayableFrom rule amounts (records.filter fun r => r.token = token) k} k ∧
        UInt64.size ≤ total (Record.values ((spendingOrder token records).take k)) := by
  by_cases hinvalid : amounts = [] ∨ 0 ∈ amounts
  · obtain ⟨other, hother, hkind⟩ : ∃ other,
        s.selectPaying token amounts rule records = .error other ∧ other.kind = .invalidAmount :=
      selectPaying_of_invalid hinvalid
    obtain rfl := Except.error.inj (h.symm.trans hother)
    exact .inl ⟨hkind, hinvalid⟩
  obtain ⟨hne, hpositive⟩ := not_or.mp hinvalid
  rcases le_or_gt UInt64.size (total amounts) with hlarge | hword
  · rw [selectPaying_of_outlay_overflow hne hpositive hlarge] at h
    exact .inr (.inl ⟨(Except.error.inj h).symm, hlarge⟩)
  obtain ⟨outlay, -, houtlay⟩ := exists_checkedSum hword
  cases hfit : s.fit? rule (amounts.length + 1) outlay
      (Record.values (spendingOrder token records)) with
  | none =>
      obtain ⟨other, hother, hkind⟩ := selectPaying_of_fit?_eq_none hne hpositive houtlay hfit
      obtain rfl := Except.error.inj (h.symm.trans hother)
      exact .inr (.inr (.inl ⟨hkind, (fit?_eq_none_iff_payableFrom houtlay).mp hfit⟩))
  | some k =>
      have hvalues : Record.values ((spendingOrder token records).take k) =
          (Record.values (spendingOrder token records)).take k := List.map_take
      rcases le_or_gt UInt64.size (total ((Record.values (spendingOrder token records)).take k))
        with hlarge | hsum
      · rw [selectPaying_of_overflow hne hpositive houtlay hfit hlarge] at h
        refine .inr (.inr (.inr ⟨(Except.error.inj h).symm, k,
          (fit?_eq_some_iff_payableFrom houtlay k).mp hfit, hvalues ▸ hlarge⟩))
      · obtain ⟨selection, hselection, -⟩ :=
          exists_selectPaying_of_fit? hne hpositive houtlay hfit hsum
        rw [hselection] at h
        cases h

theorem selectPaying_invalid_iff :
    (∃ error, s.selectPaying token amounts rule records = .error error ∧
      error.kind = .invalidAmount) ↔ amounts = [] ∨ 0 ∈ amounts := by
  refine ⟨?_, selectPaying_of_invalid⟩
  rintro ⟨error, herror, hkind⟩
  rcases selectPaying_error_cases herror with
    ⟨-, hinvalid⟩ | ⟨rfl, -⟩ | ⟨hother, -⟩ | ⟨rfl, -⟩
  · exact hinvalid
  · cases hkind
  · simp [hkind] at hother
  · cases hkind

theorem selectPaying_ne_underflow :
    s.selectPaying token amounts rule records ≠ .error (.arithmetic .underflow) := by
  intro hunderflow
  rcases selectPaying_error_cases hunderflow with ⟨hother, -⟩ | ⟨hother, -⟩ | ⟨hother, -⟩ |
    ⟨hother, -⟩
  all_goals cases hother

section Valid

variable (hne : amounts ≠ []) (hpositive : 0 ∉ amounts) (hword : total amounts < UInt64.size)

include hne hpositive hword

theorem selectPaying_insufficient_iff :
    (∃ error, s.selectPaying token amounts rule records = .error error ∧
      error.kind = .insufficientBalance) ↔
      ∀ k, ¬s.PayableFrom rule amounts (records.filter fun r => r.token = token) k := by
  constructor
  · rintro ⟨error, herror, hkind⟩
    rcases selectPaying_error_cases herror with
      ⟨-, hinvalid⟩ | ⟨rfl, -⟩ | ⟨-, hnone⟩ | ⟨rfl, -⟩
    · exact absurd hinvalid (not_or.mpr ⟨hne, hpositive⟩)
    · cases hkind
    · exact hnone
    · cases hkind
  · intro hnone
    obtain ⟨outlay, -, houtlay⟩ := exists_checkedSum hword
    exact selectPaying_of_fit?_eq_none hne hpositive houtlay
      ((fit?_eq_none_iff_payableFrom houtlay).mpr hnone)

variable {k : ℕ} (hleast : IsLeast
  {k | s.PayableFrom rule amounts (records.filter fun r => r.token = token) k} k)

include hleast

theorem selectPaying_overflow_iff :
    (∃ error, s.selectPaying token amounts rule records = .error error ∧
      error.kind = .balanceOverflow) ↔
      UInt64.size ≤ total (Record.values ((spendingOrder token records).take k)) := by
  constructor
  · rintro ⟨error, herror, hkind⟩
    rcases selectPaying_error_cases herror with
      ⟨hother, -⟩ | ⟨-, hlarge⟩ | ⟨hother, -⟩ | ⟨-, j, hj, hlarge⟩
    · simp [hkind] at hother
    · exact absurd hword (not_lt.mpr hlarge)
    · simp [hkind] at hother
    · rwa [hleast.unique hj]
  · intro hlarge
    obtain ⟨outlay, -, houtlay⟩ := exists_checkedSum hword
    rw [Record.values, List.map_take] at hlarge
    exact ⟨_, selectPaying_of_overflow hne hpositive houtlay
      ((fit?_eq_some_iff_payableFrom houtlay k).mpr hleast) hlarge, rfl⟩

/-- As many records are spent as the least choice has. -/
theorem exists_selectPaying_of_isLeast
    (hsum : total (Record.values ((spendingOrder token records).take k)) < UInt64.size) :
    ∃ selection, s.selectPaying token amounts rule records = .ok selection ∧
      selection.inputs = (spendingOrder token records).take k ∧
      selection.inputs.length = k ∧
      selection.total.toNat = total (Record.values selection.inputs) ∧
      selection.fee = rule ⟨k, amounts.length + 1⟩ ∧
      selection.total.toNat = total amounts + selection.fee.toNat + selection.change.toNat := by
  obtain ⟨outlay, -, houtlay⟩ := exists_checkedSum hword
  have hfit := (fit?_eq_some_iff_payableFrom houtlay k).mpr hleast
  obtain ⟨selection, hselection, hinputs, hfee⟩ :=
    exists_selectPaying_of_fit? hne hpositive houtlay hfit (by rwa [Record.values, ← List.map_take])
  obtain ⟨-, -, other, -, hother, -, -, -, htotal, hbalance⟩ :=
    selectPaying_eq_ok_iff.mp hselection
  obtain ⟨-, -, hlength, -⟩ := length_take_of_fit? hfit
  rw [Record.values, List.length_map] at hlength
  refine ⟨selection, hselection, hinputs, ?_, htotal, hfee, hother ▸ hbalance⟩
  rw [hinputs, List.length_take_of_le hlength]

end Valid

/-- Paying every amount of a list in one transaction is refused as invalid exactly where there is
nothing to pay or an amount is zero.  Otherwise it overflows where the amounts have no sum, and
is refused for lack of balance exactly where no choice of the token's records within the limit
can make the payment.  Where some choice can, as many records as the least such choice has are
spent, the first ones in spending order; that fails exactly where they have no sum, and never
because the change would be negative. -/
theorem selectPaying_spends_fewest (s : Selector) (token : TokenId) (amounts : List UInt64)
    (rule : FeeRule) (records : List Record) :
    let ordered := spendingOrder token records
    let held : Multiset Record := records.filter fun r => r.token = token
    let answer := s.selectPaying token amounts rule records
    ((∃ error, answer = .error error ∧ error.kind = .invalidAmount) ↔
      amounts = [] ∨ 0 ∈ amounts) ∧
    (amounts ≠ [] → 0 ∉ amounts → UInt64.size ≤ total amounts →
      ∃ error, answer = .error error ∧ error.kind = .balanceOverflow) ∧
    (amounts ≠ [] → 0 ∉ amounts → total amounts < UInt64.size →
      ((∃ error, answer = .error error ∧ error.kind = .insufficientBalance) ↔
        ∀ k, ¬s.PayableFrom rule amounts held k) ∧
      ∀ k, IsLeast {k | s.PayableFrom rule amounts held k} k →
        ((∃ error, answer = .error error ∧ error.kind = .balanceOverflow) ↔
          UInt64.size ≤ total (Record.values (ordered.take k))) ∧
        (total (Record.values (ordered.take k)) < UInt64.size →
          ∃ selection, answer = .ok selection ∧ selection.inputs = ordered.take k ∧
            selection.inputs.length = k ∧
            selection.total.toNat = total (Record.values selection.inputs) ∧
            selection.fee = rule ⟨k, amounts.length + 1⟩ ∧
            selection.total.toNat =
              total amounts + selection.fee.toNat + selection.change.toNat)) ∧
    answer ≠ .error (.arithmetic .underflow) := by
  intro ordered held answer
  refine ⟨selectPaying_invalid_iff, ?_, ?_, selectPaying_ne_underflow⟩
  · intro hne hpositive hlarge
    exact ⟨_, selectPaying_of_outlay_overflow hne hpositive hlarge, rfl⟩
  · intro hne hpositive hword
    refine ⟨selectPaying_insufficient_iff hne hpositive hword, fun k hleast => ?_⟩
    exact ⟨selectPaying_overflow_iff hne hpositive hword hleast,
      exists_selectPaying_of_isLeast hne hpositive hword hleast⟩

/-- A transaction with a single input costs a hundred here, one with two inputs costs one.  So
paying 5 and 3 takes two records, although each of the three holds enough for the amounts. -/
theorem selectPaying_spends_fewest_tens :
    let rule : FeeRule := .table 1 [(⟨1, 3⟩, 100)]
    let records : List Record := [.numbered 10 0 .mob 0, .numbered 9 1 .mob 0,
      .numbered 50 2 .eusd 0, .numbered 11 3 .mob 0]
    let held : Multiset Record := records.filter fun r => r.token = .mob
    [5, 3] ≠ ([] : List UInt64) ∧ 0 ∉ ([5, 3] : List UInt64) ∧
      total [5, 3] < UInt64.size ∧
      IsLeast {k | (ofLimit 2).PayableFrom rule [5, 3] held k} 2 ∧
      ∃ selection, (ofLimit 2).selectPaying .mob [5, 3] rule records = .ok selection ∧
        selection.inputs = [.numbered 11 3 .mob 0, .numbered 10 0 .mob 0] ∧
        selection.change = 12 := by
  intro rule records held
  have hheld : worth (held.map Record.value) = 30 := (worth_coe _).trans (by cbv)
  have hdear : total [5, 3] + (rule ⟨1, [(5 : UInt64), 3].length + 1⟩).toNat = 108 := by cbv
  have hnone : ¬(ofLimit 2).PayableFrom rule [5, 3] held 1 := by
    rintro ⟨-, -, chosen, hchosen, -, hworth⟩
    have hle := worth_le_of_le (Multiset.map_le_map (f := Record.value) hchosen)
    omega
  have hleast : IsLeast {k | (ofLimit 2).PayableFrom rule [5, 3] held k} 2 := by
    refine ⟨⟨by decide, by decide, ↑[Record.numbered 11 3 .mob 0, .numbered 10 0 .mob 0],
      Multiset.coe_le.mpr (by decide), rfl, ?_⟩, ?_⟩
    · exact le_of_le_of_eq (by cbv) (worth_coe _).symm
    · intro k hk
      by_contra hless
      have hone : k = 1 := by
        have hpos := hk.1
        omega
      exact hnone (hone ▸ hk)
  obtain ⟨-, -, hvalid, -⟩ := selectPaying_spends_fewest (ofLimit 2) .mob [5, 3] rule records
  obtain ⟨-, hspends⟩ := hvalid (by decide) (by decide) (by decide)
  have hordered : (spendingOrder .mob records).take 2 =
      [.numbered 11 3 .mob 0, .numbered 10 0 .mob 0] := by cbv
  obtain ⟨selection, hselection, hinputs, -, htotal, hfee, hbalance⟩ :=
    (hspends 2 hleast).2 (by rw [hordered]; cbv)
  have hsum : total (Record.values selection.inputs) = 21 := by
    rw [hinputs, hordered]
    cbv
  have hcheap : total [5, 3] + selection.fee.toNat = 9 := by
    rw [hfee]
    cbv
  have hchange : selection.change.toNat = (12 : UInt64).toNat := by
    rw [show (12 : UInt64).toNat = 12 from rfl]
    omega
  exact ⟨by decide, by decide, by decide, hleast, selection, hselection,
    hinputs.trans hordered, UInt64.toNat_inj.mp hchange⟩

end Selector
end SpendPlanner
