import SpendPlanner.Proofs.CheckedSum
import SpendPlanner.Proofs.Selection.Prefix
import SpendPlanner.Selection.Gathering
import SpendPlanner.Selection.Payment
import SpendPlanner.Selection.Transferable

/-!
# The order of the records does not matter

Every answer of the selector starts from the spending order of one token's records.  What is
reckoned with values alone depends on the values in descending order, which are determined by
the records as a multiset.  Where global indices tell records of equal value apart, the
spending order itself is determined, so that the records that are listed for spending are the
same ones as well.
-/

namespace SpendPlanner

/-- Records of equal value and equal global index are one and the same. -/
def Record.ToldApart (records : List Record) : Prop :=
  ∀ a ∈ records, ∀ b ∈ records, a.value = b.value → a.globalIndex = b.globalIndex → a = b

/-- Spending order: by descending value, then by ascending global index. -/
def Record.InSpendingOrder (records : List Record) : Prop :=
  records.Pairwise fun a b =>
    b.value < a.value ∨ a.value = b.value ∧ a.globalIndex ≤ b.globalIndex

theorem inSpendingOrder_spendingOrder (token : TokenId) (records : List Record) :
    Record.InSpendingOrder (spendingOrder token records) :=
  (spendingOrder_pairwise token records).imp fun hab => by
    simpa [Record.precedes] using hab

/-- Records that can be told apart have a single spending order. -/
theorem Record.InSpendingOrder.eq_of_perm {xs ys : List Record} (hxs : InSpendingOrder xs)
    (hys : InSpendingOrder ys) (hperm : xs.Perm ys) (hapart : ToldApart xs) : xs = ys := by
  refine List.Perm.eq_of_pairwise ?_ hxs hys hperm
  intro a b ha hb hab hba
  simp only [UInt64.lt_iff_toNat_lt, UInt64.le_iff_toNat_le, ← UInt64.toNat_inj] at hab hba
  apply hapart a ha b (hperm.mem_iff.mpr hb)
  · rw [← UInt64.toNat_inj]
    omega
  · rw [← UInt64.toNat_inj]
    omega

section Records

variable {token : TokenId} {records records' : List Record}

/-- The spending order of records that can be told apart is the only arrangement by descending
value and ascending global index. -/
theorem eq_spendingOrder_iff
    (hapart : Record.ToldApart (records.filter fun r => r.token = token))
    {ordered : List Record} :
    ordered = spendingOrder token records ↔
      ordered.Perm (records.filter fun r => r.token = token) ∧
        Record.InSpendingOrder ordered := by
  have hperm := spendingOrder_perm token records
  have hsorted := inSpendingOrder_spendingOrder token records
  constructor
  · rintro rfl
    exact ⟨hperm, hsorted⟩
  · rintro ⟨hother, hordered⟩
    refine hordered.eq_of_perm hsorted (hother.trans hperm.symm) ?_
    intro a ha b hb
    exact hapart a (hother.mem_iff.mp ha) b (hother.mem_iff.mp hb)

variable (hperm : (records.filter fun r => r.token = token).Perm
  (records'.filter fun r => r.token = token))

include hperm

theorem values_spendingOrder_eq_of_perm :
    Record.values (spendingOrder token records) =
      Record.values (spendingOrder token records') := by
  apply eq_of_descending (values_spendingOrder_descending token records)
    (values_spendingOrder_descending token records')
  rw [coe_values_spendingOrder, coe_values_spendingOrder]
  exact Multiset.coe_eq_coe.mpr (hperm.map Record.value)

theorem spendingOrder_eq_of_perm
    (hapart : Record.ToldApart (records.filter fun r => r.token = token)) :
    spendingOrder token records = spendingOrder token records' := by
  obtain ⟨hmine, hordered⟩ := (eq_spendingOrder_iff hapart).mp rfl
  refine hordered.eq_of_perm (inSpendingOrder_spendingOrder token records')
    (hmine.trans (hperm.trans (spendingOrder_perm token records').symm)) ?_
  intro a ha b hb
  exact hapart a (hmine.mem_iff.mp ha) b (hmine.mem_iff.mp hb)

end Records

namespace Selector

section Answers

variable (s : Selector) (rule : FeeRule) {token : TokenId} {records records' : List Record}

theorem transferable_eq_of_values
    (h : Record.values (spendingOrder token records) =
      Record.values (spendingOrder token records')) :
    s.transferable token rule records = s.transferable token rule records' := by
  simp only [transferable, h]

theorem estimate_eq_of_values (v : UInt64)
    (h : Record.values (spendingOrder token records) =
      Record.values (spendingOrder token records')) :
    s.estimate ⟨v, token⟩ rule records = s.estimate ⟨v, token⟩ rule records' := by
  simp only [estimate, quote, h]

variable (h : spendingOrder token records = spendingOrder token records')

include h

/-- Only the sum and the number of the requested amounts count. -/
theorem selectPaying_eq_of_perm {amounts amounts' : List UInt64}
    (hamounts : amounts.Perm amounts') :
    s.selectPaying token amounts rule records = s.selectPaying token amounts' rule records' := by
  have hempty : amounts.isEmpty = amounts'.isEmpty := hamounts.isEmpty_eq
  have hzero : 0 ∈ amounts ↔ 0 ∈ amounts' := hamounts.mem_iff
  simp only [selectPaying, h, hempty, hzero, checkedSum_perm hamounts, hamounts.length_eq]

theorem defragment_eq_of_order (v : UInt64) :
    s.defragment ⟨v, token⟩ rule records = s.defragment ⟨v, token⟩ rule records' := by
  simp only [defragment, h]

theorem sweep_eq_of_order :
    s.sweep token rule records = s.sweep token rule records' := by
  simp only [sweep, h]

end Answers

/-- Answers depend on the records of the token alone, and not on their order.  The transferable
amount and the estimate do so without exception; the choices of records do so where global
indices tell records of equal value apart. -/
theorem answers_eq_of_perm (s : Selector) (rule : FeeRule) (token : TokenId)
    {records records' : List Record}
    (hperm : (records.filter fun r => r.token = token).Perm
      (records'.filter fun r => r.token = token)) :
    s.transferable token rule records = s.transferable token rule records' ∧
    (∀ v, s.estimate ⟨v, token⟩ rule records = s.estimate ⟨v, token⟩ rule records') ∧
    (Record.ToldApart (records.filter fun r => r.token = token) →
      spendingOrder token records = spendingOrder token records' ∧
      (∀ ordered, ordered = spendingOrder token records ↔
        ordered.Perm (records.filter fun r => r.token = token) ∧
          Record.InSpendingOrder ordered) ∧
      (∀ amounts amounts' : List UInt64, amounts.Perm amounts' →
        s.selectPaying token amounts rule records =
          s.selectPaying token amounts' rule records') ∧
      (∀ v, s.defragment ⟨v, token⟩ rule records = s.defragment ⟨v, token⟩ rule records') ∧
      s.sweep token rule records = s.sweep token rule records') := by
  have hvalues := values_spendingOrder_eq_of_perm hperm
  refine ⟨s.transferable_eq_of_values rule hvalues,
    fun v => s.estimate_eq_of_values rule v hvalues, fun hapart => ?_⟩
  have horder := spendingOrder_eq_of_perm hperm hapart
  exact ⟨horder, fun _ => eq_spendingOrder_iff hapart,
    fun _ _ hamounts => s.selectPaying_eq_of_perm rule horder hamounts,
    fun v => s.defragment_eq_of_order rule horder v, s.sweep_eq_of_order rule horder⟩

/-- Two records of 10 in either order, one of them beside a record of another token: the older
one is spent first. -/
theorem answers_eq_of_perm_tens :
    let older : Record := .numbered 10 0 .mob 0
    let younger : Record := .numbered 10 1 .mob 0
    let records : List Record := [younger, .numbered 7 2 .eusd 0, older]
    let records' : List Record := [older, younger]
    (records.filter fun r => r.token = .mob).Perm (records'.filter fun r => r.token = .mob) ∧
      Record.ToldApart (records.filter fun r => r.token = .mob) ∧
      (ofLimit 2).selectPaying .mob [1, 5] (.fixed 1) records =
        (ofLimit 2).selectPaying .mob [5, 1] (.fixed 1) records' ∧
      (ofLimit 2).selectPaying .mob [5, 1] (.fixed 1) records' = .ok ⟨[older], 10, 1, 3⟩ := by
  intro older younger records records'
  have hperm : (records.filter fun r => r.token = .mob).Perm
      (records'.filter fun r => r.token = .mob) := by decide
  have hapart : Record.ToldApart (records.filter fun r => r.token = .mob) := by
    unfold Record.ToldApart
    decide
  obtain ⟨-, -, hlisted⟩ := answers_eq_of_perm (ofLimit 2) (.fixed 1) .mob hperm
  obtain ⟨-, -, hselect, -⟩ := hlisted hapart
  exact ⟨hperm, hapart, hselect _ _ (by decide), by cbv⟩

end Selector
end SpendPlanner
