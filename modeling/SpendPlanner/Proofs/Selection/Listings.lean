import SpendPlanner.Proofs.Selection.InputSelection
import SpendPlanner.Proofs.Selection.ReadyMerges
import SpendPlanner.Proofs.Settlement

/-!
# Listed records

A payment, a sweep and the consolidations that can be carried out now list the records that
are to be spent.  However they are chosen, the transactions spend different records of the
token, no more at once than the limit, and they are balanced.
-/

namespace SpendPlanner.Selector

variable {s : Selector} {rule : FeeRule} {token : TokenId} {amount : Amount}
  {records : List Record}

/-- Balanced transactions that spend different ones of the records, each at least one and no
more than the limit. -/
structure Spends (s : Selector) (records : Multiset Record) (ts : List Settlement) : Prop where
  inputs_le : (ts.flatMap Settlement.inputs : Multiset Record) ≤ records
  ne_nil : ∀ t ∈ ts, t.inputs ≠ []
  length_le : ∀ t ∈ ts, t.inputs.length ≤ s.limit
  balanced : ∀ t ∈ ts, t.Balanced

/-- A transaction that spends leading records. -/
theorem spends_of_take {ordered : List Record} {t : Settlement} {k : ℕ}
    (hinputs : t.inputs = ordered.take k) (hpositive : 1 ≤ k) (hlimit : k ≤ s.limit)
    (hne : ordered ≠ []) (hbalanced : t.Balanced) : s.Spends ordered [t] := by
  have hlength : t.inputs.length = min k ordered.length := by
    rw [hinputs, List.length_take]
  have hpos := List.length_pos_iff.mpr hne
  constructor
  · rw [List.flatMap_singleton, hinputs]
    exact Multiset.coe_le.mpr (List.take_sublist k ordered).subperm
  · intro t' ht'
    obtain rfl := List.mem_singleton.mp ht'
    rw [← List.length_pos_iff]
    omega
  · intro t' ht'
    obtain rfl := List.mem_singleton.mp ht'
    omega
  · intro t' ht'
    obtain rfl := List.mem_singleton.mp ht'
    exact hbalanced

theorem spends_of_select {selection : InputSelection}
    (h : s.select amount rule records = .ok selection) :
    s.Spends (spendingOrder amount.token records) [selection.settlement amount.value] := by
  obtain ⟨-, -, outlay, k, houtlay, hfit, hinputs, -, htotal, hbalance⟩ :=
    selectPaying_eq_ok_iff.mp h
  obtain ⟨hpositive, hlimit, hlength, -⟩ := length_take_of_fit? hfit
  rw [total_cons, total_nil, add_zero] at houtlay
  refine spends_of_take hinputs hpositive hlimit ?_ ?_
  · rw [Record.values, List.length_map] at hlength
    rw [← List.length_pos_iff]
    omega
  · have hchange : total (if selection.change = 0 then none else some selection.change).toList =
        selection.change.toNat := by
      by_cases hnone : selection.change = 0
      · rw [if_pos hnone, hnone]
        rfl
      · rw [if_neg hnone]
        rfl
    change total (Record.values selection.inputs) = amount.value.toNat + selection.fee.toNat +
      total (if selection.change = 0 then none else some selection.change).toList
    omega

theorem spends_of_sweep {selection : Sweep} (h : s.sweep token rule records = .ok selection) :
    s.Spends (spendingOrder token records) [selection.settlement] := by
  obtain ⟨hne, hinputs, -, -, hbalance, -⟩ := sweep_eq_ok_iff.mp h
  exact spends_of_take hinputs (one_le_two.trans s.two_le_limit) le_rfl hne hbalance

theorem spends_of_defragment {steps : List ReadyMerge}
    (h : s.defragment amount rule records = .ok steps) :
    s.Spends (spendingOrder amount.token records) (steps.map ReadyMerge.settlement) := by
  obtain ⟨batches, final, hbatches, rfl⟩ := exists_consolidates_of_defragment h
  have hstep : ∀ t ∈ ((batches.filter Batch.isReady).map
      (Batch.step rule (spendingOrder amount.token records))).map ReadyMerge.settlement,
      ∃ b ∈ batches, Record.values t.inputs = Holding.values b.spent ∧
        t.outlay = (b.fee rule).toNat ∧ t.returned = some b.output := by
    intro t ht
    rw [List.map_map, List.mem_map] at ht
    obtain ⟨b, hb, rfl⟩ := ht
    refine ⟨b, (List.mem_filter.mp hb).1, ?_, rfl, rfl⟩
    refine Holding.values_filterMap_record? fun x hx => hbatches.stands_of_mem_readySpent x ?_
    exact List.mem_flatMap.mpr ⟨b, hb, hx⟩
  have hlength : ∀ (t : Settlement) (b : Batch),
      Record.values t.inputs = Holding.values b.spent →
        t.inputs.length = (b.spent : Multiset Holding).card := by
    intro t b hvalues
    simpa [Record.values, Holding.values] using congrArg List.length hvalues
  constructor
  · rw [ReadyMerge.flatMap_inputs_settlement]
    exact hbatches.inputs_step_le
  · intro t ht
    obtain ⟨b, hb, hvalues, -⟩ := hstep t ht
    obtain ⟨⟨rest, hdue⟩, -⟩ := hbatches.of_mem hb
    have htwo := hdue.two_le_card
    rw [← hlength t b hvalues] at htwo
    rw [← List.length_pos_iff]
    omega
  · intro t ht
    obtain ⟨b, hb, hvalues, -⟩ := hstep t ht
    obtain ⟨⟨rest, hdue⟩, -⟩ := hbatches.of_mem hb
    rw [hlength t b hvalues, hdue.card_eq]
    exact Nat.min_le_left _ _
  · intro t ht
    obtain ⟨b, hb, hvalues, houtlay, hreturned⟩ := hstep t ht
    obtain ⟨-, hbalance, -⟩ := hbatches.of_mem hb
    rw [poolValues_coe, worth_coe] at hbalance
    rw [Settlement.Balanced, hvalues, houtlay, hreturned, hbalance]
    rfl

end SpendPlanner.Selector
