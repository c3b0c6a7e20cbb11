import SpendPlanner.Proofs.Selection.Agreement
import SpendPlanner.Proofs.Selection.Replanning
import SpendPlanner.Proofs.Settlement

/-!
# Rounds of consolidation

In a round the steps that are ready are carried out on an account, which is then planned
from again.  No round makes a payment dearer or its plan longer than was quoted, and as long
as consolidation is needed every round carries out a step.  So the rounds end with an
account from which the payment can be made.
-/

namespace SpendPlanner

/-- The account after a consolidation whose output is observed as a record. -/
def ReadyMerge.landedOn (step : ReadyMerge) (account : Account) (r : Record) : Account :=
  account.applyChanges [.spent (step.inputs.map Record.keyImage), .observed r]

/-- Consolidations of a token are carried out on an account one after the other.  Each takes
its inputs out of the account, and its output is observed as a record under a key image that
is not held. -/
inductive Account.Lands (token : TokenId) : Account → List ReadyMerge → Account → Prop where
  | done (account : Account) : Lands token account [] account
  | step {account later : Account} {step : ReadyMerge} {steps : List ReadyMerge} {r : Record}
      (hvalue : r.value = step.output) (htoken : r.token = token)
      (hfresh : (account.applyChange (.spent (step.inputs.map Record.keyImage))).holds
        r.keyImage = false)
      (hlater : Lands token (step.landedOn account r) steps later) :
      Lands token account (step :: steps) later

namespace Account

theorem Lands.exists_settles {token : TokenId} {account later : Account}
    {steps : List ReadyMerge} (h : Lands token account steps later) :
    ∃ counts, account.Settles token (steps.map ReadyMerge.settlement) counts later := by
  induction h with
  | done account => exact ⟨[], .done account⟩
  | @step account later step steps r hvalue htoken hfresh hlater ih =>
      obtain ⟨counts, hsettles⟩ := ih
      have hreceived : Receives token
          (account.spendAll (step.settlement.inputs.map Record.keyImage)).2
          step.settlement.returned (step.landedOn account r) := by
        rw [ReadyMerge.settlement, ← hvalue]
        exact .record htoken hfresh
      exact ⟨_, .next rfl hreceived hsettles⟩

/-- Consolidations of different records exchange the values of their inputs for their
outputs. -/
theorem Lands.valuesOf_add {token : TokenId} {account later : Account}
    {steps : List ReadyMerge} (h : Lands token account steps later)
    (hinputs : (steps.flatMap ReadyMerge.inputs : Multiset Record) ≤ account.ofToken token) :
    later.valuesOf token + Record.values (steps.flatMap ReadyMerge.inputs) =
      account.valuesOf token + (steps.map ReadyMerge.output : List UInt64) := by
  obtain ⟨counts, hsettles⟩ := h.exists_settles
  rw [← ReadyMerge.flatMap_inputs_settlement] at hinputs ⊢
  rw [hsettles.valuesOf_add hinputs, ReadyMerge.flatMap_returned_settlement]

end Account

namespace Selector

variable {s : Selector} {rule : FeeRule} {amount : Amount}

theorem coe_values_spendingOrder_ofToken (account : Account) (token : TokenId) :
    (Record.values (spendingOrder token (account.ofToken token)) : Multiset UInt64) =
      account.valuesOf token :=
  congrArg (Multiset.map Record.value) (account.coe_spendingOrder_ofToken token)

/-- What an estimate rests on: full batches that end with a payment that fits.  The steps
that can be carried out now are the ready ones among them. -/
theorem exists_fullBatches_of_estimate (hrule : rule.BuiltIn) {records : List Record}
    {quoted : FeeEstimate} (h : s.estimate amount rule records = .ok quoted) :
    amount.value ≠ 0 ∧
      ∃ (batches : List Batch) (final : Multiset Holding) (k : ℕ),
        Consolidates rule s.FullBatch 0
          (Holding.ofValues (Record.values (spendingOrder amount.token records))) batches final ∧
        IsLeast {k | s.Affords rule paymentOutputs amount.value (poolValues final) k} k ∧
        quoted.totalFee.toNat = Batch.fees rule batches + (rule ⟨k, paymentOutputs⟩).toNat ∧
        quoted.needsConsolidation = !batches.isEmpty ∧
        quoted.consolidations = batches.length ∧
        s.defragment amount rule records = .ok ((batches.filter Batch.isReady).map
          (Batch.step rule (spendingOrder amount.token records))) := by
  obtain ⟨hpositive, merges, fee, hrun⟩ := exists_planningRun_of_estimate rfl h
  obtain ⟨htotal, hneeds, hcount⟩ := (estimate_of_plan hpositive rfl hrun).mp h
  obtain ⟨batches, final, k, hbatches, rfl, hleast, rfl⟩ :=
    exists_consolidates_of_planningRun hrun
  rw [total_fee_merges, add_comm] at htotal
  refine ⟨hpositive, batches, final, k, hbatches.fullBatches hrule hleast.1, hleast, htotal,
    ?_, ?_, ?_⟩
  · rw [hneeds, List.isEmpty_map]
  · rw [hcount, List.length_map]
  · rw [defragment_of_plan hpositive hrun,
      Batch.filterMap_step?_merge hbatches.stands_of_mem_readySpent]

/-- A payment whose plan is bounded by a word's worth of fees is priced within the bounds. -/
theorem PlansWithin.exists_estimate {records : List Record} {merges k : ℕ}
    (h : s.PlansWithin rule amount.value
      (Record.values (spendingOrder amount.token records)) merges k)
    (hpositive : amount.value ≠ 0)
    (hword : merges * (rule ⟨s.limit, gatherOutputs⟩).toNat +
      (rule ⟨k, paymentOutputs⟩).toNat < UInt64.size) :
    ∃ e : FeeEstimate,
      s.estimate amount rule records = .ok e ∧
        e.totalFee.toNat ≤ merges * (rule ⟨s.limit, gatherOutputs⟩).toNat +
          (rule ⟨k, paymentOutputs⟩).toNat ∧
        e.consolidations ≤ merges := by
  obtain ⟨more, fee, hrun, hmore, hfees⟩ :=
    h [] (Holding.ofValues _) (Holding.poolValues_ofValues _)
  let price := total (more.map Merge.fee) + fee.toNat
  have hprice : (UInt64.ofNat price).toNat = price :=
    UInt64.toNat_ofNat_of_lt (hfees.trans_lt hword)
  refine ⟨⟨UInt64.ofNat price, !more.isEmpty, more.length⟩, ?_, ?_, hmore⟩
  · refine (estimate_of_plan hpositive rfl hrun).mpr ⟨?_, rfl, rfl⟩
    rw [hprice]
    exact Nat.add_comm _ _
  · rw [hprice]
    exact hfees

/-- In a round the ready batches exchange what they spend for what they leave. -/
theorem valuesOf_after_round {account later : Account} {batches : List Batch}
    {final : Multiset Holding}
    {allowed : Multiset Holding → Multiset Holding → Prop}
    (hbatches : Consolidates rule allowed 0 (Holding.ofValues (Record.values
      (spendingOrder amount.token (account.ofToken amount.token)))) batches final)
    (hlands : account.Lands amount.token ((batches.filter Batch.isReady).map
      (Batch.step rule (spendingOrder amount.token (account.ofToken amount.token)))) later) :
    later.valuesOf amount.token + poolValues (readySpent batches) =
      account.valuesOf amount.token + readyOutputs batches := by
  have hinputs := hbatches.inputs_step_le
  rw [Account.coe_spendingOrder_ofToken] at hinputs
  have hexchanged := hlands.valuesOf_add hinputs
  rwa [Batch.flatMap_inputs_step,
    Holding.values_filterMap_record? hbatches.stands_of_mem_readySpent,
    List.map_map] at hexchanged

/-- What is left after a round, together with what has been done in it, keeps to the
quote. -/
theorem estimate_after_round (hrule : rule.BuiltIn) {account later : Account}
    {steps : List ReadyMerge} {quoted : FeeEstimate}
    (h : s.estimate amount rule (account.ofToken amount.token) = .ok quoted)
    (hsteps : s.defragment amount rule (account.ofToken amount.token) = .ok steps)
    (hlands : account.Lands amount.token steps later) :
    ∃ e : FeeEstimate,
      s.estimate amount rule (later.ofToken amount.token) = .ok e ∧
        e.totalFee.toNat + total (steps.map ReadyMerge.fee) ≤ quoted.totalFee.toNat ∧
        e.consolidations + steps.length ≤ quoted.consolidations ∧
        worth (later.valuesOf amount.token) ≤ worth (account.valuesOf amount.token) := by
  obtain ⟨hpositive, batches, final, k, hbatches, hleast, htotal, -, hcount, hready⟩ :=
    exists_fullBatches_of_estimate hrule h
  obtain rfl := Except.ok.inj (hsteps.symm.trans hready)
  have hvalues := valuesOf_after_round hbatches hlands
  have hplans : s.PlansWithin rule amount.value
      (Record.values (spendingOrder amount.token (later.ofToken amount.token)))
      (batches.countP fun b => !b.isReady) k := by
    apply plansWithin_of_fullBatches hrule hbatches hleast
    rwa [Holding.poolValues_ofValues, coe_values_spendingOrder_ofToken,
      coe_values_spendingOrder_ofToken]
  have hsplit := hbatches.fees_eq
  have hword := quoted.totalFee.toNat_lt
  obtain ⟨e, he, hfee, hmerges⟩ := hplans.exists_estimate hpositive (by
    simp only [UInt64.size]
    omega)
  have hpaid : total ((((batches.filter Batch.isReady).map (Batch.step rule
      (spendingOrder amount.token (account.ofToken amount.token)))).map ReadyMerge.fee)) =
        Batch.fees rule (batches.filter Batch.isReady) := by
    rw [List.map_map, total_map]
    rfl
  have hlength := Batch.length_eq_ready_add batches
  refine ⟨e, he, ?_, ?_, ?_⟩
  · rw [hpaid]
    omega
  · rw [List.length_map]
    omega
  · have hworth := congrArg worth hvalues
    have hloss := hbatches.worth_readyOutputs_le
    rw [worth_add, worth_add] at hworth
    omega

/-- As long as consolidation is needed there is a step to carry out, and else there is
none. -/
theorem exists_defragment_of_estimate (hrule : rule.BuiltIn) {records : List Record}
    {quoted : FeeEstimate} (h : s.estimate amount rule records = .ok quoted) :
    ∃ steps, s.defragment amount rule records = .ok steps ∧
      (quoted.needsConsolidation = true → steps ≠ []) ∧
      (quoted.needsConsolidation = false → steps = []) := by
  obtain ⟨-, batches, final, k, hbatches, -, -, hneeds, -, hsteps⟩ :=
    exists_fullBatches_of_estimate hrule h
  refine ⟨_, hsteps, ?_, ?_⟩
  · intro hneeded hnil
    have hbatchesNil : batches ≠ [] := by
      rintro rfl
      simp [hneeded] at hneeds
    exact hbatches.filter_isReady_ne_nil (fun x hx => Holding.isRecord_of_mem_ofValues hx)
      hbatchesNil (List.map_eq_nil_iff.mp hnil)
  · intro hneeded
    obtain rfl : batches = [] := by simpa [hneeded] using hneeds
    rfl

theorem exists_fit?_of_estimate {records : List Record} {quoted : FeeEstimate}
    (h : s.estimate amount rule records = .ok quoted)
    (hneeds : quoted.needsConsolidation = false) :
    amount.value ≠ 0 ∧ ∃ k, s.fit? rule paymentOutputs amount.value
      (Record.values (spendingOrder amount.token records)) = some k := by
  obtain ⟨hpositive, merges, fee, hrun⟩ := exists_planningRun_of_estimate rfl h
  obtain ⟨-, hmerges, -⟩ := (estimate_of_plan hpositive rfl hrun).mp h
  refine ⟨hpositive, ?_⟩
  cases hfit : s.fit? rule paymentOutputs amount.value
      (Record.values (spendingOrder amount.token records)) with
  | some k => exact ⟨k, rfl⟩
  | none =>
      have hne := merges_ne_nil_of_fit?_eq_none
        (values_spendingOrder_descending amount.token records) hfit hrun
      rw [hneeds] at hmerges
      simp [hne] at hmerges

/-- Where no consolidation is needed the inputs of the payment can be chosen. -/
theorem exists_select_of_estimate {records : List Record} {quoted : FeeEstimate}
    (h : s.estimate amount rule records = .ok quoted)
    (hneeds : quoted.needsConsolidation = false)
    (hword : total (Record.values (spendingOrder amount.token records)) < UInt64.size) :
    ∃ selection, s.select amount rule records = .ok selection := by
  obtain ⟨hpositive, k, hfit⟩ := exists_fit?_of_estimate h hneeds
  obtain ⟨selection, hselection, -⟩ :=
    select_of_fit? hpositive hfit ((total_take_le _ k).trans_lt hword)
  exact ⟨selection, hselection⟩

/-! ## Round after round -/

/-- Rounds of consolidation for a payment, from an account to the one they lead to.  In a round
all steps that are ready are carried out.  `paid` is the sum of their fees over all rounds and
`executed` the number of steps. -/
inductive Rounds (s : Selector) (amount : Amount) (rule : FeeRule) (account : Account) :
    (rounds paid executed : ℕ) → Account → Prop where
  | start : Rounds s amount rule account 0 0 0 account
  | next {rounds paid executed : ℕ} {current later : Account} {steps : List ReadyMerge}
      (hrounds : Rounds s amount rule account rounds paid executed current)
      (hsteps : s.defragment amount rule (current.ofToken amount.token) = .ok steps)
      (hlands : current.Lands amount.token steps later) :
      Rounds s amount rule account (rounds + 1)
        (paid + total (steps.map ReadyMerge.fee)) (executed + steps.length) later

/-- The rounds keep to the quote, and as long as consolidation is needed there are no more of
them than steps. -/
theorem Rounds.exists_estimate (hrule : rule.BuiltIn) {account current : Account}
    {quoted : FeeEstimate}
    (h : s.estimate amount rule (account.ofToken amount.token) = .ok quoted)
    {rounds paid executed : ℕ}
    (hrounds : s.Rounds amount rule account rounds paid executed current) :
    ∃ e : FeeEstimate,
      s.estimate amount rule (current.ofToken amount.token) = .ok e ∧
        e.totalFee.toNat + paid ≤ quoted.totalFee.toNat ∧
        e.consolidations + executed ≤ quoted.consolidations ∧
        worth (current.valuesOf amount.token) ≤ worth (account.valuesOf amount.token) ∧
        (e.needsConsolidation = true → rounds ≤ executed) := by
  induction hrounds with
  | start => exact ⟨quoted, h, le_rfl, le_rfl, le_rfl, fun _ => le_rfl⟩
  | @next rounds paid executed current later steps hrounds hsteps hlands ih =>
      obtain ⟨e, he, hfee, hcount, hworth, hprogress⟩ := ih
      obtain ⟨e', he', hfee', hcount', hworth'⟩ :=
        estimate_after_round hrule he hsteps hlands
      refine ⟨e', he', by omega, by omega, hworth'.trans hworth, fun hneeds' => ?_⟩
      obtain ⟨ready, hready, hsome, hnone⟩ := exists_defragment_of_estimate hrule he
      obtain rfl := Except.ok.inj (hsteps.symm.trans hready)
      cases hneeds : e.needsConsolidation with
      | true =>
          have hpos := List.length_pos_iff.mpr (hsome hneeds)
          have hle := hprogress hneeds
          omega
      | false =>
          -- Nothing was left to be done, so the account is still the same.
          obtain rfl := hnone hneeds
          cases hlands
          obtain rfl := Except.ok.inj (he.symm.trans he')
          simp [hneeds] at hneeds'

/-- Whatever rounds of consolidation are made, the payment can be planned again, for no more
than was quoted less what has been paid and done.  As long as consolidation is needed the next
round carries out a step, and after as many rounds as consolidations were quoted there is
nothing left to consolidate and the inputs of the payment can be chosen. -/
theorem rounds_keep_quote (s : Selector) (hrule : rule.BuiltIn) (amount : Amount)
    (account : Account)
    (hword : total (Record.values (account.ofToken amount.token)) < UInt64.size)
    {quoted : FeeEstimate}
    (h : s.estimate amount rule (account.ofToken amount.token) = .ok quoted)
    {rounds paid executed : ℕ} {current : Account}
    (hrounds : s.Rounds amount rule account rounds paid executed current) :
    ∃ (e : FeeEstimate) (steps : List ReadyMerge),
      s.estimate amount rule (current.ofToken amount.token) = .ok e ∧
        s.defragment amount rule (current.ofToken amount.token) = .ok steps ∧
        e.totalFee.toNat + paid ≤ quoted.totalFee.toNat ∧
        e.consolidations + executed ≤ quoted.consolidations ∧
        (e.needsConsolidation = true → steps ≠ []) ∧
        (quoted.consolidations ≤ rounds → steps = [] ∧
          ∃ selection, s.select amount rule (current.ofToken amount.token) = .ok selection) := by
  obtain ⟨e, he, hfee, hcount, hworth, hprogress⟩ := hrounds.exists_estimate hrule h
  obtain ⟨steps, hsteps, hsome, hnone⟩ := exists_defragment_of_estimate hrule he
  refine ⟨e, steps, he, hsteps, hfee, hcount, hsome, fun hlate => ?_⟩
  have hneeds : e.needsConsolidation = false := by
    rw [Bool.eq_false_iff]
    intro hneeds
    have hpos := (needsConsolidation_iff_of_estimate he).mp hneeds
    have hle := hprogress hneeds
    omega
  have hcurrentWord : total (Record.values (spendingOrder amount.token
      (current.ofToken amount.token))) < UInt64.size := by
    rw [← worth_coe, coe_values_spendingOrder_ofToken]
    refine hworth.trans_lt ?_
    rwa [Account.valuesOf, Multiset.map_coe, worth_coe]
  exact ⟨hnone hneeds, exists_select_of_estimate he hneeds hcurrentWord⟩

/-- Paying 46 from five records of 10 is quoted three consolidations of two.  Two of them are
ready, the third waits for them, and a third round finds nothing more to do. -/
theorem rounds_keep_quote_five_tens :
    ∃ account later : Account,
      total (Record.values (account.ofToken .mob)) < UInt64.size ∧
        (ofLimit 2).estimate ⟨46, .mob⟩ (.fixed 1) (account.ofToken .mob) = .ok ⟨4, true, 3⟩ ∧
        (ofLimit 2).Rounds ⟨46, .mob⟩ (.fixed 1) account 3 3 3 later ∧
        ∃ (e : FeeEstimate) (selection : InputSelection),
          (ofLimit 2).estimate ⟨46, .mob⟩ (.fixed 1) (later.ofToken .mob) = .ok e ∧
            e.totalFee.toNat + 3 ≤ 4 ∧
            (ofLimit 2).select ⟨46, .mob⟩ (.fixed 1) (later.ofToken .mob) = .ok selection := by
  let account : Account := .ofRecords [.numbered 10 0 .mob 0, .numbered 10 1 .mob 0,
    .numbered 10 2 .mob 0, .numbered 10 3 .mob 0, .numbered 10 4 .mob 0]
  let first : ReadyMerge := ⟨[.numbered 10 3 .mob 0, .numbered 10 4 .mob 0], 1, 19⟩
  let second : ReadyMerge := ⟨[.numbered 10 1 .mob 0, .numbered 10 2 .mob 0], 1, 19⟩
  let third : ReadyMerge := ⟨[.numbered 19 6 .mob 0, .numbered 10 0 .mob 0], 1, 28⟩
  let halfway : Account := second.landedOn (first.landedOn account (.numbered 19 5 .mob 0))
    (.numbered 19 6 .mob 0)
  let later : Account := third.landedOn halfway (.numbered 28 7 .mob 0)
  have hword : total (Record.values (account.ofToken .mob)) < UInt64.size := by cbv
  have hquoted : (ofLimit 2).estimate ⟨46, .mob⟩ (.fixed 1) (account.ofToken .mob) =
      .ok ⟨4, true, 3⟩ := by cbv
  have hready : (ofLimit 2).defragment ⟨46, .mob⟩ (.fixed 1) (account.ofToken .mob) =
      .ok [first, second] := by cbv
  have hwaited : (ofLimit 2).defragment ⟨46, .mob⟩ (.fixed 1) (halfway.ofToken .mob) =
      .ok [third] := by cbv
  have hdone : (ofLimit 2).defragment ⟨46, .mob⟩ (.fixed 1) (later.ofToken .mob) =
      .ok [] := by cbv
  have hrounds : (ofLimit 2).Rounds ⟨46, .mob⟩ (.fixed 1) account 3 3 3 later :=
    .next (.next (.next .start hready (.step rfl rfl (by cbv) (.step rfl rfl (by cbv)
      (.done halfway)))) hwaited (.step rfl rfl (by cbv) (.done later))) hdone (.done later)
  obtain ⟨e, steps, he, -, hfee, -, -, hend⟩ :=
    rounds_keep_quote (ofLimit 2) (.fixed 1) ⟨46, .mob⟩ account hword hquoted hrounds
  obtain ⟨-, selection, hselection⟩ := hend le_rfl
  exact ⟨account, later, hword, hquoted, hrounds, e, selection, he, hfee, hselection⟩

end Selector
end SpendPlanner
