import SpendPlanner.CommandLine.Answer
import SpendPlanner.Proofs.Configuration
import SpendPlanner.Proofs.Estimation.Arrival
import SpendPlanner.Proofs.Json.RoundTrip
import SpendPlanner.Proofs.Selection.OrderIndependence

/-!
# Command lines are answered by the selector

The account of a command line holds the records of the file without those whose key image has
occurred before.  It keeps them in an order of its own, and the selector arranges them again; so
what is printed is what the selector makes of the records of the file, in whatever order.
-/

namespace SpendPlanner

/-! ## The records of a file -/

/-- The records whose key image has not been seen, neither before nor earlier in the list. -/
def Record.unseen (seen : List KeyImage) : List Record → List Record
  | [] => []
  | r :: records =>
    if r.keyImage ∈ seen then unseen seen records
    else r :: unseen (r.keyImage :: seen) records

/-- The records without those whose key image has occurred earlier in the list. -/
def Record.firsts (records : List Record) : List Record := unseen [] records

theorem Record.unseen_of_nodup {seen : List KeyImage} {records : List Record}
    (hnodup : (records.map Record.keyImage).Nodup)
    (hnew : ∀ r ∈ records, r.keyImage ∉ seen) : unseen seen records = records := by
  induction records generalizing seen with
  | nil => rfl
  | cons r records ih =>
      obtain ⟨hr, hrecords⟩ := List.forall_mem_cons.mp hnew
      obtain ⟨hdistinct, hrest⟩ := List.nodup_cons.mp hnodup
      rw [unseen, if_neg hr, ih hrest]
      intro x hx
      rw [List.mem_cons, not_or]
      exact ⟨fun heq => hdistinct (heq ▸ List.mem_map_of_mem hx), hrecords x hx⟩

namespace Account

/-- An account is known by the records it holds, in whatever order. -/
theorem eq_of_perm {a b : Account} (h : a.records.Perm b.records) : a = b := by
  obtain ⟨records, hascending⟩ := a
  obtain ⟨records', hascending'⟩ := b
  obtain rfl : records = records' := by
    refine List.Perm.eq_of_pairwise ?_ hascending hascending' h
    intro r r' _ _ hlt hgt
    exact absurd (KeyImage.lt_trans hlt hgt) (KeyImage.lt_irrefl _)
  rfl

/-- Inserting records in order adds those whose key image the account has not seen. -/
theorem coe_foldl_insert {account : Account} {seen : List KeyImage}
    (hseen : ∀ image, image ∈ seen ↔ account.holds image = true) (records : List Record) :
    ((records.foldl insert account).records : Multiset Record) =
      account.records + Record.unseen seen records := by
  induction records generalizing account seen with
  | nil => exact (add_zero _).symm
  | cons r records ih =>
      rw [List.foldl_cons, Record.unseen]
      by_cases hheld : account.holds r.keyImage = true
      · rw [if_pos ((hseen _).mpr hheld), insert_of_holds hheld]
        exact ih hseen
      · have hnew := Bool.not_eq_true _ ▸ hheld
        have hinserted : ((account.insert r).records : Multiset Record) =
            r ::ₘ account.records := coe_insertSorted (holds_eq_false_iff.mp hnew)
        have hholds : ∀ image, image ∈ r.keyImage :: seen ↔
            (account.insert r).holds image = true := by
          intro image
          have hmem : ∀ x, x ∈ (account.insert r).records ↔ x = r ∨ x ∈ account.records := by
            intro x
            rw [← Multiset.mem_coe, hinserted, Multiset.mem_cons, Multiset.mem_coe]
          have hpossible := hseen image
          simp only [holds, find?, List.find?_isSome, decide_eq_true_eq] at hpossible ⊢
          rw [List.mem_cons, hpossible]
          constructor
          · rintro (rfl | ⟨x, hx, hkey⟩)
            · exact ⟨r, (hmem r).mpr (Or.inl rfl), rfl⟩
            · exact ⟨x, (hmem x).mpr (Or.inr hx), hkey⟩
          · rintro ⟨x, hx, hkey⟩
            rcases (hmem x).mp hx with rfl | hx
            · exact Or.inl hkey.symm
            · exact Or.inr ⟨x, hx, hkey⟩
        rw [if_neg fun hmem => hheld ((hseen _).mp hmem), ih hholds, hinserted,
          ← Multiset.cons_coe, Multiset.cons_add, Multiset.add_cons]

theorem ofRecords_perm_firsts (records : List Record) :
    (ofRecords records).records.Perm (Record.firsts records) := by
  refine Multiset.coe_eq_coe.mp ?_
  have hempty : ∀ image, image ∈ ([] : List KeyImage) ↔ empty.holds image = true := by
    simp [holds, find?, empty]
  rw [ofRecords, coe_foldl_insert hempty]
  exact zero_add _

/-- The records that count, listed in any order, make up the same account. -/
theorem ofRecords_eq_of_perm {records records' : List Record}
    (h : records'.Perm (Record.firsts records)) : ofRecords records' = ofRecords records := by
  have hfirsts := ofRecords_perm_firsts records
  have hnodup : (records'.map Record.keyImage).Nodup :=
    ((h.trans hfirsts.symm).map Record.keyImage).nodup_iff.mpr
      (ofRecords records).nodup_keyImages
  have hsame := ofRecords_perm_firsts records'
  rw [Record.firsts, Record.unseen_of_nodup hnodup (by simp)] at hsame
  exact eq_of_perm (hsame.trans (h.trans hfirsts.symm))

end Account

/-! ## What is listed of records -/

/-- What tells records apart in spending order. -/
def Record.rank (r : Record) : UInt64 × UInt64 := (r.value, r.globalIndex)

/-- Records of equal rank may change places in the spending order, the ranks may not. -/
theorem ranks_spendingOrder_eq_of_perm {token : TokenId} {records records' : List Record}
    (h : (records.filter fun r => r.token = token).Perm
      (records'.filter fun r => r.token = token)) :
    (spendingOrder token records).map Record.rank =
      (spendingOrder token records').map Record.rank := by
  have hsorted : ∀ records, ((spendingOrder token records).map Record.rank).Pairwise
      fun a b => b.1 < a.1 ∨ a.1 = b.1 ∧ a.2 ≤ b.2 := fun records =>
    List.pairwise_map.mpr (inSpendingOrder_spendingOrder token records)
  refine List.Perm.eq_of_pairwise ?_ (hsorted records) (hsorted records') ?_
  · rintro ⟨v, i⟩ ⟨w, j⟩ - - hab hba
    simp only [UInt64.lt_iff_toNat_lt, UInt64.le_iff_toNat_le, ← UInt64.toNat_inj] at hab hba
    refine Prod.ext (UInt64.toNat_inj.mp ?_) (UInt64.toNat_inj.mp ?_)
    · change v.toNat = w.toNat
      omega
    · change i.toNat = j.toNat
      omega
  · exact ((spendingOrder_perm token records).trans
      (h.trans (spendingOrder_perm token records').symm)).map _

/-- The ranks of records in one order tell their values. -/
theorem Record.values_eq_of_ranks {records records' : List Record}
    (h : records.map Record.rank = records'.map Record.rank) :
    Record.values records = Record.values records' := by
  have hvalues := congrArg (List.map Prod.fst) h
  simpa [Record.values, Record.rank, Function.comp_def] using hvalues

theorem Record.globalIndices_eq_of_ranks {records records' : List Record}
    (h : records.map Record.rank = records'.map Record.rank) :
    records.map Record.globalIndex = records'.map Record.globalIndex := by
  have hindices := congrArg (List.map Prod.snd) h
  simpa [Record.rank, Function.comp_def] using hindices

/-- What is printed of a consolidation. -/
def ReadyMerge.listed (step : ReadyMerge) : List UInt64 × UInt64 × UInt64 :=
  (step.inputs.map Record.globalIndex, step.fee, step.output)

/-- What is printed of a sweep. -/
def Sweep.listed (selection : Sweep) : List UInt64 × UInt64 × UInt64 :=
  (selection.inputs.map Record.globalIndex, selection.fee, selection.amount)

section Ranks

variable {ordered ordered' : List Record}
  (h : ordered.map Record.rank = ordered'.map Record.rank)

include h

theorem Origin.index_record?_eq (origin : Origin) :
    (origin.record? ordered).map Record.globalIndex =
      (origin.record? ordered').map Record.globalIndex := by
  cases origin with
  | merged step => rfl
  | record place =>
      change ordered[place]?.map Record.globalIndex = ordered'[place]?.map Record.globalIndex
      rw [← List.getElem?_map, ← List.getElem?_map, Record.globalIndices_eq_of_ranks h]

theorem Origin.indices_mapM_eq (origins : List Origin) :
    (origins.mapM (Origin.record? ordered)).map (List.map Record.globalIndex) =
      (origins.mapM (Origin.record? ordered')).map (List.map Record.globalIndex) := by
  induction origins with
  | nil => rfl
  | cons origin origins ih =>
      have hindex := Origin.index_record?_eq h origin
      rw [List.mapM_cons, List.mapM_cons]
      cases hrecord : origin.record? ordered <;> cases hrecord' : origin.record? ordered' <;>
        cases hrecords : origins.mapM (Origin.record? ordered) <;>
          cases hrecords' : origins.mapM (Origin.record? ordered') <;>
            simp_all

theorem Merge.listed_step?_eq (m : Merge) :
    (m.step? ordered).map ReadyMerge.listed = (m.step? ordered').map ReadyMerge.listed := by
  have hindices := Origin.indices_mapM_eq h m.origins
  rw [Merge.step?, Merge.step?]
  cases hrecords : m.origins.mapM (Origin.record? ordered) <;>
    cases hrecords' : m.origins.mapM (Origin.record? ordered') <;>
      simp_all [ReadyMerge.listed]

end Ranks

namespace Selector

section Listed

variable {token : TokenId} {records records' : List Record}
  (h : (spendingOrder token records).map Record.rank =
    (spendingOrder token records').map Record.rank)

include h

theorem listed_defragment_eq (s : Selector) (rule : FeeRule) (v : UInt64) :
    (s.defragment ⟨v, token⟩ rule records).map (List.map ReadyMerge.listed) =
      (s.defragment ⟨v, token⟩ rule records').map (List.map ReadyMerge.listed) := by
  have hsteps : ∀ merges : List Merge,
      (merges.filterMap (Merge.step? (spendingOrder token records))).map ReadyMerge.listed =
        (merges.filterMap (Merge.step? (spendingOrder token records'))).map
          ReadyMerge.listed := by
    intro merges
    rw [List.map_filterMap, List.map_filterMap]
    congr 1
    funext m
    exact m.listed_step?_eq h
  simp only [defragment, Record.values_eq_of_ranks h]
  split
  · rfl
  · split
    · rfl
    · split
      · rfl
      · exact congrArg Except.ok (hsteps _)

theorem listed_sweep_eq (s : Selector) (rule : FeeRule) :
    (s.sweep token rule records).map Sweep.listed =
      (s.sweep token rule records').map Sweep.listed := by
  have hinputs : ((spendingOrder token records).take s.limit).map Record.rank =
      ((spendingOrder token records').take s.limit).map Record.rank := by
    rw [List.map_take, List.map_take, h]
  have hlength := congrArg List.length hinputs
  rw [List.length_map, List.length_map] at hlength
  have hempty : (spendingOrder token records).isEmpty =
      (spendingOrder token records').isEmpty := by
    rw [← List.isEmpty_map (f := Record.rank), h, List.isEmpty_map]
  simp only [sweep, hempty, Record.values_eq_of_ranks hinputs, hlength]
  split
  · rfl
  · split
    · rfl
    · split
      · rfl
      · exact congrArg (fun indices => Except.ok (indices, _))
          (Record.globalIndices_eq_of_ranks hinputs)

end Listed

end Selector

/-! ## Answers -/

namespace CommandLine

theorem Answer.text_defragmentation_eq {steps steps' : List ReadyMerge}
    (h : steps.map ReadyMerge.listed = steps'.map ReadyMerge.listed) :
    (defragmentation steps).text = (defragmentation steps').text := by
  have hlisted : ∀ steps : List ReadyMerge, (defragmentation steps).toJson =
      .array ((steps.map ReadyMerge.listed).map fun listed => .ofFields
        [("fee", Json.encode listed.2.1), ("inputs", Json.encode listed.1),
          ("output_value", Json.encode listed.2.2)]) := by
    intro steps
    rw [List.map_map]
    rfl
  rw [text, text]
  simp only [hlisted, h]

theorem Answer.text_sweep_eq {selection selection' : Sweep}
    (h : selection.listed = selection'.listed) :
    (sweep selection).text = (sweep selection').text := by
  obtain ⟨inputs, fee, amount⟩ := selection
  obtain ⟨inputs', fee', amount'⟩ := selection'
  simp only [Sweep.listed, Prod.mk.injEq] at h
  obtain ⟨hinputs, rfl, rfl⟩ := h
  simp only [text, toJson, globalIndices, hinputs]

/-- What the selector makes of records for a command line, if fees follow a rule. -/
def selected (arguments : Arguments) (s : Selector) (rule : FeeRule) (records : List Record) :
    Except CommandError Answer :=
  match arguments.command with
  | .transferable =>
    ((s.transferable arguments.token rule records).map (.transferable arguments.token)).mapError
      fun error => .failed error.toFailure
  | .fee amount =>
    ((s.estimate ⟨amount, arguments.token⟩ rule records).map .fee).mapError
      fun error => .failed error.toEstimateFailure
  | .defragment amount =>
    ((s.defragment ⟨amount, arguments.token⟩ rule records).map .defragmentation).mapError
      .selection
  | .sweep => ((s.sweep arguments.token rule records).map .sweep).mapError .selection

/-- What is told of the outcomes of selections tells their printed form. -/
theorem map_text_eq {α κ : Type} {outcome outcome' : Except SelectionError α} {told : α → κ}
    {wrap : α → Answer} (h : outcome.map told = outcome'.map told)
    (htold : ∀ {a a'}, told a = told a' → (wrap a).text = (wrap a').text) :
    ((outcome.map wrap).mapError CommandError.selection).map Answer.text =
      ((outcome'.map wrap).mapError CommandError.selection).map Answer.text := by
  cases outcome with
  | error error =>
      cases outcome' with
      | error error' => cases h; rfl
      | ok a' => cases h
  | ok a =>
      cases outcome' with
      | error error' => cases h
      | ok a' => exact congrArg Except.ok (htold (Except.ok.inj h))

/-- What is printed depends on the records of the token alone, and not on their order. -/
theorem text_selected_eq_of_perm (arguments : Arguments) (s : Selector) (rule : FeeRule)
    {records records' : List Record}
    (h : (records.filter fun r => r.token = arguments.token).Perm
      (records'.filter fun r => r.token = arguments.token)) :
    (selected arguments s rule records).map Answer.text =
      (selected arguments s rule records').map Answer.text := by
  have hranks := ranks_spendingOrder_eq_of_perm h
  have hvalues := values_spendingOrder_eq_of_perm h
  rw [selected, selected]
  cases arguments.command with
  | transferable => simp only [s.transferable_eq_of_values rule hvalues]
  | fee amount => simp only [s.estimate_eq_of_values rule amount hvalues]
  | defragment amount =>
      exact map_text_eq (s.listed_defragment_eq hranks rule amount)
        Answer.text_defragmentation_eq
  | sweep => exact map_text_eq (s.listed_sweep_eq hranks rule) Answer.text_sweep_eq

/-! ## The estimator of a command line -/

/-- An empty cache asks for the configured fee, and nothing happens meanwhile. -/
theorem reply_estimatorOf (config : Configuration) (account : Account) (level : FeeLevel)
    (token : TokenId) :
    (estimatorOf config).reply level token (.start account (.empty, ())) =
      .immediate (.ok (feeRule config level token)) := rfl

theorem map_estimateOn {α : Type} {account : Account}
    {activity : Estimating (FeeCache × Unit) α} {reading : SelectionError → Failure}
    {outcome : Except SelectionError α} (wrap : α → Answer)
    (h : (activity.run.run (.start account (.empty, ()))).1 = outcome.mapError reading) :
    (estimateOn account activity).1.map wrap =
      (outcome.map wrap).mapError fun error => .failed (reading error) := by
  change ((activity.run.run (.start account (.empty, ()))).1.mapError CommandError.failed).map
    wrap = _
  rw [h]
  cases outcome <;> rfl

/-- Answering a command on an account is selecting from its records of the token. -/
theorem answerOn_eq_selected (arguments : Arguments) (config : Configuration)
    (account : Account) :
    (answerOn arguments config account).1 =
      selected arguments (.ofLimits config.limits)
        (feeRule config arguments.level arguments.token) (account.ofToken arguments.token) := by
  have hanswer := congrArg FeeReply.answer
    (reply_estimatorOf config account arguments.level arguments.token)
  rw [answerOn, selected]
  cases arguments.command with
  | transferable =>
      exact map_estimateOn _ (congrArg Prod.fst (Estimator.run_transferable_of_ok hanswer))
  | fee amount =>
      by_cases hzero : amount = 0
      · have hrefused : (Selector.ofLimits config.limits).estimate ⟨amount, arguments.token⟩
            (feeRule config arguments.level arguments.token)
            (account.ofToken arguments.token) = .error .zeroAmount := by
          rw [Selector.estimate, Selector.quote, if_pos hzero]
          rfl
        refine map_estimateOn _ ?_
        rw [Estimator.run_estimate_of_zero hzero, hrefused]
        rfl
      · exact map_estimateOn _
          (congrArg Prod.fst (Estimator.run_estimate_of_ok hzero hanswer))
  | defragment amount => rfl
  | sweep => rfl

theorem answer_of_read (arguments : Arguments) {configText : Option (Except FileError String)}
    {recordsText : Except FileError String} {config : Configuration} {records : List Record}
    (hconfig : configurationOf configText = .ok config)
    (hrecords : recordsOf recordsText = .ok records) :
    (answer arguments configText recordsText).1 =
      (answerOn arguments config (.ofRecords records)).1 := by
  rw [answer, hconfig]
  dsimp only
  rw [hrecords]

/-- A configuration that a command line works with can be worked with. -/
theorem usable_of_configurationOf {configText : Option (Except FileError String)}
    {config : Configuration} (h : configurationOf configText = .ok config) : config.Usable := by
  cases configText with
  | none =>
      cases h
      exact Configuration.validate_eq_ok_iff.mp rfl
  | some text =>
      cases text with
      | error error => cases h
      | ok text =>
          refine @Configuration.usable_of_ofJson text _ ?_
          rw [configurationOf, Configuration.ofFile] at h
          cases hread : Configuration.ofJson text with
          | error error =>
              rw [hread] at h
              cases h
          | ok read =>
              rw [hread] at h
              cases h
              rfl

/-- A command line prints what the selector makes of the records of the file, those whose key
image has occurred before left out, under the configured or built-in minimum fee at the level
that is asked for; and it fails where the selector does.  Fees for nothing are refused before
the fee is fetched.  The records that count may be listed in any order. -/
theorem answer_prints_selected (arguments : Arguments)
    {configText : Option (Except FileError String)} {recordsText : Except FileError String}
    {config : Configuration} {records : List Record}
    (hconfig : configurationOf configText = .ok config)
    (hrecords : recordsOf recordsText = .ok records) :
    let firsts := Record.firsts records
    let s := Selector.ofLimits config.limits
    let minimum := (config.minimumFee? arguments.token).getD (builtInMinimumFee arguments.token)
    let answered := answer arguments configText recordsText
    s.limit = config.limits.maxInputs ∧
      answered.1.map Answer.text =
        (selected arguments s (.fixed (arguments.level.apply minimum)) firsts).map Answer.text ∧
      (arguments.command = .fee 0 → ∀ scene,
        let refused : Failure := .invalidInput "amount must be positive"
        answered.1 = .error (.failed refused) ∧
          ((estimatorOf config).estimate ⟨0, arguments.token⟩ arguments.level).run.run scene =
            (.error refused, scene)) ∧
      ∀ recordsText' records', recordsOf recordsText' = .ok records' → records'.Perm firsts →
        (answer arguments configText recordsText').1 = answered.1 := by
  intro firsts s minimum answered
  have husable := usable_of_configurationOf hconfig
  have hanswered := (answer_of_read arguments hconfig hrecords).trans
    (answerOn_eq_selected arguments config (.ofRecords records))
  have hrule : feeRule config arguments.level arguments.token =
      .fixed (arguments.level.apply minimum) := by
    rw [feeRule, husable.servedMinimumFee_eq]
  have hperm : (((Account.ofRecords records).ofToken arguments.token).filter
      fun r => r.token = arguments.token).Perm
        (firsts.filter fun r => r.token = arguments.token) := by
    rw [Account.ofToken, List.filter_filter]
    simpa using (Account.ofRecords_perm_firsts records).filter
      (fun r => r.token = arguments.token)
  refine ⟨max_eq_right husable.two_le_maxInputs, ?_, ?_, ?_⟩
  · change (answer arguments configText recordsText).1.map Answer.text = _
    rw [hanswered, hrule]
    exact text_selected_eq_of_perm arguments s _ hperm
  · intro hfee scene refused
    refine ⟨?_, Estimator.run_estimate_of_zero rfl⟩
    change (answer arguments configText recordsText).1 = _
    rw [hanswered, selected, hfee]
    rfl
  · intro recordsText' records' hrecords' hlisted
    change _ = (answer arguments configText recordsText).1
    rw [answer_of_read arguments hconfig hrecords', answer_of_read arguments hconfig hrecords,
      Account.ofRecords_eq_of_perm hlisted]

/-- Of four records one has the key image of another.  The two that come last in spending order
are merged first, in whatever order the three are listed. -/
theorem answer_prints_selected_three_tens :
    let arguments : Arguments := ⟨.defragment 25, some "config", "records", .mob, .minimum, false⟩
    let config : Configuration := ⟨.testnet, some 2, 30, [⟨.mob, 2⟩]⟩
    let configText := some (.ok (Json.writeAs config))
    let older : Record := .numbered 10 0 .mob 0
    let middle : Record := .numbered 10 1 .mob 0
    let younger : Record := .numbered 10 2 .mob 0
    let records := [middle, older, .numbered 7 1 .mob 0, younger]
    let records' := [younger, older, middle]
    configurationOf configText = .ok config ∧
      recordsOf (.ok (Json.writeAs records)) = .ok records ∧
      (answer arguments configText (.ok (Json.writeAs records))).1.map Answer.text =
        .ok (Answer.text (.defragmentation [⟨[middle, younger], 2, 18⟩])) ∧
      recordsOf (.ok (Json.writeAs records')) = .ok records' ∧
      records'.Perm (Record.firsts records) ∧
      (answer arguments configText (.ok (Json.writeAs records'))).1 =
        (answer arguments configText (.ok (Json.writeAs records))).1 := by
  intro arguments config configText older middle younger records records'
  have hread : ∀ records, recordsOf (.ok (Json.writeAs records)) = .ok records := by
    intro records
    have hlist : Record.listOfJson? (Json.writeAs records) = some records :=
      Json.readAs?_writeAs records
    simp only [recordsOf, hlist]
  have hconfig : configurationOf configText = .ok config := by
    have hvalid : config.validate = .ok () := by rfl
    simp only [configurationOf, configText, Configuration.ofFile,
      Configuration.ofJson_writeAs hvalid]
    rfl
  have hfirsts : Record.firsts records = [middle, older, younger] := by rfl
  have hperm : records'.Perm (Record.firsts records) := by
    rw [hfirsts]
    decide
  obtain ⟨-, hprinted, -, hlisted⟩ :=
    answer_prints_selected arguments hconfig (hread records)
  refine ⟨hconfig, hread records, hprinted.trans ?_, hread records', hperm,
    hlisted _ _ (hread records') hperm⟩
  rw [hfirsts]
  have hselected : selected arguments (.ofLimits config.limits) (.fixed 2)
      [middle, older, younger] = .ok (.defragmentation [⟨[middle, younger], 2, 18⟩]) := by cbv
  exact congrArg (Except.map Answer.text) hselected

end CommandLine
end SpendPlanner
