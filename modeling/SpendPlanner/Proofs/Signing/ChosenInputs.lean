import SpendPlanner.Proofs.Selection.Listings
import SpendPlanner.Proofs.Signing.Protocol
import SpendPlanner.Signing.Rehearsal

/-!
# Building from chosen inputs

The selector and the proposer work out fees, change and sizes independently of each other.
What the selector chooses under the limits of a network is nevertheless always worth exactly
what is paid, the fee and the change, and within these limits.  So once the chosen records have
been wrapped in rings the proposer does not refuse them: it opens a session and asks the
backend for the amounts that the selector has reckoned with.
-/

namespace SpendPlanner

/-! ## What a backend is asked for -/

namespace Call

/-- The amount that a call asks to be paid. -/
def payment? : Call → Option UInt64
  | addOutput _ amount => some amount
  | _ => none

/-- The amount that a call asks to be returned to the account. -/
def change? : Call → Option UInt64
  | addChange _ amount => some amount
  | _ => none

theorem amounts_of_addInput {call : Call} (h : call.operation = .addInput) :
    call.payment? = none ∧ call.change? = none := by
  cases call with
  | addInput viewKey spendKey realIndex ring => exact ⟨rfl, rfl⟩
  | addOutput recipient amount => cases h
  | addChange account amount => cases h
  | finalize => cases h

end Call

/-- The script of a composition asks for its amounts in their order and for its change. -/
theorem Composition.amounts_of_script? {c : Composition} {account : AccountKey}
    {script : List Call} (h : c.script? account = some script) :
    script.filterMap Call.payment? = requestedAmounts c.outputs ∧
      script.filterMap Call.change? = c.change.toList := by
  obtain ⟨inputs, hinputs, rfl⟩ := Option.map_eq_some_iff.mp h
  have hspent : ∀ call ∈ inputs, call.payment? = none ∧ call.change? = none := by
    intro call hcall
    exact Call.amounts_of_addInput (PreparedInput.operation_of_mapM hinputs call hcall)
  have hpayments : inputs.filterMap Call.payment? = [] :=
    List.filterMap_eq_nil_iff.mpr fun call hcall => (hspent call hcall).1
  have hchanges : inputs.filterMap Call.change? = [] :=
    List.filterMap_eq_nil_iff.mpr fun call hcall => (hspent call hcall).2
  have hasked : (c.outputs.map PaymentRequest.call).filterMap Call.payment? =
      requestedAmounts c.outputs := by
    rw [List.filterMap_map, requestedAmounts, ← List.filterMap_eq_map]
    rfl
  have hnone : (c.outputs.map PaymentRequest.call).filterMap Call.change? = [] := by
    rw [List.filterMap_map, List.filterMap_eq_nil_iff]
    exact fun output _ => rfl
  simp only [List.filterMap_append, hpayments, hchanges, hasked, hnone, List.nil_append]
  cases c.change with
  | none => exact ⟨List.append_nil _, rfl⟩
  | some amount => exact ⟨List.append_nil _, rfl⟩

namespace Proposer

open Signing

variable {σ α : Type} {p : Proposer σ} {terms : ProposalTerms}

/-- A composition is carried out in a session of its own.  After a call for each input the
backend is asked for the amounts and the change of the composition, and the transaction that
comes of the activity is made of what it answers. -/
def CarriesOut (p : Proposer σ) (terms : ProposalTerms) (c : Composition)
    (activity : Signing σ α) (built : α → BuiltTransaction) : Prop :=
  ∃ script, c.script? terms.account = some script ∧
    script.filterMap Call.payment? = requestedAmounts c.outputs ∧
    script.filterMap Call.change? = c.change.toList ∧
    HoldsSession p.backend terms.session script activity fun answers a =>
      (built a).MadeOf c terms.session answers

/-- The change that balances is the one that is worked out. -/
theorem carriesOut_toOutputs {inputs : List PreparedInput} {outputs : List PaymentRequest}
    {change : UInt64}
    (h : (⟨inputs, outputs, some change⟩ : Composition).WellFormed p.limits terms) :
    p.CarriesOut terms ⟨inputs, outputs, some change⟩ (p.toOutputs inputs outputs terms) id := by
  obtain ⟨script, hscript⟩ := h.exists_script
  obtain ⟨hpayments, hchange⟩ := Composition.amounts_of_script? hscript
  refine ⟨script, hscript, hpayments, hchange, ?_⟩
  rw [toOutputs, changeOf_of_wellFormed h, accept, pure_bind]
  exact holdsSession_build h hscript

/-- The single payment that balances is the one that is worked out. -/
theorem carriesOut_sendingAllTo {inputs : List PreparedInput} {recipient : Address}
    {amount : PositiveWord}
    (h : (⟨inputs, [⟨recipient, amount⟩], none⟩ : Composition).WellFormed p.limits terms) :
    p.CarriesOut terms ⟨inputs, [⟨recipient, amount⟩], none⟩
      (p.sendingAllTo inputs recipient terms) SinglePayment.built := by
  obtain ⟨script, hscript⟩ := h.exists_script
  obtain ⟨hpayments, hchange⟩ := Composition.amounts_of_script? hscript
  refine ⟨script, hscript, hpayments, hchange, ?_⟩
  rw [sendingAllTo, remainderOf_of_wellFormed h, accept, pure_bind]
  exact holdsSession_single (holdsSession_build h hscript)

end Proposer

/-- The same terms with another fee. -/
def ProposalTerms.withFee (terms : ProposalTerms) (fee : Amount) : ProposalTerms :=
  { terms with fee := fee }

/-! ## Wrapping records in rings -/

/-- Records are wrapped in rings of the size that the limits admit, each at its place in the
ring, and the account has the keys that spend them. -/
structure Prepares (limits : ProtocolLimits) (account : AccountKey) (records : List Record)
    (inputs : List PreparedInput) : Prop where
  records_eq : inputs.map PreparedInput.record = records
  one_le_ring : ∀ input ∈ inputs, 1 ≤ input.ring.length
  ring_le : ∀ input ∈ inputs, input.ring.length ≤ limits.ringSize
  realIndex_lt : ∀ input ∈ inputs, input.realIndex < input.ring.length
  key : ∀ r ∈ records, ∃ key, account.subaddressKey? r.subaddress = some key

namespace Prepares

variable {limits : ProtocolLimits} {account : AccountKey} {records : List Record}
  {inputs : List PreparedInput}

theorem length_eq (h : Prepares limits account records inputs) :
    inputs.length = records.length := by
  rw [← h.records_eq, List.length_map]

theorem inputValues_eq (h : Prepares limits account records inputs) :
    inputValues inputs = Record.values records := by
  rw [← h.records_eq, Record.values, List.map_map]
  rfl

theorem spendable (h : Prepares limits account records inputs) {token : TokenId}
    (htoken : ∀ r ∈ records, r.token = token) :
    ∀ input ∈ inputs, input.Spendable token account := by
  intro input hinput
  have hrecord : input.record ∈ records := by
    rw [← h.records_eq]
    exact List.mem_map_of_mem hinput
  exact ⟨htoken _ hrecord, List.length_pos_iff.mp (h.one_le_ring input hinput),
    h.realIndex_lt input hinput, h.key _ hrecord⟩

/-- Wrapped records that are worth exactly what is paid, the fee and the change are accepted. -/
theorem wellFormed {terms : ProposalTerms} {outputs : List PaymentRequest}
    {change : Option UInt64} (h : Prepares limits terms.account records inputs)
    (htoken : ∀ r ∈ records, r.token = terms.fee.token)
    (hcount : records.length ≤ limits.maxInputs)
    (hbalance : total (Record.values records) =
      total (requestedAmounts outputs) + terms.fee.value.toNat + (change.getD 0).toNat)
    (hpaying : outputs ≠ [])
    (houtputs : outputs.length + (if change.isSome then 1 else 0) ≤ limits.maxOutputs)
    (hsupported : terms.blockVersion.supports terms.fee.token = true)
    (hfog : ∀ output ∈ outputs, checkFog limits terms.fog output.recipient = .ok ()) :
    (⟨inputs, outputs, change⟩ : Composition).WellFormed limits terms where
  balanced := by
    have hpayments : total (requestedAmounts outputs) = _ := total_map _ _
    have hinputs : total (inputValues inputs) = _ := total_map _ _
    rw [← hinputs, ← hpayments, h.inputValues_eq, hbalance]
  paying := hpaying
  inputs_le := h.length_eq ▸ hcount
  outputs_le := houtputs
  token := checkToken_eq_ok_iff.mp (by rw [checkToken, if_pos hsupported])
  ring_le := h.ring_le
  spendable := h.spendable htoken
  fog output houtput := checkFog_eq_ok_iff.mp (hfog output houtput)

end Prepares

/-! ## Chosen records -/

theorem token_of_mem_spendingOrder {token : TokenId} {records : List Record} {r : Record}
    (h : r ∈ spendingOrder token records) : r.token = token := by
  have hmem := (spendingOrder_perm token records).mem_iff.mp h
  simpa using (List.mem_filter.mp hmem).2

namespace Proposer

variable {σ : Type} {p : Proposer σ} {rule : FeeRule} {token : TokenId} {records : List Record}
  {terms : ProposalTerms} (hinputs : 2 ≤ p.limits.maxInputs)
  (hsupported : terms.blockVersion.supports token = true)

include hinputs hsupported

/-- A payment is built from the inputs that were chosen for it, with the change that was
reckoned with. -/
theorem carriesOut_of_selectPaying {amounts : List UInt64} {selection : InputSelection}
    (h : (Selector.ofLimits p.limits).selectPaying token amounts rule records = .ok selection)
    (houtputs : amounts.length + 1 ≤ p.limits.maxOutputs) {inputs : List PreparedInput}
    (hprepares : Prepares p.limits terms.account selection.inputs inputs)
    {outputs : List PaymentRequest} (hamounts : requestedAmounts outputs = amounts)
    (hfog : ∀ output ∈ outputs, checkFog p.limits terms.fog output.recipient = .ok ()) :
    let terms := terms.withFee ⟨selection.fee, token⟩
    p.CarriesOut terms ⟨inputs, outputs, some selection.change⟩
      (p.toOutputs inputs outputs terms) id := by
  obtain ⟨hne, -, outlay, k, houtlay, -, hchosen, -, htotal, hbalance⟩ :=
    Selector.selectPaying_eq_ok_iff.mp h
  have hlength : outputs.length = amounts.length := by
    rw [← hamounts, requestedAmounts, List.length_map]
  apply carriesOut_toOutputs
  refine Prepares.wellFormed hprepares ?_ ?_ ?_ ?_ ?_ hsupported hfog
  · intro r hr
    rw [hchosen] at hr
    exact token_of_mem_spendingOrder (List.mem_of_mem_take hr)
  · exact (Selector.length_le_of_selectPaying h).trans (max_eq_right hinputs).le
  · simp only [hamounts, ProposalTerms.withFee, Option.getD_some]
    omega
  · rintro rfl
    exact hne hamounts.symm
  · rw [Option.isSome_some, if_pos rfl]
    omega

/-- Records that are worth an amount and the fee are sent to one recipient. -/
theorem carriesOut_of_gathered {chosen : List Record} {fee amount : UInt64}
    (htoken : ∀ r ∈ chosen, r.token = token)
    (hcount : chosen.length ≤ (Selector.ofLimits p.limits).limit)
    (hbalance : total (Record.values chosen) = amount.toNat + fee.toNat) (hpositive : 0 < amount)
    (houtputs : 1 ≤ p.limits.maxOutputs) {inputs : List PreparedInput}
    (hprepares : Prepares p.limits terms.account chosen inputs) {recipient : Address}
    (hfog : checkFog p.limits terms.fog recipient = .ok ()) :
    let terms := terms.withFee ⟨fee, token⟩
    ∃ paid : PositiveWord, paid.value = amount ∧
      p.CarriesOut terms ⟨inputs, [⟨recipient, paid⟩], none⟩
        (p.sendingAllTo inputs recipient terms) SinglePayment.built := by
  refine ⟨⟨amount, UInt64.pos_iff_ne_zero.mp hpositive⟩, rfl, carriesOut_sendingAllTo ?_⟩
  refine Prepares.wellFormed hprepares htoken ?_ ?_ ?_ ?_ hsupported ?_
  · exact hcount.trans (max_eq_right hinputs).le
  · rw [hbalance]
    simp [requestedAmounts, ProposalTerms.withFee]
  · exact List.cons_ne_nil _ _
  · simpa using houtputs
  · intro output houtput
    obtain rfl := List.mem_singleton.mp houtput
    exact hfog

omit hinputs hsupported in
/-- What a step that can be carried out now consists of. -/
theorem balanced_of_mem_defragment {s : Selector} {amount : Amount} {steps : List ReadyMerge}
    (h : s.defragment amount rule records = .ok steps) {step : ReadyMerge}
    (hstep : step ∈ steps) :
    (∀ r ∈ step.inputs, r.token = amount.token) ∧
      step.inputs.length ≤ s.limit ∧
      total (Record.values step.inputs) = step.output.toNat + step.fee.toNat ∧
      0 < step.output := by
  have hspends := Selector.spends_of_defragment h
  have hsettled := List.mem_map_of_mem (f := ReadyMerge.settlement) hstep
  obtain ⟨-, hbalance, hpositive⟩ := Selector.balance_of_mem_defragment h hstep
  refine ⟨?_, hspends.length_le _ hsettled, by omega, hpositive⟩
  intro r hr
  have hmem : r ∈ (steps.map ReadyMerge.settlement).flatMap Settlement.inputs :=
    List.mem_flatMap.mpr ⟨_, hsettled, hr⟩
  exact token_of_mem_spendingOrder (Multiset.mem_of_le hspends.inputs_le hmem)

end Proposer

/-- Whatever the selector chooses under the limits of a network the proposer builds under the
same limits, with the fee that was reckoned with.  A payment's inputs are built into a
transaction with the requested amounts and the change of the choice; those of a sweep, and of
every step of a consolidation, into one with a single payment of what was to be left, and no
change. -/
theorem Proposer.carriesOut_chosen {σ : Type} (p : Proposer σ) (hinputs : 2 ≤ p.limits.maxInputs)
    (houtputs : 1 ≤ p.limits.maxOutputs) (rule : FeeRule) (token : TokenId)
    (records : List Record) (terms : ProposalTerms)
    (hsupported : terms.blockVersion.supports token = true) :
    let s := Selector.ofLimits p.limits
    (∀ (amounts : List UInt64) (selection : InputSelection) (inputs : List PreparedInput)
      (outputs : List PaymentRequest),
      s.selectPaying token amounts rule records = .ok selection →
      amounts.length + 1 ≤ p.limits.maxOutputs →
      Prepares p.limits terms.account selection.inputs inputs →
      requestedAmounts outputs = amounts →
      (∀ output ∈ outputs, checkFog p.limits terms.fog output.recipient = .ok ()) →
        let terms := terms.withFee ⟨selection.fee, token⟩
        p.CarriesOut terms ⟨inputs, outputs, some selection.change⟩
          (p.toOutputs inputs outputs terms) id) ∧
    (∀ (swept : Sweep) (inputs : List PreparedInput) (recipient : Address),
      s.sweep token rule records = .ok swept →
      Prepares p.limits terms.account swept.inputs inputs →
      checkFog p.limits terms.fog recipient = .ok () →
        let terms := terms.withFee ⟨swept.fee, token⟩
        ∃ paid : PositiveWord, paid.value = swept.amount ∧
          p.CarriesOut terms ⟨inputs, [⟨recipient, paid⟩], none⟩
            (p.sendingAllTo inputs recipient terms) SinglePayment.built) ∧
    ∀ (v : UInt64) (steps : List ReadyMerge) (step : ReadyMerge) (inputs : List PreparedInput)
      (recipient : Address),
      s.defragment ⟨v, token⟩ rule records = .ok steps → step ∈ steps →
      Prepares p.limits terms.account step.inputs inputs →
      checkFog p.limits terms.fog recipient = .ok () →
        let terms := terms.withFee ⟨step.fee, token⟩
        ∃ paid : PositiveWord, paid.value = step.output ∧
          p.CarriesOut terms ⟨inputs, [⟨recipient, paid⟩], none⟩
            (p.sendingAllTo inputs recipient terms) SinglePayment.built := by
  refine ⟨?_, ?_, ?_⟩
  · intro amounts selection inputs outputs hselected hcount hprepares hamounts hfog
    exact carriesOut_of_selectPaying hinputs hsupported hselected hcount hprepares hamounts hfog
  · intro swept inputs recipient hswept hprepares hfog
    obtain ⟨-, hchosen, -, hpositive, hbalance, -⟩ := Selector.sweep_eq_ok_iff.mp hswept
    refine carriesOut_of_gathered hinputs hsupported ?_ ?_ hbalance hpositive houtputs hprepares
      hfog
    · intro r hr
      rw [hchosen] at hr
      exact token_of_mem_spendingOrder (List.mem_of_mem_take hr)
    · rw [hchosen, List.length_take]
      exact min_le_left _ _
  · intro v steps step inputs recipient hsteps hstep hprepares hfog
    obtain ⟨htoken, hcount, hbalance, hpositive⟩ := balanced_of_mem_defragment hsteps hstep
    exact carriesOut_of_gathered hinputs hsupported htoken hcount hbalance hpositive houtputs
      hprepares hfog

/-- With at most two inputs, two of five records of 10 pay 15 and leave 4, two are swept for 19,
and a payment of 46 starts with merging two for 19. -/
theorem Proposer.carriesOut_chosen_five_tens :
    let limits : ProtocolLimits := { ProtocolLimits.standard with maxInputs := 2 }
    let p : Proposer Rehearsal := ⟨Rehearsal.backend ⟨false, false⟩, limits⟩
    let key : PrivateKey := ⟨⟨List.replicate 32 0, by decide⟩⟩
    let recipient : Address := ⟨⟨key.bytes⟩, ⟨key.bytes⟩, none⟩
    let terms : ProposalTerms := .standard ⟨key, key, [key], none, none⟩ ⟨1, .mob⟩ 100
    let records : List Record := [.numbered 10 0 .mob 0, .numbered 10 1 .mob 0,
      .numbered 10 2 .mob 0, .numbered 10 3 .mob 0, .numbered 10 4 .mob 0]
    let step : ReadyMerge := ⟨records.drop 3, 1, 19⟩
    let wrapped : List Record → List PreparedInput :=
      List.map fun r => ⟨r, [⟨r.txOut, []⟩], 0⟩
    2 ≤ limits.maxInputs ∧ 1 ≤ limits.maxOutputs ∧ terms.blockVersion.supports .mob = true ∧
      Prepares limits terms.account (records.take 2) (wrapped (records.take 2)) ∧
      Prepares limits terms.account step.inputs (wrapped step.inputs) ∧
      checkFog limits terms.fog recipient = .ok () ∧
      (Selector.ofLimits limits).selectPaying .mob [15] (.fixed 1) records =
        .ok ⟨records.take 2, 20, 1, 4⟩ ∧
      p.CarriesOut terms
        ⟨wrapped (records.take 2), [⟨recipient, ⟨15, by decide⟩⟩], some 4⟩
        (p.toOutputs (wrapped (records.take 2)) [⟨recipient, ⟨15, by decide⟩⟩] terms) id ∧
      (Selector.ofLimits limits).sweep .mob (.fixed 1) records = .ok ⟨records.take 2, 1, 19⟩ ∧
      (∃ paid : PositiveWord, paid.value = 19 ∧
        p.CarriesOut terms ⟨wrapped (records.take 2), [⟨recipient, paid⟩], none⟩
          (p.sendingAllTo (wrapped (records.take 2)) recipient terms) SinglePayment.built) ∧
      (Selector.ofLimits limits).defragment ⟨46, .mob⟩ (.fixed 1) records =
        .ok [step, ⟨(records.drop 1).take 2, 1, 19⟩] ∧
      ∃ paid : PositiveWord, paid.value = 19 ∧
        p.CarriesOut terms ⟨wrapped step.inputs, [⟨recipient, paid⟩], none⟩
          (p.sendingAllTo (wrapped step.inputs) recipient terms) SinglePayment.built := by
  intro limits p key recipient terms records step wrapped
  have hprepares : ∀ chosen : List Record, (∀ r ∈ chosen, r.subaddress = 0) →
      Prepares limits terms.account chosen (wrapped chosen) := by
    intro chosen hsubaddress
    constructor
    · simp [wrapped, Function.comp_def]
    · simp [wrapped]
    · simp [wrapped, limits, ProtocolLimits.standard, ProtocolLimits.ofNetwork, standardRingSize]
    · simp [wrapped]
    · intro r hr
      rw [hsubaddress r hr]
      exact ⟨key, rfl⟩
  have hpair := hprepares (records.take 2) (by decide)
  have hstep := hprepares step.inputs (by decide)
  have hselected : (Selector.ofLimits limits).selectPaying .mob [15] (.fixed 1) records =
      .ok ⟨records.take 2, 20, 1, 4⟩ := by cbv
  have hswept : (Selector.ofLimits limits).sweep .mob (.fixed 1) records =
      .ok ⟨records.take 2, 1, 19⟩ := by cbv
  have hready : (Selector.ofLimits limits).defragment ⟨46, .mob⟩ (.fixed 1) records =
      .ok [step, ⟨(records.drop 1).take 2, 1, 19⟩] := by cbv
  obtain ⟨hpayment, hsweep, hmerge⟩ := p.carriesOut_chosen (by decide) (by decide) (.fixed 1) .mob
    records terms (by decide)
  exact ⟨by decide, by decide, by decide, hpair, hstep, rfl, hselected,
    hpayment [15] _ _ _ hselected (by decide) hpair rfl (by simp [checkFog, recipient]), hswept,
    hsweep _ _ recipient hswept hpair rfl, hready,
    hmerge 46 _ step _ recipient hready (by simp) hstep rfl⟩

end SpendPlanner
