import SpendPlanner.Proofs.CheckedSum
import SpendPlanner.Proofs.Signing.History

/-!
# Well-formed compositions

The checks of a composition pass exactly when it is worth what it spends and keeps to the
limits, the account and the fog reports.  A session is opened for those compositions and
for no others.
-/

namespace SpendPlanner

/-! ## Single checks -/

theorem check_bind_eq_ok_iff {ε α : Type} {check : Except ε Unit}
    {next : Unit → Except ε α} {a : α} :
    (check >>= next) = .ok a ↔ check = .ok () ∧ next () = .ok a := by
  cases check <;> simp [bind, Except.bind]

theorem refuse_if_bind_eq_ok_iff {ε α : Type} {p : Prop} [Decidable p] {refusal : ε}
    {next : Unit → Except ε α} {a : α} :
    (if p then .error refusal >>= next else next ()) = .ok a ↔ ¬p ∧ next () = .ok a := by
  split <;> simp_all [bind, Except.bind]

theorem check_bind_eq_error_iff {ε α : Type} {check : Except ε Unit}
    {next : Unit → Except ε α} {e : ε} :
    (check >>= next) = .error e ↔ check = .error e ∨ check = .ok () ∧ next () = .error e := by
  cases check <;> simp [bind, Except.bind]

theorem refuse_if_bind_eq_error_iff {ε α : Type} {p : Prop} [Decidable p] {refusal e : ε}
    {next : Unit → Except ε α} :
    (if p then .error refusal >>= next else next ()) = .error e ↔
      p ∧ refusal = e ∨ ¬p ∧ next () = .error e := by
  split <;> simp_all [bind, Except.bind]

theorem checkEach_eq_ok_iff {α : Type} {check : α → Except Refusal Unit} {items : List α} :
    checkEach check items = .ok () ↔ ∀ a ∈ items, check a = .ok () := by
  induction items with
  | nil => simp [checkEach]
  | cons a items ih =>
      rw [List.forall_mem_cons, ← ih, checkEach]
      cases check a <;> simp

theorem exists_of_checkEach {α : Type} {check : α → Except Refusal Unit} {items : List α}
    {refusal : Refusal} (h : checkEach check items = .error refusal) :
    ∃ a ∈ items, check a = .error refusal := by
  induction items with
  | nil => cases h
  | cons a items ih =>
      rw [checkEach] at h
      split at h
      · obtain ⟨b, hb, hrefused⟩ := ih h
        exact ⟨b, List.mem_cons_of_mem _ hb, hrefused⟩
      · next hrefused =>
        cases h
        exact ⟨a, List.mem_cons_self, hrefused⟩

/-- What an input has to bring along to be spent. -/
structure PreparedInput.Spendable (input : PreparedInput) (token : TokenId)
    (account : AccountKey) : Prop where
  token_eq : input.record.token = token
  ring_ne_nil : input.ring ≠ []
  realIndex_lt : input.realIndex < input.ring.length
  key : ∃ key, account.subaddressKey? input.record.subaddress = some key

theorem exists_spendKeyFor_iff {input : PreparedInput} {token : TokenId}
    {account : AccountKey} :
    (∃ key, spendKeyFor input token account = .ok key) ↔ input.Spendable token account := by
  rw [spendKeyFor]
  constructor
  · rintro ⟨key, hkey⟩
    split at hkey
    · cases hkey
    next htoken =>
    split at hkey
    · cases hkey
    next hring =>
    split at hkey
    · cases hkey
    next hindex =>
    split at hkey
    · next found hfound =>
      exact ⟨not_not.mp htoken, mt List.isEmpty_iff.mpr hring, not_le.mp hindex,
        found, hfound⟩
    · cases hkey
  · rintro ⟨htoken, hring, hindex, key, hkey⟩
    exact ⟨key, by simp [htoken, hring, not_le.mpr hindex, hkey]⟩

theorem checkFog_eq_ok_iff {limits : ProtocolLimits} {fog : FogReports}
    {recipient : Address} :
    checkFog limits fog recipient = .ok () ↔
      ∀ info, recipient.fog = some info →
        limits.network.servesFog = true ∧ ∃ report, fog.find? info.reportUrl = some report := by
  rw [checkFog]
  cases recipient.fog with
  | none => simp
  | some info =>
      cases limits.network.servesFog <;>
        simp [Option.isNone_iff_eq_none, Option.ne_none_iff_exists']

theorem checkToken_eq_ok_iff {version : BlockVersion} {token : TokenId} :
    checkToken version token = .ok () ↔
      token = .mob ∨ version.supportsMultipleTokens = true := by
  simp [checkToken, BlockVersion.supports, or_iff_not_imp_left]

/-! ## All checks together -/

namespace Composition

/-- A composition that is worth exactly what it spends, and that the limits, the account
and the fog reports admit. -/
structure WellFormed (c : Composition) (limits : ProtocolLimits) (terms : ProposalTerms) :
    Prop where
  /-- The balance is of exact sums, whether or not they are words. -/
  balanced : (c.inputs.map fun input => input.record.value.toNat).sum =
    (c.outputs.map fun output => output.amount.value.toNat).sum +
      terms.fee.value.toNat + (c.change.getD 0).toNat
  paying : c.outputs ≠ []
  inputs_le : c.inputs.length ≤ limits.maxInputs
  outputs_le :
    c.outputs.length + (if c.change.isSome then 1 else 0) ≤ limits.maxOutputs
  token : terms.fee.token = .mob ∨ terms.blockVersion.supportsMultipleTokens = true
  ring_le : ∀ input ∈ c.inputs, input.ring.length ≤ limits.ringSize
  spendable : ∀ input ∈ c.inputs, input.Spendable terms.fee.token terms.account
  fog : ∀ output ∈ c.outputs, ∀ info, output.recipient.fog = some info →
    limits.network.servesFog = true ∧
      ∃ report, terms.fog.find? info.reportUrl = some report

variable {c : Composition} {limits : ProtocolLimits} {terms : ProposalTerms}

theorem balances_iff :
    Comparison.equal.holds (inputValues c.inputs) (c.spent terms.fee.value) = true ↔
      (c.inputs.map fun input => input.record.value.toNat).sum =
        (c.outputs.map fun output => output.amount.value.toNat).sum +
          terms.fee.value.toNat + (c.change.getD 0).toNat := by
  have hinputs : total (inputValues c.inputs) =
      (c.inputs.map fun input => input.record.value.toNat).sum := total_map _ _
  have hpayments : total (requestedAmounts c.outputs) =
      (c.outputs.map fun output => output.amount.value.toNat).sum := total_map _ _
  have hchange : total c.change.toList = (c.change.getD 0).toNat := by
    cases c.change <;> simp
  simp [Comparison.holds, spent, hinputs, hpayments, hchange, Nat.add_assoc]

theorem WellFormed.total_eq (h : c.WellFormed limits terms) :
    total (inputValues c.inputs) =
      total (requestedAmounts c.outputs) + terms.fee.value.toNat + (c.change.getD 0).toNat := by
  have hinputs : total (inputValues c.inputs) = _ := total_map _ _
  have hpayments : total (requestedAmounts c.outputs) = _ := total_map _ _
  rw [hinputs, hpayments, h.balanced]

theorem checkLimits_eq_ok_iff :
    c.checkLimits limits terms = .ok () ↔
      c.inputs.length ≤ limits.maxInputs ∧
      c.outputs.length + (if c.change.isSome then 1 else 0) ≤ limits.maxOutputs ∧
      (terms.fee.token = .mob ∨ terms.blockVersion.supportsMultipleTokens = true) ∧
      ∀ input ∈ c.inputs, input.ring.length ≤ limits.ringSize := by
  have hcount : c.outputCount =
      c.outputs.length + (if c.change.isSome then 1 else 0) := by
    cases hchange : c.change <;> simp [outputCount, hchange]
  have hrings : checkEach (fun input : PreparedInput =>
      if limits.ringSize < input.ring.length then
        .error (.ringTooLarge input.ring.length limits.ringSize)
      else .ok ()) c.inputs = .ok () ↔
      ∀ input ∈ c.inputs, input.ring.length ≤ limits.ringSize := by
    rw [checkEach_eq_ok_iff]
    simp
  rw [← hrings, ← checkToken_eq_ok_iff, ← hcount, checkLimits]
  simp only [refuse_if_bind_eq_ok_iff, check_bind_eq_ok_iff, not_lt]

theorem check_eq_ok_iff : c.check limits terms = .ok () ↔ c.WellFormed limits terms := by
  have hspendable : checkEach (fun input =>
      (spendKeyFor input terms.fee.token terms.account).map fun _ => ()) c.inputs = .ok () ↔
      ∀ input ∈ c.inputs, input.Spendable terms.fee.token terms.account := by
    rw [checkEach_eq_ok_iff]
    refine forall₂_congr fun input _ => ?_
    rw [← exists_spendKeyFor_iff]
    cases spendKeyFor input terms.fee.token terms.account <;> simp [Except.map]
  have hfog : checkEach (fun output : PaymentRequest =>
      checkFog limits terms.fog output.recipient) c.outputs = .ok () ↔
      ∀ output ∈ c.outputs, ∀ info, output.recipient.fog = some info →
        limits.network.servesFog = true ∧
          ∃ report, terms.fog.find? info.reportUrl = some report := by
    rw [checkEach_eq_ok_iff]
    exact forall₂_congr fun output _ => checkFog_eq_ok_iff
  have hpaying : ¬c.outputs.isEmpty = true ↔ c.outputs ≠ [] := by
    rw [List.isEmpty_iff]
  simp only [check, refuse_if_bind_eq_ok_iff, check_bind_eq_ok_iff, Bool.not_eq_true',
    Bool.not_eq_false, balances_iff, hpaying, checkLimits_eq_ok_iff, hfog, hspendable]
  constructor
  · rintro ⟨hbalance, hpays, ⟨hinputs, houtputs, htoken, hrings⟩, hreports, hspends⟩
    exact ⟨hbalance, hpays, hinputs, houtputs, htoken, hrings, hspends, hreports⟩
  · intro h
    exact ⟨h.balanced, h.paying, ⟨h.inputs_le, h.outputs_le, h.token, h.ring_le⟩, h.fog,
      h.spendable⟩

end Composition

/-! ## Sessions -/

namespace Proposer

open Signing

variable {σ : Type} {p : Proposer σ} {c : Composition} {terms : ProposalTerms}

theorem build_of_not_wellFormed (h : ¬c.WellFormed p.limits terms) (x : Exchange σ) :
    ∃ reason, (p.build c terms).run.run x = (.error (.failed (.invalidInput reason)), x) := by
  rw [← Composition.check_eq_ok_iff] at h
  rw [build, Activity.run_bind]
  cases hcheck : c.check p.limits terms with
  | ok _ => exact absurd hcheck h
  | error refusal => exact ⟨refusal.reason, rfl⟩

theorem opened_isPrefix_build (h : c.WellFormed p.limits terms) (x : Exchange σ) :
    x.events ++ [.opened terms.session] <+: ((p.build c terms).run.run x).2.events := by
  rw [← Composition.check_eq_ok_iff] at h
  let logged : Exchange σ := { x with log := x.log ++ [buildingLine c terms] }
  have hrun : (p.build c terms).run.run x =
      (inSession p.backend terms.session (p.drive c terms) >>= fun built => do
        write ⟨.info, ["Built transaction ", built.transaction.id.text]⟩
        return built).run.run logged := by
    rw [build, h]
    rfl
  have hclosing : ∀ built : BuiltTransaction, Appends ((do
      write ⟨.info, ["Built transaction ", built.transaction.id.text]⟩
      return built) : Signing σ BuiltTransaction) := fun built =>
    (appends_write _).bind fun _ => appends_pure built
  rw [hrun]
  exact ((p.appends_drive c terms).opened_isPrefix_inSession p.backend terms.session
    logged).trans (Appends.isPrefix_bind hclosing logged)

/-- A session is opened exactly for the well-formed compositions.  Any other composition is
refused as invalid input with nothing passed to the backend and nothing written to the
log. -/
theorem build_opens_iff_wellFormed (p : Proposer σ) (c : Composition) (terms : ProposalTerms)
    (x : Exchange σ) :
    (x.events ++ [.opened terms.session] <+: ((p.build c terms).run.run x).2.events ↔
      c.WellFormed p.limits terms) ∧
    (¬c.WellFormed p.limits terms →
      ∃ reason,
        (p.build c terms).run.run x = (.error (.failed (.invalidInput reason)), x)) := by
  refine ⟨⟨fun hopened => ?_, fun h => opened_isPrefix_build h x⟩,
    fun h => build_of_not_wellFormed h x⟩
  by_contra h
  obtain ⟨reason, hrun⟩ := build_of_not_wellFormed h x
  have hlength := hopened.length_le
  rw [hrun] at hlength
  simp at hlength

end Proposer
end SpendPlanner
