import Mathlib
import SpendPlanner.FeeSource
import SpendPlanner.Proofs.Signing.ChosenInputs

/-!
# Usable configurations

A configuration passes its checks exactly where its input limit, the time that fees are kept and
its minimum fees can be worked with.  What reads a configuration that has passed then agrees on
it: the selector keeps the limit that the proposer checks, and the minimum fees that are served
are those that the configuration names, whichever of several entries a reader looks at first.
-/

namespace SpendPlanner

namespace Configuration

/-- A configuration that can be worked with. -/
structure Usable (c : Configuration) : Prop where
  /-- A limit of less than two values would leave consolidations nothing to merge. -/
  limit : ∀ limit, c.maxInputs = some limit →
    2 ≤ limit.toNat ∧ limit.toNat ≤ SpendPlanner.maxInputs
  cacheTime : 0 < c.feeCacheSeconds
  fees_pos : ∀ fee ∈ c.minimumFees, 0 < fee.fee
  tokens_nodup : (c.minimumFees.map MinimumFee.token).Nodup

theorem checkLimit_eq_ok_iff {limit? : Option UInt64} :
    checkLimit limit? = .ok () ↔
      ∀ limit, limit? = some limit → 2 ≤ limit.toNat ∧ limit.toNat ≤ SpendPlanner.maxInputs := by
  cases limit? with
  | none => simp [checkLimit]
  | some limit =>
      rw [checkLimit]
      split
      · next hlow => simp [hlow]
      next hlow =>
      split
      · next hhigh => simp [hhigh]
      · next hhigh =>
        simp [not_lt.mp hlow, not_lt.mp hhigh]

/-- Fee entries pass if they charge something and no token has been seen before. -/
theorem checkFees_eq_ok_iff {seen : List TokenId} {fees : List MinimumFee} :
    checkFees seen fees = .ok () ↔
      (∀ fee ∈ fees, 0 < fee.fee) ∧ (fees.map MinimumFee.token).Nodup ∧
        ∀ fee ∈ fees, fee.token ∉ seen := by
  induction fees generalizing seen with
  | nil => simp [checkFees]
  | cons fee fees ih =>
      rw [checkFees]
      split
      · next hzero => simp [hzero]
      next hzero =>
      split
      · next hseen => simp [hseen]
      next hseen =>
      rw [ih, List.forall_mem_cons, List.forall_mem_cons, List.map_cons, List.nodup_cons]
      have hpositive := UInt64.pos_iff_ne_zero.mpr hzero
      have hdistinct : (∀ later ∈ fees, later.token ∉ fee.token :: seen) ↔
          fee.token ∉ fees.map MinimumFee.token ∧ ∀ later ∈ fees, later.token ∉ seen := by
        simp only [List.mem_cons, not_or, List.mem_map, not_exists, not_and]
        exact forall₂_and
      rw [hdistinct]
      tauto

theorem validate_eq_ok_iff {c : Configuration} : c.validate = .ok () ↔ c.Usable := by
  simp only [validate, check_bind_eq_ok_iff, refuse_if_bind_eq_ok_iff, checkLimit_eq_ok_iff,
    checkFees_eq_ok_iff, List.not_mem_nil, not_false_eq_true, implies_true, and_true]
  constructor
  · rintro ⟨hlimit, htime, hfees, hnodup⟩
    exact ⟨hlimit, UInt64.pos_iff_ne_zero.mpr htime, hfees, hnodup⟩
  · intro h
    exact ⟨h.limit, UInt64.pos_iff_ne_zero.mp h.cacheTime, h.fees_pos, h.tokens_nodup⟩

theorem usable_of_ofJson {text : String} {c : Configuration} (h : ofJson text = .ok c) :
    c.Usable := by
  rw [ofJson] at h
  split at h
  · cases h
  · split at h
    · next hvalid =>
      cases h
      exact validate_eq_ok_iff.mp hvalid
    · cases h

theorem Usable.two_le_maxInputs {c : Configuration} (h : c.Usable) : 2 ≤ c.limits.maxInputs := by
  rw [limits]
  split
  · next limit hlimit => exact (h.limit limit hlimit).1
  · exact (by decide : 2 ≤ SpendPlanner.maxInputs)

/-! ## Minimum fees -/

/-- Where every token has one entry at most, its first entry is its last one. -/
theorem Usable.servedMinimumFee_eq {c : Configuration} (h : c.Usable) (token : TokenId) :
    servedMinimumFee c.minimumFees token =
      (c.minimumFee? token).getD (builtInMinimumFee token) := by
  have hreversed : (c.minimumFees.reverse.map MinimumFee.token).Nodup := by
    rw [List.map_reverse, List.nodup_reverse]
    exact h.tokens_nodup
  have hfound : c.minimumFees.reverse.find? (fun fee => fee.token = token) =
      c.minimumFees.find? fun fee => fee.token = token := by
    ext fee
    rw [find?_key_eq_some_iff hreversed, find?_key_eq_some_iff h.tokens_nodup,
      List.mem_reverse]
  rw [servedMinimumFee, minimumFee?, hfound]
  cases c.minimumFees.find? fun fee => fee.token = token <;> rfl

theorem Usable.minimumFee_pos {c : Configuration} (h : c.Usable) (token : TokenId) :
    0 < (c.minimumFee? token).getD (builtInMinimumFee token) := by
  rw [minimumFee?]
  cases hfound : c.minimumFees.find? fun fee => fee.token = token with
  | none =>
      rw [Option.map_none, Option.getD_none, builtInMinimumFee]
      split <;> decide
  | some fee => exact h.fees_pos fee (List.mem_of_find?_eq_some hfound)

end Configuration

/-- No level makes nothing of a fee. -/
theorem FeeLevel.apply_pos (level : FeeLevel) {fee : UInt64} (h : 0 < fee) :
    0 < level.apply fee := by
  rw [UInt64.lt_iff_toNat_lt, UInt64.toNat_zero] at h ⊢
  have hmultiplier : 0 < level.multiplier.toNat := by cases level <;> decide
  rw [apply, toNat_clip]
  exact lt_min (Nat.mul_pos h hmultiplier) (by decide)

/-! ## Numbers of inputs -/

/-- The records that one transaction spends in an answer of the selector. -/
inductive Selector.Chooses (s : Selector) : List Record → Prop where
  | payment {token : TokenId} {amounts : List UInt64} {rule : FeeRule} {records : List Record}
      {selection : InputSelection}
      (h : s.selectPaying token amounts rule records = .ok selection) :
      s.Chooses selection.inputs
  | sweep {token : TokenId} {rule : FeeRule} {records : List Record} {swept : Sweep}
      (h : s.sweep token rule records = .ok swept) : s.Chooses swept.inputs
  | consolidation {amount : Amount} {rule : FeeRule} {records : List Record}
      {steps : List ReadyMerge} {step : ReadyMerge}
      (h : s.defragment amount rule records = .ok steps) (hstep : step ∈ steps) :
      s.Chooses step.inputs

theorem Selector.Chooses.length_le {s : Selector} {chosen : List Record}
    (h : s.Chooses chosen) : chosen.length ≤ s.limit := by
  cases h with
  | payment h => exact length_le_of_selectPaying h
  | sweep h => exact length_le_of_sweep h
  | consolidation h hstep => exact (Proposer.balanced_of_mem_defragment h hstep).2.1

namespace Composition

variable {c : Composition} {limits : ProtocolLimits} {terms : ProposalTerms} {count limit : ℕ}

theorem maxInputs_lt_of_checkLimits
    (h : c.checkLimits limits terms = .error (.tooManyInputs count limit)) :
    limits.maxInputs < c.inputs.length := by
  simp only [checkLimits, refuse_if_bind_eq_error_iff, check_bind_eq_error_iff, reduceCtorEq,
    and_false, false_or] at h
  obtain ⟨hmany, -⟩ | ⟨-, -, htoken | ⟨-, hring⟩⟩ := h
  · exact hmany
  · rw [checkToken] at htoken
    split at htoken <;> cases htoken
  · obtain ⟨input, -, hinput⟩ := exists_of_checkEach hring
    split at hinput <;> cases hinput

/-- Only what has more inputs than the limit is refused for their number. -/
theorem maxInputs_lt_of_check
    (h : c.check limits terms = .error (.tooManyInputs count limit)) :
    limits.maxInputs < c.inputs.length := by
  simp only [check, refuse_if_bind_eq_error_iff, check_bind_eq_error_iff, reduceCtorEq,
    and_false, false_or] at h
  obtain ⟨-, -, hlimits | ⟨-, hfog | ⟨-, hkeys⟩⟩⟩ := h
  · exact maxInputs_lt_of_checkLimits hlimits
  · obtain ⟨output, -, houtput⟩ := exists_of_checkEach hfog
    rw [checkFog] at houtput
    split at houtput
    · cases houtput
    · split_ifs at houtput <;> cases houtput
  · obtain ⟨input, -, hinput⟩ := exists_of_checkEach hkeys
    cases hkey : spendKeyFor input terms.fee.token terms.account with
    | ok key =>
        rw [hkey] at hinput
        cases hinput
    | error refusal =>
        rw [hkey] at hinput
        cases hinput
        rw [spendKeyFor] at hkey
        repeat' split at hkey
        all_goals cases hkey

end Composition

/-! ## Configurations that have passed -/

namespace Configuration

/-- A configuration passes its checks exactly if it can be worked with.  One that has been read
from text gives the selector the input limit that compositions are checked against, so that none
of what the selector chooses is refused for its number of inputs.  The minimum fees that are
served are those that it names, and built-in ones for all other tokens; a fee of any level is a
multiple of the minimum, and never nothing. -/
theorem validated_read_alike (c : Configuration) :
    (c.validate = .ok () ↔ c.Usable) ∧
    ∀ text, ofJson text = .ok c →
      (Selector.ofLimits c.limits).limit = c.limits.maxInputs ∧
      (∀ chosen, (Selector.ofLimits c.limits).Chooses chosen →
        ∀ composition : Composition, composition.inputs.map PreparedInput.record = chosen →
          composition.inputs.length ≤ c.limits.maxInputs ∧
            ∀ terms count limit,
              composition.check c.limits terms ≠ .error (.tooManyInputs count limit)) ∧
      ∀ token,
        let minimum := (c.minimumFee? token).getD (builtInMinimumFee token)
        servedMinimumFee c.minimumFees token = minimum ∧
          ∀ (level : FeeLevel) (now : ℕ),
            (FeeSource.fixedMinimums c.minimumFees).ask level token now () =
                (.immediate (.ok (.fixed (level.apply minimum))), ()) ∧
              0 < level.apply minimum := by
  refine ⟨validate_eq_ok_iff, fun text htext => ?_⟩
  have husable := usable_of_ofJson htext
  have hlimit : (Selector.ofLimits c.limits).limit = c.limits.maxInputs :=
    max_eq_right husable.two_le_maxInputs
  refine ⟨hlimit, ?_, ?_⟩
  · intro chosen hchosen composition hinputs
    have hcount : composition.inputs.length ≤ c.limits.maxInputs := by
      rw [← hlimit, ← List.length_map PreparedInput.record, hinputs]
      exact hchosen.length_le
    refine ⟨hcount, ?_⟩
    intro terms count limit hrefused
    exact absurd (Composition.maxInputs_lt_of_check hrefused) (not_lt.mpr hcount)
  · intro token minimum
    have hserved : servedMinimumFee c.minimumFees token = minimum :=
      husable.servedMinimumFee_eq token
    refine ⟨hserved, ?_⟩
    intro level now
    refine ⟨?_, level.apply_pos (husable.minimumFee_pos token)⟩
    rw [← hserved]
    rfl

/-- With a limit of two, two of three records of 10 are swept and not refused for their number,
and a token with a minimum fee of 33 pays 132 for priority. -/
theorem validated_read_alike_two_inputs :
    let text := "[\"testnet\",2,30,[[7,33]]]"
    let c : Configuration := ⟨.testnet, some 2, 30, [⟨⟨7⟩, 33⟩]⟩
    let records : List Record :=
      [.numbered 10 0 .mob 0, .numbered 10 1 .mob 0, .numbered 10 2 .mob 0]
    let composition : Composition := ⟨(records.take 2).map fun r => ⟨r, [], 0⟩, [], none⟩
    ofJson text = .ok c ∧
      (Selector.ofLimits c.limits).sweep .mob (.fixed 1) records = .ok ⟨records.take 2, 1, 19⟩ ∧
      composition.inputs.map PreparedInput.record = records.take 2 ∧
      (composition.inputs.length ≤ c.limits.maxInputs ∧
        ∀ terms count limit,
          composition.check c.limits terms ≠ .error (.tooManyInputs count limit)) ∧
      servedMinimumFee c.minimumFees ⟨7⟩ = 33 ∧
      (FeeSource.fixedMinimums c.minimumFees).ask .priority ⟨7⟩ 0 () =
        (.immediate (.ok (.fixed 132)), ()) := by
  intro text c records composition
  have htext : ofJson text = .ok c := by cbv
  have hswept : (Selector.ofLimits c.limits).sweep .mob (.fixed 1) records =
      .ok ⟨records.take 2, 1, 19⟩ := by cbv
  obtain ⟨-, hread⟩ := c.validated_read_alike
  obtain ⟨-, hchosen, hfees⟩ := hread text htext
  obtain ⟨hserved, hasked⟩ := hfees ⟨7⟩
  exact ⟨htext, hswept, rfl, hchosen _ (.sweep hswept) composition rfl, hserved,
    (hasked .priority 0).1⟩

end Configuration
end SpendPlanner
