import SpendPlanner.Proofs.Selection.Agreement
import SpendPlanner.Proofs.Selection.TransferableOptimum

/-!
# Dust

The transferable amount leaves records out that cost more to merge than they are worth; the
planner merges the smallest records whatever they are worth.  Under a fixed fee this is all
that keeps a payment of up to the transferable amount from being planned.  A payment of up to
what gathering all records leaves fits at the latest when as many holdings are left as one
transaction may spend, and where no choice of records leaves more, no merge on the way there
is refused.
-/

namespace SpendPlanner

theorem eq_consolidationTooDear_of_mergedValue {values : List UInt64} {fee : UInt64}
    {error : SelectionError} (hword : total values < UInt64.size)
    (h : mergedValue values fee = .error error) :
    error = .consolidationTooDear values.length fee := by
  rw [mergedValue, checkedDifference] at h
  split at h
  · split at h
    · exact (Except.error.inj h).symm
    · cases h
  · exact (Except.error.inj h).symm
  · next hoverflow =>
    split at hoverflow
    · cases hoverflow
    · split at hoverflow
      · cases hoverflow
      · next hlarge =>
        rw [word?_eq_none_iff] at hlarge
        omega

theorem exists_mergedValue {values : List UInt64} {fee : UInt64}
    (hfee : fee.toNat < total values) (hword : total values < UInt64.size) :
    ∃ output, mergedValue values fee = .ok output := by
  have hleft : (UInt64.ofNat (total values - fee.toNat)).toNat = total values - fee.toNat :=
    UInt64.toNat_ofNat_of_lt (by omega)
  refine ⟨UInt64.ofNat (total values - fee.toNat), mergedValue_eq_ok_iff.mpr ⟨?_, ?_⟩⟩
  · rw [hleft]
    omega
  · rw [UInt64.lt_iff_toNat_lt, hleft, UInt64.toNat_zero]
    omega

namespace Selector

variable {s : Selector} {rule : FeeRule} {outlay fee : UInt64} {values : List UInt64}

/-! ## Planning below a word -/

/-- Where the pool has a sum, planning stops without a payment because the pool is exhausted
or because a merge is not worth its fee. -/
theorem StopsAt.error_cases {made : ℕ} {pool : Multiset Holding} {error : SelectionError}
    (h : s.StopsAt rule outlay made pool (.error error))
    (hword : worth (poolValues pool) < UInt64.size) :
    error = .tooSmallAfterConsolidation outlay made ∨
      ∃ count, error = .consolidationTooDear count (rule ⟨count, gatherOutputs⟩) := by
  cases h with
  | exhausted hcard hnot => exact Or.inl rfl
  | @refused spent rest error hpool hdue hmerge =>
      rw [hpool, poolValues_add, worth_add, poolValues_coe, worth_coe] at hword
      have hdear := eq_consolidationTooDear_of_mergedValue (by omega) hmerge
      rw [Holding.values, List.length_map] at hdear
      exact Or.inr ⟨spent.length, hdear⟩

/-- How planning fails. -/
theorem exists_stopsAt_of_plan {error : SelectionError} (hne : values ≠ [])
    (h : s.plan rule outlay values = .error error) :
    ∃ (batches : List Batch) (final : Multiset Holding),
      Consolidates rule (s.Due rule outlay) 0 (Holding.ofValues values) batches final ∧
        s.StopsAt rule outlay batches.length final (.error error) := by
  obtain ⟨batches, final, hbatches, -, hstop⟩ :=
    consolidate_spec s rule outlay [] (Holding.ofValues values)
  rw [← planningRun, List.length_nil, zero_add] at hstop
  rw [plan, if_neg (mt List.isEmpty_iff.mp hne)] at h
  cases houtcome : (s.planningRun rule outlay values).outcome with
  | ok sendFee => simp [houtcome] at h
  | error reason =>
      simp only [houtcome, Except.error.injEq] at h
      subst h
      exact ⟨batches, final, hbatches, houtcome ▸ hstop⟩

/-- Where the values have a sum, planning fails only for want of balance. -/
theorem kind_of_plan {error : SelectionError} (hword : total values < UInt64.size)
    (h : s.plan rule outlay values = .error error) : error.kind = .insufficientBalance := by
  by_cases hne : values = []
  · rw [plan, if_pos (List.isEmpty_iff.mpr hne)] at h
    cases h
    rfl
  · obtain ⟨batches, final, hbatches, hstop⟩ := exists_stopsAt_of_plan hne h
    have htotal := hbatches.total_eq
    rcases hstop.error_cases (by omega) with rfl | ⟨count, rfl⟩
    · rfl
    · rfl

/-- The fees of a plan come out of the values. -/
theorem total_fees_le_of_plan {plan : Plan} (h : s.plan rule outlay values = .ok plan) :
    total (plan.sendFee :: plan.merges.map Merge.fee) ≤ total values := by
  obtain ⟨batches, final, k, hbatches, hmerges, ⟨⟨-, -, chosen, hchosen, -, hcovers⟩, -⟩, hfee⟩ :=
    exists_consolidates_of_planningRun (plan_eq_ok_iff.mp h)
  have htotal := hbatches.total_eq
  have hle := worth_le_of_le hchosen
  rw [total_cons, hmerges, total_fee_merges, hfee]
  omega

/-- Where the records have a sum, an estimate fails only for want of balance, because no plan
makes the payment possible. -/
theorem estimate_ok_or_insufficient {amount : Amount} {records : List Record}
    (hpositive : amount.value ≠ 0)
    (hword : total (Record.values (spendingOrder amount.token records)) < UInt64.size) :
    (∃ e, s.estimate amount rule records = .ok e) ∨
      ∃ error, s.estimate amount rule records = .error error ∧
        error.kind = .insufficientBalance ∧
        s.fit? rule paymentOutputs amount.value
          (Record.values (spendingOrder amount.token records)) = none ∧
        s.plan rule amount.value (Record.values (spendingOrder amount.token records)) =
          .error error := by
  cases hfit : s.fit? rule paymentOutputs amount.value
      (Record.values (spendingOrder amount.token records)) with
  | some k => exact Or.inl ⟨_, estimate_of_fit? hpositive hfit⟩
  | none =>
      cases hplan : s.plan rule amount.value
          (Record.values (spendingOrder amount.token records)) with
      | ok plan =>
          obtain ⟨-, hok, -⟩ := estimate_of_plan_ok hpositive hfit hplan
          have hfees := (total_fees_le_of_plan hplan).trans_lt hword
          exact Or.inl ⟨_, hok _ (UInt64.toNat_ofNat_of_lt hfees)⟩
      | error error =>
          exact Or.inr ⟨error, (estimate_of_plan_error hpositive hfit hplan).2,
            kind_of_plan hword hplan, rfl, rfl⟩

/-! ## Gathering all values of a pool -/

/-- Gathering all the values under a fixed fee leaves the amount. -/
def GathersTo (s : Selector) (fee : UInt64) (amount : ℕ) (values : Multiset UInt64) : Prop :=
  worth values = amount + (s.mergesNeeded values.card + 1) * fee.toNat

namespace GathersTo

variable {amount : ℕ}

theorem affords {values : Multiset UInt64} (h : s.GathersTo fee amount values)
    (hcard : values.card ≤ s.limit) (hpositive : 0 < outlay) (hle : outlay.toNat ≤ amount) :
    s.Affords (.fixed fee) paymentOutputs outlay values values.card := by
  rw [GathersTo, s.mergesNeeded_of_le hcard, zero_add, one_mul] at h
  refine ⟨?_, hcard, values, le_rfl, rfl, ?_⟩
  · rw [Nat.one_le_iff_ne_zero, Ne, Multiset.card_eq_zero]
    rintro rfl
    rw [UInt64.lt_iff_toNat_lt, UInt64.toNat_zero] at hpositive
    rw [worth_zero] at h
    omega
  · rw [FeeRule.fixed, h]
    omega

/-- Gathering the values takes a merge if there are more than a full batch of them. -/
theorem worth_add_eq {spent rest : Multiset UInt64} (h : s.GathersTo fee amount (spent + rest))
    (hcard : spent.card = s.limit) (hrest : 0 < rest.card) :
    worth spent + worth rest =
      amount + (s.mergesNeeded (rest.card + 1) + 1) * fee.toNat + fee.toNat := by
  have htwo := s.two_le_limit
  have hcount : (spent + rest).card - (s.limit - 1) = rest.card + 1 := by
    rw [Multiset.card_add, hcard]
    omega
  rw [GathersTo, worth_add, s.mergesNeeded_step (by rw [Multiset.card_add]; omega), hcount,
    Nat.add_mul _ _ fee.toNat, one_mul, ← add_assoc] at h
  exact h

theorem merge {spent rest : Multiset UInt64} (h : s.GathersTo fee amount (spent + rest))
    {output : UInt64} (hcard : spent.card = s.limit) (hrest : 0 < rest.card)
    (hbalance : worth spent = fee.toNat + output.toNat) :
    s.GathersTo fee amount (output ::ₘ rest) := by
  have hworth := h.worth_add_eq hcard hrest
  rw [GathersTo, worth_cons, Multiset.card_cons]
  omega

/-- On the way to a payment of up to the amount the planner only merges full batches. -/
theorem card_of_due {spent rest : Multiset Holding}
    (h : s.GathersTo fee amount (poolValues (spent + rest)))
    (hdue : s.Due (.fixed fee) outlay spent rest) (hpositive : 0 < outlay)
    (hle : outlay.toNat ≤ amount) : spent.card = s.limit ∧ 0 < rest.card := by
  have hmany : s.limit < (poolValues (spent + rest)).card := by
    by_contra hfew
    exact hdue.not_affords _ (h.affords (not_lt.mp hfew) hpositive hle)
  have hcard := hdue.card_eq
  rw [card_poolValues, Multiset.card_add] at hmany
  rw [Multiset.card_add] at hcard
  omega

/-- On the way to a payment of up to the amount, a property that every full batch keeps is kept
throughout. -/
theorem consolidates {P : Multiset UInt64 → Prop}
    (hkept : ∀ (spent rest : Multiset UInt64) (output : UInt64), P (spent + rest) →
      spent.card = s.limit → worth spent = fee.toNat + output.toNat → 0 < output →
        P (output ::ₘ rest))
    {number : ℕ} {pool final : Multiset Holding} {batches : List Batch}
    (hrun : Consolidates (.fixed fee) (s.Due (.fixed fee) outlay) number pool batches final)
    (hpositive : 0 < outlay) (hle : outlay.toNat ≤ amount)
    (h : s.GathersTo fee amount (poolValues pool)) (hstart : P (poolValues pool)) :
    s.GathersTo fee amount (poolValues final) ∧ P (poolValues final) := by
  induction hrun with
  | done number pool => exact ⟨h, hstart⟩
  | @merge number pool rest final b batches hpool hdue hbalance houtput hlater ih =>
      rw [hpool] at h hstart
      obtain ⟨hcard, hrest⟩ := h.card_of_due hdue hpositive hle
      rw [← card_poolValues] at hcard hrest
      rw [poolValues_add] at h hstart
      rw [poolValues_cons] at ih
      exact ih (h.merge hcard hrest hbalance) (hkept _ _ _ hstart hcard hbalance houtput)

/-- The planner does not exhaust such a pool without the payment having fitted. -/
theorem not_exhausted {pool : Multiset Holding}
    (h : s.GathersTo fee amount (poolValues pool)) (hpositive : 0 < outlay)
    (hle : outlay.toNat ≤ amount) (hcard : pool.card < 2)
    (hnot : ∀ k, ¬s.Affords (.fixed fee) paymentOutputs outlay (poolValues pool) k) : False := by
  have htwo := s.two_le_limit
  refine hnot _ (h.affords ?_ hpositive hle)
  rw [card_poolValues]
  omega

end GathersTo

/-! ## Pools that are best gathered whole -/

/-- No choice of the values leaves more than the amount.  Where transactions are free, there
are too few values of nothing for a merge of them. -/
structure NoneBetter (s : Selector) (fee : UInt64) (amount : ℕ) (values : Multiset UInt64) :
    Prop where
  capped : s.Capped (.fixed fee) amount values
  count_lt : fee = 0 → values.count 0 < s.limit

namespace NoneBetter

variable {amount : ℕ} {spent rest : Multiset UInt64}

theorem merge (h : s.NoneBetter fee amount (spent + rest)) {output : UInt64}
    (hcard : spent.card = s.limit) (hbalance : worth spent = fee.toNat + output.toNat)
    (hpositive : 0 < output) : s.NoneBetter fee amount (output ::ₘ rest) := by
  have htwo := s.two_le_limit
  constructor
  · have hcapped := h.capped
    rw [← LinearFee.rule_constant] at hcapped ⊢
    refine hcapped.merge (by omega) hcard.le ?_
    rw [LinearFee.rule_constant]
    exact hbalance
  · intro hfee
    have hne : output ≠ 0 := UInt64.pos_iff_ne_zero.mp hpositive
    have hcount := h.count_lt hfee
    rw [Multiset.count_add] at hcount
    rw [Multiset.count_cons_of_ne (Ne.symm hne)]
    omega

/-- Keeping one value of a full batch and leaving the others out saves the fee of the merge. -/
theorem add_fee_le_worth (h : s.NoneBetter fee amount (spent + rest))
    (hwhole : s.GathersTo fee amount (spent + rest)) (hcard : spent.card = s.limit)
    (hrest : 0 < rest.card) : ∀ x ∈ spent, x.toNat + fee.toNat ≤ worth spent := by
  intro x hx
  have hworth := hwhole.worth_add_eq hcard hrest
  have hcap := h.capped (x ::ₘ rest)
    (by rw [← Multiset.singleton_add]; gcongr; exact Multiset.singleton_le.mpr hx)
    Multiset.cons_ne_zero
  rw [worth_cons, Multiset.card_cons, toNat_gatherFee_fixed] at hcap
  omega

/-- A full batch of the smallest values is worth its fee. -/
theorem fee_lt_worth (h : s.NoneBetter fee amount (spent + rest))
    (hwhole : s.GathersTo fee amount (spent + rest)) (hcard : spent.card = s.limit)
    (hrest : 0 < rest.card) : fee.toNat < worth spent := by
  have htwo := s.two_le_limit
  have hkept := h.add_fee_le_worth hwhole hcard hrest
  by_contra hnot
  have hzero : ∀ x ∈ spent, x = 0 := by
    intro x hx
    have hle := hkept x hx
    exact UInt64.toNat_inj.mp (by rw [UInt64.toNat_zero]; omega)
  obtain ⟨x, hx⟩ := Multiset.card_pos_iff_exists_mem.mp (show 0 < spent.card by omega)
  have hle := hkept x hx
  rw [← Multiset.eq_replicate_card, hcard] at hzero
  have hfee : fee = 0 := by
    rw [hzero] at hle
    simp only [worth, Multiset.map_replicate, UInt64.toNat_zero, Multiset.sum_replicate,
      smul_zero] at hle
    exact UInt64.toNat_inj.mp (by rw [UInt64.toNat_zero]; omega)
  have hcount := h.count_lt hfee
  rw [Multiset.count_add, hzero, Multiset.count_replicate_self] at hcount
  omega

/-- The planner stops at such a pool only because the payment fits. -/
theorem not_stopsAt_error {made : ℕ} {pool : Multiset Holding} {error : SelectionError}
    (h : s.NoneBetter fee amount (poolValues pool))
    (hwhole : s.GathersTo fee amount (poolValues pool)) (hpositive : 0 < outlay)
    (hle : outlay.toNat ≤ amount) (hword : worth (poolValues pool) < UInt64.size) :
    ¬s.StopsAt (.fixed fee) outlay made pool (.error error) := by
  intro hstop
  cases hstop with
  | exhausted hcard hnot => exact hwhole.not_exhausted hpositive hle hcard hnot
  | @refused spent rest error hpool hdue hmerge =>
      rw [hpool] at h hwhole
      obtain ⟨hcard, hrest⟩ := hwhole.card_of_due hdue hpositive hle
      rw [← card_poolValues] at hcard hrest
      rw [poolValues_add] at h hwhole
      have hfee := h.fee_lt_worth hwhole hcard hrest
      rw [hpool, poolValues_add, worth_add] at hword
      rw [poolValues_coe, worth_coe] at hfee hword
      obtain ⟨output, hok⟩ := exists_mergedValue hfee (by omega)
      rw [FeeRule.fixed, hok] at hmerge
      cases hmerge

end NoneBetter

section Planning

variable {amount : ℕ}

theorem ne_nil_of_gathersTo (hwhole : s.GathersTo fee amount values) (hpositive : 0 < outlay)
    (hle : outlay.toNat ≤ amount) : values ≠ [] := by
  rintro rfl
  rw [UInt64.lt_iff_toNat_lt, UInt64.toNat_zero] at hpositive
  simp only [GathersTo, worth_coe, total_nil] at hwhole
  omega

/-- A payment of up to what gathering all values leaves is refused only where a merge is not
worth its fee. -/
theorem exists_eq_consolidationTooDear (hword : total values < UInt64.size)
    (hwhole : s.GathersTo fee amount values) (hpositive : 0 < outlay)
    (hle : outlay.toNat ≤ amount) {error : SelectionError}
    (hplan : s.plan (.fixed fee) outlay values = .error error) :
    ∃ count, error = .consolidationTooDear count fee := by
  obtain ⟨batches, final, hbatches, hstop⟩ :=
    exists_stopsAt_of_plan (ne_nil_of_gathersTo hwhole hpositive hle) hplan
  have htotal := hbatches.total_eq
  obtain ⟨hfinal, -⟩ := GathersTo.consolidates (P := fun _ => True)
    (fun _ _ _ _ _ _ _ => trivial) hbatches hpositive hle
    (by rwa [Holding.poolValues_ofValues]) trivial
  cases hstop with
  | exhausted hcard hnot => exact (hfinal.not_exhausted hpositive hle hcard hnot).elim
  | @refused spent rest error hpool hdue hmerge =>
      rw [hpool, poolValues_add, worth_add, poolValues_coe, worth_coe] at htotal
      exact ⟨_, eq_consolidationTooDear_of_mergedValue (by omega) hmerge⟩

/-- A payment of up to what gathering all values leaves can be planned where no choice of them
leaves more. -/
theorem exists_plan_of_noneBetter (hword : total values < UInt64.size)
    (hwhole : s.GathersTo fee amount values) (hbest : s.NoneBetter fee amount values)
    (hpositive : 0 < outlay) (hle : outlay.toNat ≤ amount) :
    ∃ plan, s.plan (.fixed fee) outlay values = .ok plan := by
  cases hplan : s.plan (.fixed fee) outlay values with
  | ok plan => exact ⟨plan, rfl⟩
  | error error =>
      obtain ⟨batches, final, hbatches, hstop⟩ :=
        exists_stopsAt_of_plan (ne_nil_of_gathersTo hwhole hpositive hle) hplan
      have htotal := hbatches.total_eq
      obtain ⟨hfinal, hkept⟩ := GathersTo.consolidates (P := s.NoneBetter fee amount)
        (fun _ _ _ h => h.merge) hbatches hpositive hle
        (by rwa [Holding.poolValues_ofValues])
        (by rwa [Holding.poolValues_ofValues])
      exact absurd hstop (hkept.not_stopsAt_error hfinal hpositive hle (by omega))

end Planning

/-! ## The transferable amount -/

/-- What gathering all records leaves, if it leaves anything. -/
theorem gathersTo_netOfLeading (hword : total values < UInt64.size)
    (hnet : 0 < s.netOfLeading (.fixed fee) values values.length) :
    s.GathersTo fee (s.netOfLeading (.fixed fee) values values.length) values := by
  rw [netOfLeading, List.take_length, toNat_gatherFee_fixed] at hnet ⊢
  rw [GathersTo, worth_coe, Multiset.coe_card]
  omega

/-- Every further record that is worth its fee adds to what gathering leaves. -/
theorem netOfLeading_le_length (hfees : ∀ w ∈ values, fee ≤ w) {k : ℕ} (hk : 1 ≤ k)
    (hlength : k ≤ values.length) :
    s.netOfLeading (.fixed fee) values k ≤
      s.netOfLeading (.fixed fee) values values.length := by
  suffices h : ∀ j, k ≤ j → j ≤ values.length →
      s.netOfLeading (.fixed fee) values k ≤ s.netOfLeading (.fixed fee) values j from
    h values.length hlength le_rfl
  intro j hj
  induction j, hj using Nat.le_induction with
  | base => exact fun _ => le_rfl
  | succ j hj ih =>
      intro hlast
      have hnext := ih (by omega)
      have hw := hfees values[j] (List.getElem_mem _)
      have hcost : (s.mergesNeeded (j + 1) + 1) * fee.toNat ≤
          (s.mergesNeeded j + 1) * fee.toNat + fee.toNat := by
        rw [← Nat.succ_mul]
        exact Nat.mul_le_mul_right _ (Nat.succ_le_succ (s.mergesNeeded_succ_le (by omega)))
      have htake : total (values.take (j + 1)) = total (values.take j) + values[j].toNat := by
        rw [List.take_succ_eq_append_getElem (by omega), total_append, total_cons, total_nil,
          add_zero]
      rw [UInt64.le_iff_toNat_le] at hw
      refine hnext.trans ?_
      rw [netOfLeading, netOfLeading, htake, toNat_gatherFee_fixed, toNat_gatherFee_fixed]
      omega

/-- Up to the limit, gathering takes a single fee. -/
theorem total_take_of_netOfLeading {k : ℕ} (hk : k ≤ s.limit)
    (hnet : 0 < s.netOfLeading (.fixed fee) values k) :
    total (values.take k) = s.netOfLeading (.fixed fee) values k + fee.toNat := by
  have hlt := fee.toNat_lt
  rw [netOfLeading, toNat_gatherFee_fixed, s.mergesNeeded_of_le hk, zero_add, one_mul] at hnet ⊢
  simp only [UInt64.size] at hnet ⊢
  omega

theorem total_take_lt_of_fit? {outputs k : ℕ}
    (hfit : s.fit? rule outputs outlay values = none) (hk : 1 ≤ k) (hlimit : k ≤ s.limit)
    (hlength : k ≤ values.length) :
    total (values.take k) < outlay.toNat + (rule ⟨k, outputs⟩).toNat := by
  rw [fit?, List.find?_range'_eq_none] at hfit
  have hnot := hfit k hk (by omega)
  simpa [covers] using hnot

/-- A payment of up to what the best choice leaves fits unless the choice takes a merge. -/
theorem limit_lt_length_of_fit? {outputs : ℕ}
    (hfit : s.fit? (.fixed fee) outputs outlay values = none) (hpositive : 0 < outlay)
    (hle : outlay.toNat ≤ s.bestNet (.fixed fee) values) : s.limit < values.length := by
  rw [UInt64.lt_iff_toNat_lt, UInt64.toNat_zero] at hpositive
  obtain ⟨k, hk, hlength, hnet⟩ := exists_netOfLeading_eq_bestNet
    (show s.bestNet (.fixed fee) values ≠ 0 by omega)
  by_contra hfew
  have hshort := total_take_lt_of_fit? hfit hk (by omega) hlength
  have htake : total (values.take k) = s.netOfLeading (.fixed fee) values k + fee.toNat :=
    total_take_of_netOfLeading (by omega) (by omega)
  rw [FeeRule.fixed] at hshort
  omega

theorem noneBetter_of_bestNet_le (hdesc : values.Pairwise (· ≥ ·)) {amount : ℕ}
    (hbest : s.bestNet (.fixed fee) values ≤ amount)
    (hcount : fee = 0 → values.count 0 < s.limit) : s.NoneBetter fee amount values := by
  constructor
  · intro chosen hchosen hne
    exact (s.capped_bestNet (.fixed fee) hdesc chosen hchosen hne).trans (by gcongr)
  · simpa using hcount

/-- Without dust nothing beats gathering all values. -/
theorem bestNet_le_of_forall_le (hfees : ∀ w ∈ values, fee ≤ w) :
    s.bestNet (.fixed fee) values ≤ s.netOfLeading (.fixed fee) values values.length := by
  by_cases hzero : s.bestNet (.fixed fee) values = 0
  · omega
  · obtain ⟨k, hk, hlength, hnet⟩ := exists_netOfLeading_eq_bestNet hzero
    rw [← hnet]
    exact netOfLeading_le_length hfees hk hlength

/-- Only dust makes some choice better than gathering all values, or a whole batch worth
nothing. -/
theorem exists_dust
    (h : s.netOfLeading (.fixed fee) values values.length < s.bestNet (.fixed fee) values ∨
      fee = 0 ∧ s.limit ≤ values.count 0) :
    ∃ w ∈ values, w < fee ∨ w = 0 := by
  rcases h with hbetter | ⟨-, hzero⟩
  · by_contra hdust
    push Not at hdust
    refine (bestNet_le_of_forall_le fun w hw => ?_).not_gt hbetter
    exact UInt64.not_lt.mp (hdust w hw).1
  · have htwo := s.two_le_limit
    exact ⟨0, List.count_pos_iff.mp (by omega), Or.inr rfl⟩

/-- Where no plan makes a payment possible, gathering all values does not leave it, or a merge
is refused though they leave it. -/
theorem dust_of_plan_error (hdesc : values.Pairwise (· ≥ ·))
    (hword : total values < UInt64.size) (hpositive : 0 < outlay) {error : SelectionError}
    (hplan : s.plan (.fixed fee) outlay values = .error error) :
    s.netOfLeading (.fixed fee) values values.length < outlay.toNat ∨
      (∃ count, error = .consolidationTooDear count fee) ∧
        (s.netOfLeading (.fixed fee) values values.length < s.bestNet (.fixed fee) values ∨
          fee = 0 ∧ s.limit ≤ values.count 0) := by
  by_cases hover : s.netOfLeading (.fixed fee) values values.length < outlay.toNat
  · exact Or.inl hover
  · rw [not_lt] at hover
    have hpos : 0 < outlay.toNat := UInt64.lt_iff_toNat_lt.mp hpositive
    have hwhole := gathersTo_netOfLeading hword (hpos.trans_le hover)
    refine Or.inr ⟨exists_eq_consolidationTooDear hword hwhole hpositive hover hplan, ?_⟩
    by_contra hnone
    rw [not_or, not_lt, not_and, not_le] at hnone
    obtain ⟨plan, hok⟩ := exists_plan_of_noneBetter hword hwhole
      (noneBetter_of_bestNet_le hdesc hnone.1 hnone.2) hpositive hover
    simp [hplan] at hok

/-- Under a fixed fee a payment of up to the transferable amount has an estimate, unless dust
stands in its way: records worth less than the fee, or nothing.  Then there are more records
than one transaction may spend, and the largest do not cover the payment.  Either it is more
than gathering all records leaves, or a merge of the smallest is not worth its fee, which does
not happen where gathering all leaves as much as any choice of them, unless nothing is what a
whole batch is worth. -/
theorem estimate_of_le_transferable (s : Selector) (fee : UInt64) (token : TokenId)
    (records : List Record)
    (hword : total (Record.values (records.filter fun r => r.token = token)) < UInt64.size)
    {a : UInt64} (h : s.transferable token (.fixed fee) records = .ok a)
    {v : UInt64} (hpositive : 0 < v) (hle : v ≤ a) :
    let values := Record.values (spendingOrder token records)
    (∃ e, s.estimate ⟨v, token⟩ (.fixed fee) records = .ok e) ∨
      ∃ error, s.estimate ⟨v, token⟩ (.fixed fee) records = .error error ∧
        error.kind = .insufficientBalance ∧
        s.limit < values.length ∧
        total (values.take s.limit) < v.toNat + fee.toNat ∧
        (s.netOfLeading (.fixed fee) values values.length < v.toNat ∨
          (∃ count, error = .consolidationTooDear count fee) ∧
            (s.netOfLeading (.fixed fee) values values.length < a.toNat ∨
              fee = 0 ∧ s.limit ≤ values.count 0)) ∧
        ∃ w ∈ values, w < fee ∨ w = 0 := by
  intro values
  rw [← total_values_spendingOrder] at hword
  have hne : (⟨v, token⟩ : Amount).value ≠ 0 := UInt64.pos_iff_ne_zero.mp hpositive
  rcases estimate_ok_or_insufficient hne hword with hok | ⟨error, herror, hkind, hfit, hplan⟩
  · exact Or.inl hok
  obtain ⟨-, -, hapos, hbest⟩ := (transferable_eq_ok_iff rfl).mp h
  rw [UInt64.le_iff_toNat_le, hbest] at hle
  have hmany := limit_lt_length_of_fit? hfit hpositive hle
  have hshort := total_take_lt_of_fit? hfit (one_le_two.trans s.two_le_limit) le_rfl hmany.le
  have hlosing := dust_of_plan_error (values_spendingOrder_descending token records) hword
    hpositive hplan
  rw [hbest]
  refine Or.inr ⟨error, herror, hkind, hmany, hshort, hlosing, ?_⟩
  by_contra hdust
  push Not at hdust
  have hgather : s.bestNet (.fixed fee) values ≤
      s.netOfLeading (.fixed fee) values values.length :=
    bestNet_le_of_forall_le fun w hw => UInt64.not_lt.mp (hdust w hw).1
  have hcount : values.count 0 = 0 := List.count_eq_zero.mpr fun hmem => (hdust 0 hmem).2 rfl
  have htwo := s.two_le_limit
  rcases hlosing with hover | ⟨-, hless | ⟨-, hzero⟩⟩
  · exact (hle.trans hgather).not_gt hover
  · exact hgather.not_gt hless
  · exact absurd hzero (by rw [hcount]; omega)

/-- Three records of 100 can be gathered for 280 by merging two of them.  The planner merges the
two records of 5 first, which is not worth its fee. -/
theorem dust_holds_up_transferable :
    let records : List Record := [.numbered 100 0 .mob 0, .numbered 100 1 .mob 0,
      .numbered 100 2 .mob 0, .numbered 5 3 .mob 0, .numbered 5 4 .mob 0]
    total (Record.values (records.filter fun r => r.token = .mob)) < UInt64.size ∧
      (ofLimit 2).transferable .mob (.fixed 10) records = .ok 280 ∧
      (ofLimit 2).estimate ⟨280, .mob⟩ (.fixed 10) records =
        .error (.consolidationTooDear 2 10) := by
  intro records
  refine ⟨by decide, by cbv, by cbv⟩

/-- Of those 280 a payment of 190 takes no merge. -/
theorem estimate_of_le_transferable_dust :
    let records : List Record := [.numbered 100 0 .mob 0, .numbered 100 1 .mob 0,
      .numbered 100 2 .mob 0, .numbered 5 3 .mob 0, .numbered 5 4 .mob 0]
    total (Record.values (records.filter fun r => r.token = .mob)) < UInt64.size ∧
      (ofLimit 2).transferable .mob (.fixed 10) records = .ok 280 ∧
      (0 : UInt64) < 190 ∧ (190 : UInt64) ≤ 280 ∧
      ∃ e, (ofLimit 2).estimate ⟨190, .mob⟩ (.fixed 10) records = .ok e := by
  intro records
  have hword : total (Record.values (records.filter fun r => r.token = .mob)) < UInt64.size := by
    decide
  have hshown : (ofLimit 2).transferable .mob (.fixed 10) records = .ok 280 := by cbv
  have hlargest : total ((Record.values (spendingOrder .mob records)).take (ofLimit 2).limit) =
      200 := by cbv
  refine ⟨hword, hshown, by decide, by decide, ?_⟩
  rcases estimate_of_le_transferable (ofLimit 2) 10 .mob records hword hshown
    (show (0 : UInt64) < 190 by decide) (by decide) with hok | ⟨error, -, -, -, hshort, -⟩
  · exact hok
  · rw [hlargest] at hshort
    exact absurd hshort (by decide)

end Selector
end SpendPlanner
