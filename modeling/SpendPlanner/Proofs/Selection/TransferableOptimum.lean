import SpendPlanner.Proofs.CheckedSum
import SpendPlanner.Proofs.Selection.Consolidates
import SpendPlanner.Proofs.Selection.GatherCost

/-!
# The transferable amount is the best a schedule can do

A schedule first consolidates holdings in any order and any number of times and then spends
some of what is there in one transaction to a single recipient.  Under a built-in fee rule
the transferable amount is what the best schedule delivers.  That no schedule delivers more
follows from a bound on all choices of values which every consolidation keeps.  That some
schedule delivers as much follows by always merging the largest holdings: on average they
are worth more than their share of the cost.
-/

namespace SpendPlanner.Selector

variable {s : Selector} {f : LinearFee}

/-- After some consolidations of the pool, one transaction can deliver the amount. -/
def Delivers (s : Selector) (rule : FeeRule) (number : ℕ) (pool : Multiset Holding)
    (amount : ℕ) : Prop :=
  ∃ (batches : List Batch) (available chosen : Multiset Holding),
    Consolidates rule (s.MayMerge 1) number pool batches available ∧
      chosen ≤ available ∧ 1 ≤ chosen.card ∧ chosen.card ≤ s.limit ∧ 0 < amount ∧
        worth (poolValues chosen) = (rule ⟨chosen.card, gatherOutputs⟩).toNat + amount

/-! ## No schedule delivers more than the bound on all choices -/

/-- No choice of values is worth more than the bound and the fee of gathering it. -/
def Capped (s : Selector) (rule : FeeRule) (bound : ℕ) (values : Multiset UInt64) : Prop :=
  ∀ chosen ≤ values, chosen ≠ 0 → worth chosen ≤ bound + (s.gatherFee rule chosen.card).toNat

/-- Merging values does not lift the bound. -/
theorem Capped.merge {bound : ℕ} {spent rest : Multiset UInt64} {output : UInt64}
    (h : s.Capped f.rule bound (spent + rest))
    (hlow : 1 ≤ spent.card) (hhigh : spent.card ≤ s.limit)
    (hbalance : worth spent = (f.rule ⟨spent.card, gatherOutputs⟩).toNat + output.toNat) :
    s.Capped f.rule bound (output ::ₘ rest) := by
  intro chosen hchosen hne
  by_cases hmem : output ∈ chosen
  · obtain ⟨others, rfl⟩ := Multiset.exists_cons_of_mem hmem
    have hothers : others ≤ rest := (Multiset.cons_le_cons_iff output).mp hchosen
    have hcap := h (spent + others) (by gcongr) (by
      rw [← Multiset.card_pos, Multiset.card_add]
      omega)
    have hfee : (s.gatherFee f.rule (spent.card + others.card)).toNat ≤
        (f.rule ⟨spent.card, gatherOutputs⟩).toNat +
          (s.gatherFee f.rule (1 + others.card)).toNat := by
      rw [f.gatherFee_rule, f.gatherFee_rule, LinearFee.rule]
      exact (toNat_clip_mono (f.gatherCost_add_le s hhigh others.card)).trans
        (toNat_clip_add_le _ _)
    rw [Multiset.card_add, worth_add] at hcap
    rw [worth_cons, Multiset.card_cons, add_comm others.card 1]
    omega
  · have hle : chosen ≤ rest := (Multiset.le_cons_of_notMem hmem).mp hchosen
    exact h chosen (hle.trans (Multiset.le_add_left rest spent)) hne

theorem Capped.consolidates {bound number : ℕ} {pool final : Multiset Holding}
    {batches : List Batch}
    (hrun : Consolidates f.rule (s.MayMerge 1) number pool batches final)
    (h : s.Capped f.rule bound (poolValues pool)) :
    s.Capped f.rule bound (poolValues final) := by
  induction hrun with
  | done number pool => exact h
  | @merge number pool rest final b batches hpool hallowed hbalance hpositive hlater ih =>
      apply ih
      rw [hpool, poolValues_add] at h
      obtain ⟨hlow, hhigh⟩ := hallowed
      rw [← card_poolValues] at hlow hhigh
      rw [poolValues_cons]
      exact h.merge hlow hhigh (by simpa [Batch.fee, Holding.values] using hbalance)

theorem le_of_delivers {bound number amount : ℕ} {pool : Multiset Holding}
    (h : s.Capped f.rule bound (poolValues pool))
    (hdelivers : s.Delivers f.rule number pool amount) :
    amount ≤ bound := by
  obtain ⟨batches, available, chosen, hrun, hchosen, hlow, hhigh, -, hbalance⟩ := hdelivers
  have hcap := h.consolidates hrun (poolValues chosen) (poolValues_le hchosen) (by
    rw [← Multiset.card_pos, card_poolValues]
    omega)
  rw [card_poolValues, gatherFee, if_pos hhigh] at hcap
  omega

/-! ## Merging the largest holdings delivers what gathering leaves -/

/-- Where gathering pays, the largest values pay for being merged. -/
theorem exact_lt_worth_largest {largest rest : Multiset UInt64}
    (hcard : largest.card = s.limit) (hrest : rest ≠ 0)
    (hle : ∀ x ∈ rest, ∀ y ∈ largest, x ≤ y)
    (hcost : f.gatherCost s (rest + largest).card < worth (rest + largest)) :
    f.exact ⟨s.limit, gatherOutputs⟩ < worth largest := by
  have htwo := s.two_le_limit
  have hpos := Multiset.card_pos.mpr hrest
  have haverage := card_mul_worth_le hle
  have hshare := f.mul_exact_le_mul_gatherCost s
    (show s.limit < (rest + largest).card by rw [Multiset.card_add]; omega)
  rw [worth_add] at hcost
  rw [Multiset.card_add] at hcost hshare
  rw [hcard] at haverage hcost hshare
  have hscaled : s.limit * f.gatherCost s (rest.card + s.limit) <
      s.limit * (worth rest + worth largest) :=
    Nat.mul_lt_mul_of_pos_left hcost (by omega)
  by_contra hnot
  have hbound : (rest.card + s.limit) * worth largest ≤
      (rest.card + s.limit) * f.exact ⟨s.limit, gatherOutputs⟩ :=
    Nat.mul_le_mul_left _ (by omega)
  nlinarith

/-- Where gathering pays and takes a merge, the largest holdings can be merged first. -/
theorem exists_profitable_batch {pool : Multiset Holding} (hlimit : s.limit < pool.card)
    (hword : worth (poolValues pool) < UInt64.size)
    (hcost : f.gatherCost s pool.card < worth (poolValues pool)) :
    ∃ (b : Batch) (rest : Multiset Holding),
      pool = b.spent + rest ∧ b.spent.length = s.limit ∧
        (b.fee f.rule).toNat = f.exact ⟨s.limit, gatherOutputs⟩ ∧
          worth (poolValues b.spent) = (b.fee f.rule).toNat + b.output.toNat ∧ 0 < b.output := by
  obtain ⟨rest, largest, rfl, hrest, hle⟩ :=
    Holding.exists_split pool (Nat.sub_le pool.card s.limit)
  rw [Multiset.card_add] at hlimit hrest
  have hlargest : largest.card = s.limit := by omega
  have hlt : f.exact ⟨s.limit, gatherOutputs⟩ < worth (poolValues largest) := by
    have hne : poolValues rest ≠ 0 := by
      rw [← Multiset.card_pos, card_poolValues]
      omega
    refine exact_lt_worth_largest ?_ hne (poolValues_le_of_forall_le hle) (by simpa using hcost)
    rw [card_poolValues, hlargest]
  rw [poolValues_add, worth_add] at hword
  have hfee : (f.rule ⟨largest.card, gatherOutputs⟩).toNat =
      f.exact ⟨s.limit, gatherOutputs⟩ := by
    rw [hlargest, LinearFee.toNat_rule]
    omega
  obtain ⟨b, rfl, hbalance, hpositive⟩ :=
    Batch.exists_of_fee_lt f.rule largest (by omega) (by omega)
  exact ⟨b, rest, add_comm _ _, hlargest, hfee, hbalance, hpositive⟩

theorem Delivers.merge {rule : FeeRule} {number amount : ℕ} {rest : Multiset Holding}
    {b : Batch} (hlow : 1 ≤ b.spent.length) (hhigh : b.spent.length ≤ s.limit)
    (hbalance : worth (poolValues b.spent) = (b.fee rule).toNat + b.output.toNat)
    (hpositive : 0 < b.output)
    (h : s.Delivers rule (number + 1) (b.holding number ::ₘ rest) amount) :
    s.Delivers rule number (b.spent + rest) amount := by
  obtain ⟨batches, available, chosen, hrun, hchosen⟩ := h
  exact ⟨b :: batches, available, chosen,
    .merge rfl ⟨hlow, hhigh⟩ hbalance hpositive hrun, hchosen⟩

/-- Whatever gathering a pool leaves can be delivered. -/
theorem delivers_of_gatherCost_lt {pool : Multiset Holding} (hpool : pool ≠ 0) (number : ℕ)
    (hword : worth (poolValues pool) < UInt64.size)
    (hcost : f.gatherCost s pool.card < worth (poolValues pool)) :
    s.Delivers f.rule number pool
      (worth (poolValues pool) - f.gatherCost s pool.card) := by
  induction hcard : pool.card using Nat.strong_induction_on generalizing pool number with
  | h k ih =>
      subst hcard
      by_cases hlimit : pool.card ≤ s.limit
      · have hone := Multiset.card_pos.mpr hpool
        have hfee : (f.rule ⟨pool.card, gatherOutputs⟩).toNat = f.gatherCost s pool.card := by
          rw [f.gatherCost_of_le s hlimit] at hcost ⊢
          rw [LinearFee.toNat_rule]
          omega
        exact ⟨[], pool, pool, .done number pool, le_rfl, hone, hlimit, by omega, by omega⟩
      · have htwo := s.two_le_limit
        obtain ⟨b, rest, rfl, hlength, hfee, hbalance, hpositive⟩ :=
          exists_profitable_batch (by omega) hword hcost
        refine Delivers.merge (by omega) hlength.le hbalance hpositive ?_
        have hstep := f.gatherCost_step s (not_le.mp hlimit)
        have hcount : (b.holding number ::ₘ rest).card =
            (b.spent + rest : Multiset Holding).card - (s.limit - 1) := by
          rw [Multiset.card_cons, Multiset.card_add, Multiset.coe_card]
          omega
        have hvalue : worth (poolValues (b.spent + rest)) =
            f.exact ⟨s.limit, gatherOutputs⟩ + worth (poolValues (b.holding number ::ₘ rest)) := by
          simp only [poolValues_add, worth_add, hbalance, hfee, poolValues_cons, worth_cons,
            Batch.value_holding]
          ring
        have hnext := ih (b.holding number ::ₘ rest).card (by omega) Multiset.cons_ne_zero
          (number + 1) (by omega) (by rw [hcount]; omega) rfl
        rw [hcount] at hnext
        convert hnext using 1
        omega

/-! ## The transferable amount -/

theorem max?_bestNet (s : Selector) (rule : FeeRule) (values : List UInt64) :
    (0 :: (List.range' 1 values.length).map (s.netOfLeading rule values)).max? =
      some (s.bestNet rule values) :=
  List.max?_cons'

/-- The leading values the selector looks at bound every choice. -/
theorem capped_bestNet (s : Selector) (rule : FeeRule) {values : List UInt64}
    (hdesc : values.Pairwise (· ≥ ·)) :
    s.Capped rule (s.bestNet rule values) values := by
  intro chosen hchosen hne
  have hleading := worth_le_total_take hdesc hchosen
  have hlength : chosen.card ≤ values.length := by
    simpa using Multiset.card_le_card hchosen
  have hpos := Multiset.card_pos.mpr hne
  have hmem : s.netOfLeading rule values chosen.card ∈
      0 :: (List.range' 1 values.length).map (s.netOfLeading rule values) := by
    refine List.mem_cons_of_mem _ (List.mem_map.mpr ⟨chosen.card, ?_, rfl⟩)
    rw [List.mem_range'_1]
    omega
  have hle := (List.max?_eq_some_iff.mp (max?_bestNet s rule values)).2 _ hmem
  rw [netOfLeading] at hle
  omega

theorem exists_netOfLeading_eq_bestNet {rule : FeeRule} {values : List UInt64}
    (h : s.bestNet rule values ≠ 0) :
    ∃ k, 1 ≤ k ∧ k ≤ values.length ∧ s.netOfLeading rule values k = s.bestNet rule values := by
  have hmem := (List.max?_eq_some_iff.mp (max?_bestNet s rule values)).1
  obtain ⟨k, hk, hnet⟩ := List.mem_map.mp ((List.mem_cons.mp hmem).resolve_left h)
  rw [List.mem_range'_1] at hk
  exact ⟨k, hk.1, by omega, hnet⟩

theorem bestNet_le_total (s : Selector) (rule : FeeRule) (values : List UInt64) :
    s.bestNet rule values ≤ total values := by
  by_cases hzero : s.bestNet rule values = 0
  · omega
  · obtain ⟨k, -, -, hnet⟩ := exists_netOfLeading_eq_bestNet hzero
    have hprefix := total_take_le values k
    rw [← hnet, netOfLeading]
    omega

/-- A fee that takes the whole balance takes every leading part of it. -/
theorem bestNet_eq_zero_of_total_le {values : List UInt64}
    (h : total values ≤ (f.rule ⟨1, gatherOutputs⟩).toNat) :
    s.bestNet f.rule values = 0 := by
  by_contra hne
  obtain ⟨k, hk, hlength, hnet⟩ := exists_netOfLeading_eq_bestNet hne
  have hprefix := total_take_le values k
  have hfee : (f.rule ⟨1, gatherOutputs⟩).toNat ≤ (s.gatherFee f.rule k).toNat := by
    rw [f.gatherFee_rule]
    exact toNat_clip_mono (f.exact_one_le_gatherCost s hk)
  rw [netOfLeading] at hnet
  omega

/-- Holdings that stay in the pool do no harm to a schedule. -/
theorem Delivers.mono {rule : FeeRule} {number amount : ℕ} {pool pool' : Multiset Holding}
    (hle : pool ≤ pool') (h : s.Delivers rule number pool amount) :
    s.Delivers rule number pool' amount := by
  obtain ⟨extra, rfl⟩ := Multiset.le_iff_exists_add.mp hle
  obtain ⟨batches, available, chosen, hrun, hchosen, hrest⟩ := h
  exact ⟨batches, available + extra, chosen, hrun.add_right (fun _ _ _ hmay => hmay) extra,
    hchosen.trans (Multiset.le_add_right available extra), hrest⟩

theorem delivers_bestNet {values : List UInt64} (hdesc : values.Pairwise (· ≥ ·))
    (hword : total values < UInt64.size) (hbest : s.bestNet f.rule values ≠ 0)
    {pool : Multiset Holding} (hpool : poolValues pool = values) (number : ℕ) :
    s.Delivers f.rule number pool (s.bestNet f.rule values) := by
  obtain ⟨k, hk, hlength, hnet⟩ := exists_netOfLeading_eq_bestNet hbest
  have hcard : pool.card = values.length := by
    rw [← card_poolValues, hpool, Multiset.coe_card]
  obtain ⟨low, high, rfl, hlow, hle⟩ :=
    Holding.exists_split pool (show pool.card - k ≤ pool.card from Nat.sub_le _ _)
  have hhigh : high.card = k := by
    rw [Multiset.card_add] at hcard hlow
    omega
  have hleading : worth (poolValues high) = total (values.take k) := by
    have hparts : (values : Multiset UInt64) = poolValues low + poolValues high := by
      rw [← hpool, poolValues_add]
    have hsplit := drop_descending hdesc hparts (poolValues_le_of_forall_le hle)
    rw [← hsplit.2, card_poolValues, hhigh, worth_coe]
  have htotal := total_take_le values k
  rw [← hnet, netOfLeading, f.gatherFee_rule] at hbest ⊢
  have hcost : f.gatherCost s high.card < worth (poolValues high) := by
    rw [toNat_clip] at hbest
    rw [hleading, hhigh]
    omega
  have hdelivers := delivers_of_gatherCost_lt
    (Multiset.card_pos.mp (by omega)) number (by omega) hcost
  refine (Delivers.mono (Multiset.le_add_left high low) ?_)
  convert hdelivers using 1
  rw [hleading, hhigh, toNat_clip]
  omega

variable {token : TokenId} {records : List Record} {values : List UInt64}

theorem transferable_of_overflow
    (hvalues : Record.values (spendingOrder token records) = values)
    (hword : UInt64.size ≤ total values) (rule : FeeRule) :
    s.transferable token rule records = .error (.recordsOverflow values.length token) := by
  have hsum := checkedSum_eq_error_iff.mpr ⟨rfl, hword⟩
  simp only [transferable, hvalues, hsum]

/-- Under a built-in rule nothing can be sent exactly where no prefix leaves anything. -/
theorem transferable_of_bestNet_eq_zero
    (hvalues : Record.values (spendingOrder token records) = values)
    (hword : total values < UInt64.size) (hbest : s.bestNet f.rule values = 0) :
    ∃ e, s.transferable token f.rule records = .error e ∧ e.kind = .feeExceedsBalance := by
  obtain ⟨balance, hsum, -⟩ := exists_checkedSum hword
  simp only [transferable, hvalues, hsum, hbest, if_true]
  split
  · exact ⟨_, rfl, rfl⟩
  · exact ⟨_, rfl, rfl⟩

/-- What there is to transfer: the most that leading values leave, where the records have a sum
and the fee of the smallest transaction does not cover it. -/
theorem transferable_eq_ok_iff {rule : FeeRule} {a : UInt64}
    (hvalues : Record.values (spendingOrder token records) = values) :
    s.transferable token rule records = .ok a ↔
      total values < UInt64.size ∧ (rule ⟨1, gatherOutputs⟩).toNat < total values ∧
        0 < a ∧ a.toNat = s.bestNet rule values := by
  have hle := s.bestNet_le_total rule values
  simp only [transferable, hvalues, UInt64.lt_iff_toNat_lt, UInt64.toNat_zero]
  cases hsum : checkedSum values with
  | error error =>
      have hlarge := (checkedSum_eq_error_iff.mp hsum).2
      simp only [reduceCtorEq, false_iff]
      omega
  | ok balance =>
      have hbalance := checkedSum_eq_ok_iff.mp hsum
      have hword := balance.toNat_lt
      have hclip := toNat_clip (s.bestNet rule values)
      simp only [UInt64.size] at hclip ⊢
      simp only [UInt64.le_iff_toNat_le]
      split_ifs with hcovers hnothing
      · simp only [false_iff]
        omega
      · simp only [false_iff]
        omega
      · rw [Except.ok.injEq, ← UInt64.toNat_inj]
        omega

theorem transferable_of_bestNet_ne_zero
    (hvalues : Record.values (spendingOrder token records) = values)
    (hword : total values < UInt64.size) (hbest : s.bestNet f.rule values ≠ 0) :
    ∃ a : UInt64, s.transferable token f.rule records = .ok a ∧
      a.toNat = s.bestNet f.rule values := by
  have hle := s.bestNet_le_total f.rule values
  have hleast : (f.rule ⟨1, gatherOutputs⟩).toNat < total values := by
    by_contra hcovers
    exact hbest (bestNet_eq_zero_of_total_le (not_lt.mp hcovers))
  have hnet : (UInt64.ofNat (s.bestNet f.rule values)).toNat = s.bestNet f.rule values :=
    UInt64.toNat_ofNat_of_lt (hle.trans_lt hword)
  refine ⟨_, (transferable_eq_ok_iff hvalues).mpr ⟨hword, hleast, ?_, hnet⟩, hnet⟩
  rw [UInt64.lt_iff_toNat_lt, hnet]
  exact Nat.pos_of_ne_zero hbest

/-- The transferable amount is what the best of all schedules delivers.  It is refused for
an overflow exactly where the records have no sum, and for its fee exactly where no schedule
delivers anything. -/
theorem transferable_isGreatest (s : Selector) {rule : FeeRule} (hrule : rule.BuiltIn)
    (token : TokenId) (records : List Record) :
    let values := Record.values (records.filter fun r => r.token = token)
    let delivered := {amount | s.Delivers rule 0 (Holding.ofValues values) amount}
    (UInt64.size ≤ total values →
      ∃ e, s.transferable token rule records = .error e ∧ e.kind = .balanceOverflow) ∧
    (total values < UInt64.size →
      ((∃ a, s.transferable token rule records = .ok a) ↔ delivered.Nonempty) ∧
      (∀ a, s.transferable token rule records = .ok a ↔ IsGreatest delivered a.toNat) ∧
      ((∃ e, s.transferable token rule records = .error e ∧ e.kind = .feeExceedsBalance) ↔
        delivered = ∅)) := by
  intro values delivered
  obtain ⟨f, rfl⟩ := hrule.exists_linear
  generalize hordered : Record.values (spendingOrder token records) = ordered
  have hdesc : ordered.Pairwise (· ≥ ·) := hordered ▸ values_spendingOrder_descending token records
  have htotal : total ordered = total values :=
    hordered ▸ total_values_spendingOrder token records
  have hpool : poolValues (Holding.ofValues values) = ordered := by
    rw [poolValues_coe, Holding.values_ofValues, ← hordered, coe_values_spendingOrder]
  have hbound : ∀ amount ∈ delivered, amount ≤ s.bestNet f.rule ordered := by
    intro amount hamount
    refine le_of_delivers ?_ hamount
    rw [hpool]
    exact s.capped_bestNet f.rule hdesc
  have hpositive : ∀ amount ∈ delivered, 0 < amount := by
    rintro amount ⟨_, _, _, -, -, -, -, hpos, -⟩
    exact hpos
  refine ⟨fun hword => ⟨_, transferable_of_overflow hordered (htotal ▸ hword) f.rule, rfl⟩, ?_⟩
  intro hword
  rw [← htotal] at hword
  by_cases hbest : s.bestNet f.rule ordered = 0
  · have hempty : delivered = ∅ := by
      refine Set.eq_empty_of_forall_notMem fun amount hamount => ?_
      have hle := hbound amount hamount
      have hpos := hpositive amount hamount
      omega
    obtain ⟨e, hresult, hkind⟩ := transferable_of_bestNet_eq_zero hordered hword hbest
    simp [hresult, hkind, hempty, IsGreatest]
  · have hmem : s.bestNet f.rule ordered ∈ delivered := delivers_bestNet hdesc hword hbest hpool 0
    obtain ⟨a, hresult, ha⟩ := transferable_of_bestNet_ne_zero hordered hword hbest
    have hgreatest : IsGreatest delivered a.toNat := ha ▸ ⟨hmem, hbound⟩
    have hne : delivered ≠ ∅ := Set.nonempty_iff_ne_empty.mp ⟨_, hmem⟩
    refine ⟨?_, ?_, ?_⟩
    · simp [hresult, Set.nonempty_iff_ne_empty, hne]
    · intro a'
      rw [hresult, Except.ok.injEq, ← UInt64.toNat_inj]
      exact ⟨fun heq => heq ▸ hgreatest, fun hother => hgreatest.unique hother⟩
    · simp [hresult, hne]

/-- With a limit of two, gathering three records of 10 takes a merge; the record of 1 is not
worth its fee. -/
theorem isGreatest_delivered_dust :
    FeeRule.BuiltIn (LinearFee.rule ⟨1, 1, 0⟩) ∧
      IsGreatest {amount | (ofLimit 2).Delivers (LinearFee.rule ⟨1, 1, 0⟩) 0
        (Holding.ofValues [10, 1, 10, 10]) amount} 24 := by
  refine ⟨.linear ⟨1, 1, 0⟩, ?_⟩
  have h := transferable_isGreatest (ofLimit 2) (.linear ⟨1, 1, 0⟩) .mob
    [.numbered 10 1 .mob 0, .numbered 1 2 .mob 0, .numbered 10 3 .mob 0, .numbered 10 4 .mob 0]
  exact ((h.2 (by cbv)).2.1 24).mp (by cbv)

end SpendPlanner.Selector
