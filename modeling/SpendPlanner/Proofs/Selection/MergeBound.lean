import SpendPlanner.Proofs.Selection.PlanningRun
import Mathlib.Algebra.Order.Floor.Div

/-!
# How many merges a plan takes

A merge of the planner spends as many holdings as one transaction may spend, or the whole pool
where there are fewer, and leaves one holding.  So the pool shrinks by a fixed number with every
merge but the last, and once it is a single holding no further merge is made.  The number of
holdings alone bounds the number of merges, whatever the fee rule and the outlay.
-/

namespace SpendPlanner

/-- A merge of up to `limit` of `count` holdings leaves one merge less to be made. -/
theorem ceilDiv_eq_succ_of_merge {limit count : ℕ} (hlimit : 2 ≤ limit) (hcount : 2 ≤ count) :
    (count - 1) ⌈/⌉ (limit - 1) = (count - min limit count) ⌈/⌉ (limit - 1) + 1 := by
  rw [Nat.ceilDiv_eq_add_pred_div, Nat.ceilDiv_eq_add_pred_div]
  rcases le_or_gt limit count with hmany | hfew
  · rw [min_eq_left hmany, ← Nat.add_div_right _ (show 0 < limit - 1 by omega)]
    congr 1
    omega
  · rw [min_eq_right hfew.le, Nat.sub_self, zero_add]
    have hone : (count - 1 + (limit - 1) - 1) / (limit - 1) = 1 :=
      Nat.div_eq_of_lt_le (by omega) (by omega)
    have hzero : (limit - 1 - 1) / (limit - 1) = 0 := Nat.div_eq_of_lt (by omega)
    rw [hone, hzero]

theorem mergedValue_ne_tooSmall {values : List UInt64} {fee paid : UInt64} {made : ℕ} :
    mergedValue values fee ≠ .error (.tooSmallAfterConsolidation paid made) := by
  rw [mergedValue]
  cases checkedDifference values [fee] with
  | ok value => by_cases hzero : value = 0 <;> simp [hzero]
  | error error => cases error <;> simp

variable {s : Selector} {rule : FeeRule} {outlay : UInt64}

/-- What a due merge leaves alone. -/
theorem Selector.Due.card_rest {spent rest : Multiset Holding}
    (h : s.Due rule outlay spent rest) :
    rest.card = (spent + rest).card - min s.limit (spent + rest).card := by
  have hcard := h.card_eq
  rw [Multiset.card_add] at hcard ⊢
  omega

theorem Selector.Due.two_le_card_add {spent rest : Multiset Holding}
    (h : s.Due rule outlay spent rest) : 2 ≤ (spent + rest).card := by
  have htwo := h.two_le_card
  rw [Multiset.card_add]
  omega

namespace Consolidates

variable {number : ℕ} {pool final : Multiset Holding} {batches : List Batch}

/-- The number of holdings bounds the number of merges, and the bound is met where the pool is
exhausted. -/
theorem length_le_ceilDiv (h : Consolidates rule (s.Due rule outlay) number pool batches final) :
    batches.length ≤ (pool.card - 1) ⌈/⌉ (s.limit - 1) ∧
      (final.card < 2 → batches.length = (pool.card - 1) ⌈/⌉ (s.limit - 1)) := by
  induction h with
  | done number pool =>
      refine ⟨Nat.zero_le _, fun hcard => ?_⟩
      rw [show pool.card - 1 = 0 by omega, zero_ceilDiv, List.length_nil]
  | @merge number pool rest final b batches hpool hdue hbalance hpositive hlater ih =>
      rw [Multiset.card_cons, Nat.add_sub_cancel, hdue.card_rest] at ih
      rw [hpool, ceilDiv_eq_succ_of_merge s.two_le_limit hdue.two_le_card_add, List.length_cons]
      exact ⟨Nat.succ_le_succ ih.1, fun hcard => congrArg Nat.succ (ih.2 hcard)⟩

/-- A run that goes on has at least two holdings to merge. -/
theorem two_le_card (h : Consolidates rule (s.Due rule outlay) number pool batches final)
    (hne : batches ≠ []) : 2 ≤ pool.card := by
  cases h with
  | done => exact absurd rfl hne
  | merge hpool hdue => exact hpool ▸ hdue.two_le_card_add

/-- Every merge spends as many holdings as one transaction may spend, or all that are left. -/
theorem length_spent_eq (h : Consolidates rule (s.Due rule outlay) number pool batches final)
    {i : ℕ} {b : Batch} (hb : batches[i]? = some b) :
    b.spent.length = min s.limit (pool.card - i * (s.limit - 1)) := by
  induction h generalizing i with
  | done number pool => simp at hb
  | @merge number pool rest final b' batches hpool hdue hbalance hpositive hlater ih =>
      have hcard := hdue.card_eq
      rw [hpool]
      cases i with
      | zero =>
          obtain rfl : b' = b := by simpa using hb
          rwa [zero_mul, Nat.sub_zero]
      | succ i =>
          rw [List.getElem?_cons_succ] at hb
          -- The run goes on, so the batch before did not take the whole pool.
          have htwo := hlater.two_le_card (by rintro rfl; simp at hb)
          have hlimit := s.two_le_limit
          rw [Multiset.card_cons] at htwo
          rw [Multiset.card_add] at hcard
          rw [ih hb, Multiset.card_cons, Multiset.card_add, Nat.succ_mul]
          congr 1
          omega

/-- A merge of fewer holdings takes all of them, and is the last. -/
theorem last_of_length_lt (h : Consolidates rule (s.Due rule outlay) number pool batches final)
    {i : ℕ} {b : Batch} (hb : batches[i]? = some b) (hfew : b.spent.length < s.limit) :
    i + 1 = batches.length ∧ final.card = 1 := by
  induction h generalizing i with
  | done number pool => simp at hb
  | @merge number pool rest final b' batches hpool hdue hbalance hpositive hlater ih =>
      cases i with
      | zero =>
          obtain rfl : b' = b := by simpa using hb
          have hcard := hdue.card_eq
          rw [Multiset.card_add, Multiset.coe_card] at hcard
          obtain rfl : rest = 0 := Multiset.card_eq_zero.mp (by omega)
          cases hlater with
          | done => exact ⟨rfl, Multiset.card_singleton _⟩
          | merge hpool' hdue' =>
              have htwo := hdue'.two_le_card_add
              rw [← hpool', Multiset.card_cons, Multiset.card_zero] at htwo
              omega
      | succ i =>
          rw [List.getElem?_cons_succ] at hb
          obtain ⟨hlast, hfinal⟩ := ih hb
          exact ⟨congrArg Nat.succ hlast, hfinal⟩

end Consolidates

namespace Selector

variable {values : List UInt64}

theorem StopsAt.card_lt_of_tooSmall {made made' : ℕ} {pool : Multiset Holding} {paid : UInt64}
    (h : s.StopsAt rule outlay made pool (.error (.tooSmallAfterConsolidation paid made'))) :
    pool.card < 2 ∧ made' = made := by
  cases h with
  | exhausted hcard hnot => exact ⟨hcard, rfl⟩
  | refused hpool hdue hmerge => exact absurd hmerge mergedValue_ne_tooSmall

/-- A plan is what its planning run ends with. -/
theorem plan_eq_map_outcome (hne : values ≠ []) :
    s.plan rule outlay values =
      (s.planningRun rule outlay values).outcome.map
        (Plan.mk (s.planningRun rule outlay values).merges) := by
  rw [plan, if_neg (mt List.isEmpty_iff.mp hne)]
  cases houtcome : (s.planningRun rule outlay values).outcome <;> simp [houtcome, Except.map]

/-- For any limit, raised to two where it is lower, any fee rule and any outlay, planning merges
holdings until the payment fits, a merge is refused or a single holding is left.  It makes no
more merges than it takes to bring the values down to one, and exactly as many where it ends for
want of further holdings.  Every merge spends as many holdings as one transaction may spend or
all there are, at least two; one that spends fewer is the last and leaves a single holding. -/
theorem planningRun_ends_within (limit : ℕ) (rule : FeeRule) (outlay : UInt64)
    {values : List UInt64} (hne : values ≠ []) :
    let s := ofLimit limit
    let run := s.planningRun rule outlay values
    let most := (values.length - 1) ⌈/⌉ (max 2 limit - 1)
    s.plan rule outlay values = run.outcome.map (Plan.mk run.merges) ∧
    ∃ (batches : List Batch) (final : Multiset Holding),
      Consolidates rule (s.Due rule outlay) 0 (Holding.ofValues values) batches final ∧
        run.merges = batches.map (Batch.merge rule) ∧
        s.StopsAt rule outlay run.merges.length final run.outcome ∧
        run.merges.length ≤ most ∧
        (∀ (i : ℕ) (m : Merge), run.merges[i]? = some m →
          m.origins.length = min (max 2 limit) (values.length - i * (max 2 limit - 1)) ∧
            2 ≤ m.origins.length ∧
            (m.origins.length < max 2 limit →
              i + 1 = run.merges.length ∧ final.card = 1)) ∧
        ∀ (paid : UInt64) (made : ℕ),
          run.outcome = .error (.tooSmallAfterConsolidation paid made) →
            made = run.merges.length ∧ run.merges.length = most := by
  intro s run most
  obtain ⟨batches, final, hbatches, hmerges, hstop⟩ :=
    consolidate_spec s rule outlay [] (Holding.ofValues values)
  rw [List.nil_append] at hmerges
  change run.merges = batches.map (Batch.merge rule) at hmerges
  change s.StopsAt rule outlay _ final run.outcome at hstop
  have hcount : run.merges.length = batches.length := by
    rw [hmerges, List.length_map]
  rw [List.length_nil, zero_add, ← hcount] at hstop
  have hpool : (Holding.ofValues values : Multiset Holding).card = values.length := by
    rw [← card_poolValues, Holding.poolValues_ofValues, Multiset.coe_card]
  obtain ⟨hle, hexhausted⟩ := hbatches.length_le_ceilDiv
  rw [hpool, ← hcount] at hle hexhausted
  refine ⟨plan_eq_map_outcome hne, batches, final, hbatches, hmerges, hstop, hle,
    fun i m hm => ?_, fun paid made hout => ?_⟩
  · rw [hmerges, List.getElem?_map] at hm
    obtain ⟨b, hb, rfl⟩ := Option.map_eq_some_iff.mp hm
    obtain ⟨⟨rest, hdue⟩, -⟩ := hbatches.of_mem (List.mem_of_getElem? hb)
    have hlength : (b.merge rule).origins.length = b.spent.length := List.length_map _
    rw [hlength, hcount, ← hpool]
    exact ⟨hbatches.length_spent_eq hb, hdue.two_le_card, hbatches.last_of_length_lt hb⟩
  · rw [hout] at hstop
    obtain ⟨hcard, hmade⟩ := hstop.card_lt_of_tooSmall
    exact ⟨hmade, hexhausted hcard⟩

/-- A limit of nothing is raised to two, so that three records of 10 are merged twice in vain.
With a limit of three, four of them are merged at once but for one, which is merged with what is
left. -/
theorem planningRun_ends_within_tens :
    let pairs := (ofLimit 0).planningRun (.fixed 1) 100 [10, 10, 10]
    let triples := (ofLimit 3).planningRun (.fixed 1) 100 [10, 10, 10, 10]
    ([10, 10, 10] : List UInt64) ≠ [] ∧
      pairs.outcome = .error (.tooSmallAfterConsolidation 100 2) ∧
      pairs.merges.length = (3 - 1) ⌈/⌉ (2 - 1) ∧
      ([10, 10, 10, 10] : List UInt64) ≠ [] ∧
      triples.merges.length ≤ (4 - 1) ⌈/⌉ (3 - 1) ∧
      triples.merges[1]? = some ⟨[.merged 0, .record 0], 1, 38⟩ ∧
      1 + 1 = triples.merges.length := by
  intro pairs triples
  have hpairs : ((ofLimit 0).planningRun (.fixed 1) 100 [10, 10, 10]).outcome =
      .error (.tooSmallAfterConsolidation 100 2) := by cbv
  have hlast : ((ofLimit 3).planningRun (.fixed 1) 100 [10, 10, 10, 10]).merges[1]? =
      some ⟨[.merged 0, .record 0], 1, 38⟩ := by cbv
  obtain ⟨-, _, _, -, -, -, -, -, hexhausted⟩ :=
    planningRun_ends_within 0 (.fixed 1) 100 (List.cons_ne_nil 10 [10, 10])
  obtain ⟨-, _, _, -, -, -, hmost, hmerges, -⟩ :=
    planningRun_ends_within 3 (.fixed 1) 100 (List.cons_ne_nil 10 [10, 10, 10])
  obtain ⟨-, -, hfew⟩ := hmerges 1 _ hlast
  exact ⟨by decide, hpairs, (hexhausted _ _ hpairs).2, by decide, hmost, hlast,
    (hfew (by decide)).1⟩

end Selector
end SpendPlanner
