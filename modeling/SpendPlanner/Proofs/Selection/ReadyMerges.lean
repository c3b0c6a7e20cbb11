import SpendPlanner.Proofs.Selection.PlanningRun
import SpendPlanner.Selection.Gathering

/-!
# Ready merges

Some batches of a planning run spend records alone.  They are ready at once: the steps that
can be carried out now are these batches, with the records that their holdings stand for.  No
record is in two of them, and the first batch of a run is always ready.
-/

namespace SpendPlanner

/-! ## Ready batches -/

/-- Whether an origin is a record. -/
def Origin.isRecord : Origin → Bool
  | record _ => true
  | merged _ => false

/-- Whether a transaction spends records alone. -/
def Batch.isReady (b : Batch) : Bool := b.spent.all fun x => x.origin.isRecord

theorem Batch.isReady_iff {b : Batch} :
    b.isReady = true ↔ ∀ x ∈ b.spent, x.origin.isRecord = true := by
  simp [isReady]

theorem Batch.length_eq_ready_add (batches : List Batch) :
    batches.length = (batches.filter Batch.isReady).length +
      batches.countP fun b => !b.isReady := by
  rw [List.length_eq_countP_add_countP Batch.isReady, List.countP_eq_length_filter]
  simp

/-- The holdings that the ready ones among transactions spend. -/
def readySpent (batches : List Batch) : List Holding :=
  (batches.filter Batch.isReady).flatMap Batch.spent

/-- The values that the ready ones among transactions leave. -/
def readyOutputs (batches : List Batch) : Multiset UInt64 :=
  (batches.filter Batch.isReady).map Batch.output

theorem readySpent_cons_of_isReady {b : Batch} (h : b.isReady = true) (batches : List Batch) :
    (readySpent (b :: batches) : Multiset Holding) = b.spent + readySpent batches := by
  rw [readySpent, List.filter_cons_of_pos h, List.flatMap_cons, ← Multiset.coe_add, readySpent]

theorem readySpent_cons_of_not_isReady {b : Batch} (h : b.isReady = false)
    (batches : List Batch) : readySpent (b :: batches) = readySpent batches := by
  rw [readySpent, List.filter_cons_of_neg (by simp [h]), readySpent]

theorem readyOutputs_cons_of_isReady {b : Batch} (h : b.isReady = true)
    (batches : List Batch) :
    readyOutputs (b :: batches) = b.output ::ₘ readyOutputs batches := by
  rw [readyOutputs, List.filter_cons_of_pos h, List.map_cons, ← Multiset.cons_coe, readyOutputs]

theorem readyOutputs_cons_of_not_isReady {b : Batch} (h : b.isReady = false)
    (batches : List Batch) : readyOutputs (b :: batches) = readyOutputs batches := by
  rw [readyOutputs, List.filter_cons_of_neg (by simp [h]), readyOutputs]

theorem mem_readyOutputs {batches : List Batch} {w : UInt64} :
    w ∈ readyOutputs batches ↔ ∃ b ∈ batches, b.isReady = true ∧ b.output = w := by
  simp [readyOutputs, and_assoc]

theorem Holding.isRecord_of_mem_ofValues {values : List UInt64} {x : Holding}
    (hx : x ∈ ofValues values) : x.origin.isRecord = true := by
  obtain ⟨place, horigin, -⟩ := origin_of_mem_ofValues hx
  rw [horigin]
  rfl

/-- No output of a transaction is a record. -/
theorem filter_isRecord_cons (b : Batch) (number : ℕ) (rest : Multiset Holding) :
    (b.holding number ::ₘ rest).filter (fun x => x.origin.isRecord = true) =
      rest.filter fun x => x.origin.isRecord = true :=
  Multiset.filter_cons_of_neg _ (by simp [Batch.holding, Origin.isRecord])

namespace Consolidates

variable {rule : FeeRule} {allowed : Multiset Holding → Multiset Holding → Prop}
variable {number : ℕ} {pool final : Multiset Holding} {batches : List Batch}

/-- Ready batches spend different records of the pool. -/
theorem readySpent_le
    (h : Consolidates rule allowed number pool batches final) :
    (readySpent batches : Multiset Holding) ≤
      pool.filter fun x => x.origin.isRecord = true := by
  induction h with
  | done number pool => exact Multiset.zero_le _
  | @merge number pool rest final b batches hpool hallowed hbalance hpositive hlater ih =>
      rw [filter_isRecord_cons] at ih
      rw [hpool, Multiset.filter_add]
      cases hready : b.isReady with
      | true =>
          have hspent : (b.spent : Multiset Holding).filter
              (fun x => x.origin.isRecord = true) = b.spent :=
            Multiset.filter_eq_self.mpr fun x hx => Batch.isReady_iff.mp hready x hx
          rw [hspent, readySpent_cons_of_isReady hready]
          exact add_le_add le_rfl ih
      | false =>
          rw [readySpent_cons_of_not_isReady hready]
          exact ih.trans (Multiset.le_add_left _ _)

/-- Ready batches leave no more than they spend. -/
theorem worth_readyOutputs_le
    (h : Consolidates rule allowed number pool batches final) :
    worth (readyOutputs batches) ≤ worth (poolValues (readySpent batches)) := by
  induction h with
  | done number pool => exact le_rfl
  | @merge number pool rest final b batches hpool hallowed hbalance hpositive hlater ih =>
      cases hready : b.isReady with
      | true =>
          rw [readyOutputs_cons_of_isReady hready, readySpent_cons_of_isReady hready,
            worth_cons, poolValues_add, worth_add, hbalance]
          omega
      | false =>
          rwa [readyOutputs_cons_of_not_isReady hready, readySpent_cons_of_not_isReady hready]

/-- The first of the batches that start from records is ready. -/
theorem filter_isReady_ne_nil
    (h : Consolidates rule allowed number pool batches final)
    (hrecords : ∀ x ∈ pool, x.origin.isRecord = true) (hne : batches ≠ []) :
    batches.filter Batch.isReady ≠ [] := by
  cases h with
  | done => exact absurd rfl hne
  | @merge _ _ rest _ b batches hpool hallowed hbalance hpositive hlater =>
      have hready : b.isReady = true :=
        Batch.isReady_iff.mpr fun x hx => hrecords x (by simp [hpool, hx])
      rw [List.filter_cons_of_pos hready]
      exact List.cons_ne_nil _ _

end Consolidates

/-! ## Steps -/

/-- The record that a holding stands for, unless it is the output of a merge. -/
def Holding.record? (ordered : List Record) (x : Holding) : Option Record :=
  x.origin.record? ordered

/-- A holding stands for a record of its value. -/
def Holding.Stands (ordered : List Record) (x : Holding) : Prop :=
  ∃ r, x.record? ordered = some r ∧ r.value = x.value

theorem Holding.stands_of_mem_ofValues {ordered : List Record} {x : Holding}
    (hx : x ∈ ofValues (Record.values ordered)) : x.Stands ordered := by
  obtain ⟨place, horigin, hvalue⟩ := origin_of_mem_ofValues hx
  rw [Record.values, List.getElem?_map, Option.map_eq_some_iff] at hvalue
  obtain ⟨r, hr, hvalue⟩ := hvalue
  exact ⟨r, by rw [Holding.record?, horigin, Origin.record?, hr], hvalue⟩

/-- The holdings of a list of records stand for these records, in their order. -/
theorem Holding.filterMap_record?_ofValues (ordered : List Record) :
    (ofValues (Record.values ordered)).filterMap (Holding.record? ordered) =
      ordered := by
  have hmap : (ofValues (Record.values ordered)).map (Holding.record? ordered) =
      ordered.map some := by
    apply List.ext_getElem?
    intro i
    cases h : ordered[i]? <;>
      simp [ofValues, Record.values, List.getElem?_map, List.getElem?_zipIdx, h,
        Holding.record?, Origin.record?]
  have hall := congrArg (List.filterMap id) hmap
  rw [List.filterMap_map, List.filterMap_map] at hall
  exact hall.trans List.filterMap_some

theorem Holding.values_filterMap_record? {ordered : List Record} {xs : List Holding}
    (h : ∀ x ∈ xs, x.Stands ordered) :
    Record.values (xs.filterMap (Holding.record? ordered)) = Holding.values xs := by
  induction xs with
  | nil => rfl
  | cons x xs ih =>
      obtain ⟨⟨r, hr, hvalue⟩, hxs⟩ := List.forall_mem_cons.mp h
      rw [List.filterMap_cons_some hr, Record.values, List.map_cons, hvalue, ← Record.values,
        ih hxs]
      rfl

namespace Batch

variable {rule : FeeRule} {ordered : List Record}

/-- A ready transaction with the records that it spends. -/
def step (rule : FeeRule) (ordered : List Record) (b : Batch) : ReadyMerge :=
  ⟨b.spent.filterMap (Holding.record? ordered), b.fee rule, b.output⟩

theorem mapM_record? {xs : List Holding} (h : ∀ x ∈ xs, x.Stands ordered) :
    (xs.map Holding.origin).mapM (Origin.record? ordered) =
      some (xs.filterMap (Holding.record? ordered)) := by
  induction xs with
  | nil => rfl
  | cons x xs ih =>
      obtain ⟨⟨r, hr, -⟩, hxs⟩ := List.forall_mem_cons.mp h
      rw [List.map_cons, List.mapM_cons, ih hxs, ← Holding.record?, hr,
        List.filterMap_cons_some hr]
      rfl

theorem mapM_record?_of_not_isReady {xs : List Holding}
    (h : ∃ x ∈ xs, x.origin.isRecord = false) :
    (xs.map Holding.origin).mapM (Origin.record? ordered) = none := by
  induction xs with
  | nil => simp at h
  | cons x xs ih =>
      rw [List.map_cons, List.mapM_cons]
      cases hx : x.origin with
      | merged k => rfl
      | record place =>
          have hlater : ∃ x ∈ xs, x.origin.isRecord = false := by
            simpa [hx, Origin.isRecord] using h
          rw [ih hlater]
          cases Origin.record? ordered (.record place) <;> rfl

/-- The steps that can be carried out are the ready transactions. -/
theorem filterMap_step?_merge {batches : List Batch}
    (h : ∀ x ∈ readySpent batches, x.Stands ordered) :
    (batches.map (Batch.merge rule)).filterMap (Merge.step? ordered) =
      (batches.filter isReady).map (step rule ordered) := by
  induction batches with
  | nil => rfl
  | cons b batches ih =>
      cases hready : b.isReady with
      | true =>
          rw [readySpent, List.filter_cons_of_pos hready, List.flatMap_cons,
            List.forall_mem_append, ← readySpent] at h
          have hstep : (b.merge rule).step? ordered = some (b.step rule ordered) := by
            simp only [Merge.step?, merge, mapM_record? h.1]
            rfl
          rw [List.map_cons, List.filterMap_cons_some hstep, ih h.2,
            List.filter_cons_of_pos hready, List.map_cons]
      | false =>
          have hstep : (b.merge rule).step? ordered = none := by
            simp only [Merge.step?, merge]
            rw [mapM_record?_of_not_isReady (by simpa [isReady] using hready)]
            rfl
          rw [readySpent_cons_of_not_isReady hready] at h
          rw [List.map_cons, List.filterMap_cons_none hstep, ih h,
            List.filter_cons_of_neg (by simp [hready])]

theorem flatMap_inputs_step (rule : FeeRule) (ordered : List Record) (batches : List Batch) :
    ((batches.filter isReady).map (step rule ordered)).flatMap ReadyMerge.inputs =
      (readySpent batches).filterMap (Holding.record? ordered) := by
  rw [readySpent, List.flatMap_map, List.filterMap_flatMap]
  rfl

end Batch

namespace Consolidates

variable {rule : FeeRule} {allowed : Multiset Holding → Multiset Holding → Prop}
variable {number : ℕ} {ordered : List Record} {batches : List Batch} {final : Multiset Holding}

theorem stands_of_mem_readySpent
    (h : Consolidates rule allowed number (Holding.ofValues (Record.values ordered)) batches
      final) :
    ∀ x ∈ readySpent batches, x.Stands ordered := by
  intro x hx
  have hmem := Multiset.mem_of_le (h.readySpent_le.trans (Multiset.filter_le _ _)) hx
  exact Holding.stands_of_mem_ofValues hmem

/-- The steps of a run that starts from records spend different records of these. -/
theorem inputs_step_le
    (h : Consolidates rule allowed number (Holding.ofValues (Record.values ordered)) batches
      final) :
    (((batches.filter Batch.isReady).map (Batch.step rule ordered)).flatMap
      ReadyMerge.inputs : Multiset Record) ≤ ordered := by
  have hspent := h.readySpent_le.trans (Multiset.filter_le _ _)
  have hrecords := Multiset.filterMap_le_filterMap (Holding.record? ordered) hspent
  rwa [Multiset.filterMap_coe, Multiset.filterMap_coe, ← Batch.flatMap_inputs_step rule,
    Holding.filterMap_record?_ofValues] at hrecords

end Consolidates

namespace Selector

variable {s : Selector} {rule : FeeRule} {amount : Amount} {records : List Record}

/-- The steps of a plan are the ready ones among its merges. -/
theorem defragment_of_plan {merges : List Merge} {fee : UInt64} (hpositive : amount.value ≠ 0)
    (hrun : s.planningRun rule amount.value
      (Record.values (spendingOrder amount.token records)) = ⟨merges, .ok fee⟩) :
    s.defragment amount rule records =
      .ok (merges.filterMap (Merge.step? (spendingOrder amount.token records))) := by
  simp only [defragment, hpositive, if_false]
  cases hfit : s.fit? rule paymentOutputs amount.value
      (Record.values (spendingOrder amount.token records)) with
  | some k =>
      rw [planningRun_of_fit? (values_spendingOrder_descending _ _) hfit] at hrun
      cases hrun
      rfl
  | none =>
      have hplan : s.plan rule amount.value (Record.values (spendingOrder amount.token records)) =
          .ok ⟨merges, fee⟩ := plan_eq_ok_iff.mpr hrun
      simp only [hplan]

/-- The steps that can be carried out are the ready batches of a run of the planner. -/
theorem exists_consolidates_of_defragment {steps : List ReadyMerge}
    (h : s.defragment amount rule records = .ok steps) :
    ∃ (batches : List Batch) (final : Multiset Holding),
      Consolidates rule (s.Due rule amount.value) 0
        (Holding.ofValues (Record.values (spendingOrder amount.token records))) batches final ∧
      steps = (batches.filter Batch.isReady).map
        (Batch.step rule (spendingOrder amount.token records)) := by
  by_cases hpositive : amount.value = 0
  · simp [defragment, hpositive] at h
  · cases hfit : s.fit? rule paymentOutputs amount.value
        (Record.values (spendingOrder amount.token records)) with
    | some k =>
        simp only [defragment, hpositive, if_false, hfit, Except.ok.injEq] at h
        exact ⟨[], _, .done 0 _, h.symm⟩
    | none =>
        cases hplan : s.plan rule amount.value
            (Record.values (spendingOrder amount.token records)) with
        | error error => simp [defragment, hpositive, hfit, hplan] at h
        | ok plan =>
            have hrun := plan_eq_ok_iff.mp hplan
            obtain ⟨batches, final, k, hbatches, hmerges, -, -⟩ :=
              exists_consolidates_of_planningRun hrun
            rw [defragment_of_plan hpositive hrun, Except.ok.injEq, hmerges,
              Batch.filterMap_step?_merge hbatches.stands_of_mem_readySpent] at h
            exact ⟨batches, final, hbatches, h.symm⟩

/-- What a step that can be carried out now pays, spends and leaves. -/
theorem balance_of_mem_defragment {steps : List ReadyMerge}
    (h : s.defragment amount rule records = .ok steps) {step : ReadyMerge}
    (hstep : step ∈ steps) :
    step.fee = rule ⟨step.inputs.length, gatherOutputs⟩ ∧
      total (Record.values step.inputs) = step.fee.toNat + step.output.toNat ∧
      0 < step.output := by
  obtain ⟨batches, final, hbatches, rfl⟩ := exists_consolidates_of_defragment h
  obtain ⟨b, hb, rfl⟩ := List.mem_map.mp hstep
  have hvalues : Record.values (b.step rule (spendingOrder amount.token records)).inputs =
      Holding.values b.spent :=
    Holding.values_filterMap_record? fun x hx =>
      hbatches.stands_of_mem_readySpent x (List.mem_flatMap.mpr ⟨b, hb, hx⟩)
  have hlength : (b.step rule (spendingOrder amount.token records)).inputs.length =
      b.spent.length := by
    simpa [Record.values, Holding.values] using congrArg List.length hvalues
  obtain ⟨-, hbalance, hpositive⟩ := hbatches.of_mem (List.mem_filter.mp hb).1
  rw [poolValues_coe, worth_coe] at hbalance
  exact ⟨by rw [hlength]; rfl, by rw [hvalues]; exact hbalance, hpositive⟩

end Selector
end SpendPlanner
