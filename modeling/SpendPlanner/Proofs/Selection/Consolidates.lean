import SpendPlanner.Proofs.Selection.Prefix
import SpendPlanner.Selection.Consolidation

/-!
# Runs of consolidations

A run of consolidations spends holdings of a pool, one batch after the other, and every
batch leaves one new holding in the pool.  Which holdings a batch may spend is a parameter:
the runs a ledger accepts, those the planner makes and those a proof needs differ only in
this.  Along a run nothing is lost and nothing is spent twice, and the value of the pool
falls by the fees.
-/

namespace SpendPlanner

/-- The values of a pool of holdings. -/
def poolValues (pool : Multiset Holding) : Multiset UInt64 := pool.map Holding.value

@[simp] theorem poolValues_zero : poolValues 0 = 0 := rfl

@[simp] theorem poolValues_cons (h : Holding) (pool : Multiset Holding) :
    poolValues (h ::ₘ pool) = h.value ::ₘ poolValues pool :=
  Multiset.map_cons Holding.value h pool

@[simp] theorem poolValues_add (xs ys : Multiset Holding) :
    poolValues (xs + ys) = poolValues xs + poolValues ys :=
  Multiset.map_add Holding.value xs ys

@[simp] theorem poolValues_coe (pool : List Holding) :
    poolValues pool = Holding.values pool :=
  rfl

@[simp] theorem card_poolValues (pool : Multiset Holding) :
    (poolValues pool).card = pool.card :=
  Multiset.card_map Holding.value pool

theorem poolValues_le {xs ys : Multiset Holding} (h : xs ≤ ys) :
    poolValues xs ≤ poolValues ys :=
  Multiset.map_le_map h

@[simp] theorem mem_poolValues {pool : Multiset Holding} {w : UInt64} :
    w ∈ poolValues pool ↔ ∃ h ∈ pool, h.value = w :=
  Multiset.mem_map

theorem poolValues_le_of_forall_le {low high : Multiset Holding}
    (h : ∀ x ∈ low, ∀ y ∈ high, x.value ≤ y.value) :
    ∀ v ∈ poolValues low, ∀ w ∈ poolValues high, v ≤ w := by
  simp only [mem_poolValues]
  rintro _ ⟨x, hx, rfl⟩ _ ⟨y, hy, rfl⟩
  exact h x hx y hy

/-- A consolidation transaction: the holdings it spends and the output it leaves. -/
structure Batch where
  spent : List Holding
  output : UInt64

namespace Batch

/-- The fee of the transaction. -/
def fee (rule : FeeRule) (b : Batch) : UInt64 := rule ⟨b.spent.length, Selector.gatherOutputs⟩

/-- The transaction as a plan has it, with the origins of what it spends. -/
def merge (rule : FeeRule) (b : Batch) : Merge :=
  ⟨b.spent.map Holding.origin, b.fee rule, b.output⟩

/-- The output as a holding, if the transaction is the one of this number. -/
def holding (b : Batch) (number : ℕ) : Holding := ⟨b.output, .merged number⟩

@[simp] theorem value_holding (b : Batch) (number : ℕ) : (b.holding number).value = b.output :=
  rfl

/-- The holdings that transactions with consecutive numbers leave. -/
def outputs : ℕ → List Batch → List Holding
  | _, [] => []
  | number, b :: batches => b.holding number :: outputs (number + 1) batches

/-- The exact sum of the fees of transactions. -/
def fees (rule : FeeRule) (batches : List Batch) : ℕ :=
  (batches.map fun b => (b.fee rule).toNat).sum

@[simp] theorem fees_nil (rule : FeeRule) : fees rule [] = 0 := rfl

@[simp] theorem fees_cons (rule : FeeRule) (b : Batch) (batches : List Batch) :
    fees rule (b :: batches) = (b.fee rule).toNat + fees rule batches := by
  simp [fees]

theorem fees_eq_length_mul {rule : FeeRule} {fee : UInt64} {batches : List Batch}
    (h : ∀ b ∈ batches, b.fee rule = fee) : fees rule batches = batches.length * fee.toNat := by
  have hsame : ∀ n ∈ batches.map fun b => (b.fee rule).toNat, n = fee.toNat := by
    intro n hn
    obtain ⟨b, hb, rfl⟩ := List.mem_map.mp hn
    rw [h b hb]
  rw [fees, List.sum_eq_card_nsmul _ _ hsame, List.length_map, smul_eq_mul]

/-- Holdings worth more than the fee of spending them can be merged. -/
theorem exists_of_fee_lt (rule : FeeRule) (spent : Multiset Holding)
    (hfee : (rule ⟨spent.card, Selector.gatherOutputs⟩).toNat < worth (poolValues spent))
    (hword : worth (poolValues spent) < UInt64.size) :
    ∃ b : Batch, (b.spent : Multiset Holding) = spent ∧
      worth (poolValues b.spent) = (b.fee rule).toNat + b.output.toNat ∧ 0 < b.output := by
  let left := worth (poolValues spent) - (rule ⟨spent.card, Selector.gatherOutputs⟩).toNat
  have hleft : (UInt64.ofNat left).toNat = left := UInt64.toNat_ofNat_of_lt (by omega)
  refine ⟨⟨spent.toList, UInt64.ofNat left⟩, Multiset.coe_toList spent, ?_, ?_⟩
  · simp only [Multiset.coe_toList, fee, Multiset.length_toList, hleft]
    omega
  · rw [UInt64.lt_iff_toNat_lt, hleft, UInt64.toNat_zero]
    omega

theorem origin_of_mem_outputs {number : ℕ} {batches : List Batch} {h : Holding}
    (hmem : h ∈ outputs number batches) :
    ∃ k, number ≤ k ∧ h.origin = .merged k := by
  induction batches generalizing number with
  | nil => simp [outputs] at hmem
  | cons b batches ih =>
      rcases List.mem_cons.mp hmem with rfl | hlater
      · exact ⟨number, le_rfl, rfl⟩
      · obtain ⟨k, hk, horigin⟩ := ih hlater
        exact ⟨k, by omega, horigin⟩

theorem nodup_origins_outputs (number : ℕ) (batches : List Batch) :
    ((outputs number batches).map Holding.origin).Nodup := by
  induction batches generalizing number with
  | nil => exact List.nodup_nil
  | cons b batches ih =>
      refine List.nodup_cons.mpr ⟨?_, ih (number + 1)⟩
      intro hmem
      obtain ⟨h, hh, horigin⟩ := List.mem_map.mp hmem
      obtain ⟨k, hk, hmerged⟩ := origin_of_mem_outputs hh
      rw [hmerged] at horigin
      cases horigin
      omega

end Batch

/-- Consolidations carried out one after the other on a pool, the first under a given number.
Each spends holdings of the pool, as far as `allowed` lets it spend them beside the rest, pays
the fee of its shape and leaves what is left, which has to be positive, as a holding. -/
inductive Consolidates (rule : FeeRule) (allowed : Multiset Holding → Multiset Holding → Prop) :
    ℕ → Multiset Holding → List Batch → Multiset Holding → Prop where
  | done (number : ℕ) (pool : Multiset Holding) :
      Consolidates rule allowed number pool [] pool
  | merge {number : ℕ} {pool rest final : Multiset Holding} {b : Batch} {batches : List Batch}
      (hpool : pool = b.spent + rest)
      (hallowed : allowed b.spent rest)
      (hbalance : worth (poolValues b.spent) = (b.fee rule).toNat + b.output.toNat)
      (hpositive : 0 < b.output)
      (hlater : Consolidates rule allowed (number + 1) (b.holding number ::ₘ rest) batches
        final) :
      Consolidates rule allowed number pool (b :: batches) final

namespace Consolidates

variable {rule : FeeRule} {allowed allowed' : Multiset Holding → Multiset Holding → Prop}
variable {number : ℕ} {pool final : Multiset Holding} {batches : List Batch}

theorem mono (h : Consolidates rule allowed number pool batches final)
    (himp : ∀ spent rest, allowed spent rest → allowed' spent rest) :
    Consolidates rule allowed' number pool batches final := by
  induction h with
  | done number pool => exact .done number pool
  | merge hpool hallowed hbalance hpositive hlater ih =>
      exact .merge hpool (himp _ _ hallowed) hbalance hpositive ih

/-- Holdings beside the pool do not stand in the way of a run that does not care for the
rest. -/
theorem add_right (h : Consolidates rule allowed number pool batches final)
    (hignores : ∀ spent rest rest', allowed spent rest → allowed spent rest')
    (extra : Multiset Holding) :
    Consolidates rule allowed number (pool + extra) batches (final + extra) := by
  induction h with
  | done number pool => exact .done number (pool + extra)
  | @merge number pool rest final b batches hpool hallowed hbalance hpositive hlater ih =>
      have hsplit : pool + extra = b.spent + (rest + extra) := by
        rw [hpool, add_assoc]
      rw [Multiset.cons_add] at ih
      exact .merge hsplit (hignores _ _ _ hallowed) hbalance hpositive ih

/-- What the run asks of every batch. -/
theorem of_mem (h : Consolidates rule allowed number pool batches final) {b : Batch}
    (hb : b ∈ batches) :
    (∃ rest, allowed b.spent rest) ∧
      worth (poolValues b.spent) = (b.fee rule).toNat + b.output.toNat ∧ 0 < b.output := by
  induction h with
  | done number pool => simp at hb
  | @merge number pool rest final b' batches hpool hallowed hbalance hpositive hlater ih =>
      rcases List.mem_cons.mp hb with rfl | hb
      · exact ⟨⟨rest, hallowed⟩, hbalance, hpositive⟩
      · exact ih hb

/-- The pool loses the fees and nothing else. -/
theorem worth_eq (h : Consolidates rule allowed number pool batches final) :
    worth (poolValues pool) = worth (poolValues final) + Batch.fees rule batches := by
  induction h with
  | done number pool => simp
  | @merge number pool rest final b batches hpool hallowed hbalance hpositive hlater ih =>
      rw [poolValues_cons, worth_cons, Batch.value_holding] at ih
      rw [hpool, poolValues_add, worth_add, hbalance, Batch.fees_cons]
      omega

/-- Whatever was available, records and outputs alike, is spent once or still there. -/
theorem spent_add_final (h : Consolidates rule allowed number pool batches final) :
    (batches.flatMap Batch.spent : Multiset Holding) + final =
      pool + Batch.outputs number batches := by
  induction h with
  | done number pool => simp [Batch.outputs]
  | @merge number pool rest final b batches hpool hallowed hbalance hpositive hlater ih =>
      rw [hpool, List.flatMap_cons, ← Multiset.coe_add, add_assoc, ih, Batch.outputs,
        ← Multiset.cons_coe, Multiset.cons_add, Multiset.add_cons, Multiset.add_cons, add_assoc]

/-- No holding is spent twice, if the holdings at the start can be told apart. -/
theorem nodup_spent (h : Consolidates rule allowed number pool batches final)
    (hnodup : (pool.map Holding.origin).Nodup)
    (hearlier : ∀ x ∈ pool, ∀ k, x.origin = .merged k → k < number) :
    ((batches.flatMap Batch.spent).map Holding.origin).Nodup := by
  have hall : ((pool + Batch.outputs number batches).map Holding.origin).Nodup := by
    rw [Multiset.map_add, Multiset.nodup_add]
    refine ⟨hnodup, Batch.nodup_origins_outputs number batches, ?_⟩
    rw [Multiset.disjoint_left]
    intro origin hpool houtput
    obtain ⟨x, hx, rfl⟩ := Multiset.mem_map.mp hpool
    obtain ⟨y, hy, horigin⟩ := Multiset.mem_map.mp houtput
    obtain ⟨k, hk, hmerged⟩ := Batch.origin_of_mem_outputs hy
    have hlt := hearlier x hx k (horigin ▸ hmerged)
    omega
  rw [← h.spent_add_final, Multiset.map_add] at hall
  exact (Multiset.nodup_add.mp hall).1

/-- A batch only spends outputs of batches before it. -/
theorem origin_lt (h : Consolidates rule allowed number pool batches final)
    (hearlier : ∀ x ∈ pool, ∀ k, x.origin = .merged k → k < number)
    {i : ℕ} {b : Batch} (hb : batches[i]? = some b) :
    ∀ x ∈ b.spent, ∀ k, x.origin = .merged k → k < number + i := by
  induction h generalizing i with
  | done number pool => simp at hb
  | @merge number pool rest final b' batches hpool hallowed hbalance hpositive hlater ih =>
      cases i with
      | zero =>
          obtain rfl : b' = b := by simpa using hb
          intro x hx
          exact hearlier x (by simp [hpool, hx])
      | succ i =>
          have hrest : ∀ x ∈ b'.holding number ::ₘ rest, ∀ k,
              x.origin = .merged k → k < number + 1 := by
            intro x hx k horigin
            rcases Multiset.mem_cons.mp hx with rfl | hx
            · cases horigin
              omega
            · have hlt := hearlier x (by simp [hpool, hx]) k horigin
              omega
          have hlt := ih hrest (by simpa using hb)
          intro x hx k horigin
          have hk := hlt x hx k horigin
          omega

end Consolidates

/-- Batches of at least `least` holdings that one transaction may spend. -/
def Selector.MayMerge (s : Selector) (least : ℕ) (spent _rest : Multiset Holding) : Prop :=
  least ≤ spent.card ∧ spent.card ≤ s.limit

/-! ## Pools of records and pools by value -/

namespace Holding

theorem values_ofValues (values : List UInt64) : Holding.values (ofValues values) = values := by
  simp [Holding.values, ofValues, Function.comp_def]

theorem poolValues_ofValues (values : List UInt64) : poolValues (ofValues values) = values := by
  rw [poolValues_coe, values_ofValues]

theorem origin_of_mem_ofValues {values : List UInt64} {h : Holding}
    (hmem : h ∈ ofValues values) :
    ∃ place, h.origin = .record place ∧ values[place]? = some h.value := by
  obtain ⟨⟨value, place⟩, hzip, rfl⟩ := List.mem_map.mp hmem
  exact ⟨place, rfl, List.mem_zipIdx_iff_getElem?.mp hzip⟩

theorem nodup_origins_ofValues (values : List UInt64) :
    ((ofValues values).map Holding.origin).Nodup := by
  have hplaces : (ofValues values).map Holding.origin =
      (List.range values.length).map Origin.record := by
    rw [ofValues, List.map_map, List.range_eq_range', ← List.zipIdx_map_snd 0, List.map_map]
    rfl
  rw [hplaces]
  refine List.Nodup.map ?_ List.nodup_range
  intro i j hij
  cases hij
  rfl

theorem coe_arrange (pool : List Holding) : (arrange pool : Multiset Holding) = pool :=
  Multiset.coe_eq_coe.mpr (List.mergeSort_perm _ _)

theorem arrange_pairwise (pool : List Holding) :
    (arrange pool).Pairwise fun a b => b.value ≤ a.value := by
  have hsorted := @List.pairwise_mergeSort _ (fun a b : Holding => decide (b.value ≤ a.value))
    (fun a b c hab hbc => by
      simp only [decide_eq_true_eq] at *
      exact UInt64.le_trans hbc hab)
    (fun a b => by simpa using UInt64.le_total b.value a.value) pool
  simpa [arrange] using hsorted

theorem values_arrange_descending (pool : List Holding) :
    (Holding.values (arrange pool)).Pairwise (· ≥ ·) :=
  List.pairwise_map.mpr (arrange_pairwise pool)

/-- Any number of smallest holdings can be split off a pool. -/
theorem exists_split (pool : Multiset Holding) {j : ℕ} (hj : j ≤ pool.card) :
    ∃ low high : Multiset Holding, pool = low + high ∧ low.card = j ∧
      ∀ x ∈ low, ∀ y ∈ high, x.value ≤ y.value := by
  let arranged := arrange pool.toList
  have hpool : (arranged : Multiset Holding) = pool := by
    rw [coe_arrange, Multiset.coe_toList]
  have hlength : arranged.length = pool.card := by
    rw [← hpool, Multiset.coe_card]
  have hsplit := List.take_append_drop (pool.card - j) arranged
  have hsorted := arrange_pairwise pool.toList
  change arranged.Pairwise _ at hsorted
  rw [← hsplit] at hsorted
  refine ⟨arranged.drop (pool.card - j), arranged.take (pool.card - j), ?_, ?_, ?_⟩
  · rw [add_comm, Multiset.coe_add, hsplit, hpool]
  · rw [Multiset.coe_card, List.length_drop, hlength]
    omega
  · intro x hx y hy
    exact (List.pairwise_append.mp hsorted).2.2 y hy x hx

end Holding

/-- Values that are consolidated lose the fees and nothing else. -/
theorem Consolidates.total_eq {rule : FeeRule}
    {allowed : Multiset Holding → Multiset Holding → Prop} {number : ℕ} {values : List UInt64}
    {batches : List Batch} {final : Multiset Holding}
    (h : Consolidates rule allowed number (Holding.ofValues values) batches final) :
    total values = worth (poolValues final) + Batch.fees rule batches := by
  rw [← h.worth_eq, Holding.poolValues_ofValues, worth_coe]

end SpendPlanner
