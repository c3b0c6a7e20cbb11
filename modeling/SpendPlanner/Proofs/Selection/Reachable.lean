import SpendPlanner.Proofs.Selection.Thresholds

/-!
# Merging the smallest values

Under a fixed fee a payment can be planned where merges of the smallest values, as many as one
transaction may spend, lead to values of which one transaction covers it.  A further value that
is worth more than the fee does not get in the way of this.  It may take the place of a larger
value in the batches, but then either what is left of the first batch makes up for it at once,
or the batch without its largest value is worth the fee already, and no merge loses anything to
the pool.
-/

namespace SpendPlanner
namespace Selector

variable {s : Selector} {fee outlay : UInt64}

/-- Merges of the smallest values, as many as one transaction may spend, lead to a choice of
values that covers the outlay. -/
inductive Reaches (s : Selector) (fee outlay : UInt64) : Multiset UInt64 → Prop where
  | covered {values chosen : Multiset UInt64} (hchosen : chosen ≤ values)
      (hcard : chosen.card ≤ s.limit) (hcovers : outlay.toNat + fee.toNat ≤ worth chosen) :
      Reaches s fee outlay values
  | merge {spent rest : Multiset UInt64} {output : UInt64}
      (hcard : spent.card = s.limit) (hsmallest : ∀ v ∈ spent, ∀ w ∈ rest, v ≤ w)
      (hworth : worth spent = fee.toNat + output.toNat) (hpositive : 0 < output)
      (hlater : Reaches s fee outlay (output ::ₘ rest)) :
      Reaches s fee outlay (spent + rest)

namespace Reaches

variable {values rest : Multiset UInt64}

theorem le_worth (h : s.Reaches fee outlay values) :
    outlay.toNat + fee.toNat ≤ worth values := by
  induction h with
  | covered hchosen hcard hcovers => exact hcovers.trans (worth_le_of_le hchosen)
  | @merge spent rest output hcard hsmallest hworth hpositive hlater ih =>
      rw [worth_cons] at ih
      rw [worth_add]
      omega

/-- A merge that is worth more than its fee. -/
theorem of_fee_lt {spent : Multiset UInt64} (hcard : spent.card = s.limit)
    (hsmallest : ∀ v ∈ spent, ∀ w ∈ rest, v ≤ w) (hfee : fee.toNat < worth spent)
    (hword : worth spent < UInt64.size)
    (h : ∀ output : UInt64, worth spent = fee.toNat + output.toNat →
      s.Reaches fee outlay (output ::ₘ rest)) :
    s.Reaches fee outlay (spent + rest) := by
  have hleft : (UInt64.ofNat (worth spent - fee.toNat)).toNat = worth spent - fee.toNat :=
    UInt64.toNat_ofNat_of_lt (by omega)
  have hworth : worth spent = fee.toNat + (UInt64.ofNat (worth spent - fee.toNat)).toNat := by
    omega
  refine merge hcard hsmallest hworth ?_ (h _ hworth)
  rw [UInt64.lt_iff_toNat_lt, UInt64.toNat_zero]
  omega

end Reaches

/-! ## Pools that merges lose nothing of -/

/-- Every value of the pool is at least as large as those of a choice that needs one more value
to fill a transaction and is worth the fee by itself. -/
structure Floored (s : Selector) (fee : UInt64) (floor values : Multiset UInt64) : Prop where
  card_add_one : floor.card + 1 = s.limit
  fee_le : fee.toNat ≤ worth floor
  le : ∀ x ∈ floor, ∀ v ∈ values, x ≤ v

namespace Floored

variable {floor spent rest : Multiset UInt64} {output : UInt64}

/-- What is left of a full batch is no smaller than any value of it. -/
theorem le_output (h : s.Floored fee floor (spent + rest)) (hcard : spent.card = s.limit)
    (hworth : worth spent = fee.toNat + output.toNat) : ∀ v ∈ spent, v ≤ output := by
  intro v hv
  obtain ⟨others, rfl⟩ := Multiset.exists_cons_of_mem hv
  have haverage : others.card * worth floor ≤ floor.card * worth others := by
    apply card_mul_worth_le
    intro x hx w hw
    exact h.le x hx w (Multiset.mem_add.mpr (Or.inl (Multiset.mem_cons_of_mem hw)))
  have hsame : others.card = floor.card := by
    have hfloor := h.card_add_one
    rw [Multiset.card_cons] at hcard
    omega
  have hpos : 0 < floor.card := by
    have hfloor := h.card_add_one
    have htwo := s.two_le_limit
    omega
  have hothers : worth floor ≤ worth others :=
    Nat.le_of_mul_le_mul_left (hsame ▸ haverage) hpos
  have hfee := h.fee_le
  rw [worth_cons] at hworth
  rw [UInt64.le_iff_toNat_le]
  omega

theorem merge (h : s.Floored fee floor (spent + rest)) (hcard : spent.card = s.limit)
    (hworth : worth spent = fee.toNat + output.toNat) :
    s.Floored fee floor (output ::ₘ rest) := by
  refine ⟨h.card_add_one, h.fee_le, ?_⟩
  intro x hx v hv
  rcases Multiset.mem_cons.mp hv with rfl | hv
  · have hpos : 0 < spent.card := by
      rw [hcard]
      exact two_pos.trans_le s.two_le_limit
    obtain ⟨y, hy⟩ := Multiset.card_pos_iff_exists_mem.mp hpos
    exact UInt64.le_trans (h.le x hx y (Multiset.mem_add.mpr (Or.inl hy)))
      (h.le_output hcard hworth y hy)
  · exact h.le x hx v (Multiset.mem_add.mpr (Or.inr hv))

end Floored

/-- The largest values of the weaker pool, as many as the stronger has values, are no larger than
those of the stronger. -/
def Outranks (strong weak : Multiset UInt64) : Prop :=
  ∀ t, min (exceeding weak t) strong.card ≤ exceeding strong t

namespace Outranks

variable {low high spent rest : Multiset UInt64}

/-- The smallest values of the stronger pool outweigh those of the other. -/
theorem worth_smallest_le (h : Outranks (low + high) (spent + rest))
    (hle : ∀ v ∈ spent, ∀ w ∈ rest, v ≤ w) (hcard : spent.card = low.card)
    (hrest : high.card ≤ rest.card) : worth spent ≤ worth low := by
  apply worth_le_of_exceeding_le
  intro t
  have hcount := h t
  have hspent := exceeding_le_card spent t
  have hhigh := exceeding_le_card high t
  rw [exceeding_add, exceeding_add, Multiset.card_add] at hcount
  rcases exceeding_low_eq_zero_or hle t with hnone | hall
  · omega
  · omega

/-- A choice from the weaker pool is outweighed by the largest values of the stronger. -/
theorem worth_le_largest {chosen weak : Multiset UInt64} (h : Outranks (low + high) weak)
    (hle : ∀ v ∈ low, ∀ w ∈ high, v ≤ w) (hchosen : chosen ≤ weak)
    (hcard : chosen.card ≤ high.card) : worth chosen ≤ worth high := by
  apply worth_le_of_exceeding_le
  intro t
  have hcount := h t
  have hfew := exceeding_le_card chosen t
  have hmono := exceeding_le_of_le hchosen t
  rw [exceeding_add, Multiset.card_add] at hcount
  rcases exceeding_low_eq_zero_or hle t with hnone | hall
  · omega
  · omega

/-- Where the larger output is no smaller than the values merged for it, merging keeps the
pools in this order. -/
theorem merge (h : Outranks (low + high) (spent + rest))
    (hle : ∀ v ∈ low, ∀ w ∈ high, v ≤ w)
    {output output' : UInt64} (houtput : output ≤ output') (hgrown : ∀ v ∈ low, v ≤ output')
    (hne : low ≠ 0) :
    Outranks (output' ::ₘ high) (output ::ₘ rest) := by
  intro t
  have hcount := h t
  have hhigh := exceeding_le_card high t
  have hpos := Multiset.card_pos.mpr hne
  rw [UInt64.le_iff_toNat_le] at houtput
  rw [exceeding_add, exceeding_add, Multiset.card_add] at hcount
  rw [Multiset.card_cons]
  rcases lt_or_ge t output'.toNat with hlarge | hsmall
  · have hweak := exceeding_cons_le output rest t
    rw [exceeding_cons_of_lt hlarge]
    rcases exceeding_low_eq_zero_or hle t with hnone | hall
    · omega
    · omega
  · have hlow := exceeding_eq_zero_of_le hgrown hsmall
    rw [exceeding_cons_of_le hsmall, exceeding_cons_of_le (houtput.trans hsmall)]
    omega

end Outranks

/-- A pool outranks another, loses nothing in merges and is worth no less.  It has fewer values,
by as many as a merge takes away less one. -/
structure Outdoes (s : Selector) (fee : UInt64) (floor strong weak : Multiset UInt64) : Prop where
  outranks : Outranks strong weak
  floored : s.Floored fee floor strong
  card_eq : strong.card + s.limit = weak.card + 2
  worth_le : worth weak ≤ worth strong

namespace Outdoes

variable {floor low high spent rest : Multiset UInt64}

theorem worth_smallest_le (h : s.Outdoes fee floor (low + high) (spent + rest))
    (hlow : low.card = s.limit) (hspent : spent.card = s.limit)
    (hsmallest : ∀ v ∈ spent, ∀ w ∈ rest, v ≤ w) : worth spent ≤ worth low := by
  have htwo := s.two_le_limit
  have hcard := h.card_eq
  rw [Multiset.card_add, Multiset.card_add] at hcard
  apply h.outranks.worth_smallest_le hsmallest
  · omega
  · omega

/-- Full batches of the smallest values of both pools leave them in this relation. -/
theorem merge {output output' : UInt64}
    (h : s.Outdoes fee floor (low + high) (spent + rest)) (hlow : low.card = s.limit)
    (hle : ∀ v ∈ low, ∀ w ∈ high, v ≤ w) (hspent : spent.card = s.limit)
    (hsmallest : ∀ v ∈ spent, ∀ w ∈ rest, v ≤ w)
    (hworth : worth spent = fee.toNat + output.toNat)
    (hworth' : worth low = fee.toNat + output'.toNat) :
    s.Outdoes fee floor (output' ::ₘ high) (output ::ₘ rest) := by
  have htwo := s.two_le_limit
  have hheavier := h.worth_smallest_le hlow hspent hsmallest
  have hcard := h.card_eq
  have htotal := h.worth_le
  rw [Multiset.card_add, Multiset.card_add] at hcard
  rw [worth_add, worth_add] at htotal
  constructor
  · apply h.outranks.merge hle
    · rw [UInt64.le_iff_toNat_le]
      omega
    · exact h.floored.le_output hlow hworth'
    · exact Multiset.card_pos.mp (by omega)
  · exact h.floored.merge hlow hworth'
  · rw [Multiset.card_cons, Multiset.card_cons]
    omega
  · rw [worth_cons, worth_cons]
    omega

end Outdoes

/-- What can be reached from a pool can be reached from one that outdoes it. -/
theorem Reaches.of_outdoes {weak strong floor : Multiset UInt64}
    (h : s.Reaches fee outlay weak) (houtdoes : s.Outdoes fee floor strong weak)
    (hword : worth strong < UInt64.size) : s.Reaches fee outlay strong := by
  have hneeded := h.le_worth.trans houtdoes.worth_le
  induction h generalizing strong with
  | @covered weak chosen hchosen hfew hcovers =>
      by_cases hsmall : strong.card ≤ s.limit
      · exact .covered le_rfl hsmall hneeded
      · obtain ⟨low, high, rfl, hlow, hle⟩ :=
          exists_smallest_add strong (Nat.sub_le strong.card s.limit)
        rw [Multiset.card_add] at hlow hsmall
        apply Reaches.covered (Multiset.le_add_left high low)
        · omega
        · apply hcovers.trans
          exact houtdoes.outranks.worth_le_largest hle hchosen (by omega)
  | @merge spent rest output hspent hsmallest hworth hpositive hlater ih =>
      by_cases hsmall : strong.card ≤ s.limit
      · exact .covered le_rfl hsmall hneeded
      · obtain ⟨low, high, rfl, hlow, hle⟩ := exists_smallest_add strong (not_le.mp hsmall).le
        have hheavier := houtdoes.worth_smallest_le hlow hspent hsmallest
        rw [worth_add] at hword
        rw [UInt64.lt_iff_toNat_lt, UInt64.toNat_zero] at hpositive
        apply Reaches.of_fee_lt hlow hle
        · omega
        · omega
        · intro output' hworth'
          have hnext := houtdoes.merge hlow hle hspent hsmallest hworth hworth'
          apply ih hnext
          · rw [worth_cons]
            omega
          · exact hlater.le_worth.trans hnext.worth_le

/-! ## A further value -/

theorem toNat_le_worth_of_mem {v : UInt64} {values : Multiset UInt64} (h : v ∈ values) :
    v.toNat ≤ worth values := by
  obtain ⟨others, rfl⟩ := Multiset.exists_cons_of_mem h
  rw [worth_cons]
  exact Nat.le_add_right _ _

/-- What a choice of values is worth, one of as many is worth after two of the values have been
exchanged for two of the same sum, one of which is larger than either. -/
theorem exists_choice_of_exchange {v w x y : UInt64} {rest chosen : Multiset UInt64}
    (hchosen : chosen ≤ v ::ₘ w ::ₘ rest) (hsum : v.toNat + w.toNat = x.toNat + y.toNat)
    (hv : v < y) (hw : w < y) :
    ∃ chosen' ≤ x ::ₘ y ::ₘ rest, chosen'.card = chosen.card ∧ worth chosen ≤ worth chosen' := by
  rw [UInt64.lt_iff_toNat_lt] at hv hw
  -- A choice of one of the two values can have the larger of the new ones instead.
  have hone : ∀ (z : UInt64) (others : Multiset UInt64), z.toNat < y.toNat → others ≤ rest →
      ∃ chosen' ≤ x ::ₘ y ::ₘ rest, chosen'.card = (z ::ₘ others).card ∧
        worth (z ::ₘ others) ≤ worth chosen' := by
    intro z others hz hothers
    refine ⟨y ::ₘ others, ?_, ?_, ?_⟩
    · exact (Multiset.cons_le_cons y hothers).trans (Multiset.le_cons_self _ x)
    · rw [Multiset.card_cons, Multiset.card_cons]
    · rw [worth_cons, worth_cons]
      omega
  by_cases hmem : v ∈ chosen
  · obtain ⟨others, rfl⟩ := Multiset.exists_cons_of_mem hmem
    rw [Multiset.cons_le_cons_iff] at hchosen
    by_cases hmem' : w ∈ others
    · obtain ⟨others, rfl⟩ := Multiset.exists_cons_of_mem hmem'
      rw [Multiset.cons_le_cons_iff] at hchosen
      refine ⟨x ::ₘ y ::ₘ others, Multiset.cons_le_cons x (Multiset.cons_le_cons y hchosen), ?_, ?_⟩
      · simp only [Multiset.card_cons]
      · simp only [worth_cons]
        omega
    · exact hone v others hv ((Multiset.le_cons_of_notMem hmem').mp hchosen)
  · rw [Multiset.le_cons_of_notMem hmem] at hchosen
    by_cases hmem' : w ∈ chosen
    · obtain ⟨others, rfl⟩ := Multiset.exists_cons_of_mem hmem'
      exact hone w others hw ((Multiset.cons_le_cons_iff w).mp hchosen)
    · rw [Multiset.le_cons_of_notMem hmem'] at hchosen
      refine ⟨chosen, hchosen.trans ?_, rfl, le_rfl⟩
      exact (Multiset.le_cons_self _ y).trans (Multiset.le_cons_self _ x)

/-- The two smallest values may give way to two of the same sum, one of which is larger than
either, as long as it is no larger than the other values. -/
theorem Reaches.exchange {v w x y : UInt64} {rest : Multiset UInt64}
    (h : s.Reaches fee outlay (v ::ₘ w ::ₘ rest))
    (hsum : v.toNat + w.toNat = x.toNat + y.toNat) (hv : v < y) (hw : w < y)
    (hrest : ∀ u ∈ rest, y ≤ u) : s.Reaches fee outlay (x ::ₘ y ::ₘ rest) := by
  generalize hpool : v ::ₘ w ::ₘ rest = pool at h
  cases h with
  | covered hchosen hcard hcovers =>
      obtain ⟨chosen', hchosen', hcard', hworth⟩ :=
        exists_choice_of_exchange (hpool ▸ hchosen) hsum hv hw
      exact .covered hchosen' (hcard' ▸ hcard) (hcovers.trans hworth)
  | @merge spent others output hcard hsmallest hworth hpositive hlater =>
      have htwo := s.two_le_limit
      have hcards := congrArg Multiset.card hpool
      rw [Multiset.card_add, Multiset.card_cons, Multiset.card_cons] at hcards
      obtain ⟨low, high, rfl, hlow, hle⟩ :=
        exists_smallest_add rest (show s.limit - 2 ≤ rest.card by omega)
      have hhigh : ∀ z, z ≤ y → ∀ u ∈ high, z ≤ u := by
        intro z hz u hu
        exact UInt64.le_trans hz (hrest u (Multiset.mem_add.mpr (Or.inr hu)))
      have hbatch : ∀ a b, a ≤ y → b ≤ y → ∀ z ∈ a ::ₘ b ::ₘ low, ∀ u ∈ high, z ≤ u := by
        intro a b ha hb
        rw [Multiset.forall_mem_cons, Multiset.forall_mem_cons]
        exact ⟨hhigh a ha, hhigh b hb, hle⟩
      -- The batch consists of the two values and of the smallest others.
      obtain ⟨rfl, rfl⟩ : v ::ₘ w ::ₘ low = spent ∧ high = others := by
        apply smallest_unique _ _ (hbatch v w (UInt64.le_of_lt hv) (UInt64.le_of_lt hw)) hsmallest
        · rw [← hpool, Multiset.cons_add, Multiset.cons_add]
        · rw [Multiset.card_cons, Multiset.card_cons]
          omega
      rw [← Multiset.cons_add, ← Multiset.cons_add]
      rw [worth_cons, worth_cons] at hworth
      rw [UInt64.lt_iff_toNat_lt] at hv hw
      have hx : x ≤ y := UInt64.le_iff_toNat_le.mpr (by omega)
      refine .merge ?_ (hbatch x y hx (UInt64.le_refl y)) ?_ hpositive hlater
      · simpa using hcard
      · rw [worth_cons, worth_cons]
        omega

/-- A batch that keeps its largest value back, and leaves more than any other of its values,
leads to a pool that outranks the one before. -/
theorem outranks_of_kept {others rest : Multiset UInt64} {largest left : UInt64}
    (hleft : ∀ v ∈ others, v ≤ left) (hlargest : ∀ v ∈ others, v ≤ largest)
    (hrest : ∀ w ∈ rest, largest ≤ w) :
    Outranks (left ::ₘ largest ::ₘ rest) (largest ::ₘ others + rest) := by
  intro t
  rw [exceeding_add, Multiset.card_cons, Multiset.card_cons]
  rcases lt_or_ge t largest.toNat with hlow | hhigh
  · have hall := exceeding_eq_card_of_lt hrest hlow
    rcases lt_or_ge t left.toNat with hlt | hge
    · rw [exceeding_cons_of_lt hlt, exceeding_cons_of_lt hlow, exceeding_cons_of_lt hlow]
      omega
    · have hnone := exceeding_eq_zero_of_le hleft hge
      rw [exceeding_cons_of_le hge, exceeding_cons_of_lt hlow, exceeding_cons_of_lt hlow]
      omega
  · have hnone := exceeding_eq_zero_of_le hlargest hhigh
    have hmono := exceeding_le_of_le (Multiset.le_cons_self rest largest) t
    have hmono' := exceeding_le_of_le (Multiset.le_cons_self (largest ::ₘ rest) left) t
    rw [exceeding_cons_of_le hhigh]
    omega

/-- A full batch that is worth the fee without its largest value may keep that value back and
leave more than any other of its values. -/
theorem Reaches.keep_largest {others rest : Multiset UInt64} {largest left : UInt64}
    (h : s.Reaches fee outlay (largest ::ₘ others + rest))
    (hcard : others.card + 1 = s.limit) (hfee : fee.toNat ≤ worth others)
    (hleft : worth others ≤ left.toNat) (hlargest : ∀ v ∈ others, v ≤ largest)
    (hrest : ∀ u ∈ rest, largest ≤ u)
    (hword : worth (left ::ₘ largest ::ₘ rest) < UInt64.size) :
    s.Reaches fee outlay (left ::ₘ largest ::ₘ rest) := by
  have hgrown : ∀ v ∈ others, v ≤ left := by
    intro v hv
    exact UInt64.le_iff_toNat_le.mpr ((toNat_le_worth_of_mem hv).trans hleft)
  have houtdoes : s.Outdoes fee others (left ::ₘ largest ::ₘ rest)
      (largest ::ₘ others + rest) := by
    constructor
    · exact outranks_of_kept hgrown hlargest hrest
    · refine ⟨hcard, hfee, fun x hx => ?_⟩
      rw [Multiset.forall_mem_cons, Multiset.forall_mem_cons]
      exact ⟨hgrown x hx, hlargest x hx,
        fun u hu => UInt64.le_trans (hlargest x hx) (hrest u hu)⟩
    · rw [Multiset.card_add, Multiset.card_cons, Multiset.card_cons, Multiset.card_cons]
      omega
    · rw [worth_add, worth_cons, worth_cons, worth_cons]
      omega
  exact h.of_outdoes houtdoes hword

/-- A further value takes the place of the largest in the first batch. -/
theorem Reaches.displace {w largest output : UInt64} {others rest : Multiset UInt64}
    (h : s.Reaches fee outlay (largest ::ₘ others + rest))
    (hnext : s.Reaches fee outlay (w ::ₘ output ::ₘ rest))
    (hcard : others.card + 1 = s.limit)
    (hworth : largest.toNat + worth others = fee.toNat + output.toNat)
    (hfee : fee < w) (hlt : w < largest)
    (hlargest : ∀ v ∈ others, v ≤ largest) (hrest : ∀ u ∈ rest, largest ≤ u)
    (hword : w.toNat + (worth (largest ::ₘ others) + worth rest) < UInt64.size) :
    s.Reaches fee outlay (w ::ₘ others + largest ::ₘ rest) := by
  rw [UInt64.lt_iff_toNat_lt] at hfee
  rw [worth_cons] at hword
  have hbatch : worth (w ::ₘ others) = w.toNat + worth others := worth_cons w others
  apply Reaches.of_fee_lt
  · rwa [Multiset.card_cons]
  · have hsmall : ∀ v, v ≤ largest → ∀ u ∈ largest ::ₘ rest, v ≤ u := by
      intro v hv
      rw [Multiset.forall_mem_cons]
      exact ⟨hv, fun u hu => UInt64.le_trans hv (hrest u hu)⟩
    rw [Multiset.forall_mem_cons]
    exact ⟨hsmall w (UInt64.le_of_lt hlt), fun v hv => hsmall v (hlargest v hv)⟩
  · omega
  · omega
  · intro left hleft
    by_cases hpoor : output < largest
    · exact hnext.exchange (by omega) hlt hpoor hrest
    · rw [UInt64.not_lt, UInt64.le_iff_toNat_le] at hpoor
      apply h.keep_largest hcard _ _ hlargest hrest
      · rw [worth_cons, worth_cons]
        omega
      · omega
      · omega

/-- A further value that is worth more than the fee does not get in the way. -/
theorem Reaches.cons {w : UInt64} {values : Multiset UInt64} (h : s.Reaches fee outlay values)
    (hfee : fee < w) (hword : worth (w ::ₘ values) < UInt64.size) :
    s.Reaches fee outlay (w ::ₘ values) := by
  induction h with
  | covered hchosen hcard hcovers =>
      exact .covered (hchosen.trans (Multiset.le_cons_self _ w)) hcard hcovers
  | @merge spent rest output hcard hsmallest hworth hpositive hlater ih =>
      have hstart := Reaches.merge hcard hsmallest hworth hpositive hlater
      rw [worth_cons, worth_add] at hword
      have hnext : s.Reaches fee outlay (w ::ₘ output ::ₘ rest) := by
        apply ih
        rw [worth_cons, worth_cons]
        omega
      have hlimit := s.two_le_limit
      obtain ⟨largest, others, rfl, hlargest⟩ :=
        exists_cons_forall_le (Multiset.card_pos.mp (show 0 < spent.card by omega))
      by_cases hlt : w < largest
      · rw [Multiset.card_cons] at hcard
        rw [worth_cons] at hworth
        rw [Multiset.cons_add, Multiset.cons_swap, ← Multiset.cons_add, ← Multiset.add_cons]
        exact hstart.displace hnext hcard hworth hfee hlt hlargest
          (hsmallest largest (Multiset.mem_cons_self _ _)) hword
      · -- The value is left beside the batch.
        rw [UInt64.not_lt] at hlt
        rw [← Multiset.add_cons]
        refine .merge hcard ?_ hworth hpositive (by rwa [Multiset.cons_swap])
        intro v hv
        rw [Multiset.forall_mem_cons]
        refine ⟨?_, hsmallest v hv⟩
        rcases Multiset.mem_cons.mp hv with rfl | hv
        · exact hlt
        · exact UInt64.le_trans (hlargest v hv) hlt

end Selector
end SpendPlanner
