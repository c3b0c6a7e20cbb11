import SpendPlanner.Account
import Mathlib.Data.Multiset.AddSub
import Mathlib.Tactic

/-!
# What an account holds

Spending takes out of an account the records with the given key images and no others, and a
record under a key image that is not held is added to it.  As the key images of an account
are different, records that are spent come off its records of their token one by one.
-/

namespace SpendPlanner

/-- Where no two items have the same key, what is found under a key is the item with it. -/
theorem find?_key_eq_some_iff {α κ : Type} [DecidableEq κ] {key : α → κ} {items : List α}
    (hnodup : (items.map key).Nodup) {k : κ} {a : α} :
    items.find? (fun x => key x = k) = some a ↔ a ∈ items ∧ key a = k := by
  constructor
  · intro hfound
    exact ⟨List.mem_of_find?_eq_some hfound, by simpa using List.find?_some hfound⟩
  · rintro ⟨hmem, rfl⟩
    cases hfound : items.find? fun x => key x = key a with
    | none =>
        simpa using List.find?_eq_none.mp hfound a hmem
    | some b =>
        have hkey : key b = key a := by simpa using List.find?_some hfound
        rw [List.inj_on_of_nodup_map hnodup (List.mem_of_find?_eq_some hfound) hmem hkey]

namespace Account

theorem nodup_keyImages (account : Account) :
    (account.records.map Record.keyImage).Nodup := by
  refine List.pairwise_map.mpr (account.ascending.imp ?_)
  intro a b hlt heq
  exact KeyImage.lt_irrefl b.keyImage (heq ▸ hlt)

theorem records_spendAll (account : Account) (images : List KeyImage) :
    (account.spendAll images).2.records =
      account.records.filter fun r => r.keyImage ∉ images := by
  induction images generalizing account with
  | nil => simp [spendAll]
  | cons image images ih =>
      change ((account.erase image).spendAll images).2.records = _
      rw [ih, erase, List.filter_filter]
      congr 1
      funext r
      by_cases himage : r.keyImage = image <;> simp [himage]

theorem holds_eq_false_iff {account : Account} {image : KeyImage} :
    account.holds image = false ↔ ∀ r ∈ account.records, r.keyImage ≠ image := by
  simp [holds, find?]

/-- Records of the account under one key image are one record. -/
theorem eq_of_keyImage_eq {account : Account} {a b : Record} (ha : a ∈ account.records)
    (hb : b ∈ account.records) (h : a.keyImage = b.keyImage) : a = b :=
  List.inj_on_of_nodup_map account.nodup_keyImages ha hb h

theorem coe_ofToken (account : Account) (token : TokenId) :
    (account.ofToken token : Multiset Record) =
      (account.records : Multiset Record).filter fun r => r.token = token := by
  rw [ofToken, Multiset.filter_coe]

theorem nodup_ofToken (account : Account) (token : TokenId) :
    (account.ofToken token).Nodup :=
  account.nodup_keyImages.of_map.filter _

/-! ## Inserting -/

theorem coe_insertSorted {r : Record} {records : List Record}
    (h : ∀ x ∈ records, x.keyImage ≠ r.keyImage) :
    (insertSorted r records : Multiset Record) = r ::ₘ records := by
  induction records with
  | nil => rfl
  | cons x records ih =>
      obtain ⟨hx, hrecords⟩ := List.forall_mem_cons.mp h
      rw [insertSorted]
      split
      · rfl
      · rw [if_neg (Ne.symm hx), ← Multiset.cons_coe, ih hrecords, Multiset.cons_swap,
          Multiset.cons_coe]

theorem insertSorted_of_mem {r x : Record} {records : List Record}
    (hascending : Record.Ascending records) (hx : x ∈ records) (h : x.keyImage = r.keyImage) :
    insertSorted r records = records := by
  induction records with
  | nil => simp at hx
  | cons y ys ih =>
      obtain ⟨hy, hys⟩ := List.pairwise_cons.mp hascending
      rw [insertSorted]
      by_cases heq : r.keyImage = y.keyImage
      · rw [heq, if_neg (KeyImage.lt_irrefl _), if_pos rfl]
      · have hlater : x ∈ ys :=
          (List.mem_cons.mp hx).resolve_left fun hxy => heq (by rw [← h, hxy])
        have hlt : ¬r.keyImage < y.keyImage := fun hlt =>
          KeyImage.lt_irrefl _ (KeyImage.lt_trans hlt (h ▸ hy x hlater))
        rw [if_neg hlt, if_neg heq, ih hys hlater]

/-- A record under a key image that is held is refused. -/
theorem insert_of_holds {account : Account} {r : Record}
    (h : account.holds r.keyImage = true) : account.insert r = account := by
  obtain ⟨x, hx, hkey⟩ : ∃ x ∈ account.records, x.keyImage = r.keyImage := by
    simpa [holds, find?] using h
  cases account
  simp only [insert, insertSorted_of_mem ‹_› hx hkey]

/-- A record under a key image that is not held is added. -/
theorem coe_ofToken_insert {account : Account} {r : Record}
    (h : account.holds r.keyImage = false) :
    ((account.insert r).ofToken r.token : Multiset Record) =
      r ::ₘ account.ofToken r.token := by
  rw [coe_ofToken, insert, coe_insertSorted (holds_eq_false_iff.mp h),
    Multiset.filter_cons_of_pos _ (by simp), ← coe_ofToken]

theorem filter_insertSorted {r : Record} {p : Record → Bool} (h : p r = false)
    (records : List Record) : (insertSorted r records).filter p = records.filter p := by
  induction records with
  | nil => simp [insertSorted, h]
  | cons x records ih =>
      rw [insertSorted]
      split
      · exact List.filter_cons_of_neg (by simp [h])
      · split
        · rfl
        · rw [List.filter_cons, List.filter_cons, ih]

/-- Inserting a record leaves the records of other tokens alone. -/
theorem ofToken_insert_of_ne {account : Account} {r : Record} {token : TokenId}
    (h : r.token ≠ token) : (account.insert r).ofToken token = account.ofToken token :=
  filter_insertSorted (by simpa using h) account.records

/-! ## Spending -/

theorem ofToken_spendAll (account : Account) (images : List KeyImage) (token : TokenId) :
    (account.spendAll images).2.ofToken token =
      (account.ofToken token).filter fun r => r.keyImage ∉ images := by
  rw [ofToken, ofToken, records_spendAll, List.filter_filter, List.filter_filter]
  congr 1
  funext r
  exact Bool.and_comm _ _

theorem size_erase (account : Account) (image : KeyImage) :
    (if (account.find? image).isSome then 1 else 0) + (account.erase image).size =
      account.size := by
  have hcount : account.records.countP (fun r => r.keyImage = image) =
      if (account.find? image).isSome then 1 else 0 := by
    have hnodup := account.nodup_keyImages.count (a := image)
    rw [List.count, List.countP_map] at hnodup
    simpa [find?, Function.comp_def, beq_eq_decide] using hnodup
  have hsplit := List.length_eq_countP_add_countP (fun r : Record => r.keyImage = image)
    (l := account.records)
  rw [hcount, List.countP_eq_length_filter] at hsplit
  simpa [size, erase] using hsplit.symm

/-- Spending takes out as many records as it counts. -/
theorem size_spendAll (account : Account) (images : List KeyImage) :
    (account.spendAll images).1 + (account.spendAll images).2.size = account.size := by
  induction images generalizing account with
  | nil => simp [spendAll]
  | cons image images ih =>
      have hone := account.size_erase image
      have hrest := ih (account.erase image)
      change (if (account.find? image).isSome then
          ((account.erase image).spendAll images).1 + 1
        else ((account.erase image).spendAll images).1) +
          ((account.erase image).spendAll images).2.size = account.size
      by_cases hheld : (account.find? image).isSome = true
      · rw [if_pos hheld] at hone ⊢
        omega
      · rw [if_neg hheld] at hone ⊢
        omega

/-- Records that are spent come off the records held. -/
theorem coe_records_spendAll {account : Account} {spent : List Record}
    (h : (spent : Multiset Record) ≤ account.records) :
    ((account.spendAll (spent.map Record.keyImage)).2.records : Multiset Record) + spent =
      account.records := by
  obtain ⟨left, hleft⟩ := Multiset.le_iff_exists_add.mp h
  have hnodup : ((account.records : Multiset Record).map Record.keyImage).Nodup :=
    account.nodup_keyImages
  rw [hleft, Multiset.map_add, Multiset.nodup_add] at hnodup
  have hspent : (spent : Multiset Record).filter
      (fun r => r.keyImage ∉ spent.map Record.keyImage) = 0 := by
    rw [Multiset.filter_eq_nil]
    intro r hr hnot
    exact hnot (List.mem_map_of_mem hr)
  have hkept : left.filter (fun r => r.keyImage ∉ spent.map Record.keyImage) = left := by
    rw [Multiset.filter_eq_self]
    intro r hr hmem
    exact Multiset.disjoint_left.mp hnodup.2.2 hmem (Multiset.mem_map_of_mem _ hr)
  rw [records_spendAll, ← Multiset.filter_coe, hleft, Multiset.filter_add, hspent, hkept,
    zero_add, add_comm]

theorem coe_le_records {account : Account} {token : TokenId} {spent : List Record}
    (h : (spent : Multiset Record) ≤ account.ofToken token) :
    (spent : Multiset Record) ≤ account.records :=
  h.trans (account.coe_ofToken token ▸ Multiset.filter_le _ _)

/-- Records that are spent come off the records of their token. -/
theorem coe_ofToken_spendAll {account : Account} {token : TokenId} {spent : List Record}
    (h : (spent : Multiset Record) ≤ account.ofToken token) :
    ((account.spendAll (spent.map Record.keyImage)).2.ofToken token : Multiset Record) +
      spent = account.ofToken token := by
  have hspent : (spent : Multiset Record).filter (fun r => r.token = token) = spent := by
    rw [Multiset.filter_eq_self]
    intro r hr
    exact of_decide_eq_true (List.mem_filter.mp (Multiset.mem_of_le h hr)).2
  have hrecords := coe_records_spendAll (coe_le_records h)
  have htoken := congrArg (Multiset.filter fun r => r.token = token) hrecords
  rwa [Multiset.filter_add, hspent, ← coe_ofToken, ← coe_ofToken] at htoken

/-- Different records of a token are counted one by one when they are spent. -/
theorem count_spendAll {account : Account} {token : TokenId} {spent : List Record}
    (h : (spent : Multiset Record) ≤ account.ofToken token) :
    (account.spendAll (spent.map Record.keyImage)).1 = spent.length := by
  have hsize := account.size_spendAll (spent.map Record.keyImage)
  have hcard := congrArg Multiset.card (coe_records_spendAll (coe_le_records h))
  rw [Multiset.card_add, Multiset.coe_card, Multiset.coe_card, Multiset.coe_card] at hcard
  rw [size, size] at hsize
  omega

/-- Spending records of one token leaves those of the others alone. -/
theorem ofToken_spendAll_of_ne {account : Account} {token other : TokenId}
    {spent : List Record} (h : (spent : Multiset Record) ≤ account.ofToken token)
    (hne : other ≠ token) :
    (account.spendAll (spent.map Record.keyImage)).2.ofToken other = account.ofToken other := by
  rw [ofToken_spendAll, List.filter_eq_self]
  intro r hr
  rw [decide_eq_true_eq]
  intro hmem
  obtain ⟨x, hx, hkey⟩ := List.mem_map.mp hmem
  have hspent := List.mem_filter.mp (Multiset.mem_of_le h hx)
  have hheld := List.mem_filter.mp hr
  obtain rfl := eq_of_keyImage_eq hspent.1 hheld.1 hkey
  exact hne ((of_decide_eq_true hheld.2).symm.trans (of_decide_eq_true hspent.2))

end Account
end SpendPlanner
