import Mathlib.Algebra.BigOperators.Finprod
import Mathlib.Data.List.DropRight
import SpendPlanner.Proofs.Account
import SpendPlanner.Proofs.Selection.TransferableOptimum

/-!
# Accounts and their histories

The history of an account is the list of the changes that have been made to it, the records it
started with among them.  Under every key image an account holds the first record that was
observed since the key image was last spent, and nothing where none was.  What an account
reports of itself, its records by token and their balance can therefore be told from its history
alone.
-/

namespace SpendPlanner

/-- The transferable amount overflows where the sum of the records does, whatever the fees. -/
theorem Selector.transferable_overflows_iff (s : Selector) (token : TokenId) (rule : FeeRule)
    (records : List Record) :
    (∃ e, s.transferable token rule records = .error e ∧ e.kind = .balanceOverflow) ↔
      UInt64.size ≤ total (Record.values (spendingOrder token records)) := by
  constructor
  · rintro ⟨e, herror, hkind⟩
    by_contra hword
    obtain ⟨balance, hsum, -⟩ := exists_checkedSum (not_le.mp hword)
    simp only [transferable, hsum] at herror
    split_ifs at herror
    · cases herror
      cases hkind
    · cases herror
      cases hkind
  · intro hlarge
    exact ⟨_, transferable_of_overflow rfl hlarge rule, rfl⟩

namespace Account

/-! ## Histories -/

/-- Whether a change takes out what is held under a key image. -/
def Change.spends (image : KeyImage) : Change → Bool
  | observed _ => false
  | spent images => image ∈ images

/-- The record that a change brings under a key image. -/
def Change.brings? (image : KeyImage) : Change → Option Record
  | observed r => if r.keyImage = image then some r else none
  | spent _ => none

/-- The first record observed under a key image since the key image was last spent. -/
def held? (history : List Change) (image : KeyImage) : Option Record :=
  (history.rtakeWhile fun change => !change.spends image).findSome? (Change.brings? image)

theorem held?_concat (history : List Change) (change : Change) (image : KeyImage) :
    held? (history ++ [change]) image =
      if change.spends image then none
      else (held? history image).or (change.brings? image) := by
  rw [held?, List.rtakeWhile_concat]
  by_cases hspends : change.spends image = true
  · simp [hspends]
  · simp [hspends, held?]

/-- A record that is observed under a spent key image is held in place of the earlier one, and
keeps its place from later ones. -/
example :
    let image : KeyImage := (Record.numbered 5 0 .mob 0).keyImage
    held? [.observed (.numbered 5 0 .mob 0), .spent [image, image],
        .observed (.numbered 7 0 .eusd 0), .observed (.numbered 9 0 .mob 0)] image =
      some (.numbered 7 0 .eusd 0) := by
  decide

/-! ## What a change does -/

variable {account : Account}

theorem find?_eq_some_iff {image : KeyImage} {r : Record} :
    account.find? image = some r ↔ r ∈ account.records ∧ r.keyImage = image :=
  find?_key_eq_some_iff account.nodup_keyImages

theorem mem_records_iff {r : Record} :
    r ∈ account.records ↔ account.find? r.keyImage = some r := by
  rw [find?_eq_some_iff, and_iff_left rfl]

/-- A record comes in where nothing is held under its key image. -/
theorem find?_insert (account : Account) (r : Record) (image : KeyImage) :
    (account.insert r).find? image =
      (account.find? image).or (if r.keyImage = image then some r else none) := by
  by_cases himage : r.keyImage = image
  · subst himage
    rw [if_pos rfl]
    cases hfound : account.find? r.keyImage with
    | some x =>
        rw [insert_of_holds (by rw [holds, hfound, Option.isSome_some]), hfound, Option.some_or]
    | none =>
        have hfree : account.holds r.keyImage = false := by
          rw [holds, hfound, Option.isSome_none]
        have hcons := coe_insertSorted (holds_eq_false_iff.mp hfree)
        rw [Option.none_or, ← mem_records_iff, insert, ← Multiset.mem_coe, hcons]
        exact Multiset.mem_cons_self r _
  · rw [if_neg himage, Option.or_none, find?, find?, ← List.head?_filter, insert,
      filter_insertSorted (decide_eq_false himage), List.head?_filter]

theorem find?_spendAll (account : Account) (images : List KeyImage) (image : KeyImage) :
    (account.spendAll images).2.find? image =
      if image ∈ images then none else account.find? image := by
  ext r
  rw [find?_eq_some_iff, records_spendAll, List.mem_filter, decide_eq_true_eq]
  split
  · next hspent =>
    simp only [reduceCtorEq, iff_false, not_and]
    rintro ⟨-, hkept⟩ rfl
    exact hkept hspent
  · next hkept =>
    rw [find?_eq_some_iff]
    constructor
    · rintro ⟨⟨hmem, -⟩, hkey⟩
      exact ⟨hmem, hkey⟩
    · rintro ⟨hmem, rfl⟩
      exact ⟨⟨hmem, hkept⟩, rfl⟩

theorem find?_applyChange (account : Account) (change : Change) (image : KeyImage) :
    (account.applyChange change).find? image =
      if change.spends image then none
      else (account.find? image).or (change.brings? image) := by
  cases change with
  | observed r => exact account.find?_insert r image
  | spent images =>
      rw [applyChange, find?_spendAll]
      simp [Change.spends, Change.brings?]

/-- After any changes an account holds what their history says. -/
theorem find?_applyChanges_empty (history : List Change) (image : KeyImage) :
    (empty.applyChanges history).find? image = held? history image := by
  induction history using List.reverseRecOn with
  | nil => rfl
  | append_singleton history change ih =>
      rw [held?_concat, ← ih, applyChanges, List.foldl_concat]
      exact find?_applyChange _ change image

theorem applyChanges_ofRecords (records : List Record) (changes : List Change) :
    (ofRecords records).applyChanges changes =
      empty.applyChanges (records.map .observed ++ changes) := by
  rw [applyChanges, applyChanges, List.foldl_append, List.foldl_map]
  rfl

/-! ## What is told of a change -/

theorem insert_ne_self_iff {r : Record} :
    account.insert r ≠ account ↔ account.holds r.keyImage = false := by
  rw [← Bool.not_eq_true, not_iff_not]
  constructor
  · intro hsame
    have hfound := account.find?_insert r r.keyImage
    rw [hsame, if_pos rfl] at hfound
    rw [holds, hfound]
    cases account.find? r.keyImage <;> rfl
  · exact insert_of_holds

/-- A batch is counted by the different key images in it that are held. -/
theorem count_spendAll_eq_card (account : Account) (images : List KeyImage) :
    (account.spendAll images).1 =
      (images.toFinset.filter fun image => account.holds image).card := by
  let taken := account.records.filter fun r => r.keyImage ∈ images
  have hcount : (account.spendAll images).1 = taken.length := by
    have hsize := account.size_spendAll images
    have hsplit := List.length_eq_length_filter_add (l := account.records)
      fun r => decide (r.keyImage ∈ images)
    rw [size, size, records_spendAll] at hsize
    simp only [taken, ← decide_not] at hsplit ⊢
    omega
  have hnodup : (taken.map Record.keyImage).Nodup :=
    account.nodup_keyImages.sublist (List.filter_sublist.map _)
  have hset : (taken.map Record.keyImage).toFinset =
      images.toFinset.filter fun image => account.holds image := by
    ext image
    simp only [taken, List.mem_toFinset, List.mem_map, List.mem_filter, decide_eq_true_eq,
      Finset.mem_filter, holds, Option.isSome_iff_exists, find?_eq_some_iff]
    constructor
    · rintro ⟨r, ⟨hr, himage⟩, rfl⟩
      exact ⟨himage, r, hr, rfl⟩
    · rintro ⟨himage, r, hr, rfl⟩
      exact ⟨r, ⟨hr, himage⟩, rfl⟩
  rw [hcount, ← hset, List.toFinset_card_of_nodup hnodup, List.length_map]

/-! ## Records by token -/

theorem ascending_ofToken (account : Account) (token : TokenId) :
    Record.Ascending (account.ofToken token) :=
  account.ascending.filter _

theorem finsum_length_ofToken (account : Account) :
    ∑ᶠ token, (account.ofToken token).length = account.size := by
  have hcount : ∀ token, (account.ofToken token).length =
      (account.records.map Record.token).count token := by
    intro token
    rw [ofToken, ← List.countP_eq_length_filter, List.count, List.countP_map]
    rfl
  have hsupport : Function.support (fun token => (account.ofToken token).length) ⊆
      (account.records.map Record.token).toFinset := by
    intro token htoken
    rw [Function.mem_support, hcount] at htoken
    rw [Finset.mem_coe, List.mem_toFinset]
    exact List.count_pos_iff.mp (Nat.pos_of_ne_zero htoken)
  rw [finsum_eq_sum_of_support_subset _ hsupport, Finset.sum_congr rfl fun token _ => hcount token,
    List.sum_toFinset_count_eq_length, List.length_map, size]

/-! ## Balances -/

theorem balance_eq_ok_iff {token : TokenId} {sum : UInt64} :
    account.balance token = .ok sum ↔
      sum.toNat = total (Record.values (account.ofToken token)) := by
  rw [balance, ← checkedSum_eq_ok_iff]
  cases checkedSum (Record.values (account.ofToken token)) <;> simp

theorem balance_eq_error_iff {token : TokenId} {failure : Failure} :
    account.balance token = .error failure ↔
      UInt64.size ≤ total (Record.values (account.ofToken token)) ∧
        failure = .balanceOverflow (token.name ++ " balance: " ++ RangeError.overflow.message) := by
  rw [balance]
  cases hsum : checkedSum (Record.values (account.ofToken token)) with
  | ok sum =>
      have hword := total_lt_of_checkedSum hsum
      simp [hword]
  | error error =>
      obtain ⟨rfl, hlarge⟩ := checkedSum_eq_error_iff.mp hsum
      simp [hlarge, eq_comm]

theorem total_values_spendingOrder_ofToken (account : Account) (token : TokenId) :
    total (Record.values (spendingOrder token (account.ofToken token))) =
      total (Record.values (account.ofToken token)) := by
  rw [total_values_spendingOrder, ofToken, List.filter_filter]
  simp

/-! ## What an account reports -/

/-- What an account reports is what its history says. -/
structure Recounts (account : Account) (history : List Change) : Prop where
  mem_records : ∀ r, r ∈ account.records ↔ held? history r.keyImage = some r
  observe : ∀ r,
    (account.observe r).2 = account.applyChange (.observed r) ∧
      ((account.observe r).1 = true ↔ (account.observe r).2 ≠ account) ∧
      ((account.observe r).1 = true ↔ held? history r.keyImage = none)
  spend : ∀ image,
    (account.spend image).2 = account.applyChange (.spent [image]) ∧
      (account.spend image).1 = held? history image
  spendAll : ∀ images,
    (account.spendAll images).2 = account.applyChange (.spent images) ∧
      (account.spendAll images).1 =
        (images.toFinset.filter fun image => (held? history image).isSome).card ∧
      (account.spendAll images).1 + (account.spendAll images).2.size = account.size
  /-- The order is strict, so no record is listed twice. -/
  ascending : ∀ token, Record.Ascending (account.ofToken token)
  mem_ofToken : ∀ token r,
    r ∈ account.ofToken token ↔ held? history r.keyImage = some r ∧ r.token = token
  size : ∑ᶠ token, (account.ofToken token).length = account.size
  balance_ok : ∀ token sum,
    account.balance token = .ok sum ↔
      sum.toNat = total (Record.values (account.ofToken token))
  balance_error : ∀ token failure,
    account.balance token = .error failure ↔
      UInt64.size ≤ total (Record.values (account.ofToken token)) ∧
        failure = .balanceOverflow (token.name ++ " balance: " ++ RangeError.overflow.message)
  /-- A snapshot has no balance where its transferable amount overflows, and there only. -/
  balance_overflows : ∀ token (s : Selector) (rule : FeeRule),
    (∃ failure, account.balance token = .error failure) ↔
      ∃ e, s.transferable token rule (account.ofToken token) = .error e ∧
        e.kind = .balanceOverflow

/-- An account that holds what its history says reports what its history says. -/
theorem recounts_of_find? {history : List Change}
    (h : ∀ image, account.find? image = held? history image) : account.Recounts history where
  mem_records r := by rw [← h, mem_records_iff]
  observe r := by
    refine ⟨rfl, ?_, ?_⟩
    · rw [Account.observe, insert_ne_self_iff, Bool.not_eq_true']
    · rw [Account.observe, ← h, Bool.not_eq_true', holds, Option.isSome_eq_false_iff,
        Option.isNone_iff_eq_none]
  spend image := ⟨rfl, h image⟩
  spendAll images := by
    refine ⟨rfl, ?_, account.size_spendAll images⟩
    simp only [← h]
    exact account.count_spendAll_eq_card images
  ascending := account.ascending_ofToken
  mem_ofToken token r := by
    rw [← h, ← mem_records_iff, ofToken, List.mem_filter, decide_eq_true_eq]
  size := account.finsum_length_ofToken
  balance_ok token sum := balance_eq_ok_iff
  balance_error token failure := balance_eq_error_iff
  balance_overflows token s rule := by
    rw [s.transferable_overflows_iff, total_values_spendingOrder_ofToken]
    simp only [balance_eq_error_iff, exists_and_left, exists_eq, and_true]

/-- However an account starts and whatever is observed and spent, one by one or in batches, what
it reports is what its history says. -/
theorem recounts_history (records : List Record) (changes : List Change) :
    ((ofRecords records).applyChanges changes).Recounts
      (records.map Change.observed ++ changes) := by
  rw [applyChanges_ofRecords]
  apply recounts_of_find?
  intro image
  exact find?_applyChanges_empty _ image

end Account
end SpendPlanner
