import SpendPlanner.Failure
import SpendPlanner.Log
import SpendPlanner.Record

/-!
# Accounts

An account holds the unspent records it knows, at most one for each key image, in ascending
order of key images.  A record whose key image is already held is refused.
-/

namespace SpendPlanner

/-- Ascending order of key images without repetition. -/
def Record.Ascending (records : List Record) : Prop :=
  records.Pairwise fun a b => a.keyImage < b.keyImage

/-- The unspent records of an account. -/
structure Account where
  records : List Record
  ascending : Record.Ascending records

namespace Account

/-- The account without records. -/
def empty : Account := ⟨[], List.Pairwise.nil⟩

/-- Places a record before the first with a larger key image; a record with the same key
image stays in its stead. -/
def insertSorted (r : Record) : List Record → List Record
  | [] => [r]
  | x :: xs =>
    if r.keyImage < x.keyImage then r :: x :: xs
    else if r.keyImage = x.keyImage then x :: xs
    else x :: insertSorted r xs

theorem mem_of_mem_insertSorted {r x : Record} {xs : List Record}
    (h : x ∈ insertSorted r xs) : x = r ∨ x ∈ xs := by
  induction xs with
  | nil => simp_all [insertSorted]
  | cons y ys ih =>
    rw [insertSorted] at h
    split at h
    · simpa using h
    · split at h
      · exact .inr h
      · rcases List.mem_cons.1 h with rfl | h
        · simp
        · rcases ih h with rfl | h <;> simp_all

theorem ascending_insertSorted (r : Record) {xs : List Record} (h : Record.Ascending xs) :
    Record.Ascending (insertSorted r xs) := by
  induction xs with
  | nil => exact List.pairwise_singleton _ _
  | cons y ys ih =>
    obtain ⟨hy, hys⟩ := List.pairwise_cons.1 h
    rw [insertSorted]
    split
    · next hlt =>
      refine List.pairwise_cons.2 ⟨fun z hz => ?_, h⟩
      rcases List.mem_cons.1 hz with rfl | hz
      · exact hlt
      · exact KeyImage.lt_trans hlt (hy z hz)
    · next hlt =>
      split
      · exact h
      · next hne =>
        refine List.pairwise_cons.2 ⟨fun z hz => ?_, ih hys⟩
        rcases mem_of_mem_insertSorted hz with rfl | hz
        · exact KeyImage.lt_of_not_lt_of_ne hlt hne
        · exact hy z hz

/-- The record held under a key image. -/
def find? (account : Account) (image : KeyImage) : Option Record :=
  account.records.find? fun r => r.keyImage = image

/-- Whether a record is held under a key image. -/
def holds (account : Account) (image : KeyImage) : Bool := (account.find? image).isSome

/-- The account with a record added, unless one is held under its key image. -/
def insert (account : Account) (r : Record) : Account :=
  ⟨insertSorted r account.records, ascending_insertSorted r account.ascending⟩

/-- The account without the record held under a key image. -/
def erase (account : Account) (image : KeyImage) : Account :=
  ⟨account.records.filter fun r => r.keyImage ≠ image, account.ascending.filter _⟩

/-- The account holding the first of a list's records for each key image. -/
def ofRecords (records : List Record) : Account := records.foldl insert empty

/-- Adds a record, and tells whether it was new. -/
def observe (account : Account) (r : Record) : Bool × Account :=
  (!account.holds r.keyImage, account.insert r)

/-- Takes out the record held under a key image. -/
def spend (account : Account) (image : KeyImage) : Option Record × Account :=
  (account.find? image, account.erase image)

/-- Takes out the records held under key images one after the other, counting them. -/
def spendAll (account : Account) : List KeyImage → Nat × Account
  | [] => (0, account)
  | image :: images =>
    let (record, account) := account.spend image
    let (count, account) := account.spendAll images
    (if record.isSome then count + 1 else count, account)

/-- The number of records held. -/
def size (account : Account) : Nat := account.records.length

/-- Whether no record is held. -/
def isEmpty (account : Account) : Bool := account.records.isEmpty

/-- The records of one token, in ascending order of key images. -/
def ofToken (account : Account) (token : TokenId) : List Record :=
  account.records.filter fun r => r.token = token

/-- The sum of the records of one token. -/
def balance (account : Account) (token : TokenId) : Except Failure UInt64 :=
  match checkedSum (Record.values (account.ofToken token)) with
  | .ok sum => .ok sum
  | .error error => .error (.balanceOverflow (token.name ++ " balance: " ++ error.message))

/-- The log line of taking a snapshot of a token's records. -/
def snapshotLine (account : Account) (token : TokenId) : Log.Line :=
  ⟨.debug, ["Snapshot of ", Decimal.text (account.ofToken token).length, " ", token.name,
    " records"]⟩

/-- A change that observing the ledger makes to an account. -/
inductive Change where
  | observed (record : Record)
  | spent (images : List KeyImage)

/-- The account after a change. -/
def applyChange (account : Account) : Change → Account
  | .observed record => account.insert record
  | .spent images => (account.spendAll images).2

/-- The account after changes in order. -/
def applyChanges (account : Account) (changes : List Change) : Account :=
  changes.foldl applyChange account

end Account
end SpendPlanner
