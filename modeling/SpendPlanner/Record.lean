import SpendPlanner.Amount
import SpendPlanner.Keys

/-!
# Records

A record is an unspent output the account can spend.  Its key image marks it as spent, so
two records with one key image are the same output.  An input is a record hidden at one
place of a ring of outputs.
-/

namespace SpendPlanner

/-- The mark an output leaves when it is spent. -/
structure KeyImage where
  bytes : Bytes32
  deriving DecidableEq

namespace KeyImage

/-- Key images are ordered by their bytes. -/
instance : LT KeyImage := ⟨fun a b => a.bytes < b.bytes⟩

instance (a b : KeyImage) : Decidable (a < b) :=
  inferInstanceAs (Decidable (a.bytes < b.bytes))

instance : Json.Codec KeyImage where
  encode image := Json.encode image.bytes
  decode? v := (Json.decode? v).map KeyImage.mk

theorem lt_irrefl (a : KeyImage) : ¬a < a := Bytes32.lt_irrefl a.bytes

theorem lt_trans {a b c : KeyImage} (hab : a < b) (hbc : b < c) : a < c :=
  Bytes32.lt_trans hab hbc

theorem lt_of_not_lt_of_ne {a b : KeyImage} (hlt : ¬a < b) (hne : a ≠ b) : b < a :=
  Bytes32.lt_of_not_lt_of_ne hlt fun h => hne (by cases a; cases b; simp_all)

end KeyImage

/-- An unspent output. -/
structure Record where
  value : UInt64
  token : TokenId
  globalIndex : UInt64
  /-- The subaddress the output was received on. -/
  subaddress : UInt64
  publicKey : PublicKey
  keyImage : KeyImage
  txOut : Bytes
  deriving DecidableEq

namespace Record

/-- The value and token of a record. -/
def amount (r : Record) : Amount := ⟨r.value, r.token⟩

/-- A record whose key image, public key and output all follow from its global index. -/
def numbered (value globalIndex : UInt64) (token : TokenId) (subaddress : UInt64) :
    Record where
  value := value
  token := token
  globalIndex := globalIndex
  subaddress := subaddress
  publicKey := ⟨⟨littleEndian globalIndex ++ List.replicate 23 0 ++ [1],
    by simp [length_littleEndian]⟩⟩
  keyImage := ⟨⟨littleEndian globalIndex ++ List.replicate 24 0,
    by simp [length_littleEndian]⟩⟩
  txOut := littleEndian globalIndex

instance : Json.Codec Record where
  encode r := .ofFields
    [("value", Json.encode r.value),
     ("token_id", Json.encode r.token),
     ("global_index", Json.encode r.globalIndex),
     ("subaddress_index", Json.encode r.subaddress),
     ("public_key", Json.encode r.publicKey),
     ("key_image", Json.encode r.keyImage),
     ("tx_out", Json.encode r.txOut)]
  decode? v := do
    match ← v.fields? ["value", "token_id", "global_index", "subaddress_index",
        "public_key", "key_image", "tx_out"] with
    | [value, token, globalIndex, subaddress, publicKey, keyImage, txOut] =>
      return {
        value := ← Json.required? value
        token := ← Json.required? token
        globalIndex := ← Json.required? globalIndex
        subaddress := ← Json.required? subaddress
        publicKey := ← Json.required? publicKey
        keyImage := ← Json.required? keyImage
        txOut := ← Json.required? txOut }
    | _ => none

/-- The values of records, in their order. -/
def values (records : List Record) : List UInt64 := records.map Record.value

/-- The records of a JSON array. -/
def listOfJson? (text : String) : Option (List Record) := Json.readAs? (List Record) text

end Record

/-- One output of a ring, with the proof that the ledger holds it. -/
structure RingMember where
  txOut : Bytes
  membershipProof : Bytes
  deriving DecidableEq

instance : Json.Codec RingMember where
  encode m := .ofFields
    [("tx_out", Json.encode m.txOut), ("membership_proof", Json.encode m.membershipProof)]
  decode? v := do
    match ← v.fields? ["tx_out", "membership_proof"] with
    | [txOut, proof] => return ⟨← Json.required? txOut, ← Json.required? proof⟩
    | _ => none

/-- A record ready to be spent, hidden among the members of a ring. -/
structure PreparedInput where
  record : Record
  ring : List RingMember
  /-- The place of the record in the ring. -/
  realIndex : Nat
  deriving DecidableEq

end SpendPlanner
