import SpendPlanner.Sha256
import SpendPlanner.Signing.Backend

/-!
# Transactions

A payment request, the receipt and context of an output once built, and the transaction with
its payments.  A transaction is known by the digest of its bytes.
-/

namespace SpendPlanner

/-- A payment that is asked for. -/
structure PaymentRequest where
  recipient : Address
  amount : PositiveWord

/-- What proves a payment to its recipient. -/
structure Receipt where
  publicKey : PublicKey
  txOut : Bytes
  confirmation : Bytes32
  tombstone : UInt64

/-- An output built for a transaction. -/
structure OutputContext where
  txOut : Bytes
  receipt : Receipt
  sharedSecret : PublicKey

/-- The context of what a backend has built, in a transaction with the given tombstone. -/
def BuiltOutput.context (output : BuiltOutput) (tombstone : UInt64) : OutputContext where
  txOut := output.txOut
  receipt := ⟨output.publicKey, output.txOut, output.confirmation, tombstone⟩
  sharedSecret := output.sharedSecret

/-- The digest a transaction is known by. -/
structure TxId where
  digest : Bytes32
  deriving DecidableEq

namespace TxId

def text (id : TxId) : String := id.digest.hex

/-- The diagnostic form of a digest. -/
def debugText (id : TxId) : String := "TxId(" ++ id.text ++ ")"

/-- The digest of a serialized transaction. -/
def ofBytes (bytes : Bytes) : TxId := ⟨Sha256.digest bytes⟩

end TxId

/-- A signed and serialized transaction. -/
structure Transaction where
  bytes : Bytes
  fee : Amount
  tombstone : UInt64
  /-- The key images of the records it spends, in the order of its inputs. -/
  keyImages : List KeyImage

def Transaction.id (tx : Transaction) : TxId := .ofBytes tx.bytes

/-- A transaction with what was built for it. -/
structure BuiltTransaction where
  transaction : Transaction
  /-- The payments, in the order they were asked for. -/
  payments : List OutputContext
  change : Option OutputContext

/-- The receipts of the payments. -/
def BuiltTransaction.receipts (built : BuiltTransaction) : List Receipt :=
  built.payments.map OutputContext.receipt

/-- A transaction with a single payment. -/
structure SinglePayment where
  transaction : Transaction
  payment : OutputContext
  change : Option OutputContext

end SpendPlanner
