import SpendPlanner.Network
import SpendPlanner.Record

/-!
# Signing backends

All cryptography happens in a backend.  A backend is told of each transaction by opening a
session, answers the calls made on it, and frees the session when it is released.  Nothing
is assumed of the answers: a backend is any state machine whatever.
-/

namespace SpendPlanner

/-- The responses of fog report servers, one for each URL. -/
structure FogReports where
  entries : List (String × Bytes)

namespace FogReports

/-- No responses. -/
def empty : FogReports := ⟨[]⟩

/-- Adds the response for a URL in place of an earlier one. -/
def add (reports : FogReports) (url : String) (response : Bytes) : FogReports :=
  ⟨reports.entries.filter (fun entry => entry.1 ≠ url) ++ [(url, response)]⟩

/-- The response for a URL. -/
def find? (reports : FogReports) (url : String) : Option Bytes := reports.entries.lookup url

/-- The response for a recipient; a recipient without fog has none. -/
def forRecipient? (reports : FogReports) (recipient : Address) : Option Bytes :=
  recipient.fog.bind fun fog => reports.find? fog.reportUrl

/-- The number of URLs with a response. -/
def size (reports : FogReports) : Nat := reports.entries.length

/-- Whether there are no responses. -/
def isEmpty (reports : FogReports) : Bool := reports.entries.isEmpty

end FogReports

/-- What a backend is told when a session is opened. -/
structure SessionTerms where
  fee : Amount
  /-- The last block in which the transaction is valid. -/
  tombstone : UInt64
  fog : FogReports
  blockVersion : BlockVersion

/-- What a backend returns for an output it has built. -/
structure BuiltOutput where
  txOut : Bytes
  publicKey : PublicKey
  confirmation : Bytes32
  sharedSecret : PublicKey

/-- The kinds of calls made on a session. -/
inductive Operation where
  | addInput
  | addOutput
  | addChange
  | finalize
  deriving DecidableEq

namespace Operation

def name : Operation → String
  | addInput => "add_input"
  | addOutput => "add_output"
  | addChange => "add_change_output"
  | finalize => "finalize"

/-- Only building an output looks at fog reports, so only there may verifying one fail. -/
def readsReports : Operation → Bool
  | addOutput | addChange => true
  | addInput | finalize => false

end Operation

/-- A call made on a session. -/
inductive Call where
  /-- Spend the member of a ring at `realIndex`. -/
  | addInput (viewKey spendKey : PrivateKey) (realIndex : Nat) (ring : List RingMember)
  /-- Pay an amount to a recipient. -/
  | addOutput (recipient : Address) (amount : UInt64)
  /-- Return an amount to the account. -/
  | addChange (account : AccountKey) (amount : UInt64)
  /-- Sign and serialize the transaction. -/
  | finalize

namespace Call

def operation : Call → Operation
  | addInput .. => .addInput
  | addOutput .. => .addOutput
  | addChange .. => .addChange
  | finalize => .finalize

/-- What a call returns when it succeeds. -/
def Reply : Call → Type
  | addInput .. => Unit
  | addOutput .. | addChange .. => BuiltOutput
  | finalize => Bytes

end Call

/-- A failure a backend reports. -/
inductive BackendFailure where
  /-- The arguments of the call were rejected. -/
  | invalidInput (reason : String)
  /-- The signature of a fog report could not be verified. -/
  | attestation (reason : String)
  /-- Something no call is documented to fail with. -/
  | other (code : Int) (message : String)
  deriving DecidableEq

def BackendFailure.message : BackendFailure → String
  | invalidInput reason => "invalid input: " ++ reason
  | attestation reason => "attestation verification failed: " ++ reason
  | other code message =>
    "backend error " ++ (if code < 0 then "-" else "") ++ Decimal.text code.natAbs ++ ": " ++
      message

/-- A signing backend whose memory, open session included, is a `σ`. -/
structure Backend (σ : Type) where
  openSession : SessionTerms → σ → σ
  answer : (call : Call) → σ → Except BackendFailure call.Reply × σ
  release : σ → σ

end SpendPlanner
