import SpendPlanner.Signing.Transaction

/-!
# Rehearsing transactions

A backend that signs nothing.  Each session keeps a transcript of what it is told; outputs and
transactions are digests of the transcript, so equal calls give equal answers.  What would be
random is a byte that counts up.
-/

namespace SpendPlanner

/-- How a rehearsal answers where the rules leave a choice. -/
structure RehearsalOptions where
  /-- Whether the report of every recipient fails to verify. -/
  rejectsReports : Bool
  /-- Whether outputs come back empty. -/
  emptiesOutputs : Bool

/-- The memory of a rehearsal. -/
structure Rehearsal where
  /-- What the open session has been told. -/
  transcript : Bytes
  /-- The number of outputs of the open session. -/
  outputCount : UInt64
  /-- The number of inputs over all sessions. -/
  inputCount : Nat
  /-- The amounts paid over all sessions. -/
  payments : List UInt64
  /-- The change over all sessions. -/
  changes : List UInt64
  /-- The next byte that stands for a random one. -/
  nextByte : UInt8

namespace Rehearsal

/-- A rehearsal before its first session. -/
def ofSeed (seed : UInt8) : Rehearsal := ⟨[], 0, 0, [], [], seed⟩

/-- Draws bytes in place of random ones. -/
def draw (r : Rehearsal) (count : Nat) : Bytes × Rehearsal :=
  ((List.range count).map fun i => r.nextByte + UInt8.ofNat i,
    { r with nextByte := r.nextByte + UInt8.ofNat count })

theorem length_draw (r : Rehearsal) (count : Nat) : (r.draw count).1.length = count := by
  simp [draw]

/-- Starts the transcript of a session. -/
def openSession (session : SessionTerms) (r : Rehearsal) : Rehearsal :=
  { r with
    transcript := littleEndian session.fee.value ++ littleEndian session.tombstone
    outputCount := 0 }

/-- Adds an input to the transcript. -/
def addInput (r : Rehearsal) (spendKey : PrivateKey) (realIndex : Nat) (ring : List RingMember) :
    Except BackendFailure Unit × Rehearsal :=
  match ring[realIndex]? with
  | none => (.error (.invalidInput "real input index outside ring"), r)
  | some member =>
    (.ok (), { r with
      transcript := r.transcript ++ spendKey.bytes.bytes ++ member.txOut
      inputCount := r.inputCount + 1 })

/-- Adds an output to the transcript. -/
def addOutput (options : RehearsalOptions) (amount : UInt64) (r : Rehearsal) :
    BuiltOutput × Rehearsal :=
  let count := r.outputCount + 1
  let transcript := r.transcript ++ littleEndian count ++ littleEndian amount
  let digest := Sha256.digest transcript
  ({ txOut := if options.emptiesOutputs then [] else digest.bytes.take 16
     publicKey := ⟨digest⟩
     confirmation := Sha256.digest digest.bytes
     sharedSecret := ⟨⟨(r.draw 32).1, r.length_draw 32⟩⟩ },
    { (r.draw 32).2 with transcript := transcript, outputCount := count })

/-- Ends the transcript. -/
def finalize (r : Rehearsal) : Bytes × Rehearsal :=
  let (nonce, r) := r.draw 8
  ((Sha256.digest r.transcript).bytes ++ nonce, r)

/-- Answers a call. -/
def answer (options : RehearsalOptions) :
    (call : Call) → Rehearsal → Except BackendFailure call.Reply × Rehearsal
  | .addInput _ spendKey realIndex ring, r => r.addInput spendKey realIndex ring
  | .addOutput _ amount, r =>
    if options.rejectsReports then (.error (.attestation "fog report signature rejected"), r)
    else
      let (output, r) := addOutput options amount { r with payments := r.payments ++ [amount] }
      (.ok output, r)
  | .addChange _ amount, r =>
    let (output, r) := addOutput options amount { r with changes := r.changes ++ [amount] }
    (.ok output, r)
  | .finalize, r =>
    let (bytes, r) := r.finalize
    (.ok bytes, r)

/-- The backend of rehearsals. -/
def backend (options : RehearsalOptions) : Backend Rehearsal where
  openSession := openSession
  answer := answer options
  release r := r

end Rehearsal
end SpendPlanner
