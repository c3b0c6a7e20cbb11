import SpendPlanner.Log
import SpendPlanner.Signing.Composition

/-!
# Building a transaction in a session

A draft takes inputs and outputs to an open session and finalizes it.  What a backend
answers is trusted no further than its contract: a rejection of the input and, where an
output is built, a fog report that cannot be verified are failures for the caller; any other
failure, and an empty answer, is a violation of the contract, after which nothing more is
asked.  An exchange keeps everything that passes between the library and the backend, so
that the order of calls can be spoken of.
-/

namespace SpendPlanner

/-- Something that happens between the library and a backend. -/
inductive SessionEvent where
  | opened (session : SessionTerms)
  | called (call : Call)
  | released

/-- The memory of a backend, with what has happened so far and the log of it. -/
structure Exchange (σ : Type) where
  state : σ
  events : List SessionEvent
  log : List Log.Line

namespace Exchange

/-- A backend nothing has been asked of. -/
def fresh {σ : Type} (state : σ) : Exchange σ := ⟨state, [], []⟩

/-- The number of sessions opened so far. -/
def openedCount {σ : Type} (x : Exchange σ) : Nat :=
  x.events.countP fun | .opened _ => true | _ => false

/-- The number of sessions released so far. -/
def releasedCount {σ : Type} (x : Exchange σ) : Nat :=
  x.events.countP fun | .released => true | _ => false

end Exchange

/-- Why a transaction was not built. -/
inductive Stop where
  | failed (failure : Failure)
  /-- The backend broke its contract in an operation. -/
  | violated (operation : Operation)

def Stop.message : Stop → String
  | failed failure => failure.message
  | violated operation => "signing backend contract violation in " ++ operation.name

/-- An activity that exchanges calls with a backend and may stop. -/
abbrev Signing (σ : Type) := ExceptT Stop (StateM (Exchange σ))

namespace Signing

variable {σ α : Type}

/-- Adds a line to the log. -/
def write (line : Log.Line) : Signing σ Unit :=
  modify fun x => { x with log := x.log ++ [line] }

/-- Stops with a failure. -/
def fail (failure : Failure) : Signing σ α := throw (.failed failure)

/-- Goes on with the value of a check, or stops with its refusal. -/
def accept : Except Refusal α → Signing σ α
  | .ok a => pure a
  | .error refusal => fail refusal.toFailure

/-- Stops because the backend broke its contract. -/
def violate (operation : Operation) (detail : String) : Signing σ α := do
  write ⟨.error, ["Signing backend violated its contract in ", operation.name, ": ",
    Log.hidden detail]⟩
  throw (.violated operation)

/-- Stops for a failure that the backend reports. -/
def stopFor (operation : Operation) : BackendFailure → Signing σ α
  | .invalidInput reason => fail (.invalidInput reason)
  | .attestation reason =>
    if operation.readsReports then do
      write ⟨.warn, ["Attestation verification failed in ", operation.name]⟩
      fail (.attestation reason)
    else violate operation (BackendFailure.attestation reason).message
  | .other code message => violate operation (BackendFailure.other code message).message

/-- Opens a session. -/
def openSession (backend : Backend σ) (session : SessionTerms) : Signing σ Unit :=
  modify fun x => { x with
    state := backend.openSession session x.state
    events := x.events ++ [.opened session] }

/-- Makes a call on the open session. -/
def ask (backend : Backend σ) (call : Call) : Signing σ call.Reply := do
  let answer ← modifyGet fun x =>
    let (answer, state) := backend.answer call x.state
    (answer, { x with state := state, events := x.events ++ [.called call] })
  match answer with
  | .ok reply => pure reply
  | .error error => stopFor call.operation error

/-- Does an activity on the open session and releases the session when the activity ends,
however it ends. -/
def releasing (backend : Backend σ) (activity : Signing σ α) : Signing σ α :=
  ExceptT.mk do
    let outcome ← activity.run
    modify fun x => { x with
      state := backend.release x.state
      events := x.events ++ [.released] }
    return outcome

/-- Does an activity in a session of its own. -/
def inSession (backend : Backend σ) (session : SessionTerms) (activity : Signing σ α) :
    Signing σ α := do
  openSession backend session
  releasing backend activity

end Signing

/-- A transaction being built in an open session. -/
structure Draft where
  fee : Amount
  tombstone : UInt64
  /-- The key images of the inputs added so far. -/
  keyImages : List KeyImage

namespace Draft

variable {σ : Type}

/-- The draft of a session that has just been opened. -/
def ofSession (session : SessionTerms) : Draft := ⟨session.fee, session.tombstone, []⟩

/-- Adds an input of an account. -/
def addInput (draft : Draft) (backend : Backend σ) (account : AccountKey)
    (input : PreparedInput) : Signing σ Draft := do
  let spendKey ← Signing.accept (spendKeyFor input draft.fee.token account)
  Signing.ask backend (.addInput account.viewKey spendKey input.realIndex input.ring)
  return { draft with keyImages := draft.keyImages ++ [input.record.keyImage] }

/-- The context of an output the backend has built; it may not be empty. -/
def contextOf (draft : Draft) (operation : Operation) (built : BuiltOutput) :
    Signing σ OutputContext :=
  if built.txOut.isEmpty then
    Signing.violate operation "empty serialized output on success"
  else return built.context draft.tombstone

/-- Adds a payment. -/
def addOutput (draft : Draft) (backend : Backend σ) (recipient : Address)
    (amount : UInt64) : Signing σ OutputContext := do
  let built ← Signing.ask backend (.addOutput recipient amount)
  draft.contextOf .addOutput built

/-- Adds the change, which may be zero. -/
def addChange (draft : Draft) (backend : Backend σ) (account : AccountKey)
    (amount : UInt64) : Signing σ OutputContext := do
  let built ← Signing.ask backend (.addChange account amount)
  draft.contextOf .addChange built

/-- Signs and serializes the transaction; it may not be empty. -/
def finalize (draft : Draft) (backend : Backend σ) : Signing σ Transaction := do
  let bytes : Bytes ← Signing.ask backend .finalize
  if bytes.isEmpty then Signing.violate .finalize "empty transaction on success"
  else return ⟨bytes, draft.fee, draft.tombstone, draft.keyImages⟩

/-- Finalizes the transaction and releases its session. -/
def finish (draft : Draft) (backend : Backend σ) : Signing σ Transaction :=
  Signing.releasing backend (draft.finalize backend)

end Draft
end SpendPlanner
