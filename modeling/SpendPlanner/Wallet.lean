import SpendPlanner.Account
import SpendPlanner.Selection.Gathering
import SpendPlanner.Selection.Payment
import SpendPlanner.Selection.Transferable

/-!
# Wallet runs

A wallet carries out what the selector chooses: it takes the chosen inputs out of its
account and puts in the outputs that come back to it.  Such an output is a record with the
next free global index.  Every step first takes a snapshot of the records of its token and
works on that.
-/

namespace SpendPlanner

/-- An account with the selector that spends from it and the next free global index. -/
structure Wallet where
  account : Account
  selector : Selector
  nextIndex : UInt64

namespace Wallet

/-- Something a wallet does with the records of one token. -/
inductive Action where
  | insert (record : Record)
  | spend (images : List KeyImage)
  | snapshot
  | transferable (rule : FeeRule)
  | send (amount : UInt64) (rule : FeeRule)
  | defragment (amount : UInt64) (rule : FeeRule)
  | sweep (rule : FeeRule)

/-- What a wallet reports of an action. -/
inductive Report where
  | inserted (isNew : Bool)
  | spent (count : Nat)
  | records (records : List Record)
  | transferable (amount : UInt64)
  /-- A payment, with the number of records taken out. -/
  | sent (spent : Nat) (selection : InputSelection)
  /-- Consolidations, each with the number of records taken out. -/
  | defragmented (steps : List (Nat × ReadyMerge))
  /-- A sweep, with the number of records taken out. -/
  | swept (spent : Nat) (selection : Sweep)

/-- Puts an output of the wallet's own into its account.  The index is used up even if the
account already holds its key image. -/
def put (w : Wallet) (value : UInt64) (token : TokenId) : Wallet :=
  { w with
    account := w.account.insert (Record.numbered value w.nextIndex token 0)
    nextIndex := w.nextIndex + 1 }

/-- Takes the records of a transaction's inputs out of the account, counting them. -/
def takeOut (w : Wallet) (inputs : List Record) : Nat × Wallet :=
  let (count, account) := w.account.spendAll (inputs.map Record.keyImage)
  (count, { w with account := account })

/-- Carries out consolidations one after the other. -/
def carryOut (w : Wallet) (token : TokenId) : List ReadyMerge → List (Nat × ReadyMerge) × Wallet
  | [] => ([], w)
  | step :: steps =>
    let (count, w) := w.takeOut step.inputs
    let (reports, w) := (w.put step.output token).carryOut token steps
    ((count, step) :: reports, w)

/-- Does an action, leaving the wallet as it was where the action fails. -/
def perform (w : Wallet) (token : TokenId) : Action → Except SelectionError Report × Wallet
  | .insert record =>
    let (isNew, account) := w.account.observe record
    (.ok (.inserted isNew), { w with account := account })
  | .spend images =>
    let (count, account) := w.account.spendAll images
    (.ok (.spent count), { w with account := account })
  | .snapshot => (.ok (.records (w.account.ofToken token)), w)
  | .transferable rule =>
    ((w.selector.transferable token rule (w.account.ofToken token)).map .transferable, w)
  | .send amount rule =>
    match w.selector.select ⟨amount, token⟩ rule (w.account.ofToken token) with
    | .error error => (.error error, w)
    | .ok selection =>
      let (count, w) := w.takeOut selection.inputs
      (.ok (.sent count selection),
        if selection.change = 0 then w else w.put selection.change token)
  | .defragment amount rule =>
    match w.selector.defragment ⟨amount, token⟩ rule (w.account.ofToken token) with
    | .error error => (.error error, w)
    | .ok steps =>
      let (reports, w) := w.carryOut token steps
      (.ok (.defragmented reports), w)
  | .sweep rule =>
    match w.selector.sweep token rule (w.account.ofToken token) with
    | .error error => (.error error, w)
    | .ok selection =>
      let (count, w) := w.takeOut selection.inputs
      (.ok (.swept count selection), w)

/-- The log of an action. -/
def performLog (w : Wallet) (token : TokenId) (action : Action) : List Log.Line :=
  let records := w.account.ofToken token
  w.account.snapshotLine token :: match action with
    | .transferable rule => w.selector.transferableLog token rule records
    | .send amount rule => w.selector.selectLog ⟨amount, token⟩ rule records
    | _ => []

/-- The wallet after actions in order. -/
def run (w : Wallet) (actions : List (TokenId × Action)) : Wallet :=
  actions.foldl (fun w action => (w.perform action.1 action.2).2) w

end Wallet
end SpendPlanner
