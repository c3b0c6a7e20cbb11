import SpendPlanner.Proofs.Signing.Conversation
import SpendPlanner.Proofs.Signing.WellFormed

/-!
# Scripts of transactions

Building a composition takes one call for every input, one for every payment, one for the
change if there is any, and one to end with.  A transaction that comes of it is made of the
answers in the order of these calls.
-/

namespace SpendPlanner

variable {σ : Type}

/-! ## Scripts -/

/-- The call that spends an input of an account. -/
def PreparedInput.call? (account : AccountKey) (input : PreparedInput) : Option Call :=
  (account.subaddressKey? input.record.subaddress).map fun key =>
    .addInput account.viewKey key input.realIndex input.ring

/-- The call that makes a payment. -/
def PaymentRequest.call (output : PaymentRequest) : Call :=
  .addOutput output.recipient output.amount.value

/-- The calls that build a composition of an account: every input, every payment, the change if
there is any, and the end. -/
def Composition.script? (c : Composition) (account : AccountKey) : Option (List Call) :=
  (c.inputs.mapM (PreparedInput.call? account)).map fun inputs =>
    inputs ++ (c.outputs.map PaymentRequest.call ++
      ((c.change.map (Call.addChange account)).toList ++ [.finalize]))

namespace Answered

/-- The output that an answer built for a payment. -/
def payment? (tombstone : UInt64) : Answered → Option OutputContext
  | ⟨.addOutput _ _, .ok (built : BuiltOutput)⟩ => some (built.context tombstone)
  | _ => none

/-- The output that an answer built for the change. -/
def change? (tombstone : UInt64) : Answered → Option OutputContext
  | ⟨.addChange _ _, .ok (built : BuiltOutput)⟩ => some (built.context tombstone)
  | _ => none

/-- The transaction that an answer signed. -/
def bytes? : Answered → Option Bytes
  | ⟨.finalize, .ok (bytes : Bytes)⟩ => some bytes
  | _ => none

variable {a : Answered} {tombstone : UInt64}

theorem payment?_eq_none (h : a.call.operation ≠ .addOutput) : a.payment? tombstone = none := by
  obtain ⟨call, answer⟩ := a
  cases call with
  | addOutput recipient amount => exact absurd rfl h
  | addInput viewKey spendKey realIndex ring => rfl
  | addChange account amount => rfl
  | finalize => rfl

theorem change?_eq_none (h : a.call.operation ≠ .addChange) : a.change? tombstone = none := by
  obtain ⟨call, answer⟩ := a
  cases call with
  | addChange account amount => exact absurd rfl h
  | addInput viewKey spendKey realIndex ring => rfl
  | addOutput recipient amount => rfl
  | finalize => rfl

theorem bytes?_eq_none (h : a.call.operation ≠ .finalize) : a.bytes? = none := by
  obtain ⟨call, answer⟩ := a
  cases call with
  | finalize => exact absurd rfl h
  | addInput viewKey spendKey realIndex ring => rfl
  | addOutput recipient amount => rfl
  | addChange account amount => rfl

/-- Answers to other operations have nothing that is read off answers to one. -/
theorem filterMap_eq_nil {β : Type} {read : Answered → Option β} {made operation : Operation}
    {answers : List Answered} (hread : ∀ a, a.call.operation ≠ operation → read a = none)
    (hmade : ∀ a ∈ answers, a.call.operation = made) (hne : made ≠ operation) :
    answers.filterMap read = [] := by
  rw [List.filterMap_eq_nil_iff]
  intro a ha
  exact hread a (hmade a ha ▸ hne)

theorem filterMap_eq {β : Type} {read : Answered → Option β} {answers : List Answered}
    {bs : List β} (h : answers.map read = bs.map some) : answers.filterMap read = bs := by
  have hread := congrArg (List.filterMap id) h
  rw [List.filterMap_map, List.filterMap_map] at hread
  exact hread.trans List.filterMap_some

theorem operation_eq_of_calls {answers : List Answered} {calls : List Call}
    {operation : Operation} (hcalls : answers.map Answered.call = calls)
    (h : ∀ call ∈ calls, call.operation = operation) :
    ∀ a ∈ answers, a.call.operation = operation := by
  intro a ha
  exact h a.call (hcalls ▸ List.mem_map_of_mem ha)

end Answered

theorem PreparedInput.operation_of_mapM {account : AccountKey} {inputs : List PreparedInput}
    {calls : List Call} (h : inputs.mapM (PreparedInput.call? account) = some calls) :
    ∀ call ∈ calls, call.operation = .addInput := by
  induction inputs generalizing calls with
  | nil =>
      cases h
      simp
  | cons input inputs ih =>
      rw [List.mapM_cons] at h
      obtain ⟨call, hcall, h⟩ := Option.bind_eq_some_iff.mp h
      obtain ⟨later, hlater, h⟩ := Option.bind_eq_some_iff.mp h
      obtain ⟨key, -, rfl⟩ := Option.map_eq_some_iff.mp hcall
      cases h
      exact List.forall_mem_cons.mpr ⟨rfl, ih hlater⟩

theorem PreparedInput.exists_calls {token : TokenId} {account : AccountKey}
    {inputs : List PreparedInput} (h : ∀ input ∈ inputs, input.Spendable token account) :
    ∃ calls, inputs.mapM (PreparedInput.call? account) = some calls := by
  induction inputs with
  | nil => exact ⟨[], rfl⟩
  | cons input inputs ih =>
      obtain ⟨hinput, hlater⟩ := List.forall_mem_cons.mp h
      obtain ⟨key, hkey⟩ := hinput.key
      obtain ⟨calls, hcalls⟩ := ih hlater
      refine ⟨.addInput account.viewKey key input.realIndex input.ring :: calls, ?_⟩
      rw [List.mapM_cons, PreparedInput.call?, hkey, hcalls]
      rfl

theorem Composition.WellFormed.exists_script {c : Composition} {limits : ProtocolLimits}
    {terms : ProposalTerms} (h : c.WellFormed limits terms) :
    ∃ script, c.script? terms.account = some script := by
  obtain ⟨calls, hcalls⟩ := PreparedInput.exists_calls h.spendable
  exact ⟨_, Option.map_eq_some_iff.mpr ⟨calls, hcalls, rfl⟩⟩

/-- A transaction made of what a backend answered. -/
structure BuiltTransaction.MadeOf (built : BuiltTransaction) (c : Composition)
    (session : SessionTerms) (answers : List Answered) : Prop where
  keyImages_eq : built.transaction.keyImages = c.inputs.map fun input => input.record.keyImage
  payments_eq : answers.filterMap (Answered.payment? session.tombstone) = built.payments
  change_eq : answers.filterMap (Answered.change? session.tombstone) = built.change.toList
  bytes_eq : answers.filterMap Answered.bytes? = [built.transaction.bytes]
  fee_eq : built.transaction.fee = session.fee
  tombstone_eq : built.transaction.tombstone = session.tombstone
  length_payments : built.payments.length = c.outputs.length
  isSome_change : built.change.isSome = c.change.isSome

open Signing

namespace Draft

variable {backend : Backend σ} {account : AccountKey}

theorem follows_addInput {draft : Draft} {input : PreparedInput} {call : Call}
    (hspendable : input.Spendable draft.fee.token account)
    (hcall : input.call? account = some call) :
    Follows backend [call] (draft.addInput backend account input) fun _ next =>
      next = { draft with keyImages := draft.keyImages ++ [input.record.keyImage] } := by
  obtain ⟨key, hkey, rfl⟩ := Option.map_eq_some_iff.mp hcall
  have hspend : spendKeyFor input draft.fee.token account = .ok key := by
    simp [spendKeyFor, hspendable.token_eq, hspendable.ring_ne_nil,
      not_le.mpr hspendable.realIndex_lt, hkey]
  rw [addInput, hspend]
  refine follows_ask_bind ?_ ?_
  · intro _ hempty
    cases hempty
  · intro _ _
    exact ⟨_, rfl, rfl⟩

/-- Adding inputs makes one call for each and keeps their key images. -/
theorem follows_addInputs {inputs : List PreparedInput} {calls : List Call} {draft : Draft}
    (hspendable : ∀ input ∈ inputs, input.Spendable draft.fee.token account)
    (hcalls : inputs.mapM (PreparedInput.call? account) = some calls) :
    Follows backend calls
      (inputs.foldlM (fun draft input => draft.addInput backend account input) draft)
      fun _ next => next = { draft with
        keyImages := draft.keyImages ++ inputs.map fun input => input.record.keyImage } := by
  induction inputs generalizing calls draft with
  | nil =>
      cases hcalls
      exact follows_pure (by simp)
  | cons input inputs ih =>
      obtain ⟨hinput, hinputs⟩ := List.forall_mem_cons.mp hspendable
      rw [List.mapM_cons] at hcalls
      obtain ⟨call, hcall, hcalls⟩ := Option.bind_eq_some_iff.mp hcalls
      obtain ⟨later, hlater, hcalls⟩ := Option.bind_eq_some_iff.mp hcalls
      cases hcalls
      rw [List.foldlM_cons]
      refine (follows_addInput hinput hcall).bind fun _ next hnext => ?_
      have hrest : ∀ input ∈ inputs, input.Spendable next.fee.token account := by
        rwa [hnext]
      refine (ih hrest hlater).imp ?_
      rintro _ _ rfl
      simp [hnext]

theorem follows_addOutput (draft : Draft) (backend : Backend σ) (recipient : Address)
    (amount : UInt64) :
    Follows backend [.addOutput recipient amount] (draft.addOutput backend recipient amount)
      fun answers context => answers.map (Answered.payment? draft.tombstone) = [some context] := by
  refine follows_ask_bind ?_ ?_
  · intro (built : BuiltOutput) (hempty : built.txOut.isEmpty = true)
    exact ⟨_, if_pos hempty⟩
  · intro (built : BuiltOutput) (hfull : built.txOut.isEmpty = false)
    exact ⟨built.context draft.tombstone, if_neg (by simp [hfull]), rfl⟩

theorem follows_addChange (draft : Draft) (backend : Backend σ) (account : AccountKey)
    (amount : UInt64) :
    Follows backend [.addChange account amount] (draft.addChange backend account amount)
      fun answers context => answers.map (Answered.change? draft.tombstone) = [some context] := by
  refine follows_ask_bind ?_ ?_
  · intro (built : BuiltOutput) (hempty : built.txOut.isEmpty = true)
    exact ⟨_, if_pos hempty⟩
  · intro (built : BuiltOutput) (hfull : built.txOut.isEmpty = false)
    exact ⟨built.context draft.tombstone, if_neg (by simp [hfull]), rfl⟩

theorem follows_finalize (draft : Draft) (backend : Backend σ) :
    Follows backend [.finalize] (draft.finalize backend) fun answers transaction =>
      answers.map Answered.bytes? = [some transaction.bytes] ∧
        transaction = ⟨transaction.bytes, draft.fee, draft.tombstone, draft.keyImages⟩ := by
  refine follows_ask_bind ?_ ?_
  · intro (bytes : Bytes) (hempty : bytes.isEmpty = true)
    exact ⟨_, if_pos hempty⟩
  · intro (bytes : Bytes) (hfull : bytes.isEmpty = false)
    exact ⟨(⟨bytes, draft.fee, draft.tombstone, draft.keyImages⟩ : Transaction),
      if_neg (by simp [hfull]), rfl, rfl⟩

end Draft

/-! ## Building -/

namespace Proposer

variable {p : Proposer σ} {c : Composition} {terms : ProposalTerms}

/-- A transaction is put together from the answers to the parts of the script. -/
theorem madeOf_append {built : BuiltTransaction} {first second third last : List Answered}
    {session : SessionTerms}
    (hinputs : ∀ a ∈ first, a.call.operation = .addInput)
    (hcalls : second.map Answered.call = c.outputs.map PaymentRequest.call)
    (hpayments : second.map (Answered.payment? session.tombstone) = built.payments.map some)
    (hthird : ∀ a ∈ third, a.call.operation = .addChange)
    (hchange : third.map (Answered.change? session.tombstone) = built.change.toList.map some)
    (hsome : built.change.isSome = c.change.isSome)
    (hlast : last.map Answered.call = [.finalize])
    (hbytes : last.map Answered.bytes? = [some built.transaction.bytes])
    (htransaction : built.transaction = ⟨built.transaction.bytes, session.fee,
      session.tombstone, c.inputs.map fun input => input.record.keyImage⟩) :
    built.MadeOf c session (first ++ (second ++ (third ++ last))) := by
  have houtputs : ∀ a ∈ second, a.call.operation = .addOutput :=
    Answered.operation_eq_of_calls hcalls (by simp [PaymentRequest.call, Call.operation])
  have hend : ∀ a ∈ last, a.call.operation = .finalize :=
    Answered.operation_eq_of_calls hlast (by simp [Call.operation])
  constructor
  · rw [htransaction]
  · rw [List.filterMap_append, List.filterMap_append, List.filterMap_append,
      Answered.filterMap_eq_nil (fun _ => Answered.payment?_eq_none) hinputs (by decide),
      Answered.filterMap_eq_nil (fun _ => Answered.payment?_eq_none) hthird (by decide),
      Answered.filterMap_eq_nil (fun _ => Answered.payment?_eq_none) hend (by decide),
      Answered.filterMap_eq hpayments]
    simp
  · rw [List.filterMap_append, List.filterMap_append, List.filterMap_append,
      Answered.filterMap_eq_nil (fun _ => Answered.change?_eq_none) hinputs (by decide),
      Answered.filterMap_eq_nil (fun _ => Answered.change?_eq_none) houtputs (by decide),
      Answered.filterMap_eq_nil (fun _ => Answered.change?_eq_none) hend (by decide),
      Answered.filterMap_eq hchange]
    simp
  · have hread : last.filterMap Answered.bytes? = [built.transaction.bytes] :=
      Answered.filterMap_eq hbytes
    rw [List.filterMap_append, List.filterMap_append, List.filterMap_append,
      Answered.filterMap_eq_nil (fun _ => Answered.bytes?_eq_none) hinputs (by decide),
      Answered.filterMap_eq_nil (fun _ => Answered.bytes?_eq_none) houtputs (by decide),
      Answered.filterMap_eq_nil (fun _ => Answered.bytes?_eq_none) hthird (by decide), hread]
    rfl
  · rw [htransaction]
  · rw [htransaction]
  · have hlength := congrArg List.length hpayments
    have hrequests := congrArg List.length hcalls
    simp only [List.length_map] at hlength hrequests
    omega
  · exact hsome

/-- Where all inputs can be spent, building makes the calls of the script. -/
theorem follows_drive {script : List Call}
    (hspendable : ∀ input ∈ c.inputs, input.Spendable terms.fee.token terms.account)
    (hscript : c.script? terms.account = some script) :
    Follows p.backend script (p.drive c terms) fun answers built =>
      built.MadeOf c terms.session answers := by
  obtain ⟨inputs, hinputs, rfl⟩ := Option.map_eq_some_iff.mp hscript
  rw [drive]
  refine (Draft.follows_addInputs hspendable hinputs).calls_eq.bind ?_
  rintro first draft ⟨hfirst, hdraft⟩
  have htombstone : draft.tombstone = terms.session.tombstone := by rw [hdraft]; rfl
  refine (follows_mapM (fun output => draft.follows_addOutput _ _ _) c.outputs).calls_eq.bind ?_
  rintro second payments ⟨hsecond, hpayments⟩
  have hclosing : ∀ (third : List Answered) (change : Option OutputContext),
      (∀ a ∈ third, a.call.operation = .addChange) →
      third.map (Answered.change? draft.tombstone) = change.toList.map some →
      change.isSome = c.change.isSome →
        Follows p.backend [.finalize] (do
          let transaction ← draft.finalize p.backend
          return BuiltTransaction.mk transaction payments change) fun later built =>
            built.MadeOf c terms.session (first ++ (second ++ (third ++ later))) := by
    intro third change hthird hread hsome
    rw [bind_pure_comp]
    refine (draft.follows_finalize p.backend).calls_eq.map ?_
    rintro last transaction ⟨hlast, hbytes, htransaction⟩
    refine madeOf_append
      (Answered.operation_eq_of_calls hfirst (PreparedInput.operation_of_mapM hinputs))
      hsecond (htombstone ▸ hpayments) hthird (htombstone ▸ hread) hsome hlast hbytes ?_
    rw [hdraft] at htransaction
    exact htransaction
  cases hchange : c.change with
  | none =>
      exact hclosing [] none (by simp) rfl (congrArg Option.isSome hchange.symm)
  | some amount =>
      have hadded : Follows p.backend [.addChange terms.account amount]
          (some <$> draft.addChange p.backend terms.account amount) fun answers change =>
            (∀ a ∈ answers, a.call.operation = .addChange) ∧
              answers.map (Answered.change? draft.tombstone) = change.toList.map some ∧
              change.isSome = true := by
        refine (draft.follows_addChange p.backend terms.account amount).calls_eq.map ?_
        rintro answers context ⟨hcalls, hread⟩
        exact ⟨Answered.operation_eq_of_calls hcalls (by simp [Call.operation]), hread, rfl⟩
      refine hadded.bind ?_
      rintro third change ⟨hthird, hread, hsome⟩
      exact hclosing third change hthird hread
        (hsome.trans (congrArg Option.isSome hchange.symm))

end Proposer
end SpendPlanner
