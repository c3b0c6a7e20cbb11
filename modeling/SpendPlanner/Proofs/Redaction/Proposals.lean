import SpendPlanner.Proofs.Redaction.Estimates
import SpendPlanner.Proofs.Signing.Protocol

/-!
# What the logs of proposals show

A proposer writes of the size of a composition before it is built, and of the transaction after
it.  In between, only a call that fails is written of, by its name.  So while values are hidden
what is written of a request is told by the composition's size, by the calls that are made and by
the kind of the outcome.
-/

namespace SpendPlanner

open Log

variable {σ α β : Type}

namespace Signing

/-- What is written when a fog report could not be verified. -/
def unverifiedLine (operation : Operation) : Line :=
  ⟨.warn, ["Attestation verification failed in ", operation.name]⟩

/-- What is written when the backend has broken its contract. -/
def violationLine (operation : Operation) (detail : String) : Line :=
  ⟨.error, ["Signing backend violated its contract in ", operation.name, ": ",
    Log.hidden detail]⟩

/-- What is written of an activity that makes calls on an open session, by its outcome. -/
inductive Writes : List Call → Except Stop α → List Line → Prop
  | result (calls : List Call) (a : α) : Writes calls (.ok a) []
  | refused (calls : List Call) (reason : String) :
      Writes calls (.error (.failed (.invalidInput reason))) []
  /-- Only the last call can have failed. -/
  | unverified (calls : List Call) (call : Call) (reason : String) :
      Writes (calls ++ [call]) (.error (.failed (.attestation reason)))
        [unverifiedLine call.operation]
  | violated (calls : List Call) (operation : Operation) (detail : String) :
      Writes calls (.error (.violated operation)) [violationLine operation detail]

namespace Writes

variable {calls : List Call} {lines : List Line}

theorem eq_nil_of_ok {a : α} (h : Writes calls (.ok a) lines) : lines = [] := by
  cases h
  rfl

/-- What was called before has no part in what is written. -/
theorem append {outcome : Except Stop α} (h : Writes calls outcome lines)
    (earlier : List Call) : Writes (earlier ++ calls) outcome lines := by
  cases h with
  | result _ a => exact .result _ a
  | refused _ reason => exact .refused _ reason
  | unverified calls call reason =>
      rw [← List.append_assoc]
      exact .unverified _ call reason
  | violated _ operation detail => exact .violated _ operation detail

theorem of_error {stop : Stop} (h : Writes calls (.error stop : Except Stop α) lines) :
    Writes calls (.error stop : Except Stop β) lines := by
  cases h with
  | refused _ reason => exact .refused _ reason
  | unverified calls call reason => exact .unverified calls call reason
  | violated _ operation detail => exact .violated _ operation detail

end Writes

/-! ## Activities on an open session -/

/-- What an activity has called and written. -/
structure Told (before : Exchange σ) (calls : List Call) (lines : List Line)
    (ending : Except Stop α × Exchange σ) : Prop where
  events_eq : ending.2.events = before.events ++ calls.map .called
  log_eq : ending.2.log = before.log ++ lines
  writes : Writes calls ending.1 lines

/-- An activity writes of nothing but the call that stops it. -/
def Tells (activity : Signing σ α) : Prop :=
  ∀ x : Exchange σ, ∃ calls lines, Told x calls lines (activity.run.run x)

theorem tells_pure (a : α) : Tells (pure a : Signing σ α) := by
  intro x
  refine ⟨[], [], ?_, ?_, .result [] a⟩
  · exact (List.append_nil _).symm
  · exact (List.append_nil _).symm

theorem Tells.bind {activity : Signing σ α} {next : α → Signing σ β} (h : Tells activity)
    (hnext : ∀ a, Tells (next a)) : Tells (activity >>= next) := by
  intro x
  obtain ⟨calls, lines, hevents, hlog, hwrites⟩ := h x
  rw [Activity.run_bind]
  generalize activity.run.run x = ending at hevents hlog hwrites ⊢
  obtain ⟨outcome, y⟩ := ending
  cases outcome with
  | ok a =>
      obtain ⟨later, more, hevents', hlog', hwrites'⟩ := hnext a y
      refine ⟨calls ++ later, more, ?_, ?_, hwrites'.append calls⟩
      · rw [List.map_append, ← List.append_assoc, ← hevents]
        exact hevents'
      · rw [hwrites.eq_nil_of_ok, List.append_nil] at hlog
        rw [← hlog]
        exact hlog'
  | error stop => exact ⟨calls, lines, hevents, hlog, hwrites.of_error⟩

theorem tells_accept (outcome : Except Refusal α) : Tells (accept outcome : Signing σ α) := by
  cases outcome with
  | ok a => exact tells_pure a
  | error refusal =>
      intro x
      refine ⟨[], [], ?_, ?_, .refused [] refusal.reason⟩
      · exact (List.append_nil _).symm
      · exact (List.append_nil _).symm

theorem tells_violate (operation : Operation) (detail : String) :
    Tells (violate operation detail : Signing σ α) := by
  intro x
  refine ⟨[], [violationLine operation detail], ?_, rfl, .violated [] operation detail⟩
  exact (List.append_nil _).symm

/-- A call that fails is written of as its failure says. -/
theorem told_stopFor (backend : Backend σ) (call : Call) (failure : BackendFailure)
    (x : Exchange σ) :
    ∃ lines, Told x [call] lines
      ((stopFor call.operation failure : Signing σ α).run.run (called backend call x)) := by
  have hviolated : ∀ detail, Told x [call] [violationLine call.operation detail]
      ((violate call.operation detail : Signing σ α).run.run (called backend call x)) :=
    fun detail => ⟨rfl, rfl, .violated [call] call.operation detail⟩
  cases failure with
  | invalidInput reason => exact ⟨[], rfl, (List.append_nil _).symm, .refused [call] reason⟩
  | attestation reason =>
      rw [stopFor]
      split
      · exact ⟨[unverifiedLine call.operation], rfl, rfl, .unverified [] call reason⟩
      · exact ⟨_, hviolated _⟩
  | other code message => exact ⟨_, hviolated _⟩

theorem tells_ask (backend : Backend σ) (call : Call) : Tells (ask backend call) := by
  intro x
  cases hanswer : (backend.answer call x.state).1 with
  | ok reply =>
      rw [run_ask_of_ok hanswer]
      exact ⟨[call], [], rfl, (List.append_nil _).symm, .result [call] reply⟩
  | error failure =>
      rw [run_ask_of_error hanswer]
      exact ⟨[call], told_stopFor backend call failure x⟩

theorem tells_closed (backend : Backend σ) : Closed backend Tells where
  pure := tells_pure
  bind := Tells.bind
  accept := tells_accept
  violate := tells_violate
  ask := tells_ask backend

/-! ## Sessions -/

/-- What is written of a result. -/
def closing (lines : α → List Line) : Except Stop α → List Line
  | .ok a => lines a
  | .error _ => []

/-- What an activity with a session of its own has called and written: given lines before the
session, and others after it if it has a result. -/
structure Recounted (before : Exchange σ) (opening : List Line) (after : α → List Line)
    (session : SessionTerms) (calls : List Call) (lines : List Line)
    (ending : Except Stop α × Exchange σ) : Prop where
  events_eq : ending.2.events =
    before.events ++ .opened session :: (calls.map .called ++ [.released])
  log_eq : ending.2.log = before.log ++ (opening ++ (lines ++ closing after ending.1))
  writes : Writes calls ending.1 lines

def Recounts (opening : List Line) (after : α → List Line) (activity : Signing σ α) : Prop :=
  ∀ x : Exchange σ, ∃ session calls lines,
    Recounted x opening after session calls lines (activity.run.run x)

theorem Tells.inSession {activity : Signing σ α} (h : Tells activity) (backend : Backend σ)
    (session : SessionTerms) :
    Recounts [] (fun _ => []) (inSession backend session activity) := by
  intro x
  obtain ⟨calls, lines, hevents, hlog, hwrites⟩ :=
    h ⟨backend.openSession session x.state, x.events ++ [.opened session], x.log⟩
  rw [run_inSession]
  refine ⟨session, calls, lines, ?_, ?_, hwrites⟩
  · simp only [hevents, List.append_assoc, List.cons_append, List.nil_append]
  · have hnothing : closing (fun _ => []) (activity.run.run
        ⟨backend.openSession session x.state, x.events ++ [.opened session], x.log⟩).1 = [] := by
      cases (activity.run.run _).1 <;> rfl
    rw [hnothing, List.append_nil]
    exact hlog

theorem Recounts.of_write {opening : List Line} {after : α → List Line} {activity : Signing σ α}
    (h : Recounts opening after activity) (line : Line) :
    Recounts (line :: opening) after (write line >>= fun _ => activity) := by
  intro x
  obtain ⟨session, calls, lines, hevents, hlog, hwrites⟩ := h { x with log := x.log ++ [line] }
  exact ⟨session, calls, lines, hevents, hlog.trans (List.append_assoc ..), hwrites⟩

/-- After a session with a result only that may be written of. -/
theorem Recounts.bind {opening : List Line} {after : α → List Line} {after' : β → List Line}
    {activity : Signing σ α} {next : α → Signing σ β} (h : Recounts opening after activity)
    (hnext : ∀ x a, (activity.run.run x).1 = .ok a → ∃ b more, after' b = after a ++ more ∧
      ∀ y : Exchange σ, (next a).run.run y = (.ok b, { y with log := y.log ++ more })) :
    Recounts opening after' (activity >>= next) := by
  intro x
  obtain ⟨session, calls, lines, hevents, hlog, hwrites⟩ := h x
  have hresult := hnext x
  rw [Activity.run_bind]
  generalize activity.run.run x = ending at hevents hlog hwrites hresult ⊢
  obtain ⟨outcome, y⟩ := ending
  cases outcome with
  | ok a =>
      obtain ⟨b, more, hmore, hrun⟩ := hresult a rfl
      simp only [hrun]
      refine ⟨session, calls, lines, hevents, ?_, ?_⟩
      · change y.log ++ more = x.log ++ (opening ++ (lines ++ after' b))
        change y.log = x.log ++ (opening ++ (lines ++ after a)) at hlog
        simp only [hlog, hmore, List.append_assoc]
      · rw [hwrites.eq_nil_of_ok]
        exact .result calls b
  | error stop => exact ⟨session, calls, lines, hevents, hlog, hwrites.of_error⟩

theorem Recounts.map {opening : List Line} {after : α → List Line} {after' : β → List Line}
    {activity : Signing σ α} {f : α → β} (h : Recounts opening after activity)
    (hafter : ∀ a, after' (f a) = after a) : Recounts opening after' (f <$> activity) := by
  rw [← bind_pure_comp]
  refine h.bind fun x a _ => ⟨f a, [], ?_, fun y => ?_⟩
  · rw [hafter, List.append_nil]
  · rw [List.append_nil]
    rfl

end Signing

/-! ## Requests -/

/-- What may be known of a composition. -/
structure CompositionOutline where
  inputs : ℕ
  outputs : ℕ
  hasChange : Bool
  fee : Amount
  blockVersion : BlockVersion

namespace CompositionOutline

/-- The line that opens the building of a composition, whatever its change is. -/
def line (outline : CompositionOutline) : Line where
  severity := .info
  parts := [
    "Building transaction: ", Decimal.text outline.inputs, " inputs, ",
    Decimal.text outline.outputs, " outputs, fee ", outline.fee.text, ", change ",
    if outline.hasChange then Log.hidden "" else "none",
    ", block version ", outline.blockVersion.text]

end CompositionOutline

def Composition.outline (c : Composition) (terms : ProposalTerms) : CompositionOutline where
  inputs := c.inputs.length
  outputs := c.outputs.length
  hasChange := c.change.isSome
  fee := terms.fee
  blockVersion := terms.blockVersion

namespace Proposer

/-- What may be known of the composition that a request leads to, if it leads to one. -/
def Request.outline : Request → Option CompositionOutline
  | .build c terms => some (c.outline terms)
  | .toOutputs inputs outputs terms =>
    some ⟨inputs.length, outputs.length, true, terms.fee, terms.blockVersion⟩
  | .toRecipient inputs _ _ terms => some ⟨inputs.length, 1, true, terms.fee, terms.blockVersion⟩
  | .sendingAllTo inputs _ terms => some ⟨inputs.length, 1, false, terms.fee, terms.blockVersion⟩
  | .standaloneOutput .. => none

/-- A composition is written of as its outline says. -/
theorem shown_buildingLine (c : Composition) (terms : ProposalTerms) :
    shown [buildingLine c terms] = shown [(c.outline terms).line] := by
  obtain ⟨inputs, outputs, change⟩ := c
  cases change <;> rfl

/-- The bytes of a proposed transaction. -/
def Proposal.bytes? : Proposal → Option Bytes
  | .transaction built => some built.transaction.bytes
  | .single payment => some payment.transaction.bytes
  | .output _ => none

/-- What is written of a transaction once it has been built. -/
def builtLine (bytes : Bytes) : Line :=
  ⟨.info, ["Built transaction ", (TxId.ofBytes bytes).text]⟩

open Signing

variable {p : Proposer σ} {c : Composition} {terms : ProposalTerms}

theorem recounts_build (h : c.WellFormed p.limits terms) :
    Recounts [buildingLine c terms] (fun built => [builtLine built.transaction.bytes])
      (p.build c terms) := by
  have hsession := ((tells_closed p.backend).drive c terms).inSession p.backend terms.session
  rw [build, Composition.check_eq_ok_iff.mpr h, accept, pure_bind]
  refine Recounts.of_write (hsession.bind fun x built _ => ?_) _
  exact ⟨built, [builtLine built.transaction.bytes], rfl, fun y => rfl⟩

/-- What is written of a proposal. -/
def Proposal.lines (proposal : Proposal) : List Line := proposal.bytes?.toList.map builtLine

/-- An activity is refused without a word, or carried out in one session of its own; then a
composition of the given outline is written of before the session, and a transaction after it. -/
def Accounts (outline : Option CompositionOutline) (activity : Signing σ Proposal) : Prop :=
  Refused activity ∨
    ∃ opening, shown opening = shown (outline.map CompositionOutline.line).toList ∧
      Recounts opening Proposal.lines activity

theorem accounts_transaction (p : Proposer σ) (c : Composition) (terms : ProposalTerms) :
    Accounts (some (c.outline terms)) (.transaction <$> p.build c terms) := by
  by_cases h : c.WellFormed p.limits terms
  · exact Or.inr ⟨_, shown_buildingLine c terms, (recounts_build h).map fun _ => rfl⟩
  · exact Or.inl ((refused_build h).map _)

/-- The payment of a transaction that makes one is singled out without a word. -/
theorem accounts_single (p : Proposer σ) (inputs : List PreparedInput) (output : PaymentRequest)
    (change : Option UInt64) (terms : ProposalTerms) :
    Accounts (some (Composition.outline ⟨inputs, [output], change⟩ terms))
      (.single <$> (p.build ⟨inputs, [output], change⟩ terms >>= fun built =>
        accept built.single)) := by
  by_cases h : (⟨inputs, [output], change⟩ : Composition).WellFormed p.limits terms
  · obtain ⟨script, hscript⟩ := h.exists_script
    have hsingle : Recounts [buildingLine ⟨inputs, [output], change⟩ terms]
        (fun payment : SinglePayment => [builtLine payment.transaction.bytes])
        (p.build ⟨inputs, [output], change⟩ terms >>= fun built => accept built.single) := by
      refine (recounts_build h).bind fun x built hbuilt => ?_
      obtain ⟨answers, hmade⟩ := (holdsSession_build h hscript).exists_fits hbuilt
      obtain ⟨payment, hpayment, rfl⟩ := exists_single hmade.length_payments
      refine ⟨payment, [], (List.append_nil _).symm, fun y => ?_⟩
      rw [hpayment, List.append_nil]
      rfl
    exact Or.inr ⟨_, shown_buildingLine _ terms, hsingle.map fun _ => rfl⟩
  · exact Or.inl (((refused_build h).bind _).map _)

theorem accounts_perform (p : Proposer σ) (request : Request) :
    Accounts request.outline (p.perform request) := by
  cases request with
  | build c terms => exact accounts_transaction p c terms
  | toOutputs inputs outputs terms =>
      rw [perform, toOutputs]
      cases changeOf inputs outputs terms.fee.value with
      | error refusal => exact Or.inl (((refused_accept refusal).bind _).map _)
      | ok change => exact accounts_transaction p ⟨inputs, outputs, some change⟩ terms
  | toRecipient inputs recipient amount terms =>
      rw [perform, toRecipient, toOutputs]
      cases changeOf inputs [⟨recipient, amount⟩] terms.fee.value with
      | error refusal => exact Or.inl ((((refused_accept refusal).bind _).bind _).map _)
      | ok change => exact accounts_single p inputs ⟨recipient, amount⟩ (some change) terms
  | sendingAllTo inputs recipient terms =>
      rw [perform, sendingAllTo]
      cases remainderOf inputs terms.fee.value with
      | error refusal => exact Or.inl (((refused_accept refusal).bind _).map _)
      | ok amount => exact accounts_single p inputs ⟨recipient, amount⟩ none terms
  | standaloneOutput recipient amount tombstone fog version =>
      rw [perform, standaloneOutput]
      cases checkFog p.limits fog recipient with
      | error refusal => exact Or.inl (((refused_accept refusal).bind _).map _)
      | ok _ =>
          rw [accept, pure_bind]
          cases checkToken version amount.token with
          | error refusal => exact Or.inl (((refused_accept refusal).bind _).map _)
          | ok _ =>
              rw [accept, pure_bind]
              refine Or.inr ⟨[], rfl, Recounts.map ?_ fun context => rfl⟩
              exact ((tells_closed p.backend).addOutput _ recipient amount.value).inSession
                p.backend _

end Proposer

/-! ## What may be known of a request -/

/-- Something that passes between the library and a backend, known by its kind. -/
inductive SessionEvent.Kind where
  | opened
  | called (operation : Operation)
  | released

def SessionEvent.kind : SessionEvent → Kind
  | opened _ => .opened
  | called call => .called call.operation
  | released => .released

/-- The kind of a stop: the reason is left out. -/
inductive Stop.Kind where
  | failed (category : FailureCategory)
  | violated (operation : Operation)

def Stop.kind : Stop → Kind
  | failed failure => .failed failure.category
  | violated operation => .violated operation

/-- What may be known of the outcome of an activity. -/
def Stop.outline {κ : Type} (known : α → κ) (outcome : Except Stop α) : Except Stop.Kind κ :=
  (outcome.map known).mapError Stop.kind

/-- The same is written of activities that made calls of the same operations and ended in the
same way. -/
theorem Signing.Writes.shown_eq {κ : Type} {known : α → κ} {known' : β → κ}
    {calls calls' : List Call} {outcome : Except Stop α} {outcome' : Except Stop β}
    {lines lines' : List Line} (h : Writes calls outcome lines) (h' : Writes calls' outcome' lines')
    (hcalls : calls.map Call.operation = calls'.map Call.operation)
    (houtcome : Stop.outline known outcome = Stop.outline known' outcome') :
    shown lines = shown lines' := by
  cases h with
  | result calls a =>
      cases h' with
      | result calls' a' => rfl
      | _ => cases houtcome
  | refused calls reason =>
      cases h' with
      | refused calls' reason' => rfl
      | _ => cases houtcome
  | unverified calls call reason =>
      cases h' with
      | unverified calls' call' reason' =>
          rw [List.map_append, List.map_append] at hcalls
          have hlast : call.operation = call'.operation :=
            List.head_eq_of_cons_eq (List.append_inj_right' hcalls rfl)
          rw [hlast]
      | _ => cases houtcome
  | violated calls operation detail =>
      cases h' with
      | violated calls' operation' detail' =>
          cases houtcome
          rfl
      | _ => cases houtcome

/-- What may be known of a request: the size of its composition, the kinds of calls that are
made, and the kind of its outcome with the bytes of the transaction. -/
structure ProposalOutline where
  composition : Option CompositionOutline
  passed : List SessionEvent.Kind
  outcome : Except Stop.Kind (Option Bytes)

namespace Proposer

open Signing

def outline (p : Proposer σ) (request : Request) (x : Exchange σ) : ProposalOutline where
  composition := request.outline
  passed := ((p.perform request).run.run x).2.events.map SessionEvent.kind
  outcome := Stop.outline Proposal.bytes? ((p.perform request).run.run x).1

theorem shown_closing_eq {outcome outcome' : Except Stop Proposal}
    (h : Stop.outline Proposal.bytes? outcome = Stop.outline Proposal.bytes? outcome') :
    shown (closing Proposal.lines outcome) = shown (closing Proposal.lines outcome') := by
  cases outcome with
  | ok proposal =>
      cases outcome' with
      | ok proposal' =>
          have hbytes : proposal.bytes? = proposal'.bytes? := Except.ok.inj h
          simp only [closing, Proposal.lines, hbytes]
      | error stop' => cases h
  | error stop =>
      cases outcome' with
      | ok proposal' => cases h
      | error stop' => rfl

/-- The kinds of the calls of a session are known from the kinds of what has passed. -/
theorem operations_eq {calls calls' : List Call} {session session' : SessionTerms}
    (h : (.opened session :: (calls.map .called ++ [.released])).map SessionEvent.kind =
      (.opened session' :: (calls'.map .called ++ [.released])).map SessionEvent.kind) :
    calls.map Call.operation = calls'.map Call.operation := by
  have hkinds : ∀ calls : List Call, (calls.map SessionEvent.called).map SessionEvent.kind =
      (calls.map Call.operation).map SessionEvent.Kind.called := by
    intro calls
    rw [List.map_map, List.map_map]
    rfl
  have hcalled : Function.Injective SessionEvent.Kind.called :=
    fun operation operation' => SessionEvent.Kind.called.inj
  rw [List.map_cons, List.map_cons, List.map_append, List.map_append, hkinds, hkinds] at h
  exact List.map_injective_iff.mpr hcalled (List.append_cancel_right (List.cons.inj h).2)

/-- What is written of a request is shown the same wherever the same is known of it. -/
theorem shown_perform_eq {σ' : Type} {p : Proposer σ} {p' : Proposer σ'}
    {request request' : Request} {s : σ} {s' : σ'}
    (h : p.outline request (.fresh s) = p'.outline request' (.fresh s')) :
    shown ((p.perform request).run.run (.fresh s)).2.log =
      shown ((p'.perform request').run.run (.fresh s')).2.log := by
  simp only [outline, ProposalOutline.mk.injEq] at h
  obtain ⟨hcomposition, hpassed, houtcome⟩ := h
  obtain hrefused | ⟨opening, hopening, hrecounts⟩ := p.accounts_perform request
  · obtain ⟨reason, hrun⟩ := hrefused (.fresh s)
    obtain hrefused' | ⟨opening', hopening', hrecounts'⟩ := p'.accounts_perform request'
    · obtain ⟨reason', hrun'⟩ := hrefused' (.fresh s')
      rw [hrun, hrun']
      rfl
    · obtain ⟨session', calls', lines', hevents', -, -⟩ := hrecounts' (.fresh s')
      rw [hrun, hevents'] at hpassed
      cases hpassed
  · obtain ⟨session, calls, lines, hevents, hlog, hwrites⟩ := hrecounts (.fresh s)
    obtain hrefused' | ⟨opening', hopening', hrecounts'⟩ := p'.accounts_perform request'
    · obtain ⟨reason', hrun'⟩ := hrefused' (.fresh s')
      rw [hrun', hevents] at hpassed
      cases hpassed
    · obtain ⟨session', calls', lines', hevents', hlog', hwrites'⟩ := hrecounts' (.fresh s')
      rw [hevents, hevents'] at hpassed
      have hlines := hwrites.shown_eq hwrites' (operations_eq hpassed) houtcome
      have hopenings : shown opening = shown opening' := by
        rw [hopening, hopening', hcomposition]
      rw [hlog, hlog']
      simp only [shown_append, hopenings, hlines, shown_closing_eq houtcome]
      rfl

end Proposer
end SpendPlanner
