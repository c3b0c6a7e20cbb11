import SpendPlanner.Proofs.Activity
import SpendPlanner.Signing.Proposer

/-!
# What happens is only added to

A property of activities on an open session that is kept by everything they are made of holds
of the whole building of a transaction.  One such property is that an activity never takes back
what has passed between the library and the backend, whatever the backend answers.
-/

namespace SpendPlanner

variable {σ α β : Type}

/-! ## Properties of activities -/

namespace Signing

/-- A property that is kept by everything that activities on an open session are made of. -/
structure Closed (backend : Backend σ) (P : ∀ {α : Type}, Signing σ α → Prop) : Prop where
  pure : ∀ {α : Type} (a : α), P (pure a : Signing σ α)
  bind : ∀ {α β : Type} {activity : Signing σ α} {next : α → Signing σ β},
    P activity → (∀ a, P (next a)) → P (activity >>= next)
  accept : ∀ {α : Type} (outcome : Except Refusal α), P (accept outcome : Signing σ α)
  violate : ∀ {α : Type} (operation : Operation) (detail : String),
    P (violate operation detail : Signing σ α)
  ask : ∀ call : Call, P (ask backend call)

namespace Closed

variable {backend : Backend σ} {P : ∀ {α : Type}, Signing σ α → Prop}

theorem foldlM (h : Closed backend P) {step : β → α → Signing σ β} (hstep : ∀ b a, P (step b a))
    (items : List α) (start : β) : P (items.foldlM step start) := by
  induction items generalizing start with
  | nil => exact h.pure start
  | cons a items ih => exact h.bind (hstep start a) fun next => ih next

theorem mapM (h : Closed backend P) {step : α → Signing σ β} (hstep : ∀ a, P (step a))
    (items : List α) : P (items.mapM step) := by
  induction items with
  | nil => exact h.pure []
  | cons a items ih =>
      rw [List.mapM_cons]
      exact h.bind (hstep a) fun b => h.bind ih fun bs => h.pure (b :: bs)

theorem addInput (h : Closed backend P) (draft : Draft) (account : AccountKey)
    (input : PreparedInput) : P (draft.addInput backend account input) :=
  h.bind (h.accept _) fun _ => h.bind (h.ask _) fun _ => h.pure _

theorem contextOf (h : Closed backend P) (draft : Draft) (operation : Operation)
    (built : BuiltOutput) : P (draft.contextOf operation built : Signing σ OutputContext) := by
  rw [Draft.contextOf]
  split
  · exact h.violate _ _
  · exact h.pure _

theorem addOutput (h : Closed backend P) (draft : Draft) (recipient : Address)
    (amount : UInt64) : P (draft.addOutput backend recipient amount) :=
  h.bind (h.ask _) fun built => h.contextOf draft _ built

theorem addChange (h : Closed backend P) (draft : Draft) (account : AccountKey)
    (amount : UInt64) : P (draft.addChange backend account amount) :=
  h.bind (h.ask _) fun built => h.contextOf draft _ built

theorem finalize (h : Closed backend P) (draft : Draft) : P (draft.finalize backend) := by
  refine h.bind (h.ask .finalize) fun bytes => ?_
  split
  · exact h.violate _ _
  · exact h.pure _

/-- The property holds of all the calls for a composition together. -/
theorem drive {p : Proposer σ} (h : Closed p.backend P) (c : Composition)
    (terms : ProposalTerms) : P (p.drive c terms) := by
  rw [Proposer.drive]
  refine h.bind (h.foldlM (fun draft input => h.addInput draft _ input) _ _) fun draft => ?_
  refine h.bind (h.mapM (fun output => h.addOutput draft _ _) _) fun payments => ?_
  have hclosing : ∀ change : Option OutputContext, P (do
      let transaction ← draft.finalize p.backend
      return BuiltTransaction.mk transaction payments change) := fun change =>
    h.bind (h.finalize draft) fun transaction => h.pure _
  cases c.change with
  | some amount => exact h.bind (h.bind (h.addChange draft _ _) fun _ => h.pure _) hclosing
  | none => exact h.bind (h.pure none) hclosing

end Closed

/-! ## Events -/

/-- An activity that keeps what has happened so far at the head of the events. -/
def Appends (activity : Signing σ α) : Prop :=
  ∀ x : Exchange σ, x.events <+: (activity.run.run x).2.events

theorem appends_pure (a : α) : Appends (pure a : Signing σ α) :=
  fun x => List.prefix_refl x.events

/-- What has happened by the end of an activity has happened when the next one ends. -/
theorem Appends.isPrefix_bind {activity : Signing σ α} {next : α → Signing σ β}
    (hnext : ∀ a, Appends (next a)) (x : Exchange σ) :
    (activity.run.run x).2.events <+: ((activity >>= next).run.run x).2.events := by
  rw [Activity.run_bind]
  obtain ⟨outcome, y⟩ := activity.run.run x
  cases outcome with
  | ok a => exact hnext a y
  | error stop => exact List.prefix_refl y.events

theorem Appends.bind {activity : Signing σ α} {next : α → Signing σ β}
    (h : Appends activity) (hnext : ∀ a, Appends (next a)) :
    Appends (activity >>= next) :=
  fun x => (h x).trans (isPrefix_bind hnext x)

theorem appends_throw (stop : Stop) : Appends (throw stop : Signing σ α) :=
  fun x => List.prefix_refl x.events

theorem appends_write (line : Log.Line) : Appends (write line : Signing σ Unit) :=
  fun x => List.prefix_refl x.events

theorem appends_accept (outcome : Except Refusal α) : Appends (accept outcome : Signing σ α) := by
  cases outcome with
  | ok a => exact appends_pure a
  | error refusal => exact appends_throw _

theorem appends_violate (operation : Operation) (detail : String) :
    Appends (violate operation detail : Signing σ α) :=
  (appends_write _).bind fun _ => appends_throw _

theorem appends_stopFor (operation : Operation) (failure : BackendFailure) :
    Appends (stopFor operation failure : Signing σ α) := by
  cases failure with
  | invalidInput reason => exact appends_throw _
  | attestation reason =>
      rw [stopFor]
      split
      · exact (appends_write _).bind fun _ => appends_throw _
      · exact appends_violate _ _
  | other code message => exact appends_violate _ _

theorem appends_ask (backend : Backend σ) (call : Call) : Appends (ask backend call) := by
  refine Appends.bind (fun x => List.prefix_append x.events [.called call]) ?_
  rintro (error | reply)
  · exact appends_stopFor _ error
  · exact appends_pure reply

theorem appends_closed (backend : Backend σ) : Closed backend Appends where
  pure := appends_pure
  bind := Appends.bind
  accept := appends_accept
  violate := appends_violate
  ask := appends_ask backend

theorem Appends.releasing {activity : Signing σ α} (h : Appends activity)
    (backend : Backend σ) : Appends (releasing backend activity) :=
  fun x => (h x).trans (List.prefix_append _ [SessionEvent.released])

/-- A session is opened before anything else is done in it. -/
theorem Appends.opened_isPrefix_inSession {activity : Signing σ α} (h : Appends activity)
    (backend : Backend σ) (session : SessionTerms) (x : Exchange σ) :
    x.events ++ [.opened session] <+:
      ((inSession backend session activity).run.run x).2.events := by
  have hopened : x.events ++ [.opened session] =
      ((openSession backend session).run.run x).2.events := rfl
  rw [hopened]
  exact Appends.isPrefix_bind (fun _ => h.releasing backend) x

end Signing

open Signing

theorem Proposer.appends_drive (p : Proposer σ) (c : Composition) (terms : ProposalTerms) :
    Appends (p.drive c terms) :=
  (appends_closed p.backend).drive c terms

end SpendPlanner
