import SpendPlanner.Proofs.Signing.History

/-!
# Conversations with a backend

A backend answers the calls of a script one after the other, up to the first whose answer
stops the conversation: a failure, or an empty reply where something was to be built.  An
activity follows a script if it makes exactly the calls of that conversation and stops as it
does, whatever the backend answers.
-/

namespace SpendPlanner

variable {σ α β : Type}

/-- How a failure of a call stops a conversation. -/
def BackendFailure.stop (operation : Operation) : BackendFailure → Stop
  | invalidInput reason => .failed (.invalidInput reason)
  | attestation reason =>
    if operation.readsReports then .failed (.attestation reason) else .violated operation
  | other _ _ => .violated operation

/-- Whether a reply is empty where something was to be built. -/
def Call.isEmptyReply : (call : Call) → call.Reply → Bool
  | addInput .., _ => false
  | addOutput _ _, (built : BuiltOutput) => built.txOut.isEmpty
  | addChange _ _, (built : BuiltOutput) => built.txOut.isEmpty
  | finalize, (bytes : Bytes) => bytes.isEmpty

/-- A call with the answer of a backend. -/
structure Answered where
  call : Call
  answer : Except BackendFailure call.Reply

/-- How an answer stops a conversation, unless it is accepted. -/
def Answered.stop? (a : Answered) : Option Stop :=
  match a.answer with
  | .error failure => some (failure.stop a.call.operation)
  | .ok reply => if a.call.isEmptyReply reply then some (.violated a.call.operation) else none

/-- What came of making calls: the answers, how the conversation was stopped, if it was, and
the memory of the backend after it. -/
structure Conversation (σ : Type) where
  answers : List Answered
  stop : Option Stop
  state : σ

/-- The calls of a conversation as events. -/
def Conversation.events (talk : Conversation σ) : List SessionEvent :=
  talk.answers.map fun a => .called a.call

namespace Backend

variable {backend : Backend σ} {call : Call} {calls more : List Call} {s : σ} {stop : Stop}

/-- A call with its answer. -/
def answered (backend : Backend σ) (call : Call) (s : σ) : Answered :=
  ⟨call, (backend.answer call s).1⟩

/-- Makes the calls of a script up to the first whose answer stops the conversation. -/
def converse (backend : Backend σ) : List Call → σ → Conversation σ
  | [], s => ⟨[], none, s⟩
  | call :: calls, s =>
    let a := backend.answered call s
    let after := (backend.answer call s).2
    match a.stop? with
    | some stop => ⟨[a], some stop, after⟩
    | none =>
      let later := backend.converse calls after
      ⟨a :: later.answers, later.stop, later.state⟩

theorem converse_cons_of_stop (h : (backend.answered call s).stop? = some stop)
    (calls : List Call) :
    backend.converse (call :: calls) s =
      ⟨[backend.answered call s], some stop, (backend.answer call s).2⟩ := by
  simp only [converse, h]

theorem converse_cons_of_accepted (h : (backend.answered call s).stop? = none)
    (calls : List Call) :
    backend.converse (call :: calls) s =
      ⟨backend.answered call s :: (backend.converse calls (backend.answer call s).2).answers,
        (backend.converse calls (backend.answer call s).2).stop,
        (backend.converse calls (backend.answer call s).2).state⟩ := by
  simp only [converse, h]

/-- A script that is stopped is stopped at the same call in any longer script. -/
theorem converse_append_of_stop (h : (backend.converse calls s).stop = some stop)
    (more : List Call) : backend.converse (calls ++ more) s = backend.converse calls s := by
  induction calls generalizing s with
  | nil => simp [converse] at h
  | cons call calls ih =>
      rw [List.cons_append]
      cases hanswer : (backend.answered call s).stop? with
      | some stop => rw [converse_cons_of_stop hanswer, converse_cons_of_stop hanswer]
      | none =>
          rw [converse_cons_of_accepted hanswer] at h ⊢
          rw [converse_cons_of_accepted hanswer, ih h]

/-- After a script that is not stopped the conversation goes on. -/
theorem converse_append_of_not_stop (h : (backend.converse calls s).stop = none)
    (more : List Call) :
    backend.converse (calls ++ more) s =
      ⟨(backend.converse calls s).answers ++
          (backend.converse more (backend.converse calls s).state).answers,
        (backend.converse more (backend.converse calls s).state).stop,
        (backend.converse more (backend.converse calls s).state).state⟩ := by
  induction calls generalizing s with
  | nil => rfl
  | cons call calls ih =>
      rw [List.cons_append]
      cases hanswer : (backend.answered call s).stop? with
      | some stop =>
          rw [converse_cons_of_stop hanswer] at h
          simp at h
      | none =>
          rw [converse_cons_of_accepted hanswer] at h ⊢
          rw [converse_cons_of_accepted hanswer, ih h]
          rfl

/-- The calls that are made are the first calls of the script. -/
theorem calls_converse_isPrefix (backend : Backend σ) (calls : List Call) (s : σ) :
    (backend.converse calls s).answers.map Answered.call <+: calls := by
  induction calls generalizing s with
  | nil => exact List.prefix_refl []
  | cons call calls ih =>
      cases hanswer : (backend.answered call s).stop? with
      | some stop =>
          rw [converse_cons_of_stop hanswer]
          exact List.prefix_append [call] calls
      | none =>
          rw [converse_cons_of_accepted hanswer]
          exact (List.prefix_cons_inj call).mpr (ih _)

/-- A script that is not stopped is carried through. -/
theorem calls_converse_eq (h : (backend.converse calls s).stop = none) :
    (backend.converse calls s).answers.map Answered.call = calls := by
  induction calls generalizing s with
  | nil => rfl
  | cons call calls ih =>
      cases hanswer : (backend.answered call s).stop? with
      | some stop =>
          rw [converse_cons_of_stop hanswer] at h
          simp at h
      | none =>
          rw [converse_cons_of_accepted hanswer] at h ⊢
          rw [List.map_cons, ih h]
          rfl

/-- Only the last answer may stop a conversation, and it is stopped as that answer says. -/
theorem stop?_answers_converse (backend : Backend σ) (calls : List Call) (s : σ) :
    (∀ a ∈ (backend.converse calls s).answers.dropLast, a.stop? = none) ∧
      (backend.converse calls s).stop =
        (backend.converse calls s).answers.getLast?.bind Answered.stop? := by
  induction calls generalizing s with
  | nil => simp [converse]
  | cons call calls ih =>
      cases hanswer : (backend.answered call s).stop? with
      | some stop =>
          rw [converse_cons_of_stop hanswer]
          simp [hanswer]
      | none =>
          rw [converse_cons_of_accepted hanswer]
          obtain ⟨haccepted, hstop⟩ := ih (backend.answer call s).2
          cases hanswers : (backend.converse calls (backend.answer call s).2).answers with
          | nil =>
              rw [hanswers] at hstop
              simp [hstop, hanswer]
          | cons a answers =>
              rw [hanswers] at haccepted hstop
              rw [List.dropLast_cons_cons, List.getLast?_cons_cons]
              exact ⟨List.forall_mem_cons.mpr ⟨hanswer, haccepted⟩, hstop⟩

end Backend

namespace Signing

variable {backend : Backend σ} {script script' : List Call}

/-- How an activity ends that had a conversation and left the backend with the given memory
after the given events: it is stopped as the conversation is, or has a result that fits the
answers. -/
structure Reflects (talk : Conversation σ) (state : σ) (events : List SessionEvent)
    (fits : List Answered → α → Prop) (before : Exchange σ)
    (ending : Except Stop α × Exchange σ) : Prop where
  state_eq : ending.2.state = state
  events_eq : ending.2.events = before.events ++ events
  stopped : ∀ stop, talk.stop = some stop → ending.1 = .error stop
  completed : talk.stop = none → ∃ a, ending.1 = .ok a ∧ fits talk.answers a

/-- An activity makes the calls of a script and no others. -/
def Follows (backend : Backend σ) (script : List Call) (activity : Signing σ α)
    (fits : List Answered → α → Prop) : Prop :=
  ∀ x : Exchange σ,
    let talk := backend.converse script x.state
    Reflects talk talk.state talk.events fits x (activity.run.run x)

variable {activity : Signing σ α} {fits : List Answered → α → Prop}
  {next : α → Signing σ β} {fits' : List Answered → β → Prop}

namespace Reflects

variable {talk : Conversation σ} {state : σ} {events : List SessionEvent} {x : Exchange σ}

/-- Nothing comes after a conversation that is stopped. -/
theorem bind_of_stop {stop : Stop}
    (h : Reflects talk state events fits x (activity.run.run x)) (hstop : talk.stop = some stop) :
    Reflects talk state events fits' x ((activity >>= next).run.run x) := by
  rw [Activity.run_bind]
  generalize activity.run.run x = ending at h ⊢
  obtain ⟨outcome, y⟩ := ending
  have houtcome : outcome = .error stop := h.stopped stop hstop
  subst houtcome
  constructor
  · exact h.state_eq
  · exact h.events_eq
  · intro stop' hstop'
    rw [hstop] at hstop'
    cases hstop'
    rfl
  · intro hnone
    rw [hstop] at hnone
    cases hnone

/-- What comes after a conversation that is not stopped starts from where it has ended. -/
theorem exists_of_completed (h : Reflects talk state events fits x (activity.run.run x))
    (hnone : talk.stop = none) (next : α → Signing σ β) :
    ∃ (a : α) (y : Exchange σ), fits talk.answers a ∧ y.state = state ∧
      y.events = x.events ++ events ∧
      (activity >>= next).run.run x = (next a).run.run y := by
  rw [Activity.run_bind]
  generalize activity.run.run x = ending at h ⊢
  obtain ⟨outcome, y⟩ := ending
  obtain ⟨a, houtcome, hfits⟩ := h.completed hnone
  change outcome = .ok a at houtcome
  subst houtcome
  exact ⟨a, y, hfits, h.state_eq, h.events_eq, rfl⟩

end Reflects

theorem Follows.imp {fits' : List Answered → α → Prop}
    (h : Follows backend script activity fits)
    (himp : ∀ answers a, fits answers a → fits' answers a) :
    Follows backend script activity fits' := by
  intro x
  obtain ⟨hstate, hevents, hstopped, hcompleted⟩ := h x
  refine ⟨hstate, hevents, hstopped, fun hnone => ?_⟩
  obtain ⟨a, ha, hfits⟩ := hcompleted hnone
  exact ⟨a, ha, himp _ a hfits⟩

/-- When an activity comes to a result all calls of its script have been made. -/
theorem Follows.calls_eq (h : Follows backend script activity fits) :
    Follows backend script activity fun answers a =>
      answers.map Answered.call = script ∧ fits answers a := by
  intro x
  obtain ⟨hstate, hevents, hstopped, hcompleted⟩ := h x
  refine ⟨hstate, hevents, hstopped, fun hnone => ?_⟩
  obtain ⟨a, ha, hfits⟩ := hcompleted hnone
  exact ⟨a, ha, Backend.calls_converse_eq hnone, hfits⟩

theorem follows_pure {a : α} (h : fits [] a) : Follows backend [] (pure a) fits := by
  intro x
  constructor
  · rfl
  · exact (List.append_nil _).symm
  · intro stop hstop
    cases hstop
  · intro _
    exact ⟨a, rfl, h⟩

/-- One activity after the other follows one script after the other. -/
theorem Follows.bind (h : Follows backend script activity fits)
    (hnext : ∀ answers a, fits answers a →
      Follows backend script' (next a) fun later b => fits' (answers ++ later) b) :
    Follows backend (script ++ script') (activity >>= next) fits' := by
  intro x
  cases htalk : (backend.converse script x.state).stop with
  | some stop =>
      rw [Backend.converse_append_of_stop htalk]
      exact (h x).bind_of_stop htalk
  | none =>
      obtain ⟨a, y, hfits, hstate, hevents, hrun⟩ := (h x).exists_of_completed htalk next
      have hlater := hnext _ a hfits y
      rw [hstate] at hlater
      rw [Backend.converse_append_of_not_stop htalk, hrun]
      constructor
      · exact hlater.state_eq
      · refine hlater.events_eq.trans ?_
        rw [hevents, List.append_assoc, Conversation.events, Conversation.events,
          Conversation.events, List.map_append]
      · exact hlater.stopped
      · exact hlater.completed

theorem Follows.map {f : α → β} (h : Follows backend script activity fits)
    (hfits : ∀ answers a, fits answers a → fits' answers (f a)) :
    Follows backend script (f <$> activity) fits' := by
  rw [← bind_pure_comp, ← List.append_nil script]
  refine h.bind fun answers a ha => follows_pure ?_
  rw [List.append_nil]
  exact hfits answers a ha

/-- What an activity does with a failure that a backend reports. -/
theorem run_stopFor (operation : Operation) (failure : BackendFailure) (x : Exchange σ) :
    ∃ log, (stopFor operation failure : Signing σ α).run.run x =
      (.error (failure.stop operation), { x with log := log }) := by
  cases failure with
  | invalidInput reason => exact ⟨_, rfl⟩
  | attestation reason =>
      rw [stopFor, BackendFailure.stop]
      split
      · exact ⟨_, rfl⟩
      · exact ⟨_, rfl⟩
  | other code message => exact ⟨_, rfl⟩

/-- An exchange once a call has been made. -/
def called (backend : Backend σ) (call : Call) (x : Exchange σ) : Exchange σ :=
  ⟨(backend.answer call x.state).2, x.events ++ [.called call], x.log⟩

theorem run_modifyGet (f : Exchange σ → α × Exchange σ) (x : Exchange σ) :
    (modifyGet f : Signing σ α).run.run x = (.ok (f x).1, (f x).2) :=
  rfl

theorem run_ask_of_ok {call : Call} {x : Exchange σ} {reply : call.Reply}
    (h : (backend.answer call x.state).1 = .ok reply) :
    (ask backend call).run.run x = (.ok reply, called backend call x) := by
  rw [ask, Activity.run_bind, run_modifyGet]
  simp only [h]
  rfl

theorem run_ask_of_error {call : Call} {x : Exchange σ} {failure : BackendFailure}
    (h : (backend.answer call x.state).1 = .error failure) :
    (ask backend call).run.run x =
      (stopFor call.operation failure).run.run (called backend call x) := by
  rw [ask, Activity.run_bind, run_modifyGet]
  simp only [h]
  rfl

theorem reflects_stop {call : Call} {stop : Stop} {x : Exchange σ} (log : List Log.Line)
    (answer : Except BackendFailure call.Reply) :
    Reflects ⟨[⟨call, answer⟩], some stop, (backend.answer call x.state).2⟩
      (backend.answer call x.state).2 [.called call] fits x
      (.error stop, { called backend call x with log := log }) := by
  constructor
  · rfl
  · rfl
  · intro stop' hstop
    cases hstop
    rfl
  · intro hnone
    cases hnone

/-- A call whose reply is looked at at once: an empty one breaks the contract, any other gives
a result. -/
theorem follows_ask_bind {call : Call} {next : call.Reply → Signing σ α}
    (hempty : ∀ reply, call.isEmptyReply reply = true →
      ∃ detail, next reply = violate call.operation detail)
    (hfull : ∀ reply, call.isEmptyReply reply = false →
      ∃ a, next reply = pure a ∧ fits [⟨call, .ok reply⟩] a) :
    Follows backend [call] (ask backend call >>= next) fits := by
  intro x
  rw [Activity.run_bind]
  cases hanswer : (backend.answer call x.state).1 with
  | error failure =>
      have hstop : (backend.answered call x.state).stop? =
          some (failure.stop call.operation) := by
        simp only [Backend.answered, Answered.stop?, hanswer]
      obtain ⟨log, hrun⟩ := run_stopFor (α := call.Reply) call.operation failure
        (called backend call x)
      rw [Backend.converse_cons_of_stop hstop, run_ask_of_error hanswer, hrun]
      exact reflects_stop _ _
  | ok reply =>
      cases hreply : call.isEmptyReply reply with
      | true =>
          have hstop : (backend.answered call x.state).stop? =
              some (.violated call.operation) := by
            simp only [Backend.answered, Answered.stop?, hanswer, hreply, if_true]
          obtain ⟨detail, hnext⟩ := hempty reply hreply
          rw [Backend.converse_cons_of_stop hstop, run_ask_of_ok hanswer]
          simp only [hnext]
          exact reflects_stop _ _
      | false =>
          have hstop : (backend.answered call x.state).stop? = none := by
            simp only [Backend.answered, Answered.stop?, hanswer, hreply]
            rfl
          obtain ⟨a, hnext, hfits⟩ := hfull reply hreply
          rw [Backend.converse_cons_of_accepted hstop, run_ask_of_ok hanswer]
          simp only [hnext]
          constructor
          · rfl
          · rfl
          · intro stop hnone
            cases hnone
          · intro _
            refine ⟨a, rfl, ?_⟩
            rw [Backend.answered, hanswer]
            exact hfits

/-- Making one call for each item reads one result off each answer. -/
theorem follows_mapM {step : α → Signing σ β} {call : α → Call} {read : Answered → Option β}
    (h : ∀ item, Follows backend [call item] (step item) fun answers b =>
      answers.map read = [some b]) (items : List α) :
    Follows backend (items.map call) (items.mapM step) fun answers bs =>
      answers.map read = bs.map some := by
  induction items with
  | nil => exact follows_pure rfl
  | cons item items ih =>
      rw [List.mapM_cons]
      refine (h item).bind fun first b hfirst => ?_
      rw [bind_pure_comp]
      refine ih.map fun later bs hlater => ?_
      rw [List.map_append, hfirst, hlater]
      rfl

end Signing
end SpendPlanner
