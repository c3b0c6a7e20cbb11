import SpendPlanner.Proofs.Signing.Script

/-!
# The session protocol

Every request to a proposer either is refused before a backend hears of it, or is carried out
in one session of its own.  The session is opened, has the conversation of the request's script
and is released once, however the conversation ends.
-/

namespace SpendPlanner

variable {σ α β : Type}

namespace Signing

/-- An activity has the conversation of a script in one session of its own, which it opens and
releases. -/
def HoldsSession (backend : Backend σ) (session : SessionTerms) (script : List Call)
    (activity : Signing σ α) (fits : List Answered → α → Prop) : Prop :=
  ∀ x : Exchange σ,
    let talk := backend.converse script (backend.openSession session x.state)
    Reflects talk (backend.release talk.state)
      (.opened session :: (talk.events ++ [.released])) fits x (activity.run.run x)

variable {backend : Backend σ} {session : SessionTerms} {script : List Call}
  {activity : Signing σ α} {fits : List Answered → α → Prop}

/-- The session is released however the activity in it ends. -/
theorem run_inSession (backend : Backend σ) (session : SessionTerms) (activity : Signing σ α)
    (x : Exchange σ) :
    let ending := activity.run.run
      ⟨backend.openSession session x.state, x.events ++ [.opened session], x.log⟩
    (inSession backend session activity).run.run x =
      (ending.1,
        ⟨backend.release ending.2.state, ending.2.events ++ [.released], ending.2.log⟩) :=
  rfl

theorem Follows.holdsSession (h : Follows backend script activity fits)
    (session : SessionTerms) :
    HoldsSession backend session script (inSession backend session activity) fits := by
  intro x
  obtain ⟨hstate, hevents, hstopped, hcompleted⟩ :=
    h ⟨backend.openSession session x.state, x.events ++ [.opened session], x.log⟩
  rw [run_inSession]
  constructor
  · exact congrArg backend.release hstate
  · simp only [hevents, List.append_assoc, List.cons_append, List.nil_append]
  · exact hstopped
  · exact hcompleted

/-- A result fits the answers to all calls of the script. -/
theorem HoldsSession.exists_fits (h : HoldsSession backend session script activity fits)
    {x : Exchange σ} {a : α} (hrun : (activity.run.run x).1 = .ok a) :
    ∃ answers, fits answers a := by
  cases htalk : (backend.converse script (backend.openSession session x.state)).stop with
  | some stop => cases hrun.symm.trans ((h x).stopped stop htalk)
  | none =>
      obtain ⟨b, hb, hfits⟩ := (h x).completed htalk
      cases hrun.symm.trans hb
      exact ⟨_, hfits⟩

/-- What happens after a session does not matter as long as it is nothing but written to the
log. -/
theorem HoldsSession.bind {next : α → Signing σ β} {fits' : List Answered → β → Prop}
    (h : HoldsSession backend session script activity fits)
    (hnext : ∀ answers a, fits answers a → ∃ b, fits' answers b ∧
      ∀ y : Exchange σ, ∃ log, (next a).run.run y = (.ok b, { y with log := log })) :
    HoldsSession backend session script (activity >>= next) fits' := by
  intro x
  cases htalk : (backend.converse script (backend.openSession session x.state)).stop with
  | some stop => exact (h x).bind_of_stop htalk
  | none =>
      obtain ⟨a, y, hfits, hstate, hevents, hrun⟩ := (h x).exists_of_completed htalk next
      obtain ⟨b, hfits', hquiet⟩ := hnext _ a hfits
      obtain ⟨log, hlog⟩ := hquiet y
      rw [hrun, hlog]
      constructor
      · exact hstate
      · exact hevents
      · intro stop hstop
        rw [htalk] at hstop
        cases hstop
      · intro _
        exact ⟨b, rfl, hfits'⟩

theorem HoldsSession.map {f : α → β} {fits' : List Answered → β → Prop}
    (h : HoldsSession backend session script activity fits)
    (hfits : ∀ answers a, fits answers a → fits' answers (f a)) :
    HoldsSession backend session script (f <$> activity) fits' := by
  rw [← bind_pure_comp]
  exact h.bind fun answers a ha => ⟨f a, hfits answers a ha, fun y => ⟨y.log, rfl⟩⟩

/-- Only what is written to the log may come before the session. -/
theorem HoldsSession.of_write (h : HoldsSession backend session script activity fits)
    (line : Log.Line) :
    HoldsSession backend session script (write line >>= fun _ => activity) fits := by
  intro x
  obtain ⟨hstate, hevents, hstopped, hcompleted⟩ := h { x with log := x.log ++ [line] }
  exact ⟨hstate, hevents, hstopped, hcompleted⟩

/-- An activity is refused as invalid input before a backend hears of it. -/
def Refused (activity : Signing σ α) : Prop :=
  ∀ x : Exchange σ, ∃ reason, activity.run.run x = (.error (.failed (.invalidInput reason)), x)

theorem refused_accept (refusal : Refusal) :
    Refused (accept (.error refusal) : Signing σ α) :=
  fun _ => ⟨refusal.reason, rfl⟩

theorem Refused.bind (h : Refused activity) (next : α → Signing σ β) :
    Refused (activity >>= next) := by
  intro x
  obtain ⟨reason, hrun⟩ := h x
  exact ⟨reason, by rw [Activity.run_bind, hrun]⟩

theorem Refused.map (h : Refused activity) (f : α → β) : Refused (f <$> activity) := by
  rw [← bind_pure_comp]
  exact h.bind _

end Signing

/-! ## Requests -/

/-- The transaction of a single payment. -/
def SinglePayment.built (payment : SinglePayment) : BuiltTransaction :=
  ⟨payment.transaction, [payment.payment], payment.change⟩

namespace Proposer

open Signing

variable {p : Proposer σ} {c : Composition} {terms : ProposalTerms}

/-- A well-formed composition is built in a session of its own. -/
theorem holdsSession_build {script : List Call} (h : c.WellFormed p.limits terms)
    (hscript : c.script? terms.account = some script) :
    HoldsSession p.backend terms.session script (p.build c terms) fun answers built =>
      built.MadeOf c terms.session answers := by
  have hdrive := (follows_drive (p := p) h.spendable hscript).holdsSession terms.session
  rw [build, Composition.check_eq_ok_iff.mpr h, accept, pure_bind]
  apply HoldsSession.of_write
  exact hdrive.bind fun answers built hbuilt => ⟨built, hbuilt, fun y => ⟨_, rfl⟩⟩

theorem refused_build (h : ¬c.WellFormed p.limits terms) : Refused (p.build c terms) :=
  build_of_not_wellFormed h

/-- A composition that is worked out first: it is built if any that might be worked out is
well-formed, and otherwise the request is refused. -/
theorem accept_build_cases (p : Proposer σ) (terms : ProposalTerms)
    {found : Except Refusal α} {compose : α → Composition}
    (hfound : ∀ a, (compose a).WellFormed p.limits terms → found = .ok a) :
    (∃ a script, (compose a).WellFormed p.limits terms ∧
      (compose a).script? terms.account = some script ∧
      HoldsSession p.backend terms.session script
        (accept found >>= fun a => p.build (compose a) terms) fun answers built =>
          built.MadeOf (compose a) terms.session answers) ∨
    (∀ a, ¬(compose a).WellFormed p.limits terms) ∧
      Refused (accept found >>= fun a => p.build (compose a) terms) := by
  by_cases h : ∃ a, (compose a).WellFormed p.limits terms
  · obtain ⟨a, hwell⟩ := h
    obtain ⟨script, hscript⟩ := hwell.exists_script
    refine Or.inl ⟨a, script, hwell, hscript, ?_⟩
    rw [hfound a hwell, accept, pure_bind]
    exact holdsSession_build hwell hscript
  · rw [not_exists] at h
    refine Or.inr ⟨h, ?_⟩
    cases found with
    | error refusal => exact (refused_accept refusal).bind _
    | ok a =>
        rw [accept, pure_bind]
        exact refused_build (h a)

theorem changeOf_eq_ok_iff {inputs : List PreparedInput} {outputs : List PaymentRequest}
    {fee change : UInt64} :
    changeOf inputs outputs fee = .ok change ↔
      total (inputValues inputs) =
        total (requestedAmounts outputs) + fee.toNat + change.toNat := by
  have hdifference : changeOf inputs outputs fee = .ok change ↔
      checkedDifference (inputValues inputs) (requestedAmounts outputs ++ [fee]) =
        .ok change := by
    rw [changeOf]
    cases checkedDifference (inputValues inputs) (requestedAmounts outputs ++ [fee]) with
    | ok left => simp
    | error error => cases error <;> simp
  rw [hdifference, checkedDifference_eq_ok_iff, total_append, total_cons, total_nil, add_zero]

theorem remainderOf_eq_ok_iff {inputs : List PreparedInput} {fee : UInt64}
    {amount : PositiveWord} :
    remainderOf inputs fee = .ok amount ↔
      total (inputValues inputs) = fee.toNat + amount.value.toNat := by
  have hpositive : amount.value.toNat ≠ 0 := by
    rw [← UInt64.toNat_zero, Ne, UInt64.toNat_inj]
    exact amount.value_ne_zero
  have hsum : total (inputValues inputs) = fee.toNat + amount.value.toNat ↔
      checkedDifference (inputValues inputs) [fee] = .ok amount.value := by
    rw [checkedDifference_eq_ok_iff, total_cons, total_nil, add_zero]
  rw [remainderOf]
  split
  · next hcovered =>
    have hle : total (inputValues inputs) ≤ fee.toNat := by
      simpa [Comparison.holds] using hcovered
    simp only [reduceCtorEq, false_iff]
    omega
  · rw [hsum]
    cases checkedDifference (inputValues inputs) [fee] with
    | error error => simp
    | ok left =>
        obtain ⟨value, hvalue⟩ := amount
        by_cases hleft : left = 0
        · simp [PositiveWord.ofWord?, hleft, Ne.symm hvalue]
        · simp [PositiveWord.ofWord?, hleft]

/-- The compositions that a request may lead to. -/
inductive Request.Composes : Request → Composition → ProposalTerms → Prop where
  | build (c : Composition) (terms : ProposalTerms) : Composes (.build c terms) c terms
  | toOutputs (inputs : List PreparedInput) (outputs : List PaymentRequest) (change : UInt64)
      (terms : ProposalTerms) :
      Composes (.toOutputs inputs outputs terms) ⟨inputs, outputs, some change⟩ terms
  | toRecipient (inputs : List PreparedInput) (recipient : Address) (amount : PositiveWord)
      (change : UInt64) (terms : ProposalTerms) :
      Composes (.toRecipient inputs recipient amount terms)
        ⟨inputs, [⟨recipient, amount⟩], some change⟩ terms
  | sendingAllTo (inputs : List PreparedInput) (recipient : Address) (amount : PositiveWord)
      (terms : ProposalTerms) :
      Composes (.sendingAllTo inputs recipient terms)
        ⟨inputs, [⟨recipient, amount⟩], none⟩ terms

/-- The session that a request takes, with its script.  A transaction takes a well-formed
composition, and only one that a request may lead to can balance. -/
inductive Request.Scripted (limits : ProtocolLimits) :
    Request → SessionTerms → List Call → Prop where
  | transaction {request : Request} {c : Composition} {terms : ProposalTerms}
      {script : List Call} (hcomposes : request.Composes c terms)
      (hwell : c.WellFormed limits terms) (hscript : c.script? terms.account = some script) :
      Scripted limits request terms.session script
  | output {recipient : Address} {amount : Amount} {tombstone : UInt64} {fog : FogReports}
      {version : BlockVersion}
      (hfog : ∀ info, recipient.fog = some info →
        limits.network.servesFog = true ∧ ∃ report, fog.find? info.reportUrl = some report)
      (htoken : amount.token = .mob ∨ version.supportsMultipleTokens = true) :
      Scripted limits (.standaloneOutput recipient amount tombstone fog version)
        ⟨⟨0, amount.token⟩, tombstone, fog, version⟩ [.addOutput recipient amount.value]

/-- What a request yields when no answer has stopped its script. -/
def Request.Yields :
    Request → SessionTerms → List Answered → Proposal → Prop
  | .build c _, session, answers, .transaction built => built.MadeOf c session answers
  | .toOutputs inputs outputs _, session, answers, .transaction built =>
    ∃ change, built.MadeOf ⟨inputs, outputs, some change⟩ session answers
  | .toRecipient inputs recipient amount _, session, answers, .single payment =>
    ∃ change, payment.built.MadeOf
      ⟨inputs, [⟨recipient, amount⟩], some change⟩ session answers
  | .sendingAllTo inputs recipient _, session, answers, .single payment =>
    ∃ amount, payment.built.MadeOf
      ⟨inputs, [⟨recipient, amount⟩], none⟩ session answers
  | .standaloneOutput .., session, answers, .output context =>
    answers.filterMap (Answered.payment? session.tombstone) = [context]
  | _, _, _, _ => False

theorem changeOf_of_wellFormed {inputs : List PreparedInput} {outputs : List PaymentRequest}
    {change : UInt64}
    (h : (⟨inputs, outputs, some change⟩ : Composition).WellFormed p.limits terms) :
    changeOf inputs outputs terms.fee.value = .ok change := by
  rw [changeOf_eq_ok_iff]
  exact h.total_eq

theorem remainderOf_of_wellFormed {inputs : List PreparedInput} {recipient : Address}
    {amount : PositiveWord}
    (h : (⟨inputs, [⟨recipient, amount⟩], none⟩ : Composition).WellFormed p.limits terms) :
    remainderOf inputs terms.fee.value = .ok amount := by
  rw [remainderOf_eq_ok_iff, h.total_eq]
  simp [requestedAmounts, add_comm]

/-- The payment of a transaction that makes one can always be singled out. -/
theorem exists_single {built : BuiltTransaction} (h : built.payments.length = 1) :
    ∃ payment, built.single = .ok payment ∧ payment.built = built := by
  obtain ⟨transaction, payments, left⟩ := built
  obtain ⟨payment, rfl⟩ := List.length_eq_one_iff.mp h
  exact ⟨⟨transaction, payment, left⟩, rfl, rfl⟩

theorem holdsSession_single {session : SessionTerms} {script : List Call}
    {activity : Signing σ BuiltTransaction} {inputs : List PreparedInput}
    {output : PaymentRequest} {change : Option UInt64}
    (h : HoldsSession p.backend session script activity fun answers built =>
      built.MadeOf ⟨inputs, [output], change⟩ session answers) :
    HoldsSession p.backend session script (activity >>= fun built => accept built.single)
      fun answers payment => payment.built.MadeOf ⟨inputs, [output], change⟩ session answers := by
  refine h.bind fun answers built hbuilt => ?_
  obtain ⟨payment, hsingle, rfl⟩ := exists_single hbuilt.length_payments
  exact ⟨payment, hbuilt, fun y => ⟨y.log, by rw [hsingle]; rfl⟩⟩

/-- Every request is carried out in one session of its own or refused. -/
theorem perform_cases (p : Proposer σ) (request : Request) :
    (∃ session script, request.Scripted p.limits session script ∧
      HoldsSession p.backend session script (p.perform request) (request.Yields session)) ∨
    (∀ session script, ¬request.Scripted p.limits session script) ∧
      Refused (p.perform request) := by
  cases request with
  | build c terms =>
      by_cases h : c.WellFormed p.limits terms
      · obtain ⟨script, hscript⟩ := h.exists_script
        refine Or.inl ⟨terms.session, script, .transaction (.build c terms) h hscript, ?_⟩
        exact (holdsSession_build h hscript).map fun answers built hbuilt => hbuilt
      · refine Or.inr ⟨?_, (refused_build h).map _⟩
        rintro session script (⟨hcomposes, hwell, -⟩ | _)
        cases hcomposes
        exact h hwell
  | toOutputs inputs outputs terms =>
      rcases p.accept_build_cases terms (fun _ => changeOf_of_wellFormed) with
        ⟨change, script, hwell, hscript, hholds⟩ | ⟨hnone, hrefused⟩
      · refine Or.inl ⟨terms.session, script,
          .transaction (.toOutputs inputs outputs change terms) hwell hscript, ?_⟩
        exact hholds.map fun answers built hbuilt => ⟨change, hbuilt⟩
      · refine Or.inr ⟨?_, hrefused.map _⟩
        rintro session script (⟨hcomposes, hwell, -⟩ | _)
        cases hcomposes
        exact hnone _ hwell
  | toRecipient inputs recipient amount terms =>
      rcases p.accept_build_cases terms (fun _ => changeOf_of_wellFormed) with
        ⟨change, script, hwell, hscript, hholds⟩ | ⟨hnone, hrefused⟩
      · refine Or.inl ⟨terms.session, script,
          .transaction (.toRecipient inputs recipient amount change terms) hwell hscript, ?_⟩
        exact (holdsSession_single hholds).map fun answers payment hpayment =>
          ⟨change, hpayment⟩
      · refine Or.inr ⟨?_, (hrefused.bind _).map _⟩
        rintro session script (⟨hcomposes, hwell, -⟩ | _)
        cases hcomposes
        exact hnone _ hwell
  | sendingAllTo inputs recipient terms =>
      rw [perform, sendingAllTo, ← bind_assoc]
      rcases p.accept_build_cases terms (fun _ => remainderOf_of_wellFormed) with
        ⟨amount, script, hwell, hscript, hholds⟩ | ⟨hnone, hrefused⟩
      · refine Or.inl ⟨terms.session, script,
          .transaction (.sendingAllTo inputs recipient amount terms) hwell hscript, ?_⟩
        exact (holdsSession_single hholds).map fun answers payment hpayment =>
          ⟨amount, hpayment⟩
      · refine Or.inr ⟨?_, (hrefused.bind _).map _⟩
        rintro session script (⟨hcomposes, hwell, -⟩ | _)
        cases hcomposes
        exact hnone _ hwell
  | standaloneOutput recipient amount tombstone fog version =>
      let session : SessionTerms := ⟨⟨0, amount.token⟩, tombstone, fog, version⟩
      have hadded := (Draft.follows_addOutput (.ofSession session) p.backend recipient
        amount.value).holdsSession session
      rw [perform, standaloneOutput]
      cases hfog : checkFog p.limits fog recipient with
      | error refusal =>
          refine Or.inr ⟨?_, ((refused_accept refusal).bind _).map _⟩
          rintro _ _ (⟨hcomposes, -⟩ | ⟨hreports, -⟩)
          · cases hcomposes
          · rw [← checkFog_eq_ok_iff, hfog] at hreports
            cases hreports
      | ok _ =>
          rw [accept, pure_bind]
          cases htoken : checkToken version amount.token with
          | error refusal =>
              refine Or.inr ⟨?_, ((refused_accept refusal).bind _).map _⟩
              rintro _ _ (⟨hcomposes, -⟩ | ⟨-, hsupported⟩)
              · cases hcomposes
              · rw [← checkToken_eq_ok_iff, htoken] at hsupported
                cases hsupported
          | ok _ =>
              rw [accept, pure_bind]
              refine Or.inl ⟨session, [.addOutput recipient amount.value],
                .output (checkFog_eq_ok_iff.mp hfog) (checkToken_eq_ok_iff.mp htoken), ?_⟩
              refine hadded.map fun answers context hread => ?_
              exact Answered.filterMap_eq (show _ = [context].map some from hread)

/-! ## Requests one after the other -/

/-- How a proposer answers requests on a backend, with what passes between the two.  For a
request without a script nothing passes.  For any other the session is opened, the calls of
the script are made up to the first whose answer is not accepted, and the session is released;
the request stops as that answer says, or yields something made of the answers to all calls. -/
inductive Answers (p : Proposer σ) :
    σ → List Request → List (Except Stop Proposal) → List SessionEvent → σ → Prop where
  | done (s : σ) : Answers p s [] [] [] s
  | refused {s s' : σ} {request : Request} {requests : List Request} {reason : String}
      {outcomes : List (Except Stop Proposal)} {events : List SessionEvent}
      (hrefused : ∀ session script, ¬request.Scripted p.limits session script)
      (hlater : Answers p s requests outcomes events s') :
      Answers p s (request :: requests)
        (.error (.failed (.invalidInput reason)) :: outcomes) events s'
  | held {s s' : σ} {request : Request} {requests : List Request} {session : SessionTerms}
      {script : List Call} {talk : Conversation σ} {outcome : Except Stop Proposal}
      {outcomes : List (Except Stop Proposal)} {events : List SessionEvent}
      (hscripted : request.Scripted p.limits session script)
      (htalk : p.backend.converse script (p.backend.openSession session s) = talk)
      (hcalls : talk.answers.map Answered.call <+: script)
      (haccepted : ∀ a ∈ talk.answers.dropLast, a.stop? = none)
      (hlast : talk.stop = talk.answers.getLast?.bind Answered.stop?)
      (hstopped : ∀ stop, talk.stop = some stop → outcome = .error stop)
      (hcompleted : talk.stop = none → talk.answers.map Answered.call = script ∧
        ∃ proposal, outcome = .ok proposal ∧ request.Yields session talk.answers proposal)
      (hlater : Answers p (p.backend.release talk.state) requests outcomes events s') :
      Answers p s (request :: requests) (outcome :: outcomes)
        (.opened session :: (talk.events ++ .released :: events)) s'

/-- What passes in a session counts as one that is opened and one that is released. -/
theorem count_session (session : SessionTerms) (talk : Conversation σ)
    (events : List SessionEvent) (s : σ) (log : List Log.Line) :
    (Exchange.mk s (.opened session :: (talk.events ++ .released :: events)) log).openedCount =
        (Exchange.mk s events log).openedCount + 1 ∧
      (Exchange.mk s (.opened session :: (talk.events ++ .released :: events)) log).releasedCount =
        (Exchange.mk s events log).releasedCount + 1 := by
  simp [Exchange.openedCount, Exchange.releasedCount, Conversation.events, List.countP_append]

/-- There is no more than one session for each request, and as many sessions are released as
are opened. -/
theorem Answers.exists_count {p : Proposer σ} {s s' : σ} {requests : List Request}
    {outcomes : List (Except Stop Proposal)} {events : List SessionEvent}
    (h : p.Answers s requests outcomes events s') (start : σ) (log : List Log.Line) :
    ∃ n ≤ requests.length, (Exchange.mk start events log).openedCount = n ∧
      (Exchange.mk start events log).releasedCount = n := by
  induction h with
  | done s => exact ⟨0, le_rfl, rfl, rfl⟩
  | refused hrefused hlater ih =>
      obtain ⟨n, hn, hopened, hreleased⟩ := ih
      exact ⟨n, hn.trans (Nat.le_succ _), hopened, hreleased⟩
  | @held s s' request requests session script talk outcome outcomes events hscripted htalk
      hcalls haccepted hlast hstopped hcompleted hlater ih =>
      obtain ⟨n, hn, hopened, hreleased⟩ := ih
      obtain ⟨hopen, hrelease⟩ := count_session session talk events start log
      exact ⟨n + 1, Nat.succ_le_succ hn, by rw [hopen, hopened], by rw [hrelease, hreleased]⟩

theorem exists_answers (p : Proposer σ) (requests : List Request) (x : Exchange σ) :
    ∃ events, (p.run requests x).2.events = x.events ++ events ∧
      p.Answers x.state requests (p.run requests x).1 events (p.run requests x).2.state := by
  induction requests generalizing x with
  | nil => exact ⟨[], (List.append_nil _).symm, .done x.state⟩
  | cons request requests ih =>
      obtain ⟨events, hevents, hanswers⟩ := ih ((p.perform request).run.run x).2
      rcases p.perform_cases request with ⟨session, script, hscripted, hholds⟩ | ⟨hnone, hrefused⟩
      · obtain ⟨hstate, hpassed, hstopped, hcompleted⟩ := hholds x
        rw [hstate] at hanswers
        obtain ⟨haccepted, hlast⟩ := p.backend.stop?_answers_converse script
          (p.backend.openSession session x.state)
        refine ⟨_, ?_, .held hscripted rfl (p.backend.calls_converse_isPrefix script _) haccepted
          hlast hstopped (fun hnone => ⟨Backend.calls_converse_eq hnone, hcompleted hnone⟩)
          hanswers⟩
        refine hevents.trans ?_
        rw [hpassed]
        simp
      · obtain ⟨reason, hrun⟩ := hrefused x
        rw [hrun] at hevents hanswers
        refine ⟨events, ?_, ?_⟩
        · simp only [run, hrun]
          exact hevents
        · simp only [run, hrun]
          exact .refused hnone hanswers

/-- Requests one after the other keep to the protocol, whatever the backend answers. -/
theorem run_keeps_protocol (p : Proposer σ) (requests : List Request) (x : Exchange σ) :
    ∃ events, (p.run requests x).2.events = x.events ++ events ∧
      p.Answers x.state requests (p.run requests x).1 events (p.run requests x).2.state ∧
      ∃ n ≤ requests.length, (p.run requests x).2.openedCount = x.openedCount + n ∧
        (p.run requests x).2.releasedCount = x.releasedCount + n := by
  obtain ⟨events, hevents, hanswers⟩ := p.exists_answers requests x
  obtain ⟨n, hn, hopened, hreleased⟩ := hanswers.exists_count x.state x.log
  refine ⟨events, hevents, hanswers, n, hn, ?_, ?_⟩
  · rw [← hopened, Exchange.openedCount, hevents, List.countP_append]
    rfl
  · rw [← hreleased, Exchange.releasedCount, hevents, List.countP_append]
    rfl

end Proposer
end SpendPlanner
