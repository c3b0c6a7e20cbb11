import SpendPlanner.Proofs.Redaction.Completions
import SpendPlanner.Proofs.Redaction.Proposals

/-!
# Logs hide amounts, but for the texts of panics

Two runs of an operation of which the same may be known have logs that are shown the same while
values are hidden.  The values of records, and the amounts that are asked for, paid and left as
change, are not among what may be known.

A callback is given a result, which may tell of an amount, and may panic with what it is given.
The text of a panic goes into the log as it is.  So where it is only known of a callback that it
panics, the lines that tell of panics may differ, and no others do.
-/

namespace SpendPlanner

open Log

/-- A run of an operation, with everything that it is given.  A fee source has a memory `ω`, and a
signing backend a memory `σ`. -/
inductive Run (ω σ : Type) where
  | snapshot (account : Account) (token : TokenId)
  | transferable (s : Selector) (token : TokenId) (rule : FeeRule) (records : List Record)
  | fees (s : Selector) (amount : Amount) (rule : FeeRule) (records : List Record)
  | payment (s : Selector) (token : TokenId) (amounts : List UInt64) (rule : FeeRule)
      (records : List Record)
  | estimate (e : Estimator ω) (account : Account) (source : ω) (clock : ℕ) (amount : Amount)
      (level : FeeLevel)
  | answer (e : Estimator ω) (account : Account) (source : ω) (clock : ℕ) (query : Query)
  /-- Queries are started and completed while the account changes. -/
  | completions (e : Estimator ω) (account : Account) (source : ω) (clock : ℕ)
      (events : List Stage.Event)
  | callbacks (queue : CallbackQueue Completion) (events : List (CallbackQueue.Event Completion))
  | proposal (p : Proposer σ) (state : σ) (request : Proposer.Request)

namespace Run

variable {ω σ : Type}

/-- The lines that a run writes. -/
def log : Run ω σ → List Line
  | snapshot account token => [account.snapshotLine token]
  | transferable s token rule records => s.transferableLog token rule records
  | fees s amount rule records => s.estimateLog amount rule records
  | payment s token amounts rule records => s.selectPayingLog token amounts rule records
  | estimate e account source clock amount level =>
    ((e.estimate amount level).run.run ⟨account, source, clock, []⟩).2.log
  | answer e account source clock query =>
    ((e.answer query).run.run ⟨account, source, clock, []⟩).2.log
  | completions e account source clock events =>
    ((Stage.ofScene ⟨account, source, clock, []⟩).run e events).scene.log
  | callbacks queue events => (queue.run events).2
  | proposal p state request => ((p.perform request).run.run (.fresh state)).2.log

/-- What may be known of a run. -/
inductive Outline (ω : Type) where
  | snapshot (token : TokenId) (held : ℕ)
  | transferable (token : TokenId) (held : ℕ) (found : Option Unit)
  /-- The number of inputs where one transaction will do, and the fees. -/
  | fees (found : Option (Option ℕ × FeeEstimate))
  /-- The number of inputs, and the fee. -/
  | payment (found : Option (ℕ × UInt64))
  /-- The fee source is known apart from what happens to the account while it is asked. -/
  | estimate (source : FeeSource ω) (memory : ω) (clock : ℕ) (asked : EstimateOutline)
  | answer (source : FeeSource ω) (memory : ω) (clock : ℕ) (asked : EstimateOutline)
  | completions (source : FeeSource ω) (memory : ω) (clock : ℕ)
      (events : List Stage.EventOutline)
  | callbacks (queue : CallbackQueue Unit) (events : List (CallbackQueue.Event Unit))
  | proposal (made : ProposalOutline)

/-- What may be known of a run, with as much as is known of the endings of callbacks. -/
def outline (known : Ending → Ending) : Run ω σ → Outline ω
  | snapshot account token => .snapshot token (account.ofToken token).length
  | transferable s token rule records =>
    .transferable token (records.filter fun r => r.token = token).length
      (s.transferableOutline token rule records)
  | fees s amount rule records => .fees (s.quoteOutline amount rule records)
  | payment s token amounts rule records => .payment (s.selectionOutline token amounts rule records)
  | estimate e account source clock amount level =>
    .estimate e.source.still source clock (e.feesOutline amount level ⟨account, source, clock, []⟩)
  | answer e account source clock query =>
    .answer e.source.still source clock (e.outline ⟨account, source, clock, []⟩ query)
  | completions e account source clock events =>
    .completions e.source.still source clock
      (Stage.outlines known e (.ofScene ⟨account, source, clock, []⟩) events)
  | callbacks queue events =>
    .callbacks (queue.blank known) (events.map (CallbackQueue.Event.blank known))
  | proposal p state request => .proposal (p.outline request (.fresh state))

/-- Runs of which the same is known to a reader have logs that are the same to it. -/
theorem same_log {reader : Reader} {run run' : Run ω σ}
    (h : run.outline reader.known = run'.outline reader.known) :
    List.Forall₂ reader.Same run.log run'.log := by
  have hscene : ∀ (account account' : Account) (source : ω) (clock : ℕ),
      Scene.Alike reader ⟨account, source, clock, []⟩ ⟨account', source, clock, []⟩ :=
    fun _ _ _ _ => ⟨rfl, rfl, .nil⟩
  cases run with
  | snapshot account token =>
      cases run' with
      | snapshot account' token' =>
          obtain ⟨rfl, hheld⟩ := Outline.snapshot.inj h
          exact Reader.forall₂_of_shown (Account.shown_snapshotLine_eq hheld)
      | _ => cases h
  | transferable s token rule records =>
      cases run' with
      | transferable s' token' rule' records' =>
          obtain ⟨rfl, hheld, hfound⟩ := Outline.transferable.inj h
          exact Reader.forall₂_of_shown (Selector.shown_transferableLog_eq hheld hfound)
      | _ => cases h
  | fees s amount rule records =>
      cases run' with
      | fees s' amount' rule' records' =>
          exact Reader.forall₂_of_shown (Selector.shown_estimateLog_eq (Outline.fees.inj h))
      | _ => cases h
  | payment s token amounts rule records =>
      cases run' with
      | payment s' token' amounts' rule' records' =>
          exact Reader.forall₂_of_shown (Selector.shown_selectPayingLog_eq (Outline.payment.inj h))
      | _ => cases h
  | estimate e account source clock amount level =>
      cases run' with
      | estimate e' account' source' clock' amount' level' =>
          obtain ⟨hsource, rfl, rfl, hasked⟩ := Outline.estimate.inj h
          exact (Estimator.alike_estimate hsource (hscene _ _ _ _) hasked).log
      | _ => cases h
  | answer e account source clock query =>
      cases run' with
      | answer e' account' source' clock' query' =>
          obtain ⟨hsource, rfl, rfl, hasked⟩ := Outline.answer.inj h
          exact (Estimator.alike_answer hsource (hscene _ _ _ _) hasked).log
      | _ => cases h
  | completions e account source clock events =>
      cases run' with
      | completions e' account' source' clock' events' =>
          obtain ⟨hsource, rfl, rfl, hevents⟩ := Outline.completions.inj h
          have hstart : Stage.Alike reader (.ofScene ⟨account, source, clock, []⟩)
              (.ofScene ⟨account', source, clock, []⟩) := ⟨hscene _ _ _ _, rfl⟩
          exact (hstart.run hsource hevents).scene.log
      | _ => cases h
  | callbacks queue events =>
      cases run' with
      | callbacks queue' events' =>
          obtain ⟨hqueue, hevents⟩ := Outline.callbacks.inj h
          exact CallbackQueue.same_log_run hqueue hevents
      | _ => cases h
  | proposal p state request =>
      cases run' with
      | proposal p' state' request' =>
          exact Reader.forall₂_of_shown (Proposer.shown_perform_eq (Outline.proposal.inj h))
      | _ => cases h

end Run

/-! ## Two readers -/

/-- The ending without the text of a panic. -/
def Ending.hushed : Ending → Ending
  | returns => returns
  | panics _ | panicsOddly => panicsOddly

namespace Log

/-- The line tells of a panic. -/
def Line.IsPanic (line : Line) : Prop := ∃ message, line = panicLine message

/-- A reader to whom the text of every panic is known, and who tells apart whatever is not shown
the same. -/
def Reader.exact : Reader where
  known := id
  Same line line' := line.shown = line'.shown
  same_of_shown := id
  same_log := by
    rintro ending _ rfl
    exact List.forall₂_same.mpr fun _ _ => rfl

/-- A reader to whom it is known which callbacks panic, and who takes all lines that tell of panics
for the same. -/
def Reader.hushed : Reader where
  known := Ending.hushed
  Same line line' := line.shown = line'.shown ∨ line.IsPanic ∧ line'.IsPanic
  same_of_shown := .inl
  same_log := by
    intro ending ending' h
    cases ending with
    | returns =>
        cases ending' with
        | returns => exact .nil
        | panics message' | panicsOddly => cases h
    | panics message | panicsOddly =>
        cases ending' with
        | returns => cases h
        | panics message' | panicsOddly => exact .cons (.inr ⟨⟨_, rfl⟩, ⟨_, rfl⟩⟩) .nil

end Log

namespace Run

variable {ω σ : Type}

/-- Logs hide amounts, but for the texts of panics.  While values are hidden, a sensitive value is
shown as one mark in whatever format.  Two runs of which the same may be known have logs that are
the same line by line, but for lines that tell of panics; and where the texts of panics agree as
well, the logs are shown the same. -/
theorem logs_hide_all_but_panics (run run' : Run ω σ) :
    (∀ {α : Type} (a : Sensitive α) (format : α → String), a.text false format = "<redacted>") ∧
      (run.outline Ending.hushed = run'.outline Ending.hushed →
        List.Forall₂ (fun line line' => line.shown = line'.shown ∨ line.IsPanic ∧ line'.IsPanic)
          run.log run'.log) ∧
      (run.outline id = run'.outline id → shown run.log = shown run'.log) := by
  refine ⟨fun a format => rfl, fun h => ?_, fun h => ?_⟩
  · exact @same_log ω σ Reader.hushed run run' h
  · exact shown_eq_iff.mpr (@same_log ω σ Reader.exact run run' h)

/-- Twenty-five out of thirty and forty-four out of fifty, at a fee of two, look alike. -/
theorem logs_hide_all_but_panics_one_input :
    let e : Estimator ℕ := ⟨.prepared [] (.immediate (.ok (.fixed 2))), .ofLimit 2⟩
    let holding : UInt64 → Account := fun value => .ofRecords [.numbered value 0 .mob 0]
    let small : Run ℕ Unit := .estimate e (holding 30) 0 0 ⟨25, .mob⟩ .standard
    let large : Run ℕ Unit := .estimate e (holding 50) 0 0 ⟨44, .mob⟩ .standard
    small.outline id = large.outline id ∧ shown small.log = shown large.log := by
  intro e holding small large
  have hsmall : e.feesOutline ⟨25, .mob⟩ .standard ⟨holding 30, 0, 0, []⟩ =
      .fees .mob .standard (some (1, some (some 1, ⟨2, false, 0⟩))) := by cbv
  have hlarge : e.feesOutline ⟨44, .mob⟩ .standard ⟨holding 50, 0, 0, []⟩ =
      .fees .mob .standard (some (1, some (some 1, ⟨2, false, 0⟩))) := by cbv
  have houtline : small.outline id = large.outline id :=
    congrArg (Outline.estimate e.source.still 0 0) (hsmall.trans hlarge.symm)
  exact ⟨houtline, (logs_hide_all_but_panics small large).2.2 houtline⟩

/-- Three tens cover neither twenty-nine nor thirty, merged two by two at a fee of one.  A callback
that panics with the failure that it is given tells which of them was asked for. -/
theorem panics_show_amounts :
    let e : Estimator ℕ := ⟨.prepared [] (.immediate (.ok (.fixed 1))), .ofLimit 2⟩
    let account : Account := .ofRecords
      [.numbered 10 0 .mob 0, .numbered 10 1 .mob 0, .numbered 10 2 .mob 0]
    let query : UInt64 → Query := fun amount => .totalFee ⟨amount, .mob⟩ .standard
    let ending : Except Failure Query.Answer → Ending := fun
      | .ok _ => .returns
      | .error failure => .panics failure.message
    let run : UInt64 → Run ℕ Unit := fun amount => .completions e account 0 0
      (Stage.alone ⟨0, query amount, ending⟩)
    (∀ amount ∈ [29, 30], ∃ reason, ((e.answer (query amount)).run.run ⟨account, 0, 0, []⟩).1 =
        .error (.insufficientBalance reason)) ∧
      (run 29).outline Ending.hushed = (run 30).outline Ending.hushed ∧
      shown (run 29).log ≠ shown (run 30).log := by
  intro e account query ending run
  let scene : Scene ℕ := ⟨account, 0, 0, []⟩
  let error : UInt64 → SelectionError := fun amount => .tooSmallAfterConsolidation amount 2
  let written : List Line := [account.snapshotLine .mob]
  have hamounts : ∀ amount ∈ [29, 30], amount ≠ 0 ∧
      e.selector.quote ⟨amount, .mob⟩ (.fixed 1) (account.ofToken .mob) =
        .error (error amount) := by
    intro amount hamount
    have hheld : account.ofToken .mob =
        [.numbered 10 0 .mob 0, .numbered 10 1 .mob 0, .numbered 10 2 .mob 0] := by cbv
    simp only [List.mem_cons, List.not_mem_nil, or_false] at hamount
    rw [hheld]
    obtain rfl | rfl := hamount <;> exact ⟨by decide, by cbv⟩
  have hanswer : ∀ amount ∈ [29, 30], (e.answer (query amount)).run.run scene =
      (.error (error amount).toEstimateFailure, ⟨account, 1, 0, written⟩) := by
    intro amount hamount
    obtain ⟨hpositive, hquote⟩ := hamounts amount hamount
    exact Estimator.run_totalFee_of_quote_error hpositive rfl hquote
  have hlog : ∀ amount ∈ [29, 30], shown (run amount).log =
      shown written ++ shown [panicLine (error amount).toEstimateFailure.message] := by
    intro amount hamount
    have hlog := Stage.log_run_alone e scene ⟨0, query amount, ending⟩
    rw [hanswer amount hamount] at hlog
    exact (congrArg shown hlog).trans (shown_append _ _)
  have houtline : ∀ amount ∈ [29, 30], (run amount).outline Ending.hushed =
      .completions e.source.still 0 0
        [.started none, .computed (some (.fees .mob .standard (some (3, none)), .panicsOddly)),
          .worked] := by
    intro amount hamount
    obtain ⟨hpositive, hquote⟩ := hamounts amount hamount
    let ticket : Ticket := ⟨0, query amount, ending⟩
    have houtlines : Stage.outlines Ending.hushed e (.ofScene scene) (Stage.alone ticket) = _ :=
      Stage.outlines_alone Ending.hushed e scene (if_neg hpositive)
    have hfees : e.feesOutline ⟨amount, .mob⟩ .standard scene =
        .fees .mob .standard (some (3, none)) :=
      Estimator.feesOutline_of_quote_error hpositive rfl hquote
    rw [hanswer amount hamount, Estimator.outline, hfees] at houtlines
    exact congrArg (Outline.completions e.source.still 0 0) houtlines
  refine ⟨fun amount hamount => ⟨_, congrArg Prod.fst (hanswer amount hamount)⟩, ?_, ?_⟩
  · rw [houtline 29 (by decide), houtline 30 (by decide)]
  · rw [hlog 29 (by decide), hlog 30 (by decide)]
    refine mt List.append_cancel_left ?_
    decide +kernel

end Run
end SpendPlanner
