import SpendPlanner.Proofs.Estimation.Delivery
import SpendPlanner.Proofs.Selection.Prefix

/-!
# What the logs of estimates show

While values are hidden, what is written of a selection or an estimate is shown the same for any
two that have the same outline: what is asked for, the number of records of the token, and
otherwise numbers of inputs and consolidations, and fees.  Amounts are no part of an outline.

Logs are compared line by line by a reader.  Lines that are shown the same are the same to any
reader; a reader who knows little of how callbacks end may take further lines for the same.
-/

namespace SpendPlanner

namespace Log

/-- A line as it is shown while values are hidden, with its severity. -/
def Line.shown (line : Line) : Severity × String := (line.severity, line.text false)

/-- Lines as they are shown while values are hidden. -/
def shown (lines : List Line) : List (Severity × String) := lines.map Line.shown

theorem shown_append (first second : List Line) :
    shown (first ++ second) = shown first ++ shown second := List.map_append

theorem shown_eq_iff {lines lines' : List Line} :
    shown lines = shown lines' ↔
      List.Forall₂ (fun line line' => line.shown = line'.shown) lines lines' := by
  rw [shown, shown, ← List.forall₂_eq_eq_eq, List.forall₂_map_left_iff, List.forall₂_map_right_iff]

/-- A reader of logs: what is known to it of the endings of callbacks, and which lines it takes for
the same. -/
structure Reader where
  known : Ending → Ending
  Same : Line → Line → Prop
  same_of_shown : ∀ {line line'}, line.shown = line'.shown → Same line line'
  /-- Endings of which the same is known are written of alike. -/
  same_log : ∀ {ending ending'}, known ending = known ending' →
    List.Forall₂ Same ending.log ending'.log

namespace Reader

variable {reader : Reader}

theorem forall₂_of_shown {lines lines' : List Line} (h : Log.shown lines = Log.shown lines') :
    List.Forall₂ reader.Same lines lines' :=
  (shown_eq_iff.mp h).imp fun _ _ => reader.same_of_shown

end Reader
end Log

open Log

/-- What may be known of the value of a selection, if it has one.  Of which kind a failure is
makes no difference to what is written. -/
def SelectionError.outline {α κ : Type} (known : α → κ) (outcome : Except SelectionError α) :
    Option κ :=
  outcome.toOption.map known

/-- Selections of one outline have both failed, or have values of which the same is known. -/
theorem SelectionError.outline_cases {α κ : Type} {known : α → κ}
    {outcome outcome' : Except SelectionError α}
    (h : outline known outcome = outline known outcome') :
    (∃ error error', outcome = .error error ∧ outcome' = .error error') ∨
      ∃ a a', outcome = .ok a ∧ outcome' = .ok a' ∧ known a = known a' := by
  cases outcome with
  | error error =>
      cases outcome' with
      | error error' => exact Or.inl ⟨error, error', rfl, rfl⟩
      | ok a' => cases h
  | ok a =>
      cases outcome' with
      | error error' => cases h
      | ok a' => exact Or.inr ⟨a, a', rfl, rfl, Option.some.inj h⟩

/-! ## Selections -/

/-- What may be known of a quote: the number of inputs where one transaction will do, and the
estimate. -/
def Quote.outline : Quote → Option ℕ × FeeEstimate
  | single inputs fee => (some inputs, (single inputs fee).estimate)
  | consolidated merges totalFee => (none, (consolidated merges totalFee).estimate)

theorem Quote.shown_logLine_eq {quote quote' : Quote} (h : quote.outline = quote'.outline)
    (amount amount' : Amount) :
    shown [quote.logLine amount] = shown [quote'.logLine amount'] := by
  cases quote with
  | single inputs fee =>
      cases quote' with
      | single inputs' fee' =>
          simp only [outline, Prod.mk.injEq, Option.some.injEq] at h
          obtain ⟨rfl, -⟩ := h
          rfl
      | consolidated merges totalFee => cases (Prod.ext_iff.mp h).1
  | consolidated merges totalFee =>
      cases quote' with
      | single inputs' fee' => cases (Prod.ext_iff.mp h).1
      | consolidated merges' totalFee' =>
          simp only [outline, estimate, Prod.mk.injEq, FeeEstimate.mk.injEq, true_and] at h
          obtain ⟨rfl, hmerges⟩ := h
          simp only [logLine, hmerges]
          rfl

theorem length_spendingOrder (token : TokenId) (records : List Record) :
    (spendingOrder token records).length =
      (records.filter fun r => r.token = token).length :=
  (spendingOrder_perm token records).length_eq

namespace Selector

variable {s s' : Selector} {token : TokenId} {rule rule' : FeeRule}
  {records records' : List Record}

/-- What may be known of a transferable amount is that there is one. -/
def transferableOutline (s : Selector) (token : TokenId) (rule : FeeRule)
    (records : List Record) : Option Unit :=
  SelectionError.outline (fun _ => ()) (s.transferable token rule records)

theorem shown_transferableLog_eq
    (hcount : (records.filter fun r => r.token = token).length =
      (records'.filter fun r => r.token = token).length)
    (h : s.transferableOutline token rule records =
      s'.transferableOutline token rule' records') :
    shown (s.transferableLog token rule records) =
      shown (s'.transferableLog token rule' records') := by
  obtain ⟨error, error', herror, herror'⟩ | ⟨amount, amount', hamount, hamount', -⟩ :=
    SelectionError.outline_cases h
  · rw [transferableLog, transferableLog, herror, herror']
  · have hvalues : (Record.values (spendingOrder token records)).length =
        (Record.values (spendingOrder token records')).length := by
      rw [Record.values, Record.values, List.length_map, List.length_map, length_spendingOrder,
        length_spendingOrder, hcount]
    rw [transferableLog, transferableLog, hamount, hamount']
    simp only [hvalues]
    rfl

def quoteOutline (s : Selector) (amount : Amount) (rule : FeeRule) (records : List Record) :
    Option (Option ℕ × FeeEstimate) :=
  SelectionError.outline Quote.outline (s.quote amount rule records)

/-- What is known of a quote tells the estimate. -/
theorem estimateOutline_eq {amount amount' : Amount}
    (h : s.quoteOutline amount rule records = s'.quoteOutline amount' rule' records') :
    SelectionError.outline id (s.estimate amount rule records) =
      SelectionError.outline id (s'.estimate amount' rule' records') := by
  have hestimate : ∀ quote : Quote, quote.outline.2 = quote.estimate := by
    intro quote
    cases quote <;> rfl
  obtain ⟨error, error', herror, herror'⟩ | ⟨quote, quote', hquote, hquote', houtline⟩ :=
    SelectionError.outline_cases h
  · rw [estimate, estimate, herror, herror']
    rfl
  · rw [estimate, estimate, hquote, hquote']
    change some quote.estimate = some quote'.estimate
    rw [← hestimate, ← hestimate, houtline]

theorem shown_estimateLog_eq {amount amount' : Amount}
    (h : s.quoteOutline amount rule records = s'.quoteOutline amount' rule' records') :
    shown (s.estimateLog amount rule records) =
      shown (s'.estimateLog amount' rule' records') := by
  obtain ⟨error, error', herror, herror'⟩ | ⟨quote, quote', hquote, hquote', houtline⟩ :=
    SelectionError.outline_cases h
  · rw [estimateLog, estimateLog, herror, herror']
  · rw [estimateLog, estimateLog, hquote, hquote']
    exact Quote.shown_logLine_eq houtline amount amount'

/-- What may be known of chosen inputs is their number and the fee. -/
def selectionOutline (s : Selector) (token : TokenId) (amounts : List UInt64) (rule : FeeRule)
    (records : List Record) : Option (ℕ × UInt64) :=
  SelectionError.outline (fun selection => (selection.inputs.length, selection.fee))
    (s.selectPaying token amounts rule records)

theorem shown_selectPayingLog_eq {token' : TokenId} {amounts amounts' : List UInt64}
    (h : s.selectionOutline token amounts rule records =
      s'.selectionOutline token' amounts' rule' records') :
    shown (s.selectPayingLog token amounts rule records) =
      shown (s'.selectPayingLog token' amounts' rule' records') := by
  obtain ⟨error, error', herror, herror'⟩ |
    ⟨selection, selection', hselection, hselection', houtline⟩ := SelectionError.outline_cases h
  · rw [selectPayingLog, selectPayingLog, herror, herror']
  · obtain ⟨hinputs, hfee⟩ := Prod.mk.inj houtline
    rw [selectPayingLog, selectPayingLog, hselection, hselection']
    simp only [selectionLine, hinputs, hfee]
    rfl

end Selector

/-! ## Estimates -/

theorem Account.shown_snapshotLine_eq {account account' : Account} {token : TokenId}
    (h : (account.ofToken token).length = (account'.ofToken token).length) :
    shown [account.snapshotLine token] = shown [account'.snapshotLine token] := by
  simp only [snapshotLine, h]

/-- The source as it tells of fees, while nothing happens to the account. -/
def FeeSource.still {ω : Type} (source : FeeSource ω) : FeeSource ω where
  ask level token now memory :=
    let (reply, memory) := source.ask level token now memory
    ({ reply with changes := [] }, memory)

/-- Scenes of one time and one memory of the fee source, whose logs are the same to a reader.
The accounts may be any two. -/
structure Scene.Alike {ω : Type} (reader : Reader) (scene scene' : Scene ω) : Prop where
  source : scene.source = scene'.source
  clock : scene.clock = scene'.clock
  log : List.Forall₂ reader.Same scene.log scene'.log

namespace Scene.Alike

variable {ω : Type} {reader : Reader} {scene scene' : Scene ω} {lines lines' : List Log.Line}

theorem write (h : scene.Alike reader scene') (hlines : List.Forall₂ reader.Same lines lines') :
    (scene.write lines).Alike reader (scene'.write lines') where
  source := h.source
  clock := h.clock
  log := List.rel_append h.log hlines

theorem writeShown (h : scene.Alike reader scene') (hlines : shown lines = shown lines') :
    (scene.write lines).Alike reader (scene'.write lines') :=
  h.write (Reader.forall₂_of_shown hlines)

theorem change (h : scene.Alike reader scene') (changes changes' : List Account.Change) :
    (scene.change changes).Alike reader (scene'.change changes') :=
  ⟨h.source, h.clock, h.log⟩

end Scene.Alike

/-- What may be known of an estimate: what is asked for and, if a fee has arrived, how many
records are held then and what may be known of the selection. -/
inductive EstimateOutline where
  | transferable (token : TokenId) (level : FeeLevel) (arrived : Option (ℕ × Option Unit))
  | fees (token : TokenId) (level : FeeLevel)
      (arrived : Option (ℕ × Option (Option ℕ × FeeEstimate)))
  /-- The payment of nothing, for which nothing is asked. -/
  | refused

namespace Estimator

variable {ω κ : Type}

/-- What may be known of a selection on the arrival of the fee, if one arrives. -/
def arrivalOutline (e : Estimator ω) (level : FeeLevel) (token : TokenId)
    (outline : FeeRule → List Record → Option κ) (scene : Scene ω) : Option (ℕ × Option κ) :=
  (e.reply level token scene).answer.toOption.map fun rule =>
    let held := (e.arrival level token scene).account.ofToken token
    (held.length, outline rule held)

def transferableOutline (e : Estimator ω) (token : TokenId) (level : FeeLevel)
    (scene : Scene ω) : EstimateOutline :=
  .transferable token level
    (e.arrivalOutline level token (e.selector.transferableOutline token) scene)

def feesOutline (e : Estimator ω) (amount : Amount) (level : FeeLevel) (scene : Scene ω) :
    EstimateOutline :=
  if amount.value = 0 then .refused
  else .fees amount.token level
    (e.arrivalOutline level amount.token (e.selector.quoteOutline amount) scene)

/-- What may be known of answering a query on a scene. -/
def outline (e : Estimator ω) (scene : Scene ω) : Query → EstimateOutline
  | .transferable token level => e.transferableOutline token level scene
  | .totalFee amount level | .needsConsolidation amount level =>
    e.feesOutline amount level scene

section TwoRuns

variable {reader : Reader} {e e' : Estimator ω} {scene scene' : Scene ω}
  {level level' : FeeLevel} {token : TokenId}

/-- Sources that tell alike of fees give one answer on scenes that are alike, and the scenes
are alike when it arrives. -/
theorem alike_arrival (hsource : e.source.still = e'.source.still) (h : scene.Alike reader scene')
    (level : FeeLevel) (token : TokenId) :
    (e.reply level token scene).answer = (e'.reply level token scene').answer ∧
      (e.arrival level token scene).Alike reader (e'.arrival level token scene') := by
  have hask : e.source.still.ask level token scene.clock scene.source =
      e'.source.still.ask level token scene'.clock scene'.source := by
    rw [hsource, h.clock, h.source]
  simp only [FeeSource.still, Prod.mk.injEq, FeeReply.mk.injEq] at hask
  obtain ⟨⟨hanswer, htook, -, hlog⟩, hmemory⟩ := hask
  refine ⟨hanswer, hmemory, congrArg₂ (· + ·) h.clock htook, ?_⟩
  exact List.rel_append h.log (Reader.forall₂_of_shown (congrArg shown hlog))

/-- Where the same is known of two selections on arrival, no fee arrives for one reason, or
the same is known of the selections on records of one number. -/
theorem arrival_cases {outline outline' : FeeRule → List Record → Option κ}
    (hsource : e.source.still = e'.source.still) (h : scene.Alike reader scene')
    (houtline : e.arrivalOutline level token outline scene =
      e'.arrivalOutline level token outline' scene') :
    (∃ error, (e.reply level token scene).answer = .error error ∧
        (e'.reply level token scene').answer = .error error) ∨
      ∃ rule, (e.reply level token scene).answer = .ok rule ∧
        (e'.reply level token scene').answer = .ok rule ∧
        ((e.arrival level token scene).account.ofToken token).length =
          ((e'.arrival level token scene').account.ofToken token).length ∧
        outline rule ((e.arrival level token scene).account.ofToken token) =
          outline' rule ((e'.arrival level token scene').account.ofToken token) := by
  have hanswer := (alike_arrival hsource h level token).1
  cases hreply : (e.reply level token scene).answer with
  | error error => exact Or.inl ⟨error, rfl, hanswer.symm.trans hreply⟩
  | ok rule =>
      have hreply' := hanswer.symm.trans hreply
      rw [arrivalOutline, arrivalOutline, hreply, hreply'] at houtline
      obtain ⟨hcount, hknown⟩ := Prod.mk.inj (Option.some.inj houtline)
      exact Or.inr ⟨rule, rfl, hreply', hcount, hknown⟩

theorem shown_selection_eq {line line' : Log.Line} {before before' after after' : List Log.Line}
    (hline : shown [line] = shown [line']) (hbefore : shown before = shown before')
    (hafter : shown after = shown after') :
    shown (line :: (before ++ after)) = shown (line' :: (before' ++ after')) := by
  have hsplit : ∀ (line : Log.Line) (before after : List Log.Line),
      shown (line :: (before ++ after)) = shown [line] ++ (shown before ++ shown after) := by
    intro line before after
    simp [shown]
  rw [hsplit, hsplit, hline, hbefore, hafter]

theorem shown_linesOf_eq {α : Type} {known : α → κ} {lines lines' : α → List Log.Line}
    {outcome outcome' : Except SelectionError α}
    (h : SelectionError.outline known outcome = SelectionError.outline known outcome')
    (hlines : ∀ a a', known a = known a' → shown (lines a) = shown (lines' a')) :
    shown (linesOf lines outcome) = shown (linesOf lines' outcome') := by
  obtain ⟨error, error', rfl, rfl⟩ | ⟨a, a', rfl, rfl, hknown⟩ := SelectionError.outline_cases h
  · rfl
  · exact hlines a a' hknown

theorem alike_transferable (hsource : e.source.still = e'.source.still)
    (h : scene.Alike reader scene')
    (houtline : e.transferableOutline token level scene =
      e'.transferableOutline token level scene') :
    ((e.transferable token level).run.run scene).2.Alike reader
      ((e'.transferable token level).run.run scene').2 := by
  simp only [transferableOutline, EstimateOutline.transferable.injEq, true_and] at houtline
  have harrival := (alike_arrival hsource h level token).2
  obtain ⟨error, herror, herror'⟩ | ⟨rule, hrule, hrule', hcount, hknown⟩ :=
    arrival_cases hsource h houtline
  · rw [run_transferable_of_error herror, run_transferable_of_error herror']
    exact harrival.writeShown rfl
  · rw [run_transferable_of_ok hrule, run_transferable_of_ok hrule']
    refine harrival.writeShown (shown_selection_eq (Account.shown_snapshotLine_eq hcount)
      (Selector.shown_transferableLog_eq (by simpa [Account.ofToken] using hcount) hknown) ?_)
    exact shown_linesOf_eq hknown fun amount amount' _ => rfl

theorem alike_estimate {amount amount' : Amount} (hsource : e.source.still = e'.source.still)
    (h : scene.Alike reader scene')
    (houtline : e.feesOutline amount level scene = e'.feesOutline amount' level' scene') :
    ((e.estimate amount level).run.run scene).2.Alike reader
      ((e'.estimate amount' level').run.run scene').2 := by
  rw [feesOutline, feesOutline] at houtline
  split at houtline
  · next hzero =>
    split at houtline
    · next hzero' =>
      rw [run_estimate_of_zero hzero, run_estimate_of_zero hzero']
      exact h
    · cases houtline
  · next hpositive =>
    split at houtline
    · cases houtline
    · next hpositive' =>
      obtain ⟨value, token⟩ := amount
      obtain ⟨value', token'⟩ := amount'
      simp only [EstimateOutline.fees.injEq] at houtline
      obtain ⟨rfl, rfl, harrived⟩ := houtline
      have harrival := (alike_arrival hsource h level token).2
      obtain ⟨error, herror, herror'⟩ | ⟨rule, hrule, hrule', hcount, hknown⟩ :=
        arrival_cases hsource h harrived
      · rw [run_estimate_of_error hpositive herror, run_estimate_of_error hpositive' herror']
        exact harrival.writeShown rfl
      · rw [run_estimate_of_ok hpositive hrule, run_estimate_of_ok hpositive' hrule']
        refine harrival.writeShown (shown_selection_eq (Account.shown_snapshotLine_eq hcount)
          (Selector.shown_estimateLog_eq hknown) ?_)
        refine shown_linesOf_eq (Selector.estimateOutline_eq hknown) ?_
        rintro estimate _ rfl
        rfl

/-- A question for the largest amount has no outline of a question for fees. -/
theorem transferableOutline_ne {amount : Amount} :
    e.transferableOutline token level scene ≠ e'.feesOutline amount level' scene' := by
  rw [transferableOutline, feesOutline]
  split <;> simp

/-- Any other query than for the largest amount reads its answer off an estimate. -/
theorem answer_cases (ω : Type) (query : Query) :
    (∃ token level, query = .transferable token level) ∨
      ∃ amount level, ∀ (e : Estimator ω) (scene : Scene ω),
        e.outline scene query = e.feesOutline amount level scene ∧
        ((e.answer query).run.run scene).2 = ((e.estimate amount level).run.run scene).2 := by
  cases query with
  | transferable token level => exact Or.inl ⟨token, level, rfl⟩
  | totalFee amount level =>
      refine Or.inr ⟨amount, level, fun e scene => ⟨rfl, ?_⟩⟩
      simp only [answer, totalFee, Activity.run_map]
  | needsConsolidation amount level =>
      refine Or.inr ⟨amount, level, fun e scene => ⟨rfl, ?_⟩⟩
      simp only [answer, needsConsolidation, Activity.run_map]

/-- Answering queries of which the same is known keeps scenes alike. -/
theorem alike_answer {query query' : Query} (hsource : e.source.still = e'.source.still)
    (h : scene.Alike reader scene') (houtline : e.outline scene query = e'.outline scene' query') :
    ((e.answer query).run.run scene).2.Alike reader ((e'.answer query').run.run scene').2 := by
  obtain ⟨token, level, rfl⟩ | ⟨amount, level, hfees⟩ := answer_cases ω query
  · obtain ⟨token', level', rfl⟩ | ⟨amount', level', hfees'⟩ := answer_cases ω query'
    · obtain ⟨rfl, rfl, -⟩ := EstimateOutline.transferable.inj houtline
      simp only [answer, Activity.run_map]
      exact alike_transferable hsource h houtline
    · rw [(hfees' e' scene').1] at houtline
      exact absurd houtline transferableOutline_ne
  · rw [(hfees e scene).1] at houtline
    rw [(hfees e scene).2]
    obtain ⟨token', level', rfl⟩ | ⟨amount', level', hfees'⟩ := answer_cases ω query'
    · exact absurd houtline.symm transferableOutline_ne
    · rw [(hfees' e' scene').1] at houtline
      rw [(hfees' e' scene').2]
      exact alike_estimate hsource h houtline

end TwoRuns

section QuoteError

variable {e : Estimator ω} {scene : Scene ω} {level : FeeLevel} {amount : Amount} {rule : FeeRule}
  {error : SelectionError}

/-- Where a fee arrives at which the amount cannot be paid, only the snapshot is written. -/
theorem run_totalFee_of_quote_error (hpositive : amount.value ≠ 0)
    (hrule : (e.reply level amount.token scene).answer = .ok rule)
    (hquote : e.selector.quote amount rule
      ((e.arrival level amount.token scene).account.ofToken amount.token) = .error error) :
    (e.answer (.totalFee amount level)).run.run scene =
      (.error error.toEstimateFailure, (e.arrival level amount.token scene).write
        [(e.arrival level amount.token scene).account.snapshotLine amount.token]) := by
  simp only [answer, totalFee, Activity.run_map]
  rw [run_estimate_of_ok hpositive hrule, Selector.estimate, Selector.estimateLog, hquote]
  rfl

/-- Where a fee arrives at which the amount cannot be paid, the number of records is known. -/
theorem feesOutline_of_quote_error (hpositive : amount.value ≠ 0)
    (hrule : (e.reply level amount.token scene).answer = .ok rule)
    (hquote : e.selector.quote amount rule
      ((e.arrival level amount.token scene).account.ofToken amount.token) = .error error) :
    e.feesOutline amount level scene = .fees amount.token level (some
      (((e.arrival level amount.token scene).account.ofToken amount.token).length, none)) := by
  rw [feesOutline, if_neg hpositive, arrivalOutline, hrule]
  simp only [Except.toOption, Option.map_some, Selector.quoteOutline, hquote]
  rfl

end QuoteError

end Estimator
end SpendPlanner
