import SpendPlanner.Estimation.Estimator
import SpendPlanner.Proofs.Activity
import SpendPlanner.Proofs.Selection.Dust

/-!
# Estimates on the arrival of the fee

An estimate is what the selector makes of the records that are held when the fee arrives, and
leaves the account as it is then.  So it is known outright from the reply of the source: the
result, and the lines that are written.
-/

namespace SpendPlanner

/-! ## The failures of the selector -/

/-- In an estimate of fees every failure but that of a zero amount is a lack of balance. -/
theorem SelectionError.toEstimateFailure_of_ne {error : SelectionError}
    (h : error.kind ≠ .invalidAmount) :
    error.toEstimateFailure = .insufficientBalance error.reason := by
  rw [toEstimateFailure]
  cases hkind : error.kind with
  | invalidAmount => exact absurd hkind h
  | insufficientBalance => rfl
  | balanceOverflow => rfl
  | feeExceedsBalance => rfl

namespace Selector

variable {s : Selector} {rule : FeeRule} {error : SelectionError}

theorem kind_of_transferable {token : TokenId} {records : List Record}
    (h : s.transferable token rule records = .error error) :
    error.kind = .balanceOverflow ∨ error.kind = .feeExceedsBalance := by
  simp only [transferable] at h
  split at h
  · cases h
    exact Or.inl rfl
  · split_ifs at h
    · cases h
      exact Or.inr rfl
    · cases h
      exact Or.inr rfl

theorem kind_of_mergedValue {values : List UInt64} {fee : UInt64}
    (h : mergedValue values fee = .error error) : error.kind ≠ .invalidAmount := by
  rw [mergedValue] at h
  split at h
  · split_ifs at h
    cases h
    simp [SelectionError.kind]
  · cases h
    simp [SelectionError.kind]
  · cases h
    simp [SelectionError.kind]

theorem kind_ne_of_plan {outlay : UInt64} {values : List UInt64}
    (h : s.plan rule outlay values = .error error) : error.kind ≠ .invalidAmount := by
  by_cases hne : values = []
  · rw [plan, if_pos (List.isEmpty_iff.mpr hne)] at h
    cases h
    simp [SelectionError.kind]
  · obtain ⟨batches, final, -, hstop⟩ := exists_stopsAt_of_plan hne h
    cases hstop with
    | exhausted hcard hnot => simp [SelectionError.kind]
    | refused hpool hdue hmerge => exact kind_of_mergedValue hmerge

/-- Only a zero amount is ever found at fault; everything else that an estimate fails for is
the fault of the balance. -/
theorem kind_ne_of_estimate {amount : Amount} {records : List Record}
    (hpositive : amount.value ≠ 0) (h : s.estimate amount rule records = .error error) :
    error.kind ≠ .invalidAmount := by
  cases hfit : s.fit? rule paymentOutputs amount.value
      (Record.values (spendingOrder amount.token records)) with
  | some k =>
      rw [estimate_of_fit? hpositive hfit] at h
      cases h
  | none =>
      cases hplan : s.plan rule amount.value
          (Record.values (spendingOrder amount.token records)) with
      | error reason =>
          rw [(estimate_of_plan_error hpositive hfit hplan).2] at h
          cases h
          exact kind_ne_of_plan hplan
      | ok plan =>
          obtain ⟨-, hok, hoverflow⟩ := estimate_of_plan_ok hpositive hfit hplan
          by_cases hword : total (plan.sendFee :: plan.merges.map Merge.fee) < UInt64.size
          · rw [hok _ (UInt64.toNat_ofNat_of_lt hword)] at h
            cases h
          · rw [hoverflow (not_lt.mp hword)] at h
            cases h
            simp [SelectionError.kind]

end Selector

/-! ## What an estimate comes to -/

theorem Scene.write_append {ω : Type} (scene : Scene ω) (first second : List Log.Line) :
    (scene.write first).write second = scene.write (first ++ second) := by
  simp [Scene.write]

/-- The scene after the account has changed. -/
def Scene.change {ω : Type} (scene : Scene ω) (changes : List Account.Change) : Scene ω :=
  { scene with account := scene.account.applyChanges changes }

namespace Estimator

variable {ω α β : Type} {e : Estimator ω} {scene : Scene ω} {level : FeeLevel} {token : TokenId}

/-- The reply of the source to a question that is asked on a scene. -/
def reply (e : Estimator ω) (level : FeeLevel) (token : TokenId) (scene : Scene ω) : FeeReply :=
  (e.source.ask level token scene.clock scene.source).1

/-- The scene when that reply arrives. -/
def arrival (e : Estimator ω) (level : FeeLevel) (token : TokenId) (scene : Scene ω) :
    Scene ω where
  account := scene.account.applyChanges (e.reply level token scene).changes
  source := (e.source.ask level token scene.clock scene.source).2
  clock := scene.clock + (e.reply level token scene).took
  log := scene.log ++ (e.reply level token scene).log

theorem run_askSource (e : Estimator ω) (level : FeeLevel) (token : TokenId) (scene : Scene ω) :
    (e.askSource level token).run.run scene =
      (.ok (e.reply level token scene).answer, e.arrival level token scene) := rfl

/-- The line that is written when no fee arrives. -/
def unreachableLine (level : FeeLevel) (token : TokenId) (error : FeeSourceError) : Log.Line :=
  ⟨.warn, ["Fee strategy fetch failed for ", level.name, " ", token.name, ": ", error.message]⟩

theorem run_fetch_of_error {error : FeeSourceError}
    (h : (e.reply level token scene).answer = .error error) :
    (e.fetch level token).run.run scene =
      (.error (.connection error),
        (e.arrival level token scene).write [unreachableLine level token error]) := by
  rw [fetch, Activity.run_bind, run_askSource, h]
  rfl

theorem run_fetch_of_ok {rule : FeeRule}
    (h : (e.reply level token scene).answer = .ok rule) :
    (e.fetch level token).run.run scene =
      (.ok (rule, (e.arrival level token scene).account.ofToken token),
        (e.arrival level token scene).write
          [(e.arrival level token scene).account.snapshotLine token]) := by
  rw [fetch, Activity.run_bind, run_askSource, h]
  rfl

/-- The lines that are written of a selection's value, if it has one. -/
def linesOf (lines : α → List Log.Line) : Except SelectionError α → List Log.Line
  | .ok a => lines a
  | .error _ => []

/-- What comes of a selection is its value, or its failure as it is read, and what is written. -/
theorem run_selection (reading : SelectionError → Failure) (outcome : Except SelectionError α)
    (before : List Log.Line) (after : α → List Log.Line) (scene : Scene ω) :
    (do
      write before
      let a ← accept reading outcome
      write (after a)
      return a : Estimating ω α).run.run scene =
      (outcome.mapError reading, scene.write (before ++ linesOf after outcome)) := by
  cases outcome with
  | ok a =>
      change (Except.ok a, (scene.write before).write (after a)) = _
      rw [Scene.write_append]
      rfl
  | error error =>
      change (Except.error (reading error), scene.write before) = _
      rw [linesOf, List.append_nil]
      rfl

/-- What is written of a transferable amount. -/
def transferableLines (level : FeeLevel) (token : TokenId) (amount : UInt64) : List Log.Line :=
  [⟨.info, ["Amount transferable (", level.name, " ", token.name, "): ",
    Log.hidden (Decimal.text amount.toNat)]⟩]

theorem run_transferable_of_error {error : FeeSourceError}
    (h : (e.reply level token scene).answer = .error error) :
    (e.transferable token level).run.run scene =
      (.error (.connection error),
        (e.arrival level token scene).write [unreachableLine level token error]) := by
  rw [transferable, Activity.run_bind, run_fetch_of_error h]

theorem run_transferable_of_ok {rule : FeeRule}
    (h : (e.reply level token scene).answer = .ok rule) :
    let arrived := e.arrival level token scene
    let outcome := e.selector.transferable token rule (arrived.account.ofToken token)
    (e.transferable token level).run.run scene =
      (outcome.mapError SelectionError.toFailure,
        arrived.write (arrived.account.snapshotLine token ::
          (e.selector.transferableLog token rule (arrived.account.ofToken token) ++
            linesOf (transferableLines level token) outcome))) := by
  intro arrived outcome
  rw [transferable, Activity.run_bind, run_fetch_of_ok h]
  refine (run_selection _ _ _ (transferableLines level token) _).trans ?_
  rw [Scene.write_append]
  rfl

/-- What is written of an estimate. -/
def estimateLines (amount : Amount) (estimate : FeeEstimate) : List Log.Line :=
  [⟨.info, ["Estimated fee for ", Log.hidden amount.text, ": ",
    Decimal.text estimate.totalFee.toNat, " (defrag: ",
    if estimate.needsConsolidation then "true" else "false", ")"]⟩]

section estimate

variable {amount : Amount}

theorem run_estimate_of_zero (h : amount.value = 0) :
    (e.estimate amount level).run.run scene =
      (.error (.invalidInput "amount must be positive"), scene) := by
  rw [estimate, checkPositive, if_pos h]
  rfl

/-- A payment of something is estimated on the scene as it is found. -/
theorem estimate_of_positive (h : amount.value ≠ 0) :
    e.estimate amount level = (do
      let (rule, records) ← e.fetch level amount.token
      write (e.selector.estimateLog amount rule records)
      let estimate ← accept SelectionError.toEstimateFailure
        (e.selector.estimate amount rule records)
      write (estimateLines amount estimate)
      return estimate) := by
  rw [estimate, checkPositive, if_neg h]
  rfl

theorem run_estimate_of_error (hpositive : amount.value ≠ 0) {error : FeeSourceError}
    (h : (e.reply level amount.token scene).answer = .error error) :
    (e.estimate amount level).run.run scene =
      (.error (.connection error),
        (e.arrival level amount.token scene).write
          [unreachableLine level amount.token error]) := by
  rw [estimate_of_positive hpositive, Activity.run_bind, run_fetch_of_error h]

theorem run_estimate_of_ok (hpositive : amount.value ≠ 0) {rule : FeeRule}
    (h : (e.reply level amount.token scene).answer = .ok rule) :
    let arrived := e.arrival level amount.token scene
    let outcome := e.selector.estimate amount rule (arrived.account.ofToken amount.token)
    (e.estimate amount level).run.run scene =
      (outcome.mapError SelectionError.toEstimateFailure,
        arrived.write (arrived.account.snapshotLine amount.token ::
          (e.selector.estimateLog amount rule (arrived.account.ofToken amount.token) ++
            linesOf (estimateLines amount) outcome))) := by
  intro arrived outcome
  rw [estimate_of_positive hpositive, Activity.run_bind, run_fetch_of_ok h]
  refine (run_selection _ _ _ (estimateLines amount) _).trans ?_
  rw [Scene.write_append]
  rfl

end estimate

/-! ## Selecting on arrival -/

/-- An activity does what a selection says of the records that are held when the reply of the
source to one question arrives.

When the source fails, so does the activity, and no snapshot is taken of the records.  Whatever
happened before the question or until the reply is seen in the records; what happens later
only comes on top. -/
structure SelectsOnArrival (e : Estimator ω) (level : FeeLevel) (token : TokenId)
    (reading : SelectionError → Failure)
    (select : FeeRule → List Record → Except SelectionError α) (activity : Estimating ω α) :
    Prop where
  unreachable : ∀ scene error, (e.reply level token scene).answer = .error error →
    activity.run.run scene =
      (.error (.connection error),
        (e.arrival level token scene).write [unreachableLine level token error])
  selected : ∀ (opening : Scene ω) (before later : List Account.Change) (rule : FeeRule),
    let reply := e.reply level token (opening.change before)
    let arrived := e.arrival level token (opening.change before)
    let held := (opening.account.applyChanges (before ++ reply.changes)).ofToken token
    let (outcome, after) := activity.run.run (opening.change before)
    reply.answer = .ok rule →
      outcome = (select rule held).mapError reading ∧
      (∃ lines, after = arrived.write (arrived.account.snapshotLine token :: lines)) ∧
      (after.change later).account =
        opening.account.applyChanges (before ++ reply.changes ++ later)

namespace SelectsOnArrival

variable {reading : SelectionError → Failure}
  {select : FeeRule → List Record → Except SelectionError α} {activity : Estimating ω α}

/-- It is enough to know the outcome, and what is written, on every scene. -/
theorem of_run
    (hunreachable : ∀ scene error, (e.reply level token scene).answer = .error error →
      activity.run.run scene =
        (.error (.connection error),
          (e.arrival level token scene).write [unreachableLine level token error]))
    (hselected : ∀ scene rule, (e.reply level token scene).answer = .ok rule →
      ∃ lines, activity.run.run scene =
        ((select rule ((e.arrival level token scene).account.ofToken token)).mapError reading,
          (e.arrival level token scene).write
            ((e.arrival level token scene).account.snapshotLine token :: lines))) :
    SelectsOnArrival e level token reading select activity where
  unreachable := hunreachable
  selected := by
    intro opening before later rule reply arrived held
    have harrived : arrived.account = opening.account.applyChanges (before ++ reply.changes) :=
      List.foldl_append.symm
    split
    rename_i outcome after hrun
    intro hanswer
    obtain ⟨lines, hlines⟩ := hselected _ rule hanswer
    obtain ⟨rfl, rfl⟩ := Prod.ext_iff.mp (hrun.symm.trans hlines)
    refine ⟨congrArg (fun account => (select rule (Account.ofToken account token)).mapError reading)
      harrived, ⟨lines, rfl⟩, ?_⟩
    change arrived.account.applyChanges later = _
    rw [harrived]
    exact List.foldl_append.symm

/-- What is read off the value of an activity selects as the activity does. -/
theorem map (h : SelectsOnArrival e level token reading select activity) (f : α → β) :
    SelectsOnArrival e level token reading (fun rule records => (select rule records).map f)
      (f <$> activity) where
  unreachable := by
    intro scene error hanswer
    rw [Activity.run_map, h.unreachable scene error hanswer]
    rfl
  selected := by
    intro opening before later rule reply arrived held
    rw [Activity.run_map]
    intro hanswer
    obtain ⟨houtcome, hafter⟩ := h.selected opening before later rule hanswer
    refine ⟨?_, hafter⟩
    rw [show (activity.run.run (opening.change before)).1 = _ from houtcome]
    cases select rule held <;> rfl

end SelectsOnArrival

theorem transferable_selectsOnArrival (e : Estimator ω) (level : FeeLevel) (token : TokenId) :
    SelectsOnArrival e level token SelectionError.toFailure (e.selector.transferable token)
      (e.transferable token level) :=
  .of_run (fun _ _ h => run_transferable_of_error h)
    fun _ _ h => ⟨_, run_transferable_of_ok h⟩

theorem estimate_selectsOnArrival (e : Estimator ω) (level : FeeLevel) {amount : Amount}
    (hpositive : amount.value ≠ 0) :
    SelectsOnArrival e level amount.token SelectionError.toEstimateFailure
      (e.selector.estimate amount) (e.estimate amount level) :=
  .of_run (fun _ _ h => run_estimate_of_error hpositive h)
    fun _ _ h => ⟨_, run_estimate_of_ok hpositive h⟩

end Estimator
end SpendPlanner
