import Mathlib.Tactic

/-!
# Activities that may fail

An activity works on a state and may fail, leaving the state as it was when it failed.
-/

namespace SpendPlanner.Activity

variable {ε σ α β : Type}

/-- An activity goes on from the value of the one before it, unless that fails. -/
theorem run_bind (activity : ExceptT ε (StateM σ) α) (next : α → ExceptT ε (StateM σ) β)
    (x : σ) :
    (activity >>= next : ExceptT ε (StateM σ) β).run.run x =
      match activity.run.run x with
      | (.ok a, y) => (next a).run.run y
      | (.error failure, y) => (.error failure, y) := by
  rw [ExceptT.run_bind, StateT.run_bind]
  change (match activity.run.run x with | (outcome, y) => _) = _
  obtain ⟨outcome, y⟩ := activity.run.run x
  cases outcome <;> rfl

theorem run_map (f : α → β) (activity : ExceptT ε (StateM σ) α) (x : σ) :
    (f <$> activity : ExceptT ε (StateM σ) β).run.run x =
      ((activity.run.run x).1.map f, (activity.run.run x).2) := by
  rw [← bind_pure_comp, run_bind]
  obtain ⟨outcome, y⟩ := activity.run.run x
  cases outcome <;> rfl

end SpendPlanner.Activity
