import StorageStack.Error

/-! # Fallible actions

An operation of the storage stack answers with a value or with a cause, and in both
cases leaves a state behind: what was done before a failure stays done.
-/

namespace StorageStack

/-- An operation on a state `σ` that may fail. The state survives a failure. -/
abbrev Action (σ α : Type) := EStateM StorageError σ α

namespace Action

variable {σ τ α : Type}

/-- Run an operation on a part of a larger state. -/
def within (part : σ → τ) (put : τ → σ → σ) (action : Action τ α) : Action σ α := fun whole =>
  match action (part whole) with
  | .ok value after => .ok value (put after whole)
  | .error cause after => .error cause (put after whole)

/-- An answer that was already known, with the state as it is. -/
def ofExcept (answer : Except StorageError α) : Action σ α := fun state =>
  match answer with
  | .ok value => .ok value state
  | .error cause => .error cause state

/-- The answer of a run and the state it leaves, side by side. -/
def outcome (action : Action σ α) (state : σ) : Except StorageError α × σ :=
  match action state with
  | .ok value after => (.ok value, after)
  | .error cause after => (.error cause, after)

theorem outcome_eq_ok_iff {action : Action σ α} {state after : σ} {value : α} :
    action.outcome state = (.ok value, after) ↔ action state = .ok value after := by
  unfold outcome
  cases action state <;> simp

theorem eq_ok_of_outcome {action : Action σ α} {state : σ} {value : α}
    (hanswer : (action.outcome state).1 = .ok value) :
    action state = .ok value (action.outcome state).2 :=
  outcome_eq_ok_iff.mp (Prod.ext hanswer rfl)

theorem outcome_eq_error_iff {action : Action σ α} {state after : σ} {cause : StorageError} :
    action.outcome state = (.error cause, after) ↔ action state = .error cause after := by
  unfold outcome
  cases action state <;> simp

/-- On a part the answer is the action's own, and the state has the part it leaves. -/
theorem outcome_within (part : σ → τ) (put : τ → σ → σ) (action : Action τ α) (whole : σ) :
    (action.within part put).outcome whole =
      ((action.outcome (part whole)).1, put (action.outcome (part whole)).2 whole) := by
  unfold outcome within
  cases action (part whole) <;> rfl

end Action

end StorageStack
