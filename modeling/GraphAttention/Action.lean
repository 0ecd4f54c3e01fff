/-!
# Actions

An action reads and changes a state and may fail, and the state is there either
way: what an action has changed before it fails stays changed. That a failing
operation leaves everything as it was is therefore something to prove of it,
and not a consequence of how failure is written down.

A part of a state is worked on through `Action.zoom`, which runs an action on
the part and puts back what it left, also after a failure.

## Main definitions

* `Action`: A computation with a state that outlives failure.
* `Action.attempt`: A computation without state as an action.
* `Action.mapError`: The same action with its failures renamed.
* `Action.zoom`: An action on a part of the state.
-/

namespace GraphAttention

/-- A computation on a state of type `σ` that may fail with an `ε`. The state
    it leaves is known in both cases. -/
abbrev Action (σ ε α : Type) := ExceptT ε (StateM σ) α

namespace Action

variable {σ τ ε ε' α : Type}

/-- A computation without state as an action. -/
def attempt (x : Except ε α) : Action σ ε α := fun s => (x, s)

/-- The same action with its failures renamed. -/
def mapError (f : ε → ε') (act : Action σ ε α) : Action σ ε' α := fun s =>
  let (result, s') := act s
  (result.mapError f, s')

/-- An action on a part of the state. -/
def zoom (read : σ → τ) (write : τ → σ → σ) (act : Action τ ε α) : Action σ ε α := fun s =>
  let (result, part) := act (read s)
  (result, write part s)

end Action

end GraphAttention
