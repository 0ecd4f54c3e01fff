import GraphAttention.Action

/-!
# Gradient Tracking

Whether gradients accumulate is not a property of any one parameter. It is a
mode that a caller switches off for a stretch of work, and it has to be what it
was when that stretch ends, however it ends and however deep such stretches are
nested. The mode is therefore kept beside the object that is worked on, and
`withoutGrad` is the only thing that changes it.

## Main definitions

* `Tracked`: An object beside the mode it is worked on under.
* `Tracked.withoutGrad`: Work during which no gradient accumulates.
* `Tracked.onValue`, `Tracked.focus`: Work on the object, or on a part of it.
-/

namespace GraphAttention

/-- An object and whether gradients accumulate while it is worked on. -/
structure Tracked (σ : Type) where
  gradEnabled : Bool
  value : σ

namespace Tracked

variable {σ τ ε α : Type}

/-- An object to begin with: gradients accumulate. -/
def start (x : σ) : Tracked σ := ⟨true, x⟩

/-- Work during which no gradient accumulates. The mode from before is back
    afterwards, whatever the outcome. -/
def withoutGrad (work : StateM (Tracked σ) α) : StateM (Tracked σ) α := fun s =>
  let (result, s') := work { s with gradEnabled := false }
  (result, { s' with gradEnabled := s.gradEnabled })

/-- Work on the object, which does not see the mode. -/
def onValue (act : Action σ ε α) : Action (Tracked σ) ε α :=
  Action.zoom Tracked.value (fun x s => { s with value := x }) act

/-- Work on a part of the object, under the same mode. -/
def focus (read : σ → τ) (write : τ → σ → σ) (act : Action (Tracked τ) ε α) :
    Action (Tracked σ) ε α :=
  Action.zoom (fun s => ⟨s.gradEnabled, read s.value⟩)
    (fun part s => ⟨part.gradEnabled, write part.value s.value⟩) act

end Tracked

end GraphAttention
