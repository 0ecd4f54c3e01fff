import GraphAttention.Module.Basic
import GraphAttention.Tensor.Random

/-!
# Dropout

During training every element of the input is dropped with a fixed probability
and the others are scaled up. Outside training, and at probability zero, the
input is passed on untouched, whatever its kind, and nothing is drawn.

The probability is checked when a layer is built, but it may be set to anything
later; drawing the mask checks it again.

## Main definitions

* `Dropout`: The probability and whether training is on.
* `Dropout.build`: A layer with a checked probability.
* `Dropout.forward`: The layer applied to a tensor.
* `Dropout.Op`, `Dropout.perform`: The operations of its own.
-/

namespace GraphAttention

/-- The probability of dropping an element, and whether training is on. -/
structure Dropout where
  p : Float
  training : Bool
deriving DecidableEq

namespace Dropout

variable {G : Type} [WordSource G]

/-- A layer with a probability below one, not in training. -/
def build (p : Float) : Except ModuleError Dropout :=
  if Tensor.isProbability p then .ok ⟨p, false⟩ else .error (.dropProbability p)

instance : Inhabited Dropout := ⟨⟨0.5, false⟩⟩

/-- The layer applied to a tensor. -/
def forward (l : Dropout) (x : Tensor) : Action G TensorError Tensor :=
  if !l.training || l.p == 0 then return x
  else do
    let mask ← Tensor.dropoutMask x.shape l.p x.dtype
    Action.attempt (x.mul mask)

instance : Module Dropout where
  parameters _ := []
  withParameters _ l := l
  setTraining on l := { l with training := on }

/-- The operations of a dropout layer. -/
inductive Op (G : Type) where
  | forward (x : Tensor) (source : G)
  | setP (p : Float)
  | training

/-- What an operation of a dropout layer answers. -/
inductive Answer where
  | tensor (t : Tensor)
  | flag (value : Bool)
  | done

/-- Carries out an operation. -/
def perform : Op G → Action (Tracked Dropout) ModuleError Answer
  | .forward x source => do
    let (result, _) := (← get).value.forward x source
    return .tensor (← Action.attempt (result.mapError .tensor))
  | .setP p => do
    modify fun s => { s with value := { s.value with p := p } }
    return .done
  | .training => return .flag (← get).value.training

end Dropout

end GraphAttention
