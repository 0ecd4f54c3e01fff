import GraphAttention.Module.Basic
import GraphAttention.Tensor.Layout
import GraphAttention.Tensor.Random

/-!
# Linear Layers

A linear layer multiplies the last axis of its input by a weight matrix and adds
a bias. The leading axes are folded into one for the product and unfolded
again, so there may be any number of them.

The number of rows after folding is the number of elements over the number of
inputs, where a layer without inputs divides by one.

## Main definitions

* `Linear`: A weight matrix and perhaps a bias.
* `Linear.build`: A layer with drawn weights and a zero bias.
* `Linear.resetXavier`: The weights drawn anew.
* `Linear.forward`: The layer applied to a tensor.
* `Linear.Op`, `Linear.perform`: The operations of its own.
-/

namespace GraphAttention

/-- A weight matrix from inputs to outputs, and perhaps a bias. -/
structure Linear where
  inFeatures : Nat
  outFeatures : Nat
  weight : Parameter
  bias : Option Parameter
deriving DecidableEq

namespace Linear

variable {G : Type} [WordSource G]

/-- A layer with drawn weights and, if asked for, a bias of zeros. -/
def build (inFeatures outFeatures : Nat) (bias : Bool) (d : DType) :
    Action G TensorError Linear := do
  let weight ← Tensor.xavierUniform [inFeatures, outFeatures] 1 d
  if bias then
    let zeros ← Action.attempt (Tensor.zeros [outFeatures] d)
    return ⟨inFeatures, outFeatures, .trainable weight, some (.trainable zeros)⟩
  else return ⟨inFeatures, outFeatures, .trainable weight, none⟩

/-- The kind of the parameters. -/
def dtype (l : Linear) : DType := l.weight.data.dtype

/-- Draws the weights anew and makes the bias zero. -/
def resetXavier (gain : Float) : Action (Linear × G) TensorError Unit := do
  let (l, _) ← get
  let weight ← Action.zoom Prod.snd (fun g s => (s.1, g))
    (Tensor.xavierUniform [l.inFeatures, l.outFeatures] gain l.dtype)
  Action.zoom (fun s => s.1.weight) (fun p s => ({ s.1 with weight := p }, s.2))
    (Parameter.setData weight)
  match l.bias with
  | none => pure ()
  | some bias =>
    let zeros ← Action.attempt (Tensor.zeros [l.outFeatures] l.dtype)
    Action.zoom (fun _ => bias) (fun p s => ({ s.1 with bias := some p }, s.2))
      (Parameter.setData zeros)

/-- A shape with another length of its last axis. -/
def withLast (s : Shape) (n : Nat) : Shape := s.dropLast ++ [n]

/-- A product with the bias added to each of its rows, if there is one. -/
def addBias (l : Linear) (product : Tensor) : Except TensorError Tensor :=
  match l.bias with
  | none => .ok product
  | some bias => product.add bias.data

/-- The layer applied along the last axis of a tensor. -/
def forward (l : Linear) (x : Tensor) : Except TensorError Tensor := do
  if x.shape.getLast? ≠ some l.inFeatures then
    throw (.shapeMismatch (withLast x.shape l.inFeatures) x.shape)
  let rows := x.count / max l.inFeatures 1
  let flat ← x.reshape [rows, l.inFeatures]
  let product ← flat.matmul l.weight.data
  let shifted ← l.addBias product
  shifted.reshape (withLast x.shape l.outFeatures)

instance : Module Linear where
  parameters l := l.weight :: l.bias.toList
  withParameters ps l :=
    match ps, l.bias with
    | [weight], none => { l with weight := weight }
    | [weight, bias], some _ => { l with weight := weight, bias := some bias }
    | _, _ => l

/-- The operations of a linear layer. -/
inductive Op (G : Type) where
  | forward (x : Tensor)
  | resetXavier (gain : Float) (source : G)

/-- Carries out an operation. A reset draws from the source it is given. -/
def perform : Op G → Action (Tracked Linear) ModuleError (Option Tensor)
  | .forward x => do
    return some (← Action.attempt (((← get).value.forward x).mapError .tensor))
  | .resetXavier gain source => do
    Tracked.onValue (Action.mapError .tensor fun l =>
      let (result, l', _) := resetXavier gain (l, source)
      (result, l'))
    return none

end Linear

end GraphAttention
