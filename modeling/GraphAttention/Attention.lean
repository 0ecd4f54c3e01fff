import GraphAttention.Config.Attention
import GraphAttention.Layer.Dropout
import GraphAttention.Layer.Linear
import GraphAttention.Tensor.Arithmetic

/-!
# Biased Multi-Head Attention

Every node of a graph looks at every other one. Three projections of the node
features give queries, keys and values, each divided among the heads; the score
of a pair of nodes in a head is the product of the scaled query of the one with
the key of the other. A structural bias, one number for each pair and head, is
added to the scores or multiplied into them. A mask hides pairs from all heads
by putting their scores at negative infinity. The scores of a query become
weights by a softmax over the keys, the weights average the values, and a last
projection mixes the heads.

The products need batch and head as one axis and the bias needs the head last,
so the scores change their shape on the way. With batch `B`, nodes `N`, heads
`H` and head length `d` the stages are

* features `[B, N, H * d]`, divided into `[B * H, N, d]`,
* scores `[B * H, N, N]`, then `[B, N, N, H]` for bias, mask and softmax,
* weights `[B * H, N, N]`, and the averages back to `[B, N, H * d]`.

## Main definitions

* `Attention`: The sizes, the four projections and the dropout of weights.
* `Attention.build`: A module with drawn projections.
* `Attention.resetParameters`: All projections drawn anew.
* `Attention.attend`: Output and weights, with batch and head as one axis.
* `Attention.forward`, `Attention.forwardWithWeights`: The module applied.
-/

namespace GraphAttention

/-- Attention over the nodes of a graph with a structural bias. -/
structure Attention where
  featSize : Nat
  numHeads : Nat
  headDim : Nat
  biasMode : BiasMode
  scaling : Float
  query : Linear
  key : Linear
  value : Linear
  output : Linear
  dropout : Dropout
deriving DecidableEq

namespace Attention

variable {G : Type} [WordSource G]

/-- The gain of the projections of queries, keys and values, `2 ^ (-1 / 2)`. -/
def innerGain : Float := Float.sqrt 0.5

/-- Draws one projection anew. -/
def resetProjection (read : Attention → Linear) (write : Linear → Attention → Attention)
    (gain : Float) : Action (Attention × G) ModuleError Unit :=
  Action.mapError .tensor (Action.zoom (fun s => (read s.1, s.2))
    (fun part s => (write part.1 s.1, part.2)) (Linear.resetXavier gain))

/-- Draws all projections anew, the output projection last, and makes their
    biases zero. -/
def resetParameters : Action (Attention × G) ModuleError Unit := do
  resetProjection Attention.query (fun l a => { a with query := l }) innerGain
  resetProjection Attention.key (fun l a => { a with key := l }) innerGain
  resetProjection Attention.value (fun l a => { a with value := l }) innerGain
  resetProjection Attention.output (fun l a => { a with output := l }) 1

/-- A module with drawn projections. Each is drawn once when it is made, and
    all are drawn again with the gains that belong to them. -/
def build (c : AttentionConfig) : Action G ModuleError Attention := do
  Action.attempt c.validate
  let projection : Action G ModuleError Linear :=
    Action.mapError .tensor (Linear.build c.featSize c.featSize c.bias c.dtype)
  let query ← projection
  let key ← projection
  let value ← projection
  let output ← projection
  let dropout ← Action.attempt (Dropout.build c.attnDrop)
  let bare : Attention := {
    featSize := c.featSize, numHeads := c.numHeads, headDim := c.headDim
    biasMode := c.biasMode, scaling := 1 / Float.sqrt (Float.ofNat c.headDim)
    query, key, value, output, dropout }
  fun g =>
    let (result, built, g') := resetParameters (bare, g)
    (result.map fun _ => built, g')

/-- The kind of the parameters. -/
def dtype (a : Attention) : DType := a.query.dtype

/-- Whether weights are dropped. -/
def training (a : Attention) : Bool := a.dropout.training

/-- Features divided among the heads, with batch and head as one axis. -/
def splitHeads (a : Attention) (batch n : Nat) (t : Tensor) : Except TensorError Tensor := do
  let t ← t.reshape [batch, n, a.numHeads, a.headDim]
  let t ← t.permute [0, 2, 1, 3]
  t.reshape [batch * a.numHeads, n, a.headDim]

/-- The features of all heads side by side again. -/
def mergeHeads (a : Attention) (batch n : Nat) (t : Tensor) : Except TensorError Tensor := do
  let t ← t.reshape [batch, a.numHeads, n, a.headDim]
  let t ← t.permute [0, 2, 1, 3]
  t.reshape [batch, n, a.featSize]

/-- The scores of all pairs of nodes, with the head last. -/
def scores (a : Attention) (batch n : Nat) (q k : Tensor) : Except TensorError Tensor := do
  let products ← q.bmm (← k.transpose 1 2)
  let products ← products.reshape [batch, a.numHeads, n, n]
  products.permute [0, 2, 3, 1]

/-- The scores with a structural bias in them. -/
def withBias (a : Attention) (batch n : Nat) (scores : Tensor) :
    Option Tensor → Except TensorError Tensor
  | none => .ok scores
  | some bias => do
    bias.ensureShape [batch, n, n, a.numHeads]
    match a.biasMode with
    | .add => scores.add bias
    | .mul => scores.mul bias

/-- The scores with hidden pairs at negative infinity. -/
def withMask (batch n : Nat) (scores : Tensor) : Option Tensor → Except TensorError Tensor
  | none => .ok scores
  | some mask => do
    mask.ensureShape [batch, n, n]
    scores.maskedFill mask (-1 / 0)

/-- The weights of the keys for each query, with batch and head as one axis. -/
def weights (a : Attention) (batch n : Nat) (scores : Tensor) : Except TensorError Tensor := do
  let w ← scores.softmax 2
  let w ← w.permute [0, 3, 1, 2]
  w.reshape [batch * a.numHeads, n, n]

/-- The queries, keys and values of node features, divided among the heads. -/
def project (a : Attention) (batch n : Nat) (x : Tensor) :
    Except TensorError (Tensor × Tensor × Tensor) := do
  let q := (← a.query.forward x).scalarMul a.scaling
  let k ← a.key.forward x
  let v ← a.value.forward x
  return (← a.splitHeads batch n q, ← a.splitHeads batch n k, ← a.splitHeads batch n v)

/-- The output of averaging the values by the weights. -/
def combine (a : Attention) (batch n : Nat) (w v : Tensor) : Except TensorError Tensor := do
  a.output.forward (← a.mergeHeads batch n (← w.bmm v))

/-- The output and the weights after dropout, with batch and head as one
    axis. -/
def attend (a : Attention) (x : Tensor) (bias mask : Option Tensor) :
    Action G ModuleError (Tensor × Tensor) :=
  match x.shape with
  | [batch, n, _] => Action.mapError .tensor do
    let (q, k, v) ← Action.attempt (a.project batch n x)
    let s ← Action.attempt (a.scores batch n q k)
    let s ← Action.attempt (a.withBias batch n s bias)
    let s ← Action.attempt (withMask batch n s mask)
    let w ← Action.attempt (a.weights batch n s)
    let w ← a.dropout.forward w
    return (← Action.attempt (a.combine batch n w v), w)
  | s => throw (.featureRank s)

/-- The output for node features, one row for each node. -/
def forward (a : Attention) (x : Tensor) (bias mask : Option Tensor) :
    Action G ModuleError Tensor := do
  let (out, _) ← a.attend x bias mask
  return out

/-- The output, and the weights after dropout as `[batch, heads, N, N]`. -/
def forwardWithWeights (a : Attention) (x : Tensor) (bias mask : Option Tensor) :
    Action G ModuleError (Tensor × Tensor) := do
  let (out, w) ← a.attend x bias mask
  let n := w.shape.getD 1 0
  let batch := w.shape.getD 0 0 / a.numHeads
  return (out, ← Action.attempt ((w.reshape [batch, a.numHeads, n, n]).mapError .tensor))

/-- The projections in the order of their parameters. -/
def projections (a : Attention) : List Linear := [a.query, a.key, a.value, a.output]

/-- Parameters put back into a list of projections, each taking as many as it
    has. -/
def distribute : List Linear → List Parameter → List Linear
  | [], _ => []
  | l :: ls, ps =>
    let count := (Module.parameters l).length
    Module.withParameters (ps.take count) l :: distribute ls (ps.drop count)

instance : Module Attention where
  parameters a := a.projections.flatMap Module.parameters
  withParameters ps a :=
    match distribute a.projections ps with
    | [query, key, value, output] => { a with query, key, value, output }
    | _ => a
  setTraining on a := { a with dropout := Module.setTraining on a.dropout }

/-- The operations of an attention module. -/
inductive Op (G : Type) where
  | info
  | forward (x : Tensor) (bias mask : Option Tensor) (source : G)
  | forwardWithWeights (x : Tensor) (bias mask : Option Tensor) (source : G)
  | resetParameters (source : G)

/-- What an operation of an attention module answers. -/
inductive Answer where
  | info (a : Attention)
  | output (out : Tensor)
  | weighted (out probs : Tensor)
  | done

/-- Carries out an operation. What is random is drawn from the source that the
    operation brings. -/
def perform : Op G → Action (Tracked Attention) ModuleError Answer
  | .info => return .info (← get).value
  | .forward x bias mask source => do
    let (result, _) := (← get).value.forward x bias mask source
    return .output (← Action.attempt result)
  | .forwardWithWeights x bias mask source => do
    let (result, _) := (← get).value.forwardWithWeights x bias mask source
    let (out, probs) ← Action.attempt result
    return .weighted out probs
  | .resetParameters source => do
    Tracked.onValue fun a =>
      let (result, a', _) := resetParameters (a, source)
      (result, a')
    return .done

end Attention

end GraphAttention
