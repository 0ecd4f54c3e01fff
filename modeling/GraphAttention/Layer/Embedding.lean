import GraphAttention.Module.Basic
import GraphAttention.Tensor.Random
import GraphAttention.Tensor.Rows

/-!
# Embeddings

A table of vectors that are looked up by row number. The gradient of a look-up
is a scatter: every row of the incoming gradient is added to the row that was
looked up.

One row may be set aside for padding. It is zero to begin with, and the
gradient that reaches it is multiplied by zero before it is accumulated, as
every other row is multiplied by one.

## Main definitions

* `Embedding`: A table and perhaps its padding row.
* `Embedding.build`: A table with drawn rows.
* `Embedding.maskPadding`: The padding row multiplied by zero.
* `Embedding.forward`, `Embedding.backward`: Look-up and its gradient.
* `Embedding.Op`, `Embedding.perform`: The operations of its own.
-/

namespace GraphAttention

/-- A table of vectors, and perhaps a row of it for padding. -/
structure Embedding where
  numRows : Nat
  dim : Nat
  paddingRow : Option Nat
  weight : Parameter
deriving DecidableEq

namespace Embedding

variable {G : Type} [NormalSource G]

/-- A table of the given number of rows with its padding row multiplied by
    zero and every other row by one. -/
def maskPadding (numRows : Nat) (paddingRow : Option Nat) (t : Tensor) :
    Except TensorError Tensor :=
  match paddingRow with
  | none => .ok t
  | some padding => do
    Tensor.ensureGatherable numRows [numRows]
    let keep := (Array.range numRows).map fun row => if row = padding then (0 : Float) else 1
    t.mul (← Tensor.ofFloats keep [numRows, 1] t.dtype)

/-- A table with rows drawn from the normal distribution. -/
def build (numRows dim : Nat) (paddingRow : Option Nat) (d : DType) :
    Action G ModuleError Embedding := do
  match paddingRow with
  | some row =>
    if numRows ≤ row then throw (.setting (.paddingOutside row numRows))
  | none => pure ()
  let drawn ← Action.mapError .tensor (Tensor.randNormal [numRows, dim] d)
  let weight ← Action.attempt ((maskPadding numRows paddingRow drawn).mapError .tensor)
  return ⟨numRows, dim, paddingRow, .trainable weight⟩

/-- The rows with the given numbers. -/
def forward (e : Embedding) (indices : Tensor) : Except TensorError Tensor :=
  e.weight.data.indexSelect indices

/-- The gradient of a look-up with respect to the table. -/
def tableGradient (e : Embedding) (indices g : Tensor) : Except TensorError Tensor := do
  let base ← Tensor.zeros e.weight.shape e.weight.data.dtype
  maskPadding e.numRows e.paddingRow (← base.indexAdd indices g)

/-- Accumulates the gradient of a look-up. -/
def backward (indices g : Tensor) : Action (Tracked Embedding) TensorError Unit := do
  let gradient ← Action.attempt ((← get).value.tableGradient indices g)
  Tracked.focus (fun e : Embedding => e.weight) (fun p e => { e with weight := p })
    (Parameter.accumulate gradient)

/-- For each row, whether all of it is zero. -/
def zeroRows (e : Embedding) : List Bool :=
  let flags := e.weight.data.nonzeroFlags
  (List.range e.numRows).map fun row =>
    (List.range e.dim).all fun col => !flags.getD (row * e.dim + col) false

instance : Module Embedding where
  parameters e := [e.weight]
  withParameters ps e :=
    match ps with
    | [weight] => { e with weight := weight }
    | _ => e

/-- The operations of an embedding. -/
inductive Op where
  | forward (indices : Tensor)
  | forwardShape (indices : Tensor)
  | backward (indices g : Tensor)

/-- What an operation of an embedding answers. -/
inductive Answer where
  | tensor (t : Tensor)
  | shape (s : Shape)
  | buffer (g : Option Tensor)

/-- Carries out an operation. -/
def perform : Op → Action (Tracked Embedding) ModuleError Answer
  | .forward indices => do
    return .tensor (← Action.attempt (((← get).value.forward indices).mapError .tensor))
  | .forwardShape indices => do
    let t ← Action.attempt (((← get).value.forward indices).mapError .tensor)
    return .shape t.shape
  | .backward indices g => do
    Action.mapError .tensor (backward indices g)
    return .buffer (← get).value.weight.grad

end Embedding

end GraphAttention
