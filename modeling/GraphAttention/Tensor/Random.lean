import GraphAttention.Action
import GraphAttention.Random.Distribution
import GraphAttention.Random.Source
import GraphAttention.Tensor.Basic

/-!
# Random Tensors

Tensors drawn from a source, element by element in row-major order. Only floating
kinds can be drawn, and most checks come before the first draw, so that they take
nothing from the source. One is for room: samples are gathered as 64-bit numbers
before they are cast. As many are drawn as the shape is counted to need, and
whether that is as many as it has elements is asked when they are stored.

A weight matrix is drawn from a range around zero whose width balances the
number of its inputs against the number of its outputs. When there is nothing
to draw, because the matrix is empty or the range has shrunk to zero, the
result is zero and no word is taken.

A keep mask is for dropping elements while keeping their mean: an element is
dropped when the fraction its word stands for is below `p`, and the kept ones
are scaled by `1 / (1 - p)`.

## Main definitions

* `Tensor.randUniform`: Uniform samples.
* `Tensor.randNormal`: Normal samples, as the source hands them out.
* `Tensor.xavierUniform`: An initial weight matrix.
* `Tensor.dropoutMask`: A keep mask.
-/

namespace GraphAttention

namespace Tensor

variable {G : Type} [WordSource G]

/-- Requires a floating kind. -/
def requireFloat (d : DType) : Except TensorError Unit :=
  if d.isFloat then .ok () else .error (.invalidOperation (.randomKind d))

/-- Requires room for the given number of 64-bit numbers, which elements of a shape
    are cast from. -/
def ensureGatherable (n : Nat) (s : Shape) : Except TensorError Unit :=
  if Shape.Fits 8 [n] then .ok () else .error (.unaddressable s)

/-- The next words of the source. -/
def drawWords (n : Nat) : Action G TensorError (Array UInt64) := fun g =>
  let (words, g') := WordSource.take n g
  (.ok words, g')

/-- The next normal samples of the source. -/
def drawNormals {G : Type} [NormalSource G] (n : Nat) : Action G TensorError (Array Float) :=
  fun g =>
    let (samples, g') := NormalSource.take n g
    (.ok samples, g')

/-- Uniform samples between `low` and `high`, one word for each element. -/
def randUniform (s : Shape) (low high : Float) (d : DType) : Action G TensorError Tensor := do
  Action.attempt (requireFloat d)
  if ¬ low < high then throw (.invalidOperation (.emptyRange low high))
  match UniformRange.ofBounds? low high with
  | none => throw (.unboundedRange low high)
  | some range =>
    Action.attempt (ensureGatherable s.numel s)
    let words ← drawWords s.numel
    Action.attempt (ofFloats (words.map range.sample) s d)

/-- Standard normal samples, one for each element. -/
def randNormal {G : Type} [NormalSource G] (s : Shape) (d : DType) :
    Action G TensorError Tensor := do
  Action.attempt (requireFloat d)
  Action.attempt (ensureGatherable s.numel s)
  let samples ← drawNormals s.numel
  Action.attempt (ofFloats samples s d)

/-- An initial weight matrix: uniform samples within
    `gain * sqrt (6 / (inputs + outputs))` of zero. -/
def xavierUniform (s : Shape) (gain : Float) (d : DType) : Action G TensorError Tensor :=
  match s with
  | [inputs, outputs] => do
    Action.attempt (requireFloat d)
    if inputs = 0 ∨ outputs = 0 then Action.attempt (zeros s d)
    else
      let bound := gain * Float.sqrt (6 / Float.ofNat (wrap (inputs + outputs)))
      if bound == 0 then Action.attempt (zeros s d)
      else randUniform s (-bound) bound d
  | _ => throw (.invalidOperation (.xavierRank s))

/-- Whether a number is a probability below one. -/
def isProbability (p : Float) : Bool := 0 ≤ p && p < 1

/-- A keep mask: zero with probability `p`, otherwise `1 / (1 - p)`, one word
    for each element. -/
def dropoutMask (s : Shape) (p : Float) (d : DType) : Action G TensorError Tensor := do
  Action.attempt (requireFloat d)
  if ¬ isProbability p then throw (.invalidOperation (.dropProbability p))
  let scale := 1 / (1 - p)
  Action.attempt (ensureGatherable s.numel s)
  let words ← drawWords s.numel
  Action.attempt (ofFloats (words.map fun w => if unitFraction w < p then 0 else scale) s d)

end Tensor

end GraphAttention
