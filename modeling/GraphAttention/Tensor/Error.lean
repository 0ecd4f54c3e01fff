import GraphAttention.Scalar.DType
import GraphAttention.Scalar.Shortest
import GraphAttention.Shape.Axes

/-!
# Why a Tensor Operation Is Refused

Each way an operation can be refused is a constructor that carries what was
asked and what was there. The wording is one function of the cause, so that two
operations refusing for the same reason say the same.

Two causes are fatal: a new buffer larger than any memory, and a uniform range
of infinite width. Where any other refusal concerns one operation only and work
goes on after it, a fatal one ends the work that surrounds it.

## Main definitions

* `InvalidOperation`: Refusals that concern one operation.
* `TensorError`: All refusals.
* `TensorError.message`: Their wording.
* `TensorError.isFatal`: Whether one ends the work around it.
-/

namespace GraphAttention

/-- The text of a list of numbers. -/
def listText (xs : List Nat) : String :=
  "[" ++ String.intercalate ", " (xs.map fun x => String.ofList (Decimal.digits x)) ++ "]"

/-- Refusals that concern one operation or one kind of element. -/
inductive InvalidOperation where
  | axesCount (axes : List Nat) (rank : Nat)
  | axisRepeated (axis : Nat) (axes : List Nat)
  | spanOverflow
  | spanIncompatible
  | matmulRank
  | matmulKind
  | bmmRank
  | bmmKind
  | clampReversed (low high : Int64)
  | clampKind
  | softmaxKind
  | maskedFillKind
  | selectScalar
  | indexAddScalar
  | indexAddKind
  | randomKind (dtype : DType)
  | emptyRange (low high : Float)
  | xavierRank (shape : Shape)
  | dropProbability (p : Float)
deriving DecidableEq

/-- The reasons for which an operation on tensors is refused. -/
inductive TensorError where
  /-- A shape other than the one required. -/
  | shapeMismatch (expected got : Shape)
  /-- An element kind other than the one required. -/
  | typeMismatch (expected got : DType)
  /-- A row number that names no row. -/
  | indexOutOfBounds (index : Int) (axis size : Nat)
  /-- An axis number that names no axis. -/
  | invalidAxis (axis rank : Nat)
  /-- Two shapes with no common shape. -/
  | notBroadcastable (a b : Shape)
  /-- A request that the operation does not serve. -/
  | invalidOperation (cause : InvalidOperation)
  /-- A new buffer of a shape that is too large for any. -/
  | unaddressable (shape : Shape)
  /-- A uniform range with an infinite end or of infinite width. -/
  | unboundedRange (low high : Float)
deriving DecidableEq

namespace InvalidOperation

/-- The wording of a refusal. -/
def message : InvalidOperation → String
  | axesCount axes rank => "permutation " ++ listText axes ++ " does not cover "
      ++ toString rank ++ " axes"
  | axisRepeated axis axes => "axis " ++ toString axis ++ " repeated in permutation "
      ++ listText axes
  | spanOverflow => "ndarray shape error: ShapeError/Overflow: arithmetic overflow"
  | spanIncompatible => "ndarray shape error: ShapeError/IncompatibleShape: incompatible shapes"
  | matmulRank => "Matmul requires exactly 2D tensors"
  | matmulKind => "Matmul not supported for this dtype"
  | bmmRank => "bmm requires exactly 3D tensors"
  | bmmKind => "bmm not supported for this dtype"
  | clampReversed low high => "clamp bounds reversed: min " ++ toString low.toInt ++ " > max "
      ++ toString high.toInt
  | clampKind => "clamp requires Int64 dtype"
  | softmaxKind => "Softmax requires float dtype"
  | maskedFillKind => "masked_fill requires float dtype"
  | selectScalar => "index_select on a scalar tensor"
  | indexAddScalar => "index_add on a scalar tensor"
  | indexAddKind => "index_add not supported for this dtype"
  | randomKind dtype => "random initialization requires a float dtype, got " ++ dtype.name
  | emptyRange low high => "uniform range [" ++ Decimal.render low ++ ", "
      ++ Decimal.render high ++ ") is empty"
  | xavierRank shape => "xavier_uniform expects a 2D weight shape, got " ++ listText shape
  | dropProbability p => "dropout probability must be in [0, 1), got " ++ Decimal.render p

end InvalidOperation

namespace TensorError

/-- The wording of a refusal. -/
def message : TensorError → String
  | shapeMismatch expected got => "Shape mismatch: expected " ++ listText expected
      ++ ", got " ++ listText got
  | typeMismatch expected got => "Type mismatch: expected " ++ expected.name
      ++ ", got " ++ got.name
  | indexOutOfBounds index axis size => "Index out of bounds: index " ++ toString index
      ++ " for axis " ++ toString axis ++ " with size " ++ toString size
  | invalidAxis axis rank => "Invalid axis: " ++ toString axis ++ " for tensor with "
      ++ toString rank ++ " dimensions"
  | notBroadcastable a b => "Cannot broadcast shapes " ++ listText a ++ " and " ++ listText b
  | invalidOperation cause => "Invalid operation: " ++ cause.message
  | unaddressable shape => "No buffer has shape " ++ listText shape
  | unboundedRange low high => "Uniform range [" ++ Decimal.render low ++ ", "
      ++ Decimal.render high ++ ") is not bounded"

/-- Whether a refusal ends the work that surrounds the operation. -/
def isFatal : TensorError → Bool
  | unaddressable .. | unboundedRange .. => true
  | _ => false

/-- A fault in a list of axes, as a refusal. -/
def ofAxesFault (axes : List Nat) (rank : Nat) : Shape.AxesFault → TensorError
  | .wrongLength => invalidOperation (.axesCount axes rank)
  | .outOfRange axis => invalidAxis axis rank
  | .repeated axis => invalidOperation (.axisRepeated axis axes)

end TensorError

end GraphAttention
