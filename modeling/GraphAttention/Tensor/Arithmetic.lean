import GraphAttention.DenseArray.Elementwise
import GraphAttention.DenseArray.Product
import GraphAttention.DenseArray.Softmax
import GraphAttention.Tensor.Basic

/-!
# Arithmetic on Tensors

Sums and products element by element, products of matrices, and the operations
that belong to one sort of element only. Two operands must be of one kind, and
the kind is asked before the shapes; an operation for floating or for 64-bit
integer elements asks for its own kind last, after everything that concerns
shapes, except that a reversed range of `clamp` is refused before anything.
Room for the result is asked for when nothing else is left to ask.

## Main definitions

* `Tensor.add`, `Tensor.mul`: Element by element, with broadcasting.
* `Tensor.matmul`, `Tensor.bmm`: Products of matrices and of stacks of them.
* `Tensor.scalarMul`, `Tensor.clamp`, `Tensor.softmax`, `Tensor.maskedFill`.
-/

namespace GraphAttention

namespace Tensor

/-- The common shape of two shapes. -/
def broadcastShape (a b : Shape) : Except TensorError Shape :=
  match Shape.broadcast? a b with
  | none => throw (.notBroadcastable a b)
  | some s => return s

/-- Two tensors of one kind combined over their common shape. -/
def combine (op : (d : DType) → d.Elem → d.Elem → d.Elem) (a b : Tensor) :
    Except TensorError Tensor := do
  let other ← b.elements a.dtype
  let s ← broadcastShape a.shape b.shape
  let ⟨room⟩ ← ensureAllocatable a.dtype s
  return ⟨a.dtype, a.array.zipBroadcast (op a.dtype) other s, room⟩

/-- The sum, element by element. -/
def add (a b : Tensor) : Except TensorError Tensor := combine (fun _ x y => x + y) a b

/-- The product, element by element. -/
def mul (a b : Tensor) : Except TensorError Tensor := combine (fun _ x y => x * y) a b

/-- The product of two matrices. -/
def matmul (a b : Tensor) : Except TensorError Tensor :=
  match a.shape, b.shape with
  | [m, k], [k', n] => do
    let other ← b.elements a.dtype
    if k ≠ k' then throw (.shapeMismatch [k, n] [k', n])
    if a.dtype = .uint8 then throw (.invalidOperation .matmulKind)
    let ⟨room⟩ ← ensureAllocatable a.dtype [m, n]
    return ⟨a.dtype, a.array.matmul m k n other, room⟩
  | _, _ => throw (.invalidOperation .matmulRank)

/-- The products, pair by pair, of two stacks of matrices. -/
def bmm (a b : Tensor) : Except TensorError Tensor :=
  match a.shape, b.shape with
  | [batch, m, k], [batch', k', n] => do
    let other ← b.elements a.dtype
    if batch ≠ batch' ∨ k ≠ k' then throw (.shapeMismatch [batch, k, n] [batch', k', n])
    if a.dtype = .uint8 then throw (.invalidOperation .bmmKind)
    let ⟨room⟩ ← ensureAllocatable a.dtype [batch, m, n]
    return ⟨a.dtype, a.array.bmm batch m k n other, room⟩
  | _, _ => throw (.invalidOperation .bmmRank)

/-- Every element times a number cast to the kind. -/
def scalarMul (t : Tensor) (scalar : Float) : Tensor :=
  ⟨t.dtype, t.array.map (· * Scalar.ofFloat scalar), t.room⟩

/-- Every element held between two integers. -/
def clamp (t : Tensor) (low high : Int64) : Except TensorError Tensor :=
  if high < low then throw (.invalidOperation (.clampReversed low high))
  else match t with
  | ⟨.int64, a, room⟩ => return ⟨.int64,
      a.map fun x => if x < low then low else if high < x then high else x, room⟩
  | _ => throw (.invalidOperation .clampKind)

/-- The softmax along an axis. -/
def softmax (t : Tensor) (axis : Nat) : Except TensorError Tensor :=
  if t.rank ≤ axis then throw (.invalidAxis axis t.rank)
  else match t with
  | ⟨.float32, a, room⟩ => return ⟨.float32, a.softmax axis, room⟩
  | ⟨.float64, a, room⟩ => return ⟨.float64, a.softmax axis, room⟩
  | _ => throw (.invalidOperation .softmaxKind)

/-- Everything below an index along the leading axes overwritten with a number
    where the mask is not zero. The mask has the leading axes of the tensor. -/
def maskedFill (t mask : Tensor) (value : Float) : Except TensorError Tensor := do
  let leading := t.shape.take mask.rank
  if mask.shape ≠ leading then throw (.shapeMismatch leading mask.shape)
  if t.dtype.isFloat then
    let length := Shape.size (t.shape.drop mask.rank)
    return ⟨t.dtype, t.array.fillBlocks mask.nonzeroFlags length (Scalar.ofFloat value), t.room⟩
  else throw (.invalidOperation .maskedFillKind)

end Tensor

end GraphAttention
