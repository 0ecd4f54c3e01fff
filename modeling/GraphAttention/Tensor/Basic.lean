import GraphAttention.DenseArray.Basic
import GraphAttention.Tensor.Error

/-!
# Tensors

A tensor is an array together with the kind of its elements, and there is room
for a buffer that holds it. Operations on two tensors ask for one kind with
`elements`, which hands the array over at that kind or says which kind was met
instead; there is no implicit cast.

Tensors are made from elements or from numbers, and both check that the count
fits the shape before they ask whether the shape can be addressed. The count of a
shape is made in a machine word, so one that cannot be addressed may pass the
first check and fail the second. An operation
that makes a new buffer asks with `ensureAllocatable` whether there can be one,
and a shape that fails there is fatal rather than refused.

## Main definitions

* `Tensor`: An array and the kind of its elements.
* `Tensor.elements`: The array at a required kind.
* `Tensor.ofElements`, `Tensor.ofFloats`: From elements in row-major order, and
  from numbers by the cast of the kind.
* `Tensor.zeros`, `Tensor.ones`: Filled with one value.
* `Tensor.ensureKind`, `Tensor.ensureShape`: Checks of kind and shape.
* `Tensor.ensureAllocatable`: Requires room for a new buffer.
-/

namespace GraphAttention

/-- An array and the kind of its elements, small enough for a buffer. -/
structure Tensor where
  dtype : DType
  array : DenseArray dtype.Elem
  room : Shape.Allocatable dtype.width array.shape

namespace Tensor

instance : DecidableEq Tensor := fun a b =>
  match a, b with
  | ⟨d, x, _⟩, ⟨e, y, _⟩ =>
    if h : d = e then by
      subst h
      exact decidable_of_iff (x = y) (by simp)
    else .isFalse (by simp [h])

/-- The axis lengths. -/
def shape (t : Tensor) : Shape := t.array.shape

/-- The number of axes. -/
def rank (t : Tensor) : Nat := t.shape.length

/-- The number of elements. -/
def count (t : Tensor) : Nat := t.shape.size

/-- The array, if its elements are of the required kind. -/
def elements (d : DType) (t : Tensor) : Except TensorError (DenseArray d.Elem) :=
  if h : t.dtype = d then .ok (h ▸ t.array) else .error (.typeMismatch d t.dtype)

/-- Requires of `other` the kind of `t`. -/
def ensureKind (t other : Tensor) : Except TensorError Unit :=
  if other.dtype = t.dtype then .ok () else .error (.typeMismatch t.dtype other.dtype)

/-- Requires a shape. -/
def ensureShape (t : Tensor) (expected : Shape) : Except TensorError Unit :=
  if t.shape = expected then .ok () else .error (.shapeMismatch expected t.shape)

/-- The tensor with the given elements in row-major order. -/
def ofElements (d : DType) (data : Array d.Elem) (s : Shape) : Except TensorError Tensor :=
  if data.size ≠ s.numel then .error (.shapeMismatch s [data.size])
  else if h : data.size = s.size ∧ Shape.Allocatable d.width s then
    .ok ⟨d, ⟨s, data, h.1⟩, h.2⟩
  else if Shape.Addressable s then .error (.unaddressable s)
  else .error (.invalidOperation .spanOverflow)

/-- The tensor with the given numbers, each cast to the kind. -/
def ofFloats (values : Array Float) (s : Shape) (d : DType) : Except TensorError Tensor :=
  ofElements d (values.map Scalar.ofFloat) s

/-- Requires that there can be a new buffer of a kind and a shape, and hands
    on that there can. -/
def ensureAllocatable (d : DType) (s : Shape) :
    Except TensorError (PLift (Shape.Allocatable d.width s)) :=
  if room : Shape.Allocatable d.width s then .ok ⟨room⟩ else .error (.unaddressable s)

/-- The tensor that holds one element everywhere. -/
def filled (d : DType) (s : Shape) (x : d.Elem) : Except TensorError Tensor := do
  let ⟨room⟩ ← ensureAllocatable d s
  return ⟨d, .fill s x, room⟩

/-- The tensor of zeros. -/
def zeros (s : Shape) (d : DType) : Except TensorError Tensor := filled d s 0

/-- The tensor of ones. -/
def ones (s : Shape) (d : DType) : Except TensorError Tensor := filled d s 1

/-- Which elements differ from zero, in row-major order. -/
def nonzeroFlags (t : Tensor) : Array Bool := t.array.data.map Scalar.isNonzero

/-- Whether every element is a finite number. -/
def allFinite (t : Tensor) : Bool := t.array.data.all Scalar.isFinite

end Tensor

end GraphAttention
