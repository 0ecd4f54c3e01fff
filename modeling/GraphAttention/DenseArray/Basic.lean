import GraphAttention.Scalar.Basic
import GraphAttention.Shape.Basic

/-!
# Arrays

An array is its shape and its elements in row-major order. That there are as
many elements as the shape says is part of the type, so no operation can lose
or invent one, and two arrays are equal when their shapes and their elements
are.

There are no views. Reordering the axes of an array moves its elements, which
costs a copy and buys that every array has one form: what an operation does
depends on what its argument holds and on nothing else.

`get` reads by index and gives the default element outside the shape; it is
only ever asked about indices within it.

## Main definitions

* `DenseArray`: A shape and the elements in row-major order.
* `DenseArray.item`, `DenseArray.get`: The element at a position and at an index.
* `DenseArray.generate`: The array whose element at each position is given.
* `DenseArray.fill`, `DenseArray.map`: One element everywhere, and a function applied
  to every element.
-/

namespace GraphAttention

/-- A shape and the elements of the array in row-major order. -/
structure DenseArray (α : Type) where
  shape : Shape
  data : Array α
  size_data : data.size = shape.size
deriving DecidableEq

namespace DenseArray

variable {α β : Type}

/-- The element at a row-major position, or the default one past the end. -/
def item [Inhabited α] (a : DenseArray α) (position : Nat) : α :=
  a.data.getD position default

/-- The element at an index within the shape. -/
def get [Inhabited α] (a : DenseArray α) (idx : Index) : α :=
  a.data.getD (Shape.ravel a.shape idx) default

/-- The array of a shape whose element at each row-major position is given. -/
def generate (s : Shape) (f : Nat → α) : DenseArray α :=
  ⟨s, Array.ofFn fun k : Fin s.size => f k, by simp⟩

/-- The array that holds one element everywhere. -/
def fill (s : Shape) (x : α) : DenseArray α :=
  ⟨s, Array.replicate s.size x, by simp⟩

/-- The array with a function applied to every element. -/
def map (f : α → β) (a : DenseArray α) : DenseArray β :=
  ⟨a.shape, a.data.map f, by simp [a.size_data]⟩

/-- The elements in row-major order. -/
def toList (a : DenseArray α) : List α := a.data.toList

/-- The same elements under another shape with as many of them. -/
def withShape (a : DenseArray α) (s : Shape) (h : s.size = a.shape.size) : DenseArray α :=
  ⟨s, a.data, by rw [a.size_data, h]⟩

@[ext] theorem ext {a b : DenseArray α} (hshape : a.shape = b.shape) (hdata : a.data = b.data) :
    a = b := by
  cases a; cases b; simp_all

end DenseArray

end GraphAttention
