import GraphAttention.DenseArray.Basic
import GraphAttention.Shape.Axes

/-!
# Reordering Axes

Reordering the axes reads the buffer along permuted strides. The element of the
result at an index lies where the strides of the array, taken in the new order
of the axes, put that index; no other arithmetic is involved.

## Main definitions

* `DenseArray.permute`: The axes in another order.
* `DenseArray.reverseAxes`: The axes in reverse order.
-/

namespace GraphAttention

namespace DenseArray

variable {α : Type} [Inhabited α]

/-- How far into a buffer an index reaches along given strides. -/
def offset : List Nat → Index → Nat
  | stride :: strides, i :: idx => i * stride + offset strides idx
  | _, _ => 0

/-- The array with its axes in another order: axis `k` of the result is axis
    `axes[k]` of `a`. -/
def permute (axes : List Nat) (a : DenseArray α) : DenseArray α :=
  let shape : Shape := axes.map fun axis => a.shape.getD axis 0
  let strides := axes.map fun axis => (Shape.strides a.shape).getD axis 0
  generate shape fun k => a.item (offset strides (Shape.unravel shape k))

/-- The array with its axes in reverse order. -/
def reverseAxes (a : DenseArray α) : DenseArray α :=
  a.permute (List.range a.shape.length).reverse

end DenseArray

end GraphAttention
