import GraphAttention.DenseArray.Layout
import GraphAttention.Tensor.Basic

/-!
# Layout of Tensors

Reordering axes and changing the shape. Neither looks at the elements, so both
work for every kind.

Changing the shape keeps the row-major order of the elements, also of a tensor
whose axes were reordered before. The count has to agree, and the new shape has
to be one that a buffer can have. Counting is done first, in a machine word, so a
shape of far too many elements may be refused for either reason.

## Main definitions

* `Tensor.permute`, `Tensor.transpose`, `Tensor.t`: The axes in another order.
* `Tensor.reshape`: The same elements under another shape.
-/

namespace GraphAttention

namespace Tensor

/-- Requires a list that names each axis once. -/
def checkAxes (axes : List Nat) (rank : Nat) : Except TensorError Unit :=
  (Shape.checkAxes axes rank).mapError (TensorError.ofAxesFault axes rank)

theorem perm_of_checkAxes {axes : List Nat} {rank : Nat} (h : checkAxes axes rank = .ok ()) :
    axes.Perm (List.range rank) := by
  unfold checkAxes at h
  cases hcheck : Shape.checkAxes axes rank with
  | error fault =>
    rw [hcheck] at h
    cases h
  | ok _ => exact Shape.perm_of_checkAxes hcheck

/-- The axes in another order: axis `k` of the result is axis `axes[k]`. -/
def permute (t : Tensor) (axes : List Nat) : Except TensorError Tensor :=
  match h : checkAxes axes t.rank with
  | .error e => .error e
  | .ok () => .ok ⟨t.dtype, t.array.permute axes,
      Shape.allocatable_perm (Shape.reordered_perm (perm_of_checkAxes h)).symm t.room⟩

/-- Two axes exchanged. The first of them is checked first. -/
def transpose (t : Tensor) (axisA axisB : Nat) : Except TensorError Tensor := do
  if t.rank ≤ axisA then throw (.invalidAxis axisA t.rank)
  if t.rank ≤ axisB then throw (.invalidAxis axisB t.rank)
  t.permute (Shape.swapAxes t.rank axisA axisB)

/-- The axes in reverse order. -/
def t (t : Tensor) : Tensor :=
  ⟨t.dtype, t.array.reverseAxes,
    Shape.allocatable_perm (Shape.reordered_perm (List.reverse_perm _)).symm t.room⟩

/-- The same elements, in row-major order, under another shape. -/
def reshape (t : Tensor) (s : Shape) : Except TensorError Tensor :=
  if s.numel ≠ t.count then .error (.shapeMismatch [t.count] s)
  else if h : s.size = t.array.shape.size ∧ Shape.Addressable s then
    .ok ⟨t.dtype, t.array.withShape s h.1, h.2, (Shape.fits_congr h.1).mpr t.room.2⟩
  else .error (.invalidOperation .spanIncompatible)

end Tensor

end GraphAttention
