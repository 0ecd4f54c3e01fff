import GraphAttention.DenseArray.Rows
import GraphAttention.Tensor.Layout

/-!
# Rows of Tensors

Gathering rows of a tensor by number, and scattering rows into it by addition.
The numbers come as a tensor of 64-bit integers of any shape and are checked in
row-major order, so the first one that names no row is reported.

The result of gathering takes the shape of the numbers followed by the shape of
a row. Scattering asks only that the source has as many elements as that would
have; how they are arranged is not asked.

## Main definitions

* `Tensor.rowNumbers`: Checked row numbers.
* `Tensor.indexSelect`: Rows gathered.
* `Tensor.indexAdd`: Rows added in.
-/

namespace GraphAttention

namespace Tensor

/-- A row number that names one of `n` rows. -/
def rowNumber (n : Nat) (i : Int64) : Except TensorError (Fin n) :=
  if h : 0 ≤ i.toInt ∧ i.toInt.toNat < n then .ok ⟨i.toInt.toNat, h.2⟩
  else .error (.indexOutOfBounds i.toInt 0 n)

/-- The row numbers of a tensor in row-major order, each naming one of `n`
    rows. -/
def rowNumbers (indices : Tensor) (n : Nat) : Except TensorError (List (Fin n)) := do
  let numbers ← indices.elements .int64
  numbers.toList.mapM (rowNumber n)

/-- The rows of a tensor with the given numbers. -/
def indexSelect (t indices : Tensor) : Except TensorError Tensor :=
  match h : t.array.shape with
  | [] => throw (.invalidOperation .selectScalar)
  | n :: tail => do
    let rows ← indices.rowNumbers n
    let ⟨room⟩ ← ensureAllocatable t.dtype (rows.length :: tail)
    let gathered : Tensor := ⟨t.dtype, t.array.selectRows h rows, room⟩
    gathered.reshape (indices.shape ++ tail)

/-- The tensor with the rows of `source` added, in order, into the rows with
    the given numbers. -/
def indexAdd (t indices source : Tensor) : Except TensorError Tensor :=
  match h : t.array.shape with
  | [] => throw (.invalidOperation .indexAddScalar)
  | n :: tail => do
    t.ensureKind source
    let rows ← indices.rowNumbers n
    let arranged : Shape := rows.length :: tail
    if arranged.numel ≠ source.count then throw (.shapeMismatch arranged source.shape)
    let source ← (← source.reshape arranged).elements t.dtype
    if t.dtype = .uint8 then throw (.invalidOperation .indexAddKind)
    return ⟨t.dtype, t.array.addRows h rows source, t.room⟩

end Tensor

end GraphAttention
