import GraphAttention.DenseArray.Basic
import GraphAttention.Shape.Broadcast

/-!
# Combining Arrays Element by Element

Two arrays combine over their common shape. Each operand is read through
`Shape.project`, which undoes the stretching, so neither is ever copied to the
larger shape.

`fillBlocks` overwrites whole blocks of consecutive elements. A flag for each
index along the leading axes governs the block of all elements below it.

## Main definitions

* `DenseArray.zipBroadcast`: Two arrays combined over a common shape.
* `DenseArray.fillBlocks`: Blocks of equal length overwritten where flagged.
-/

namespace GraphAttention

namespace DenseArray

variable {α : Type}

/-- Two arrays combined element by element over their common shape `s`. -/
def zipBroadcast [Inhabited α] (op : α → α → α) (a b : DenseArray α) (s : Shape) :
    DenseArray α :=
  generate s fun k =>
    let idx := Shape.unravel s k
    op (a.get (Shape.project a.shape idx)) (b.get (Shape.project b.shape idx))

/-- The array with every flagged block of `length` consecutive elements
    overwritten. -/
def fillBlocks (a : DenseArray α) (flags : Array Bool) (length : Nat) (value : α) :
    DenseArray α :=
  ⟨a.shape, a.data.mapIdx fun k x => if flags.getD (k / length) false then value else x,
    by simp [a.size_data]⟩

end DenseArray

end GraphAttention
