import GraphAttention.DenseArray.Basic

/-!
# Products of Matrices

The product of two matrices and, for a stack of each, the products of the pairs.
An element of a product is a sum over the inner axis in increasing order,
starting at zero, so an inner axis of length zero gives a matrix of zeros.

The two are written separately, each by its own positions in the buffers. A
stack of products is faster computed in one sweep than cut apart and put
together again.

## Main definitions

* `DenseArray.matmul`: The product of an `m × k` and a `k × n` matrix.
* `DenseArray.bmm`: The products of two stacks of matrices, pair by pair.
-/

namespace GraphAttention

namespace DenseArray

variable {α : Type} [Inhabited α] [Zero α] [Add α] [Mul α]

/-- The product of an `m × k` matrix and a `k × n` matrix. -/
def matmul (m k n : Nat) (a b : DenseArray α) : DenseArray α :=
  generate [m, n] fun t =>
    let row := t / n
    let col := t % n
    sumRange k fun l => a.item (row * k + l) * b.item (l * n + col)

/-- The products, pair by pair, of `batch` matrices of shape `m × k` and as
    many of shape `k × n`. -/
def bmm (batch m k n : Nat) (a b : DenseArray α) : DenseArray α :=
  generate [batch, m, n] fun t =>
    let row := t / n
    let item := row / m
    let col := t % n
    sumRange k fun l => a.item (row * k + l) * b.item ((item * k + l) * n + col)

end DenseArray

end GraphAttention
