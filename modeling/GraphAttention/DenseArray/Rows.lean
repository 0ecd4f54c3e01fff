import GraphAttention.DenseArray.Basic

/-!
# Gathering and Scattering Rows

A row of an array is everything below one coordinate of its first axis, a block
of consecutive elements. `selectRows` copies rows out in a given order, and
`addRows` adds a list of rows into an array one after another, in the order in
which they come; a row that is hit twice takes both, first the earlier one.

The row numbers are of type `Fin n`, where `n` is the length of the first axis,
so that neither operation can be asked for a row that is not there.

## Main definitions

* `DenseArray.selectRows`: The rows with given numbers.
* `DenseArray.addRows`: Rows added into given rows, in order.
-/

namespace GraphAttention

namespace DenseArray

variable {α : Type}

/-- The rows of `a` with the given numbers, one after another. -/
def selectRows [Inhabited α] {n : Nat} {tail : Shape} (a : DenseArray α)
    (_h : a.shape = n :: tail) (rows : List (Fin n)) : DenseArray α :=
  let numbers := rows.toArray
  generate (rows.length :: tail) fun k =>
    let row := numbers[k / tail.size]?.elim 0 Fin.val
    a.item (row * tail.size + k % tail.size)

/-- The buffer with `length` elements, read off `source`, added from `start`
    on. -/
def addBlock [Add α] (buffer : Array α) (start length : Nat) (source : Nat → α) : Array α :=
  (List.range length).foldl (fun b j => b.modify (start + j) (· + source j)) buffer

theorem size_addBlock [Add α] (buffer : Array α) (start length : Nat) (source : Nat → α) :
    (addBlock buffer start length source).size = buffer.size := by
  unfold addBlock
  induction List.range length generalizing buffer with
  | nil => rfl
  | cons j js ih => simp [ih]

/-- Rows of the given length added into a buffer, the `i`-th of them read off
    `source` from `i * length` on. -/
def addBlocks [Add α] (length : Nat) (source : Nat → α) :
    List Nat → Nat → Array α → Array α
  | [], _, buffer => buffer
  | row :: rows, i, buffer =>
    addBlocks length source rows (i + 1)
      (addBlock buffer (row * length) length fun j => source (i * length + j))

theorem size_addBlocks [Add α] (length : Nat) (source : Nat → α) (rows : List Nat) (i : Nat)
    (buffer : Array α) :
    (addBlocks length source rows i buffer).size = buffer.size := by
  induction rows generalizing i buffer with
  | nil => rfl
  | cons row rows ih => simp [addBlocks, ih, size_addBlock]

/-- The rows of `source` added, in order, into the rows of `a` with the given
    numbers. -/
def addRows [Inhabited α] [Add α] {n : Nat} {tail : Shape} (a : DenseArray α)
    (_h : a.shape = n :: tail) (rows : List (Fin n)) (source : DenseArray α) : DenseArray α :=
  ⟨a.shape, addBlocks tail.size source.item (rows.map Fin.val) 0 a.data,
    by rw [size_addBlocks, a.size_data]⟩

end DenseArray

end GraphAttention
