import GraphAttention.Proofs.Chains
import GraphAttention.Proofs.Embedding.Gradient
import GraphAttention.Proofs.Failures
import GraphAttention.Proofs.Room

/-!
# Which Gradients a Table Takes

The gradient of a look-up should have the shape of what was looked up: that of the row
numbers, and behind it the length of a row. What is looked at is how many elements it has.
They are taken in row-major order, one row for each number, whatever the axes say. So a
gradient with its axes exchanged is taken like any other, and its elements go where those of
the right shape would have gone that has the same elements in the same order.

When all numbers name rows nothing else can be wrong. Room is not in question: the elements
are there, and so are the numbers, and a matrix made from them asks for no more.

## Main definitions

* `miscount`: Why a gradient with another number of elements is refused.

## Theorems

* `tableGradient_counted`: What a gradient with as many elements as needed comes to.
* `tableGradient_miscounted`: Any other gradient is refused.
* `tableGradient_reshape`, `backward_reshape`: Their arrangement makes no difference.
* `backward_counted`, `backward_succeeds_iff`: Which gradients a table takes.
-/

namespace GraphAttention

open GraphAttention.Action

namespace Embedding

open Tensor (ScatterFault)

variable {d : DType} {e : Embedding} {indices g g' : Tensor} {s : Shape} {enabled : Bool}

/-- A gradient with an element for every column of every row that was looked up gives each
    row what it receives, masked. -/
theorem tableGradient_counted (he : e.WellFormed d) (hi : indices.dtype = .int64)
    (hnames : indices.Names e.numRows) (hg : g.dtype = d)
    (hcount : g.count = indices.count * e.dim) :
    ∃ r, e.tableGradient indices g = .ok r ∧ r.Matches d [e.numRows, e.dim] ∧
      ∀ i j, i < e.numRows → j < e.dim →
        r.entry d [i, j]
          = maskedEntry d e.paddingRow i (received d e.dim indices.rowList g i j) := by
  have hneeded : Shape.size [indices.count, e.dim] = g.count := by
    rw [Shape.size_cons, Shape.size_cons, Shape.size_nil, Nat.mul_one, hcount]
  rcases tableGradient_cases he indices d g.shape with ⟨x, hfault⟩ | ⟨-, hall⟩
  · -- Each of the reasons that there are to refuse it is ruled out.
    exfalso
    cases hfault with
    | kind h => exact h rfl
    | numbers _ h =>
      rcases Tensor.rowNumbers_ok hi hnames with ⟨rows, hrows⟩
      rw [hrows] at h
      cases h
    | count _ hrows h =>
      rw [Tensor.length_rowNumbers ⟨hi, rfl⟩ hrows] at h
      exact h (Tensor.numel_of_size hneeded)
    | span _ hrows _ h =>
      have hrow : e.dim ≤ Shape.maxSpan :=
        Nat.le_trans (Shape.le_span (by simp)) he.weight.room.1.1
      have hsize : indices.count * e.dim ≤ Shape.maxSpan := hcount ▸ g.count_le
      rw [Tensor.length_rowNumbers ⟨hi, rfl⟩ hrows] at h
      exact h ⟨hneeded, Shape.addressable_matrix indices.count_le hrow hsize⟩
    | byte _ _ _ _ h =>
      have hfloat := he.isFloat
      rw [h] at hfloat
      cases hfloat
  · exact hall g ⟨hg, rfl⟩

/-- Why a gradient with any other number of elements is refused. What is needed is counted in
    a machine word, so a gradient may have as many as are counted although more are needed. -/
def miscount (rows dim : Nat) (g : Tensor) : TensorError :=
  if Shape.numel [rows, dim] ≠ g.count then .shapeMismatch [rows, dim] g.shape
  else .invalidOperation .spanIncompatible

/-- A count that a machine word can hold is right, and its shape is reported. -/
theorem miscount_eq {rows dim : Nat} (hword : rows * dim < wordCount)
    (hcount : g.count ≠ rows * dim) : miscount rows dim g = .shapeMismatch [rows, dim] g.shape := by
  refine if_pos ?_
  rw [Shape.numel_eq, Shape.size_cons, Shape.size_cons, Shape.size_nil, Nat.mul_one,
    wrap_of_lt hword]
  exact Ne.symm hcount

/-- Any other number of elements is refused. -/
theorem tableGradient_miscounted (he : e.WellFormed d) (hi : indices.dtype = .int64)
    (hnames : indices.Names e.numRows) (hg : g.dtype = d)
    (hcount : g.count ≠ indices.count * e.dim) :
    e.tableGradient indices g = .error (miscount indices.count e.dim g) := by
  rcases Tensor.rowNumbers_ok hi hnames with ⟨rows, hrows⟩
  have hlength : rows.length = indices.count := Tensor.length_rowNumbers ⟨hi, rfl⟩ hrows
  have hne : Shape.size [rows.length, e.dim] ≠ g.shape.size := by
    rw [hlength, Shape.size_cons, Shape.size_cons, Shape.size_nil, Nat.mul_one]
    exact Ne.symm hcount
  rw [← hlength, miscount]
  -- The elements that were counted cannot be arranged if there should be more.
  split
  · rename_i hcounted
    exact tableGradient_error he ⟨hg, rfl⟩ (.count rfl hrows hcounted)
  · rename_i hcounted
    exact tableGradient_error he ⟨hg, rfl⟩
      (.span rfl hrows (not_not.mp hcounted) fun h => hne h.1)

/-- A gradient of another kind is refused before anything else is looked at. -/
theorem tableGradient_kind (he : e.WellFormed d) (hg : g.dtype ≠ d) :
    e.tableGradient indices g = .error (.typeMismatch d g.dtype) :=
  tableGradient_error he ⟨rfl, rfl⟩ (.kind hg)

/-- What the gradient of the table comes to depends on the elements in their order only, and
    not on how they are arranged. -/
theorem tableGradient_reshape (he : e.WellFormed d) (hi : indices.dtype = .int64)
    (hnames : indices.Names e.numRows) (hg : g.dtype = d)
    (hcount : g.count = indices.count * e.dim) (h : g.reshape s = .ok g') :
    e.tableGradient indices g' = e.tableGradient indices g := by
  rcases Tensor.reshape_result h with ⟨hsize, hmatch⟩
  have hcount' : g'.count = indices.count * e.dim := by
    rw [← hcount, Tensor.count, hmatch.shape]
    exact hsize
  rcases tableGradient_counted he hi hnames hg hcount with ⟨r, hr, hrmatch, hentry⟩
  rcases tableGradient_counted he hi hnames (hmatch.dtype.trans hg) hcount' with
    ⟨r', hr', hrmatch', hentry'⟩
  have hreceived : received d e.dim indices.rowList g' = received d e.dim indices.rowList g := by
    funext i j
    exact scatterSum_congr indices.rowList 0 fun k _ => Tensor.itemAt_reshape h _
  rw [hr, hr']
  refine congrArg Except.ok (Tensor.ext_entry hrmatch' hrmatch fun idx hidx => ?_)
  rcases Shape.within_pair hidx with ⟨i, j, rfl, hi, hj⟩
  rw [hentry i j hi hj, hentry' i j hi hj, hreceived]

/-- What a table takes changes its weight and nothing else of it. -/
theorem backward_counted (he : e.WellFormed d) (hbuffer : e.weight.BufferFits)
    (hi : indices.dtype = .int64) (hnames : indices.Names e.numRows) (hg : g.dtype = d)
    (hcount : g.count = indices.count * e.dim) (enabled : Bool) :
    ∃ p, backward indices g ⟨enabled, e⟩ = (.ok (), ⟨enabled, { e with weight := p }⟩) := by
  rcases tableGradient_counted he hi hnames hg hcount with ⟨r, hr, hmatch, -⟩
  rcases Parameter.accumulate_fits hbuffer (he.fits_of_matches hmatch) enabled with ⟨grad, hrun, -⟩
  exact ⟨_, by rw [backward_of_gradient hr, hrun]⟩

/-- A table takes a gradient exactly when it is of the right kind and has an element for
    every column of every row that was looked up. -/
theorem backward_succeeds_iff (he : e.WellFormed d) (hbuffer : e.weight.BufferFits)
    (hi : indices.dtype = .int64) (hnames : indices.Names e.numRows) :
    SucceedsAt (backward indices g) ⟨enabled, e⟩ ↔
      g.dtype = d ∧ g.count = indices.count * e.dim := by
  have hrefused : ∀ x, e.tableGradient indices g = .error x →
      ¬ SucceedsAt (backward indices g) ⟨enabled, e⟩ := by
    rintro x hx ⟨_, _, hrun⟩
    rw [backward_error hx] at hrun
    cases hrun
  by_cases hg : g.dtype = d
  · by_cases hcount : g.count = indices.count * e.dim
    · rcases backward_counted he hbuffer hi hnames hg hcount enabled with ⟨p, hrun⟩
      exact iff_of_true ⟨(), _, hrun⟩ ⟨hg, hcount⟩
    · have hx := tableGradient_miscounted he hi hnames hg hcount
      exact iff_of_false (hrefused _ hx) fun h => hcount h.2
  · exact iff_of_false (hrefused _ (tableGradient_kind he hg)) fun h => hg h.1

/-- Elements that are taken in one arrangement are taken in any other, to the same effect. -/
theorem backward_reshape (he : e.WellFormed d) (hi : indices.dtype = .int64)
    (hnames : indices.Names e.numRows) (hg : g.dtype = d)
    (hcount : g.count = indices.count * e.dim) (h : g.reshape s = .ok g') (enabled : Bool) :
    backward indices g' ⟨enabled, e⟩ = backward indices g ⟨enabled, e⟩ := by
  rcases tableGradient_counted he hi hnames hg hcount with ⟨r, hr, -, -⟩
  have hr' := (tableGradient_reshape he hi hnames hg hcount h).trans hr
  rw [backward_of_gradient hr, backward_of_gradient hr']

end Embedding

end GraphAttention
