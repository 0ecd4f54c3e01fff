import GraphAttention.Proofs.Embedding.Table
import GraphAttention.Proofs.Gathering
import GraphAttention.Proofs.Rows

/-!
# Gradients of Looked-Up Rows

The gradient of a table has in each row the sum of what was handed back for the places
at which the row was looked up, and then the padding row is multiplied by zero. The
sum is the one of `scatterSum`, in the order of the places.

That the padding row receives nothing is therefore not quite so. A sum that is finite
is multiplied away, but one that is infinite, or not a number, leaves what is not a
number, and nothing that is added later makes a number of it again. This is all that
can stand in the padding row, and the other rows do not depend on what was handed back
for the places of the padding row.

## Main definitions

* `Embedding.received`: What a row receives in a column.

## Theorems

* `tableGradient_cases`, `tableGradient_error`: The gradient of a table, or why there is
  none.
* `backward_error`, `backward_of_gradient`: What becomes of it.
* `backward_isRowFault`: Numbers that name rows are not what a gradient is refused for.
-/

namespace GraphAttention

open GraphAttention.Action

/-! ### Refusals without a row -/

theorem Tensor.combine_isRowFault {op : (d : DType) → d.Elem → d.Elem → d.Elem} {t u : Tensor}
    {x : TensorError} (h : Tensor.combine op t u = .error x) : x.isRowFault = false := by
  unfold Tensor.combine at h
  cases hother : u.elements t.dtype with
  | error y =>
    rw [hother] at h
    cases h
    by_cases hkind : u.dtype = t.dtype
    · rw [Tensor.elements, dif_pos hkind] at hother
      cases hother
    · rw [Tensor.elements, dif_neg hkind] at hother
      cases hother
      rfl
  | ok other =>
    cases hshape : Tensor.broadcastShape t.shape u.shape with
    | error y =>
      simp only [hother, hshape, bind, Except.bind] at h
      cases h
      unfold Tensor.broadcastShape at hshape
      split at hshape
      · cases hshape
        rfl
      · cases hshape
    | ok s =>
      by_cases room : Shape.Allocatable t.dtype.width s
      · simp only [hother, hshape, bind, Except.bind, Tensor.ensureAllocatable_ok room] at h
        cases h
      · simp only [hother, hshape, bind, Except.bind, Tensor.ensureAllocatable_error room] at h
        cases h
        rfl

/-- No gradient is refused by a parameter for a row. -/
theorem Parameter.accumulate_isRowFault {g : Tensor} {s : Tracked Parameter} {x : TensorError}
    (h : (Parameter.accumulate g s).1 = .error x) : x.isRowFault = false := by
  rcases s with ⟨enabled, p⟩
  rcases Parameter.fits_or_misfit p g with hfits | ⟨y, hmisfit⟩
  · by_cases hlearned : (p.requiresGrad && enabled) = true
    · cases hgrad : p.grad with
      | none =>
        rw [Parameter.accumulate_first hfits hlearned hgrad] at h
        cases h
      | some buffer =>
        -- The sum is the one step that can still fail.
        rw [Parameter.accumulate, bind_ok (run_get _), Parameter.ensureFits_ok hfits,
          bind_ok (run_attempt _ _), hlearned] at h
        cases hsum : buffer.add g with
        | error y =>
          simp only [hgrad, hsum] at h
          cases h
          exact Tensor.combine_isRowFault hsum
        | ok sum =>
          simp only [hgrad, hsum] at h
          cases h
    · rw [Bool.not_eq_true] at hlearned
      rw [Parameter.accumulate_idle hfits hlearned] at h
      cases h
  · rw [Parameter.accumulate_misfit hmisfit] at h
    cases h
    cases hmisfit with
    | kind _ => rfl
    | shape _ _ => rfl

namespace Embedding

open Tensor (ScatterFault)

variable {d d' : DType} {e : Embedding} {indices g r : Tensor} {s : Shape} {x : TensorError}
  {enabled : Bool}

/-- What a row receives in a column, when each place has the number of a row: the elements
    at the places with its number, added to zero in order. -/
def received (d : DType) (dim : Nat) (rows : List Nat) (g : Tensor) (row j : Nat) : d.Elem :=
  scatterSum row (fun k => g.itemAt d (k * dim + j)) rows 0 0

/-- What is of the kind and the size of a table fits its weight. -/
theorem WellFormed.fits_of_matches (he : e.WellFormed d) (hr : r.Matches d [e.numRows, e.dim]) :
    e.weight.Fits r :=
  ⟨hr.dtype.trans he.weight.dtype.symm, hr.shape.trans he.weight.shape.symm⟩

theorem zeros_ok (he : e.WellFormed d) :
    ∃ base, Tensor.zeros e.weight.shape e.weight.data.dtype = .ok base ∧
      base.Matches d [e.numRows, e.dim] ∧
      ∀ idx, Shape.Within idx [e.numRows, e.dim] → base.entry d idx = 0 := by
  rw [Tensor.zeros, Parameter.shape, he.weight.shape, he.weight.dtype]
  exact Tensor.filled_ok he.weight.room 0

/-- A table has no gradient where its rows cannot be scattered. -/
theorem tableGradient_error (he : e.WellFormed d) (hg : g.Matches d' s)
    (h : ScatterFault indices d e.numRows [e.dim] d' s x) :
    e.tableGradient indices g = .error x := by
  rcases zeros_ok he with ⟨base, hbase, hmatch, -⟩
  simp only [tableGradient, hbase, Tensor.indexAdd_error hmatch hg h, bind, Except.bind]

/-- For all gradients of a kind and a shape the rows cannot be scattered for one reason,
    or each of them gives every row what it receives, masked. -/
theorem tableGradient_cases (he : e.WellFormed d) (indices : Tensor) (d' : DType) (s : Shape) :
    (∃ x, ScatterFault indices d e.numRows [e.dim] d' s x) ∨
    (d' = d ∧ ∀ g : Tensor, g.Matches d s →
      ∃ r, e.tableGradient indices g = .ok r ∧ r.Matches d [e.numRows, e.dim] ∧
        ∀ i j, i < e.numRows → j < e.dim →
          r.entry d [i, j]
            = maskedEntry d e.paddingRow i (received d e.dim indices.rowList g i j)) := by
  rcases zeros_ok he with ⟨base, hbase, hmatch, hzero⟩
  rcases Tensor.indexAdd_cases hmatch indices d' s with hfault | ⟨hkind, hadd⟩
  · exact .inl hfault
  · refine .inr ⟨hkind, fun g hg => ?_⟩
    rcases hadd g hg with ⟨sum, hsum, hsmatch, hsentry⟩
    rcases maskPadding_ok (fun row h => (he.padding row h).2) hsmatch with
      ⟨r, hr, hrmatch, hrentry⟩
    refine ⟨r, ?_, hrmatch, fun i j hi hj => ?_⟩
    · simp only [tableGradient, hbase, hsum, bind, Except.bind]
      exact hr
    · have hsize : Shape.size [e.dim] = e.dim := Nat.mul_one _
      have hplace : Shape.ravel [e.dim] [j] = j := by simp [Shape.ravel]
      rw [hrentry i j hi hj, hsentry i [j] hi (by simpa using hj), hzero [i, j] (by simp [hi, hj]),
        hsize, hplace]
      rfl

/-- Without a gradient nothing is gathered. -/
theorem backward_error (h : e.tableGradient indices g = .error x) :
    backward indices g ⟨enabled, e⟩ = (.error x, ⟨enabled, e⟩) := by
  rw [backward, bind_ok (run_get _), h]
  exact bind_error (run_attempt _ _)

/-- The gradient of the table is gathered by its weight. -/
theorem backward_of_gradient (h : e.tableGradient indices g = .ok r) :
    backward indices g ⟨enabled, e⟩
      = ((Parameter.accumulate r ⟨enabled, e.weight⟩).1,
        ⟨(Parameter.accumulate r ⟨enabled, e.weight⟩).2.gradEnabled,
          { e with weight := (Parameter.accumulate r ⟨enabled, e.weight⟩).2.value }⟩) := by
  rw [backward, bind_ok (run_get _), h, bind_ok (run_attempt _ _)]
  rfl

/-- Where all numbers name rows, a gradient is not refused for one. -/
theorem backward_isRowFault (he : e.WellFormed d) (hnames : indices.Names e.numRows)
    (h : (backward indices g ⟨enabled, e⟩).1 = .error x) : x.isRowFault = false := by
  rcases tableGradient_cases he indices g.dtype g.shape with ⟨y, hfault⟩ | ⟨hkind, hall⟩
  · rw [backward_error (tableGradient_error he ⟨rfl, rfl⟩ hfault)] at h
    cases h
    exact hfault.isRowFault hnames
  · rcases hall g ⟨hkind, rfl⟩ with ⟨r, hr, -, -⟩
    rw [backward_of_gradient hr] at h
    exact Parameter.accumulate_isRowFault h

end Embedding

end GraphAttention
