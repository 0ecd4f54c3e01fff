import GraphAttention.Learning.Parameter
import GraphAttention.Proofs.Running

/-!
# What Fits a Parameter

The kind and the shape of a parameter are fixed when it is made. Its data can be
replaced, but only by data that has both, and of two things that are wrong the
kind is reported. A refused replacement leaves the parameter alone.

## Main definitions

* `Parameter.Fits`: A tensor may replace the data of a parameter.
* `Parameter.Misfit`: Why it may not.

## Theorems

* `fits_or_misfit`: What does not fit has a reason.
* `setData_ok`, `setData_misfit`: Replacing data, or refusing to.
* `setData_keeps`: The kind and the shape of a parameter stay.
-/

namespace GraphAttention

namespace Parameter

variable {p : Parameter} {t : Tensor} {e : TensorError}

/-- A tensor has the kind and the shape of a parameter. -/
structure Fits (p : Parameter) (t : Tensor) : Prop where
  dtype : t.dtype = p.data.dtype
  shape : t.shape = p.shape

/-- The reason for which a tensor does not fit: its kind, or else its shape. -/
inductive Misfit (p : Parameter) (t : Tensor) : TensorError → Prop
  | kind (h : t.dtype ≠ p.data.dtype) : Misfit p t (.typeMismatch p.data.dtype t.dtype)
  | shape (hkind : t.dtype = p.data.dtype) (h : t.shape ≠ p.shape) :
    Misfit p t (.shapeMismatch p.shape t.shape)

theorem ensureFits_ok (h : p.Fits t) : p.ensureFits t = .ok () := by
  rw [ensureFits, Tensor.ensureKind, if_pos h.dtype, Tensor.ensureShape, if_pos h.shape]
  rfl

theorem ensureFits_error (h : p.Misfit t e) : p.ensureFits t = .error e := by
  cases h with
  | kind h =>
    rw [ensureFits, Tensor.ensureKind, if_neg h]
    rfl
  | shape hkind h =>
    rw [ensureFits, Tensor.ensureKind, if_pos hkind, Tensor.ensureShape, if_neg h]
    rfl

/-- What does not fit has a reason. -/
theorem fits_or_misfit (p : Parameter) (t : Tensor) : p.Fits t ∨ ∃ e, p.Misfit t e := by
  by_cases hkind : t.dtype = p.data.dtype
  · by_cases hshape : t.shape = p.shape
    · exact .inl ⟨hkind, hshape⟩
    · exact .inr ⟨_, .shape hkind hshape⟩
  · exact .inr ⟨_, .kind hkind⟩

theorem Misfit.not_fits (h : p.Misfit t e) : ¬ p.Fits t := by
  intro hfits
  cases h with
  | kind h => exact h hfits.dtype
  | shape _ h => exact h hfits.shape

theorem setData_ok (h : p.Fits t) : setData t p = (.ok (), { p with data := t }) := by
  rw [setData, Action.bind_ok (Action.run_get p), ensureFits_ok h,
    Action.bind_ok (Action.run_attempt _ _)]
  rfl

theorem setData_misfit (h : p.Misfit t e) : setData t p = (.error e, p) := by
  rw [setData, Action.bind_ok (Action.run_get p), ensureFits_error h]
  exact Action.bind_error (Action.run_attempt _ _)

/-- Whatever a parameter is asked to hold, its kind and shape stay. -/
theorem setData_keeps (t : Tensor) (d : DType) (s : Shape) :
    Action.Keeps (setData t) fun p => p.data.dtype = d ∧ p.shape = s := by
  intro p hp
  rcases fits_or_misfit p t with hfit | ⟨e, hmisfit⟩
  · rw [setData_ok hfit]
    exact ⟨hfit.dtype.trans hp.1, hfit.shape.trans hp.2⟩
  · rw [setData_misfit hmisfit]
    exact hp

end Parameter

end GraphAttention
