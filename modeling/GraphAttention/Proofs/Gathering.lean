import GraphAttention.Proofs.Entries
import GraphAttention.Proofs.Fitting

/-!
# Gradients Gathered

What a parameter does with a gradient is decided in two steps. A gradient of another
kind or shape is refused, whatever the mode. One that fits is added to the buffer, or
becomes the buffer, if the parameter is learned and gradients are on, and has no effect
otherwise.

A buffer is taken out while it is added to, so it would be lost if that failed. It
cannot fail when the buffer has the kind and the shape of the data.

## Main definitions

* `Parameter.BufferFits`: The buffer has the kind and the shape of the data.

## Theorems

* `Tensor.add_ok`: Sums of tensors of one kind and shape.
* `accumulate_misfit`: A gradient that does not fit changes nothing.
* `accumulate_idle`, `accumulate_first`, `accumulate_again`: One that fits.
* `accumulate_fits`: A gradient that fits is never refused, and the buffer fits again.
-/

namespace GraphAttention

open GraphAttention.Action

/-- Tensors of one kind and shape have a sum. -/
theorem Tensor.add_ok {d : DType} {s : Shape} {t u : Tensor} (ht : t.Matches d s)
    (hu : u.Matches d s) :
    ∃ r, t.add u = .ok r ∧ r.Matches d s ∧
      ∀ idx, Shape.Within idx s → r.entry d idx = t.entry d idx + u.entry d idx := by
  rcases combine_ok (fun _ x y => x + y) [] ht hu with ⟨r, hr, hmatch, hentry⟩
  exact ⟨r, hr, hmatch, fun idx hidx => hentry [] idx trivial hidx⟩

namespace Parameter

variable {p : Parameter} {g : Tensor} {enabled : Bool}

theorem Fits.matches (h : p.Fits g) : g.Matches p.data.dtype p.shape := ⟨h.dtype, h.shape⟩

/-- A gradient that does not fit is refused in either mode and changes nothing. -/
theorem accumulate_misfit {e : TensorError} (h : p.Misfit g e) :
    accumulate g ⟨enabled, p⟩ = (.error e, ⟨enabled, p⟩) := by
  rw [accumulate, bind_ok (run_get _), ensureFits_error h]
  exact bind_error (run_attempt _ _)

/-- A frozen parameter gathers nothing, and none does while gradients are off. -/
theorem accumulate_idle (hfits : p.Fits g) (h : (p.requiresGrad && enabled) = false) :
    accumulate g ⟨enabled, p⟩ = (.ok (), ⟨enabled, p⟩) := by
  rw [accumulate, bind_ok (run_get _), ensureFits_ok hfits, bind_ok (run_attempt _ _), h]
  rfl

/-- The first gradient becomes the buffer. -/
theorem accumulate_first (hfits : p.Fits g) (h : (p.requiresGrad && enabled) = true)
    (hgrad : p.grad = none) :
    accumulate g ⟨enabled, p⟩ = (.ok (), ⟨enabled, { p with grad := some g }⟩) := by
  rw [accumulate, bind_ok (run_get _), ensureFits_ok hfits, bind_ok (run_attempt _ _), h]
  simp only [hgrad]
  rfl

/-- A further gradient is added to the buffer. -/
theorem accumulate_again {buffer : Tensor} (hfits : p.Fits g)
    (h : (p.requiresGrad && enabled) = true) (hgrad : p.grad = some buffer)
    (hbuffer : p.Fits buffer) :
    ∃ sum, buffer.add g = .ok sum ∧
      accumulate g ⟨enabled, p⟩ = (.ok (), ⟨enabled, { p with grad := some sum }⟩) := by
  rcases Tensor.add_ok hbuffer.matches hfits.matches with ⟨sum, hsum, -, -⟩
  refine ⟨sum, hsum, ?_⟩
  rw [accumulate, bind_ok (run_get _), ensureFits_ok hfits, bind_ok (run_attempt _ _), h]
  simp only [hgrad, hsum]
  rfl

/-- The buffer, if there is one, has the kind and the shape of the data. -/
def BufferFits (p : Parameter) : Prop := ∀ buffer, p.grad = some buffer → p.Fits buffer

/-- A gradient that fits is taken, and the buffer that it leaves fits. -/
theorem accumulate_fits (hp : p.BufferFits) (hfits : p.Fits g) (enabled : Bool) :
    ∃ grad, accumulate g ⟨enabled, p⟩ = (.ok (), ⟨enabled, { p with grad := grad }⟩) ∧
      BufferFits { p with grad := grad } := by
  by_cases hlearned : (p.requiresGrad && enabled) = true
  · cases hgrad : p.grad with
    | none =>
      refine ⟨some g, accumulate_first hfits hlearned hgrad, fun buffer hbuffer => ?_⟩
      cases hbuffer
      exact ⟨hfits.dtype, hfits.shape⟩
    | some buffer =>
      rcases Tensor.add_ok (hp buffer hgrad).matches hfits.matches with ⟨sum, hsum, hmatch, -⟩
      rcases accumulate_again hfits hlearned hgrad (hp buffer hgrad) with ⟨sum', hsum', hrun⟩
      rw [hsum] at hsum'
      cases hsum'
      refine ⟨some sum, hrun, fun buffer' hbuffer => ?_⟩
      cases hbuffer
      exact ⟨hmatch.dtype, hmatch.shape⟩
  · rw [Bool.not_eq_true] at hlearned
    exact ⟨p.grad, accumulate_idle hfits hlearned, hp⟩

end Parameter

end GraphAttention
