import GraphAttention.Proofs.Chains
import GraphAttention.Proofs.Number.Word

/-!
# Masks Laid on Tensors

What a mask does to a tensor of any rank. The shape of the mask has to begin the shape of
the tensor, and each of its elements then decides about everything at the indices that
begin with its own. A mask without axes decides about the whole tensor at once, and a mask
of the same shape decides about each element. Elements are found by their indices on both
sides, so it makes no difference whether the axes of either were reordered beforehand.

A mask may be of any kind, and an element covers if it is not zero. Zero is one word in the
integer kinds and two in the floating ones, one for each sign. All other words cover, those
that are not a number among them.

The shapes are compared before the kind is looked at, so an integer tensor under a mask that
does not fit is refused for the shapes. Neither check looks at the value, and what was filled
is covered by the same mask again, so of two fillings only the second is seen.

## Theorems

* `maskedFill_misfit`, `maskedFill_kind`: What is refused, in the order of the checks.
* `maskedFill_covers`: What stands where, by the words of the mask.
* `maskedFill_maskedFill`: Of two fillings the second counts.
* `maskedFill_fills`: Any mask on any tensor.
-/

namespace GraphAttention

namespace Tensor

variable {d : DType} {t r mask : Tensor} {value : Float} {tail : Shape}

/-- A mask whose shape does not begin that of the tensor is refused, whatever the kinds. -/
theorem maskedFill_misfit (h : ¬ mask.shape <+: t.shape) (value : Float) :
    t.maskedFill mask value
      = .error (.shapeMismatch (t.shape.take mask.rank) mask.shape) := by
  have hne : mask.shape ≠ t.shape.take mask.rank := fun heq => h (List.prefix_iff_eq_take.mpr heq)
  simp only [maskedFill, if_pos hne, bind, Except.bind]
  rfl

/-- Where the mask fits, a tensor without a floating kind is refused for that. -/
theorem maskedFill_kind (h : mask.shape <+: t.shape) (hd : t.dtype.isFloat = false)
    (value : Float) : t.maskedFill mask value = .error (.invalidOperation .maskedFillKind) := by
  have heq : mask.shape = t.shape.take mask.rank := List.prefix_iff_eq_take.mp h
  simp only [maskedFill, if_neg (not_not.mpr heq), hd, bind, Except.bind]
  rfl

/-- An element under the mask is filled unless the mask has a zero there. -/
theorem maskedFill_covers (hd : t.dtype.isFloat = true) (ht : t.shape = mask.shape ++ tail)
    (value : Float) :
    ∃ r, t.maskedFill mask value = .ok r ∧ r.Matches t.dtype (mask.shape ++ tail) ∧
      ∀ p q, Shape.Within p mask.shape → Shape.Within q tail →
        r.entry t.dtype (p ++ q)
          = if mask.entry mask.dtype p ∈ mask.dtype.zeros then t.entry t.dtype (p ++ q)
            else Scalar.ofFloat value := by
  rcases maskedFill_ok hd mask.shape tail value ⟨rfl, ht⟩ rfl with ⟨r, hr, hM, hE⟩
  refine ⟨r, hr, hM, fun p q hp hq => ?_⟩
  rw [hE p q hp hq, nonzeroAt_eq rfl]
  by_cases hzero : mask.entry mask.dtype p ∈ mask.dtype.zeros
  · have hflag := DType.isNonzero_eq_false_iff_mem.mpr hzero
    rw [if_pos hzero, hflag]
    rfl
  · have hflag : Scalar.isNonzero (mask.entry mask.dtype p) = true := by
      refine Bool.eq_true_of_not_eq_false fun hnot => ?_
      exact hzero (DType.isNonzero_eq_false_iff_mem.mp hnot)
    rw [if_neg hzero, if_pos hflag]

/-- Of two fillings under one mask the second counts, in what is refused as well. -/
theorem maskedFill_maskedFill (t mask : Tensor) (value again : Float) :
    (t.maskedFill mask value >>= fun r => r.maskedFill mask again) = t.maskedFill mask again := by
  by_cases hfits : mask.shape <+: t.shape
  · cases hd : t.dtype.isFloat with
    | false =>
      rw [maskedFill_kind hfits hd, maskedFill_kind hfits hd]
      rfl
    | true =>
      rcases hfits with ⟨tail, htail⟩
      rcases maskedFill_ok hd mask.shape tail value ⟨rfl, htail.symm⟩ rfl with ⟨r, hr, hM, hE⟩
      rw [hr]
      -- What the first filling changed is covered by the second.
      refine maskedFill_congr mask.shape tail again hM ⟨rfl, htail.symm⟩ rfl
        fun p q hp hq hflag => ?_
      rw [hE p q hp hq, hflag]
      rfl
  · rw [maskedFill_misfit hfits, maskedFill_misfit hfits]
    rfl

/-- Any mask on any tensor. The shapes are checked first and the kind of the tensor after
    them; a tensor of a floating kind is filled if and only if the mask fits, and has the
    value wherever the mask has a word that is not one of zero; and what was filled may be
    filled again. -/
theorem maskedFill_fills (t mask : Tensor) (value : Float) :
    (¬ mask.shape <+: t.shape → t.maskedFill mask value
      = .error (.shapeMismatch (t.shape.take mask.rank) mask.shape)) ∧
    (mask.shape <+: t.shape → t.dtype.isFloat = false →
      t.maskedFill mask value = .error (.invalidOperation .maskedFillKind)) ∧
    (t.dtype.isFloat = true →
      ((∃ r, t.maskedFill mask value = .ok r) ↔ mask.shape <+: t.shape) ∧
      ∀ r, t.maskedFill mask value = .ok r →
        r.Matches t.dtype t.shape ∧
        ∀ p q tail, t.shape = mask.shape ++ tail → Shape.Within p mask.shape →
          Shape.Within q tail →
          r.entry t.dtype (p ++ q)
            = if mask.entry mask.dtype p ∈ mask.dtype.zeros then t.entry t.dtype (p ++ q)
              else Scalar.ofFloat value) ∧
    ∀ again : Float,
      (t.maskedFill mask value >>= fun r => r.maskedFill mask again)
        = t.maskedFill mask again := by
  refine ⟨fun h => maskedFill_misfit h value, fun h hd => maskedFill_kind h hd value,
    fun hd => ⟨⟨?_, ?_⟩, fun r hr => ⟨maskedFill_result hr, ?_⟩⟩,
    maskedFill_maskedFill t mask value⟩
  · rintro ⟨r, hr⟩
    by_contra hmisfit
    rw [maskedFill_misfit hmisfit] at hr
    cases hr
  · rintro ⟨tail, htail⟩
    rcases maskedFill_covers hd htail.symm value with ⟨r, hr, -⟩
    exact ⟨r, hr⟩
  · intro p q tail htail hp hq
    rcases maskedFill_covers hd htail value with ⟨r', hr', -, hE⟩
    rw [hr] at hr'
    cases hr'
    exact hE p q hp hq

/-- Four rows under a mask of floating words: what is not a number, the zeros of both signs
    and a number. -/
theorem maskedFill_fills_signedZeros :
    ∃ t mask r : Tensor, t.shape = [4, 2] ∧ mask.shape = [4] ∧
      mask.entry .float32 [0] = ⟨0x7fc00000⟩ ∧ mask.entry .float32 [1] = ⟨0x80000000⟩ ∧
      mask.entry .float32 [2] = 0 ∧ mask.entry .float32 [3] = 1 ∧
      t.maskedFill mask 7 = .ok r ∧
      r.entry .float64 [0, 1] = Scalar.ofFloat 7 ∧
      r.entry .float64 [1, 1] = t.entry .float64 [1, 1] ∧
      r.entry .float64 [2, 1] = t.entry .float64 [2, 1] ∧
      r.entry .float64 [3, 1] = Scalar.ofFloat 7 ∧
      r.maskedFill mask 8 = t.maskedFill mask 8 := by
  let t : Tensor := ⟨.float64, .fill [4, 2] 1, by decide⟩
  let mask : Tensor := ⟨.float32, ⟨[4], #[⟨0x7fc00000⟩, ⟨0x80000000⟩, 0, 1], rfl⟩, by decide⟩
  rcases maskedFill_fills t mask 7 with ⟨-, -, hfloat, hagain⟩
  rcases hfloat rfl with ⟨hok, hentries⟩
  rcases hok.mpr ⟨[2], rfl⟩ with ⟨r, hr⟩
  have hentry : ∀ i < 4, r.entry .float64 [i, 1]
      = if mask.entry .float32 [i] ∈ DType.float32.zeros then t.entry .float64 [i, 1]
        else Scalar.ofFloat 7 := by
    intro i hi
    exact (hentries r hr).2 [i] [1] [2] rfl (by simp [mask, shape, hi]) (by decide)
  refine ⟨t, mask, r, rfl, rfl, by decide, by decide, by decide, by decide, hr, ?_, ?_, ?_, ?_, ?_⟩
  · rw [hentry 0 (by decide), if_neg (by decide)]
  · rw [hentry 1 (by decide), if_pos (by decide)]
  · rw [hentry 2 (by decide), if_pos (by decide)]
  · rw [hentry 3 (by decide), if_neg (by decide)]
  · rw [← hagain 8, hr]
    rfl

end Tensor

end GraphAttention
