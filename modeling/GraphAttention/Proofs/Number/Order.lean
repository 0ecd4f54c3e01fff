import GraphAttention.Proofs.Number.Unit

/-!
# Numbers in Their Order

Finite numbers are compared without bringing them to one exponent: first the exponents
count, and the mantissas only if these are the same. This is the right order because
numbers that are read from words are canonical. A mantissa with all its bits is never
beaten by one at a lower exponent, and the only exponent at which bits may be missing is
the least.

The order is put as a key, with the sort first and exponent and mantissa turned around
below zero. Keys are ordered lexicographically, so the largest number of a list is the
one with the largest key, and no more has to be said about comparisons.

What the order is needed for is the sign of a difference. A number less one that is not
below it is not above zero, whether the difference has to be rounded or not.

## Main definitions

* `Number.key`: The place of a number in the order.

## Theorems

* `lt_iff_key_lt`: Numbers compare as their keys do.
* `le_of_key_le_positive`, `le_of_key_le_negative`: What an order of keys says of two
  numbers on the same side of zero.
* `shifted_le`: The same for the mantissas at a common exponent.
* `sort_sub_le`: Differences that are not above zero.
-/

namespace GraphAttention

namespace Number

open Float.Model (Format UnpackedFloat)
open Float.Model.UnpackedFloat

variable {S : Format} {x y : UnpackedFloat} {m m' : Nat} {e e' : Int} {hm : 0 < m} {hm' : 0 < m'}

/-! ### Keys -/

/-- The place of a number in the order: its sort, then exponent and mantissa, which are
    turned around below zero. -/
def key : UnpackedFloat → NumberSort ×ₗ Int ×ₗ Int
  | .finite .positive m e _ => toLex (.positive, toLex (e, (m : Int)))
  | .finite .negative m e _ => toLex (.negative, toLex (-e, -(m : Int)))
  | u => toLex (sort u, toLex (0, 0))

theorem fst_key (u : UnpackedFloat) : (ofLex (key u)).1 = sort u := by
  rcases u with ⟨_ | _⟩ | _ | _ | ⟨_ | _, _, _, _⟩ <;> rfl

/-- Two numbers above zero compare by their exponents, and by their mantissas if these are
    the same. -/
theorem positive_lt_iff : (UnpackedFloat.finite .positive m e hm).lt (.finite .positive m' e' hm')
    = true ↔ e < e' ∨ e = e' ∧ m < m' := by
  simp [UnpackedFloat.lt, UnpackedFloat.compare, Ordering.then_eq_lt, Int.compare_eq_lt,
    Nat.compare_eq_lt]

/-- Below zero it is the other way round. -/
theorem negative_lt_iff : (UnpackedFloat.finite .negative m e hm).lt (.finite .negative m' e' hm')
    = true ↔ e' < e ∨ e = e' ∧ m' < m := by
  simp [UnpackedFloat.lt, UnpackedFloat.compare, Ordering.then_eq_gt, Int.compare_eq_gt,
    Nat.compare_eq_gt]

/-- Numbers of one sort compare as the rest of their keys does. -/
theorem lt_iff_of_sort_eq (h : sort x = sort y) :
    x.lt y = true ↔ (ofLex (key x)).2 < (ofLex (key y)).2 := by
  -- Two of one sort differ in nothing unless both are finite and not zero.
  rcases x with ⟨_ | _⟩ | _ | _ | ⟨_ | _, m, e, hm⟩ <;>
    rcases y with ⟨_ | _⟩ | _ | _ | ⟨_ | _, m', e', hm'⟩ <;>
    first
      | (cases h; done)
      | exact iff_of_false Bool.false_ne_true (lt_irrefl (toLex ((0 : Int), (0 : Int))))
      | skip
  · rw [negative_lt_iff, Prod.Lex.lt_iff]
    change _ ↔ -e < -e' ∨ -e = -e' ∧ -(m : Int) < -m'
    omega
  · rw [positive_lt_iff, Prod.Lex.lt_iff]
    change _ ↔ e < e' ∨ e = e' ∧ (m : Int) < m'
    omega

/-- Numbers compare as their keys do. -/
theorem lt_iff_key_lt (hx : sort x ≠ .notANumber) (hy : sort y ≠ .notANumber) :
    x.lt y = true ↔ key x < key y := by
  rw [Prod.Lex.lt_iff, fst_key, fst_key]
  by_cases hsort : sort x = sort y
  · rw [lt_iff_of_sort_eq hsort, hsort]
    simp
  · rw [lt_iff_of_sort_ne hx hy hsort]
    simp [hsort]

/-- What is not a number has the least key. -/
theorem key_notANumber_le (u : UnpackedFloat) : key .notANumber ≤ key u := by
  rcases u with ⟨_ | _⟩ | _ | _ | ⟨_ | _, _, _, _⟩ <;>
    first
      | exact Prod.Lex.le_iff.mpr (.inl (of_decide_eq_true rfl))
      | exact le_refl _

theorem le_of_key_le_positive
    (h : key (.finite .positive m e hm) ≤ key (.finite .positive m' e' hm')) :
    e < e' ∨ e = e' ∧ m ≤ m' := by
  rcases Prod.Lex.le_iff.mp h with hlt | ⟨-, hle⟩
  · exact absurd hlt (lt_irrefl _)
  · rcases Prod.Lex.le_iff.mp hle with hlt | ⟨heq, hle⟩
    · exact .inl hlt
    · exact .inr ⟨heq, Int.ofNat_le.mp hle⟩

theorem le_of_key_le_negative
    (h : key (.finite .negative m e hm) ≤ key (.finite .negative m' e' hm')) :
    e' < e ∨ e' = e ∧ m' ≤ m := by
  rcases Prod.Lex.le_iff.mp h with hlt | ⟨-, hle⟩
  · exact absurd hlt (lt_irrefl _)
  · rcases Prod.Lex.le_iff.mp hle with hlt | ⟨heq, hle⟩
    · exact .inl (Int.neg_lt_neg_iff.mp hlt)
    · exact .inr ⟨(Int.neg_inj.mp heq).symm, Int.ofNat_le.mp (Int.neg_le_neg_iff.mp hle)⟩

/-! ### Differences -/

/-- The smaller of two numbers has the smaller mantissa once the larger exponent is lowered
    to the other one. -/
theorem shifted_le (h : Ranged S m e) (h' : Ranged S m' e') (hcanon : Canonical S m' e')
    (hle : e < e' ∨ e = e' ∧ m ≤ m') :
    (decreaseExponent m e (min e e')).1 ≤ (decreaseExponent m' e' (min e e')).1 := by
  simp only [decreaseExponent, Nat.shiftLeft_eq]
  rcases hle with hlt | ⟨rfl, hle⟩
  · -- The larger exponent is not the least one, so its mantissa is full.
    have hfull : m'.log2 + 1 = S.mantissaBits := hcanon.resolve_right fun heq => by
      have := h.least
      omega
    have hleading : 2 ^ m'.log2 ≤ m' := Nat.log2_self_le (Nat.ne_of_gt h'.pos)
    have hlow := h.lt
    obtain ⟨k, hk⟩ : ∃ k, (e' - min e e').toNat = k + 1 := ⟨(e' - e).toNat - 1, by omega⟩
    have hzero : (e - min e e').toNat = 0 := by omega
    rw [hk, hzero]
    rw [← hfull, Nat.pow_succ] at hlow
    have hstep : m' * 2 ≤ m' * 2 ^ (k + 1) := by
      have := Nat.two_pow_pos k
      rw [Nat.pow_succ]
      exact Nat.mul_le_mul_left _ (by omega)
    omega
  · exact Nat.mul_le_mul_right _ hle

/-- What is not above zero is rounded as such. -/
theorem sort_normalize_le {k : Int} (hk : k ≤ 0) (S : Format) (e : Int) :
    sort (UnpackedFloat.normalize S k e .positive) ≤ .zero := by
  unfold UnpackedFloat.normalize
  cases hsign : compare k 0 with
  | lt =>
    have hneg : k < 0 := Int.compare_eq_lt.mp hsign
    rcases round_ranged (show 0 < (-k).toNat by omega) S .negative e with
      hround | ⟨m', e', h, hround, -⟩
    · exact le_of_eq (congrArg sort hround)
    · exact le_of_eq_of_le (congrArg sort hround) (of_decide_eq_true rfl)
  | eq => exact le_refl _
  | gt => exact absurd (Int.compare_eq_gt.mp hsign) (by omega)

theorem sort_stored_le {u : UnpackedFloat} (h : Readable S u) (hu : sort u ≤ .zero) :
    sort (stored S u) ≤ .zero := by
  rcases sort_stored h with heq | ⟨hsort, -⟩ | ⟨-, hstored⟩
  · rwa [heq]
  · rw [hsort] at hu
    exact absurd hu (by decide)
  · rw [hstored]
    decide

/-- The difference of two finite numbers before it is rounded. -/
theorem sub_finite (S : Format) (s t : Sign) (hm : 0 < m) (hm' : 0 < m') (e e' : Int) :
    sub S (.finite s m e hm) (.finite t m' e' hm') = UnpackedFloat.normalize S
      (s.apply (decreaseExponent m e (min e e')).1 - t.apply (decreaseExponent m' e' (min e e')).1)
      (min e e') .positive := rfl

/-- The difference of a number and one that is not below it is not above zero. -/
theorem sort_sub_le (hx : Readable S x) (hy : Readable S y) (hx' : stored S x = x)
    (hy' : stored S y = y) (hxfinite : (sort x).isFinite = true)
    (hyfinite : (sort y).isFinite = true) (hle : key x ≤ key y) :
    sort (sub S x y) ≤ .zero := by
  have hsort : sort x ≤ sort y := by
    rw [← fst_key x, ← fst_key y]
    exact Prod.Lex.monotone_fst _ _ hle
  cases hx with
  | notANumber => cases hxfinite
  | infinity s => cases s <;> cases hxfinite
  | zero s =>
    cases hy with
    | notANumber => cases hyfinite
    | infinity t => cases t <;> cases hyfinite
    | zero t => cases s <;> cases t <;> exact of_decide_eq_true rfl
    | finite t h' =>
      cases t with
      | negative => exact absurd hsort (of_decide_eq_true rfl)
      | positive => exact of_decide_eq_true rfl
  | @finite s m e h =>
    cases hy with
    | notANumber => cases hyfinite
    | infinity t => cases t <;> cases hyfinite
    | zero t => exact hsort
    | @finite t m' e' h' =>
      rw [sub_finite]
      refine sort_normalize_le ?_ S _
      cases s with
      | negative =>
        cases t with
        | negative =>
          -- Below zero the second number is the one with the smaller mantissa.
          have hshifted := shifted_le h' h (canonical_of_stored h hx') (le_of_key_le_negative hle)
          rw [min_comm e' e] at hshifted
          simp only [Sign.apply]
          omega
        | positive =>
          simp only [Sign.apply]
          omega
      | positive =>
        cases t with
        | negative => exact absurd hsort (of_decide_eq_true rfl)
        | positive =>
          have hshifted := shifted_le h h' (canonical_of_stored h' hy') (le_of_key_le_positive hle)
          simp only [Sign.apply]
          omega

end Number

end GraphAttention
