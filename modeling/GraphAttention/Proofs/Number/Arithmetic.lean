import GraphAttention.Proofs.Number.Value
import Mathlib.Data.EReal.Basic

/-!
# Arithmetic as Rounding

Sums, differences and products of finite numbers are the nearest numbers to the exact ones. The
results are in the form in which they are stored. So one operation can follow another before
anything is stored, and what is stored is changed only beyond the ends of the format.

## Theorems

* `settled_of_isFinite`: Finite numbers that were read.
* `settled_round`, `settled_normalize`: What is rounded is in the form in which it is stored.
* `Settled.nearest_eq`: It is not rounded again.
* `settled_add`, `settled_sub`, `settled_mul`: Sums, differences and products.
-/

namespace GraphAttention

namespace Number

open Float.Model (Format UnpackedFloat totalExponent)
open Float.Model.UnpackedFloat

variable {S : Format} {s t : Sign} {u v : UnpackedFloat} {m m' : Nat} {e e' : Int} {x y : ℚ}

/-! ### Settled numbers -/

/-- A finite number that was read is settled. -/
theorem settled_of_isFinite (hu : Readable S u) (hstored : stored S u = u)
    (hfinite : (sort u).isFinite = true) : Settled S u := by
  cases hu with
  | notANumber => cases hfinite
  | infinity s => cases s <;> cases hfinite
  | zero s => exact .zero s
  | finite s h => exact .finite s h (canonical_of_stored h hstored)

/-- Rounding leaves a number as it is to be stored, if its exponent is not too high. -/
theorem settled_roundWithAccuracy (he : e ≤ S.targetExponent (totalExponent m e)) (s : Sign) :
    Settled S (roundWithAccuracy S s m e .exact) := by
  rcases roundWithAccuracy_binade S s m e .exact with
    ⟨r, hlow, -, ⟨-, hzero⟩ | ⟨hpos, m', e', h, hround, -, hplace⟩⟩
  · rw [hzero]
    exact .zero s
  · rw [hround]
    refine .finite s h ?_
    rcases hplace with ⟨rfl, rfl⟩ | hfull
    · -- Shifted for its length, the mantissa has kept its leading bit.
      have hlog := log2_le_log2 hlow
      rw [log2_div_two_pow] at hlog
      have hfits := (Nat.log2_lt (Nat.ne_of_gt h.pos)).mpr h.lt
      unfold Canonical shiftAmount at *
      unfold Format.targetExponent totalExponent at *
      omega
    · exact .inl hfull

theorem settled_round (hm : 0 < m) (S : Format) (s : Sign) (e : Int) :
    Settled S (UnpackedFloat.round S s m e) := by
  rcases round_eq hm S s e with ⟨m₁, e₁, hround, -, -, htarget, -⟩
  rw [hround]
  exact settled_roundWithAccuracy htarget s

theorem settled_normalize (S : Format) (k e : Int) (z : Sign) :
    Settled S (UnpackedFloat.normalize S k e z) := by
  unfold UnpackedFloat.normalize
  cases hsign : compare k 0 with
  | lt =>
    have hk : k < 0 := Int.compare_eq_lt.mp hsign
    exact settled_round (by omega) S .negative e
  | eq => exact .zero z
  | gt =>
    have hk : 0 < k := Int.compare_eq_gt.mp hsign
    exact settled_round (by omega) S .positive e

theorem abs_apply (s : Sign) (m : Nat) : |s.apply (m : ℤ)| = m := by
  cases s <;> simp [Sign.apply]

/-- What is settled is not rounded again. -/
theorem Settled.nearest_eq (h : Settled S u) : nearest S (value u) = value u := by
  cases h with
  | zero s => exact nearest_zero S
  | finite s h _ =>
    refine nearest_of_mul ?_ h.least
    rw [abs_apply]
    exact_mod_cast h.lt

/-! ### Sums, differences and products -/

/-- A mantissa at a lower exponent stands for the same number. -/
theorem value_decreaseExponent (s : Sign) (m : Nat) (h : e' ≤ e) :
    ((s.apply (decreaseExponent m e e').1 : ℤ) : ℚ) * 2 ^ e' = (s.apply m : ℤ) * 2 ^ e := by
  obtain ⟨k, rfl⟩ : ∃ k : ℕ, e' + k = e := Int.le.dest h
  have hshift : (e' + k - e').toNat = k := by omega
  rw [decreaseExponent, hshift, Nat.shiftLeft_eq, apply_eq, apply_eq s m, zpow_add₀ (by norm_num),
    zpow_natCast]
  push_cast
  ring

/-- The sum of two finite numbers before it is rounded. -/
theorem add_finite (S : Format) (s t : Sign) (hm : 0 < m) (hm' : 0 < m') (e e' : Int) :
    add S (.finite s m e hm) (.finite t m' e' hm') = UnpackedFloat.normalize S
      (s.apply (decreaseExponent m e (min e e')).1 + t.apply (decreaseExponent m' e' (min e e')).1)
      (min e e') .positive := rfl

/-- A sum is the nearest number to the exact one. -/
theorem settled_add (hu : Settled S u) (hv : Settled S v) :
    Settled S (add S u v) ∧ value (add S u v) = nearest S (value u + value v) := by
  cases hu with
  | zero s =>
    cases hv with
    | zero t =>
      rcases zero_add_zero S s t with ⟨z, hz⟩
      rw [hz, value_zero, value_zero, value_zero, add_zero, nearest_zero]
      exact ⟨.zero z, rfl⟩
    | finite t h hcanon =>
      have hv := Settled.finite t h hcanon
      rw [value_zero, zero_add, hv.nearest_eq]
      exact ⟨hv, rfl⟩
  | finite s h hcanon =>
    have hu := Settled.finite s h hcanon
    cases hv with
    | zero t =>
      rw [value_zero, add_zero, hu.nearest_eq]
      exact ⟨hu, rfl⟩
    | finite t h' hcanon' =>
      rw [add_finite]
      refine ⟨settled_normalize S _ _ _, (value_normalize S _ _ _).trans ?_⟩
      rw [Int.cast_add, add_mul, value_decreaseExponent s _ (min_le_left _ _),
        value_decreaseExponent t _ (min_le_right _ _)]
      rfl

/-- A difference is the nearest number to the exact one. -/
theorem settled_sub (hu : Settled S u) (hv : Settled S v) :
    Settled S (sub S u v) ∧ value (sub S u v) = nearest S (value u - value v) := by
  cases hu with
  | zero s =>
    cases hv with
    | zero t =>
      have hsub : ∃ z, sub S (.zero s) (.zero t) = .zero z := by
        cases s <;> cases t <;> exact ⟨_, rfl⟩
      rcases hsub with ⟨z, hz⟩
      rw [hz, value_zero, value_zero, value_zero, sub_zero, nearest_zero]
      exact ⟨.zero z, rfl⟩
    | @finite t m e h hcanon =>
      have hv := Settled.finite t h hcanon
      have hneg : value (.finite (-t) m e h.pos) = -value (.finite t m e h.pos) := by
        cases t <;> simp [value, Sign.apply]
      rw [value_zero, zero_sub, nearest_neg, hv.nearest_eq]
      exact ⟨.finite (-t) h hcanon, hneg⟩
  | finite s h hcanon =>
    have hu := Settled.finite s h hcanon
    cases hv with
    | zero t =>
      rw [value_zero, sub_zero, hu.nearest_eq]
      exact ⟨hu, rfl⟩
    | finite t h' hcanon' =>
      rw [sub_finite]
      refine ⟨settled_normalize S _ _ _, (value_normalize S _ _ _).trans ?_⟩
      rw [Int.cast_sub, sub_mul, value_decreaseExponent s _ (min_le_left _ _),
        value_decreaseExponent t _ (min_le_right _ _)]
      rfl

/-- The exact product of two numbers of a format has all the bits that are kept of it. -/
theorem mul_targetExponent (hS : S.minExponent ≤ 0) (h : Ranged S m e) (h' : Ranged S m' e')
    (hcanon : Canonical S m e) (hcanon' : Canonical S m' e') :
    e + e' ≤ S.targetExponent (totalExponent (m * m') (e + e')) := by
  have hlog := log2_le_log2 (Nat.le_mul_of_pos_right m h'.pos)
  have hlog' := log2_le_log2 (Nat.le_mul_of_pos_left m' h.pos)
  unfold Canonical at hcanon hcanon'
  unfold Format.targetExponent totalExponent
  omega

/-- A product is the nearest number to the exact one. -/
theorem settled_mul (hS : S.minExponent ≤ 0) (hu : Settled S u) (hv : Settled S v) :
    Settled S (mul S u v) ∧ value (mul S u v) = nearest S (value u * value v) := by
  cases hu with
  | zero s =>
    rw [value_zero, zero_mul, nearest_zero]
    cases hv with
    | zero t => exact ⟨.zero _, rfl⟩
    | finite t h' hcanon' => exact ⟨.zero _, rfl⟩
  | @finite s m e h hcanon =>
    cases hv with
    | zero t =>
      rw [value_zero, mul_zero, nearest_zero]
      exact ⟨.zero _, rfl⟩
    | @finite t m' e' h' hcanon' =>
      have hsign : (s * t).apply 1 = s.apply 1 * t.apply 1 := by
        cases s <;> cases t <;> rfl
      have hexact : (s * t).apply (m * m' : Nat) = s.apply m * t.apply m' := by
        rw [apply_eq, hsign, apply_eq s m, apply_eq t m', Nat.cast_mul, mul_mul_mul_comm]
      refine ⟨settled_roundWithAccuracy (mul_targetExponent hS h h' hcanon hcanon') _,
        (value_roundWithAccuracy (Nat.mul_pos h.pos h'.pos) S _ _).trans ?_⟩
      rw [hexact, zpow_add₀ (by norm_num), Int.cast_mul, mul_mul_mul_comm]
      rfl

end Number

end GraphAttention
