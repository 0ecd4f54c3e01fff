import GraphAttention.Proofs.Number.Word

/-!
# Multiplying by One

A product is rounded, but a product with one has nothing to lose. Its mantissa is the one of
the other factor with zeros behind it, the shift takes these zeros away again, and what is
left is rounded to itself. So a number that was read from a word is left as it is, in any
format: also an infinity, a zero with its sign, and what is not a number.

For words there is one exception. Many words are not a number, and a product that is none is
stored as one of them. A sum is stored in the same way, so a factor of one changes nothing of
what was summed up, bit for bit.

## Main definitions

* `Number.unit`: The number one of a format.

## Theorems

* `shiftRight_mul_two_pow`: Zeros that are shifted out leave no trace.
* `canonical_of_stored`: What is stored as it is was canonical.
* `roundWithAccuracy_exact`: What fits is rounded to itself.
* `mul_unit`: The product of a number with one.
* `Binary64.ofFloat_mul_one`, `Binary32.ofFloat32_mul_one`: The same for results as words.
* `DType.sum_mul_one`, `DType.zero_mul_one`: The same for elements of a floating kind.
-/

namespace GraphAttention

namespace Number

open Float.Model (Format UnpackedFloat totalExponent)
open Float.Model.UnpackedFloat

variable {S : Format} {s : Sign} {m : Nat} {e : Int}

/-- The number one: the leading bit of a mantissa, at an exponent that makes it one. -/
def unit (S : Format) : UnpackedFloat :=
  .finite .positive (2 ^ S.mantissaBitsWithoutImplicit) (-S.mantissaBitsWithoutImplicit)
    (Nat.two_pow_pos _)

/-- Zeros that are shifted out leave no trace. -/
theorem shiftRight_mul_two_pow (m k : Nat) :
    (⟨m * 2 ^ k, false, false⟩ : ExtendedMantissa) >>> k = ⟨m, false, false⟩ := by
  induction k generalizing m with
  | zero => simp [HShiftRight.hShiftRight, Nat.repeat]
  | succ k ih =>
    -- One bit more than the zeros of twice the mantissa, which is its last one.
    have htwice : m * 2 ^ (k + 1) = m * 2 * 2 ^ k := by
      rw [Nat.pow_succ, Nat.mul_comm (2 ^ k) 2, Nat.mul_assoc]
    rw [htwice]
    change ExtendedMantissa.shiftRightOne ((⟨m * 2 * 2 ^ k, false, false⟩ : ExtendedMantissa) >>> k)
      = _
    rw [ih (m * 2)]
    simp [ExtendedMantissa.shiftRightOne]

/-- What is stored as it is was canonical. -/
theorem canonical_of_stored (h : Ranged S m e)
    (hstored : stored S (.finite s m e h.pos) = .finite s m e h.pos) : Canonical S m e := by
  by_cases hfull : m.log2 + 1 = S.mantissaBits
  · exact .inl hfull
  · by_cases hlarge : S.exponentBias < e + S.mantissaBitsWithoutImplicit
    · rw [stored_overflow h.pos hlarge] at hstored
      cases hstored
    · rw [stored_few h hfull (by omega)] at hstored
      injection hstored with _ _ hexponent
      exact .inr hexponent.symm

/-- Zeros behind a canonical mantissa are what it is shifted by. -/
theorem shiftAmount_mul_two_pow (h : Ranged S m e) (hcanon : Canonical S m e) (k : Nat) :
    shiftAmount S (m * 2 ^ k) (e - k) = k := by
  have hlog := log2_mul_two_pow h.pos k
  have hfits := (Nat.log2_lt (Nat.ne_of_gt h.pos)).mpr h.lt
  have hleast := h.least
  unfold Canonical at hcanon
  unfold shiftAmount Format.targetExponent totalExponent
  omega

/-- What fits is rounded to itself, whatever zeros it has behind. -/
theorem roundWithAccuracy_exact (h : Ranged S m e) (hcanon : Canonical S m e) (s : Sign) (k : Nat) :
    roundWithAccuracy S s (m * 2 ^ k) (e - k) .exact = .finite s m e h.pos := by
  have hexponent : e - k + k = e := by omega
  have hrounded : (ExtendedMantissa.ofMantissaAndAccuracy (m * 2 ^ k) .exact
      >>> k).roundedMantissa = m := congrArg _ (shiftRight_mul_two_pow m k)
  rw [roundWithAccuracy_eq, shiftAmount_mul_two_pow h hcanon, hrounded, hexponent]
  -- There is nothing to round, so the mantissa is as short as it was.
  exact carried_of_ranged h s

/-- The product with one of a number that was read is that number. -/
theorem mul_unit {u : UnpackedFloat} (hu : Readable S u) (hstored : stored S u = u) :
    mul S u (unit S) = u := by
  cases hu with
  | notANumber => rfl
  | infinity s => cases s <;> rfl
  | zero s => cases s <;> rfl
  | @finite s m e h =>
    have hsign : s * .positive = s := by cases s <;> rfl
    change roundWithAccuracy S (s * .positive) (m * 2 ^ S.mantissaBitsWithoutImplicit)
      (e - S.mantissaBitsWithoutImplicit) .exact = _
    rw [hsign]
    exact roundWithAccuracy_exact h (canonical_of_stored h hstored) s _

end Number

open Float.Model (Format)
open Float.Model.UnpackedFloat (pack_unpack_of_valid)

/-! ### Words -/

namespace Binary64

/-- A number is its own product with one. -/
theorem toFloat_mul_one (f : Float) : f * (1 : Binary64).toFloat = f := by
  have hone : (1 : Binary64).toFloat.toModel.unpack = Number.unit Format.binary64 := rfl
  have hunpack : Number.stored Format.binary64 f.toModel.unpack = f.toModel.unpack :=
    Number.stored_unpack (by decide) _
  have hread : Number.Readable Format.binary64 f.toModel.unpack := Number.readable_unpack _ _
  rcases f with ⟨⟨b, hvalid⟩⟩
  change Float.ofModel (Float.Model.pack (.mul Format.binary64 _ _)) = _
  rw [hone, Number.mul_unit hread hunpack]
  simp only [Float.Model.pack, Float.Model.unpack, pack_unpack_of_valid hvalid]

/-- What was stored as a result is left as it is by a factor of one. -/
theorem ofFloat_mul_one (f : Float) : ofFloat f * 1 = ofFloat f := by
  change ofFloat (Float.ofBits f.toBits * (1 : Binary64).toFloat) = _
  rw [Float.ofBits_toBits, toFloat_mul_one]

end Binary64

namespace Binary32

/-- A number is its own product with one. -/
theorem toFloat32_mul_one (f : Float32) : f * (1 : Binary32).toFloat32 = f := by
  have hone : (1 : Binary32).toFloat32.toModel.unpack = Number.unit Format.binary32 := rfl
  have hunpack : Number.stored Format.binary32 f.toModel.unpack = f.toModel.unpack :=
    Number.stored_unpack (by decide) _
  have hread : Number.Readable Format.binary32 f.toModel.unpack := Number.readable_unpack _ _
  rcases f with ⟨⟨b, hvalid⟩⟩
  change Float32.ofModel (Float32.Model.pack (.mul Format.binary32 _ _)) = _
  rw [hone, Number.mul_unit hread hunpack]
  simp only [Float32.Model.pack, Float32.Model.unpack, pack_unpack_of_valid hvalid]

/-- What was stored as a result is left as it is by a factor of one. -/
theorem ofFloat32_mul_one (f : Float32) : ofFloat32 f * 1 = ofFloat32 f := by
  change ofFloat32 (Float32.ofBits f.toBits * (1 : Binary32).toFloat32) = _
  rw [Float32.ofBits_toBits, toFloat32_mul_one]

end Binary32

/-! ### Elements of any kind -/

namespace DType

variable {d : DType}

/-- The cast of one is one. -/
theorem ofFloat_one (hd : d.isFloat = true) : (Scalar.ofFloat 1 : d.Elem) = 1 := by
  cases d with
  | float32 => decide +kernel
  | float64 => decide +kernel
  | int64 => cases hd
  | uint8 => cases hd

/-- A factor of one changes nothing of a sum. -/
theorem sum_mul_one (hd : d.isFloat = true) (x y : d.Elem) :
    (x + y) * Scalar.ofFloat 1 = x + y := by
  rw [ofFloat_one hd]
  cases d with
  | float32 => exact Binary32.ofFloat32_mul_one _
  | float64 => exact Binary64.ofFloat_mul_one _
  | int64 => cases hd
  | uint8 => cases hd

/-- A factor of one leaves zero as it is. -/
theorem zero_mul_one (hd : d.isFloat = true) : (0 : d.Elem) * Scalar.ofFloat 1 = 0 := by
  rw [ofFloat_one hd]
  cases d with
  | float32 => decide +kernel
  | float64 => decide +kernel
  | int64 => cases hd
  | uint8 => cases hd

end DType

end GraphAttention
