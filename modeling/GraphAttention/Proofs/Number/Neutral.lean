import GraphAttention.Proofs.Number.Unit

/-!
# Neutral Summands and Factors

Adding zero is not always without effect: negative zero plus zero is zero, and the
sign is lost. A sum over a range never gets there. It starts at zero, and a sum is
negative zero only if both of its summands are, since no sum of two numbers of a format
is too small to be stored. So a zero of either sign adds nothing to a sum, bit for
bit, and a factor of one leaves it as it is.

## Theorems

* `Number.add_zero_eq`: A zero adds nothing to what is not negative zero.
* `Number.add_ne_negativeZero`: When a sum is not negative zero.
* `NumberWord.number_sumRange_ne`: A sum over a range never is.
* `DType.sumRange_add_zero`, `DType.sumRange_mul_one`: The same for elements of any kind.
-/

namespace GraphAttention

theorem sumRange_zero {α : Type} [Zero α] [Add α] (f : Nat → α) : sumRange 0 f = 0 :=
  rfl

theorem sumRange_succ {α : Type} [Zero α] [Add α] (n : Nat) (f : Nat → α) :
    sumRange (n + 1) f = sumRange n f + f n := by
  simp [sumRange, List.range_succ]

namespace Number

open Float.Model (Format UnpackedFloat)
open Float.Model.UnpackedFloat

variable {S : Format} {u v : UnpackedFloat} {k e : Int}

/-- A zero adds nothing to what is not negative zero. -/
theorem add_zero_eq (S : Format) (h : u ≠ .zero .negative) (s : Sign) : add S u (.zero s) = u := by
  cases u with
  | infinity t => rfl
  | notANumber => rfl
  | finite t m e hm => rfl
  | zero t =>
    cases t with
    | negative => exact absurd rfl h
    | positive => cases s <;> rfl

/-- What is rounded from an exponent that a format has is not too small for it. -/
theorem normalize_ne_negativeZero (he : S.minExponent ≤ e) :
    UnpackedFloat.normalize S k e .positive ≠ .zero .negative := by
  unfold UnpackedFloat.normalize
  cases hsign : compare k 0 with
  | lt =>
    have hk : k < 0 := Int.compare_eq_lt.mp hsign
    rcases round_kept (show 0 < (-k).toNat by omega) he .negative with ⟨m', e', h, hround, -⟩
    rw [hround]
    exact nofun
  | eq => exact nofun
  | gt =>
    have hk : 0 < k := Int.compare_eq_gt.mp hsign
    rcases round_kept (show 0 < k.toNat by omega) he .positive with ⟨m', e', h, hround, -⟩
    rw [hround]
    exact nofun

/-- A sum is negative zero only if its first summand is. -/
theorem add_ne_negativeZero (hu : Readable S u) (hv : Readable S v) (h : u ≠ .zero .negative) :
    add S u v ≠ .zero .negative := by
  cases hu with
  | notANumber => exact nofun
  | infinity s =>
    cases hv with
    | notANumber => exact nofun
    | infinity t => cases s <;> cases t <;> exact nofun
    | zero t => exact nofun
    | finite t h' => exact nofun
  | zero s =>
    cases hv with
    | notANumber => exact nofun
    | infinity t => exact nofun
    | zero t =>
      cases s with
      | negative => exact absurd rfl h
      | positive => cases t <;> exact nofun
    | finite t h' => exact nofun
  | finite s hm =>
    cases hv with
    | notANumber => exact nofun
    | infinity t => exact nofun
    | zero t => exact nofun
    | finite t hm' =>
      exact normalize_ne_negativeZero (Std.le_min_iff.mpr ⟨hm.least, hm'.least⟩)

/-- Storing does not make a number negative zero. -/
theorem stored_ne_negativeZero (hu : Readable S u) (h : u ≠ .zero .negative) :
    stored S u ≠ .zero .negative := by
  cases hu with
  | notANumber =>
    rw [stored_notANumber]
    exact h
  | infinity s =>
    rw [stored_infinity]
    exact h
  | zero s =>
    rw [stored_zero]
    exact h
  | finite s hm =>
    rcases stored_ranged hm s with ⟨-, hstored⟩ | ⟨e', -, h', hstored⟩ <;>
    · rw [hstored]
      exact nofun

end Number

/-! ### Words -/

namespace NumberWord

open Float.Model (UnpackedFloat)

variable {α : Type} [RealScalar α] [NumberWord α]

/-- A sum over a range is not negative zero, whatever is added. -/
theorem number_sumRange_ne (n : Nat) (f : Nat → α) :
    number (sumRange n f) ≠ .zero .negative := by
  induction n with
  | zero =>
    change number (0 : α) ≠ _
    rw [number_zero]
    exact nofun
  | succ n ih =>
    rw [sumRange_succ, number_add]
    exact Number.stored_ne_negativeZero (Number.readable_add (readable _) (readable _))
      (Number.add_ne_negativeZero (readable _) (readable _) ih)

end NumberWord

open Float.Model.UnpackedFloat (pack_unpack_of_valid)

namespace Binary64

/-- A zero added to a number that is not negative zero leaves it as it is. -/
theorem ofFloat_add_zero {f : Float} (hf : f.toModel.unpack ≠ .zero .negative) {z : Binary64}
    (hz : z ∈ zeros) : ofFloat f + z = ofFloat f := by
  rcases unpack_eq_zero_iff.mpr hz with ⟨s, hs⟩
  rcases f with ⟨⟨b, hvalid⟩⟩
  change ofFloat (Float.ofBits (Float.toBits _) + z.toFloat) = _
  rw [Float.ofBits_toBits]
  -- The sum of two numbers is the sum of what they stand for, packed again.
  change ofFloat (Float.ofModel (Float.Model.pack (.add _ _ z.toFloat.toModel.unpack))) = _
  rw [hs, Number.add_zero_eq _ hf]
  simp only [Float.Model.pack, Float.Model.unpack, pack_unpack_of_valid hvalid]

/-- A sum over a range is left as it is by a zero. -/
theorem sumRange_add_zero (n : Nat) (f : Nat → Binary64) {z : Binary64} (hz : z ∈ zeros) :
    sumRange n f + z = sumRange n f := by
  cases n with
  | zero =>
    rw [sumRange_zero]
    rcases List.mem_pair.mp hz with rfl | rfl <;> decide +kernel
  | succ n =>
    have hsum := NumberWord.number_sumRange_ne (n + 1) f
    rw [sumRange_succ] at hsum ⊢
    refine ofFloat_add_zero ?_ hz
    rwa [← Float.ofBits_toBits (_ + _)]

/-- A sum over a range is left as it is by a factor of one. -/
theorem sumRange_mul_one (n : Nat) (f : Nat → Binary64) : sumRange n f * 1 = sumRange n f := by
  cases n with
  | zero =>
    rw [sumRange_zero]
    decide +kernel
  | succ n =>
    rw [sumRange_succ]
    exact ofFloat_mul_one _

end Binary64

namespace Binary32

/-- A zero added to a number that is not negative zero leaves it as it is. -/
theorem ofFloat32_add_zero {f : Float32} (hf : f.toModel.unpack ≠ .zero .negative) {z : Binary32}
    (hz : z ∈ zeros) : ofFloat32 f + z = ofFloat32 f := by
  rcases unpack_eq_zero_iff.mpr hz with ⟨s, hs⟩
  rcases f with ⟨⟨b, hvalid⟩⟩
  change ofFloat32 (Float32.ofBits (Float32.toBits _) + z.toFloat32) = _
  rw [Float32.ofBits_toBits]
  change ofFloat32 (Float32.ofModel (Float32.Model.pack
    (.add _ _ z.toFloat32.toModel.unpack))) = _
  rw [hs, Number.add_zero_eq _ hf]
  simp only [Float32.Model.pack, Float32.Model.unpack, pack_unpack_of_valid hvalid]

/-- A sum over a range is left as it is by a zero. -/
theorem sumRange_add_zero (n : Nat) (f : Nat → Binary32) {z : Binary32} (hz : z ∈ zeros) :
    sumRange n f + z = sumRange n f := by
  cases n with
  | zero =>
    rw [sumRange_zero]
    rcases List.mem_pair.mp hz with rfl | rfl <;> decide +kernel
  | succ n =>
    have hsum := NumberWord.number_sumRange_ne (n + 1) f
    rw [sumRange_succ] at hsum ⊢
    refine ofFloat32_add_zero ?_ hz
    rwa [← Float32.ofBits_toBits (_ + _)]

/-- A sum over a range is left as it is by a factor of one. -/
theorem sumRange_mul_one (n : Nat) (f : Nat → Binary32) : sumRange n f * 1 = sumRange n f := by
  cases n with
  | zero =>
    rw [sumRange_zero]
    decide +kernel
  | succ n =>
    rw [sumRange_succ]
    exact ofFloat32_mul_one _

end Binary32

/-! ### Elements of any kind -/

namespace DType

variable {d : DType}

/-- What passes for zero adds nothing to a sum over a range. -/
theorem sumRange_add_zero (n : Nat) (f : Nat → d.Elem) {z : d.Elem}
    (hz : Scalar.isNonzero z = false) : sumRange n f + z = sumRange n f := by
  have hz := isNonzero_eq_false_iff_mem.mp hz
  cases d with
  | float32 => exact Binary32.sumRange_add_zero n f hz
  | float64 => exact Binary64.sumRange_add_zero n f hz
  | int64 =>
    obtain rfl := List.mem_singleton.mp hz
    exact Int64.add_zero _
  | uint8 =>
    obtain rfl := List.mem_singleton.mp hz
    exact UInt8.add_zero _

/-- A factor of one changes nothing of a sum over a range. -/
theorem sumRange_mul_one (n : Nat) (f : Nat → d.Elem) : sumRange n f * 1 = sumRange n f := by
  cases d with
  | float32 => exact Binary32.sumRange_mul_one n f
  | float64 => exact Binary64.sumRange_mul_one n f
  | int64 => exact Int64.mul_one _
  | uint8 => exact UInt8.mul_one _

end DType

end GraphAttention
