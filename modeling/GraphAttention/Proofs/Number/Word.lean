import GraphAttention.Proofs.Number.Sort
import GraphAttention.Scalar.DType

/-!
# Words as Numbers

The floating kinds of element compute through the numbers of a format: both
operands are read, the operation is done, and the result is stored. The two kinds
differ in the format alone. `NumberWord` says this once, as a class with one
equation for each operation, and everything else about words is derived from
the equations for any kind that has them.

What is derived here is how an operation acts on sorts. The laws are the ones a
softmax needs: what is not a number stays so, a finite number less itself is
zero, exponentials are not negative, and zero over anything above zero is zero.

## Main definitions

* `NumberWord`: A kind whose words are computed with as numbers.
* `NumberWord.sort`: The sort of a word.
* `DType.sort`: The sort of an element of any kind.
* `DType.zeros`: The elements that pass for zero.

## Theorems

* `sort_add_notANumber`, `sort_zero_add_zero`, `le_sort_add`: Sums.
* `sort_sub_notANumber`, `sort_sub_self`, `sort_sub_ne`, `sort_negInf_sub`,
  `sort_posInf_sub`: Differences.
* `sort_mul_zero`, `sort_mul_of_isFinite`, `sort_div_notANumber`, `sort_zero_div`:
  Products and quotients.
* `maxNum_mem`, `sort_maxNum`: The larger of two words.
* `sort_exp_notANumber`, `sort_exp_negInf`, `exp_of_sort_zero`, `le_sort_exp`:
  Exponentials.
* `DType.isNonzero_eq_false_iff`, `DType.isNonzero_eq_false_iff_mem`: What is not told
  from zero, by its sort and by its words.
-/

namespace GraphAttention

open Float.Model (Format UnpackedFloat)

/-- A kind of element whose words stand for numbers of a format and are computed
    with through these. -/
class NumberWord (α : Type) [RealScalar α] where
  /-- The format of the words. -/
  format : Format
  /-- The number a word stands for. -/
  number : α → UnpackedFloat
  readable : ∀ x, Number.Readable format (number x)
  number_zero : number 0 = .zero .positive
  sort_one : Number.sort (number 1) = .positive
  number_negInf : number RealScalar.negInf = .infinity .negative
  number_add : ∀ x y,
    number (x + y) = Number.stored format (.add format (number x) (number y))
  number_sub : ∀ x y,
    number (x - y) = Number.stored format (.sub format (number x) (number y))
  number_mul : ∀ x y,
    number (x * y) = Number.stored format (.mul format (number x) (number y))
  number_div : ∀ x y,
    number (x / y) = Number.stored format (.div format (number x) (number y))
  isNonzero_eq : ∀ x, Scalar.isNonzero x = !(number x).beq (.zero .positive)
  isNegInf_iff : ∀ x, RealScalar.isNegInf x = true ↔ number x = .infinity .negative
  maxNum_eq : ∀ x y, RealScalar.maxNum x y
    = if (number x).isNaN then y
      else if (number y).isNaN then x
      else if (number x).lt (number y) then y else x
  /-- What is known of the exponential. The word `y` is what is computed. -/
  exp_eq : ∀ x, ∃ (y : α) (above : Bool), RealScalar.exp x
    = if (number x).isNaN then x
      else if (number x).isInf then (if (number x).lt (.zero .positive) then 0 else x)
      else if (number x).lt (.zero .positive) then (if above then 1 else RealScalar.maxNum 0 y)
      else if (UnpackedFloat.zero .positive).lt (number x) then RealScalar.maxNum 1 y
      else 1

/-! ### The two kinds -/

namespace Binary64

/-- A word is read as the number that its bits stand for. -/
theorem unpack_toFloat (b : UInt64) :
    (⟨b⟩ : Binary64).toFloat.toModel.unpack = .unpack Format.binary64 b.toBitVec :=
  Number.stored_unpack (by decide) _

theorem toFloat_lt_iff (x y : Float) : x < y ↔ x.toModel.unpack.lt y.toModel.unpack = true :=
  decide_eq_true_iff

theorem eq_negInf_of_unpack {x : Binary64} (h : x.toFloat.toModel.unpack = .infinity .negative) :
    x = negInf := by
  rcases x with ⟨b⟩
  rw [unpack_toFloat] at h
  exact congrArg mk (UInt64.toBitVec_inj.mp (Number.eq_packedInfinity (by decide) h))

/-- The words of zero, one for each sign. -/
def zeros : List Binary64 := [⟨0⟩, ⟨0x8000000000000000⟩]

theorem unpack_eq_zero_iff {x : Binary64} :
    (∃ s, x.toFloat.toModel.unpack = .zero s) ↔ x ∈ zeros := by
  constructor
  · rintro ⟨s, h⟩
    rcases x with ⟨b⟩
    rw [unpack_toFloat] at h
    have hb := Number.eq_pack (by decide) h nofun
    cases s with
    | positive =>
      obtain rfl : b = 0 := UInt64.toBitVec_inj.mp hb
      exact List.mem_cons_self
    | negative =>
      obtain rfl : b = 0x8000000000000000 := UInt64.toBitVec_inj.mp hb
      exact List.mem_cons_of_mem _ List.mem_cons_self
  · intro h
    rcases List.mem_pair.mp h with rfl | rfl
    · exact ⟨.positive, rfl⟩
    · exact ⟨.negative, rfl⟩

instance : NumberWord Binary64 where
  format := Format.binary64
  number x := x.toFloat.toModel.unpack
  readable x := Number.readable_unpack _ _
  number_zero := rfl
  sort_one := rfl
  number_negInf := rfl
  number_add _ _ := unpack_toFloat _
  number_sub _ _ := unpack_toFloat _
  number_mul _ _ := unpack_toFloat _
  number_div _ _ := unpack_toFloat _
  isNonzero_eq _ := rfl
  isNegInf_iff x := by
    refine beq_iff_eq.trans ⟨?_, eq_negInf_of_unpack⟩
    rintro rfl
    rfl
  maxNum_eq x y := by
    simp only [RealScalar.maxNum, maxNum, toFloat_lt_iff]
    rfl
  exp_eq x := by
    refine ⟨ofFloat x.toFloat.exp, decide (1 < (ofFloat x.toFloat.exp).toFloat), ?_⟩
    simp only [RealScalar.exp, exp, holdUnit, toFloat_lt_iff, decide_eq_true_eq]
    rfl

end Binary64

namespace Binary32

/-- A word is read as the number that its bits stand for. -/
theorem unpack_toFloat32 (b : UInt32) :
    (⟨b⟩ : Binary32).toFloat32.toModel.unpack = .unpack Format.binary32 b.toBitVec :=
  Number.stored_unpack (by decide) _

theorem toFloat32_lt_iff (x y : Float32) : x < y ↔ x.toModel.unpack.lt y.toModel.unpack = true :=
  decide_eq_true_iff

theorem eq_negInf_of_unpack {x : Binary32} (h : x.toFloat32.toModel.unpack = .infinity .negative) :
    x = negInf := by
  rcases x with ⟨b⟩
  rw [unpack_toFloat32] at h
  exact congrArg mk (UInt32.toBitVec_inj.mp (Number.eq_packedInfinity (by decide) h))

/-- The words of zero, one for each sign. -/
def zeros : List Binary32 := [⟨0⟩, ⟨0x80000000⟩]

theorem unpack_eq_zero_iff {x : Binary32} :
    (∃ s, x.toFloat32.toModel.unpack = .zero s) ↔ x ∈ zeros := by
  constructor
  · rintro ⟨s, h⟩
    rcases x with ⟨b⟩
    rw [unpack_toFloat32] at h
    have hb := Number.eq_pack (by decide) h nofun
    cases s with
    | positive =>
      obtain rfl : b = 0 := UInt32.toBitVec_inj.mp hb
      exact List.mem_cons_self
    | negative =>
      obtain rfl : b = 0x80000000 := UInt32.toBitVec_inj.mp hb
      exact List.mem_cons_of_mem _ List.mem_cons_self
  · intro h
    rcases List.mem_pair.mp h with rfl | rfl
    · exact ⟨.positive, rfl⟩
    · exact ⟨.negative, rfl⟩

instance : NumberWord Binary32 where
  format := Format.binary32
  number x := x.toFloat32.toModel.unpack
  readable x := Number.readable_unpack _ _
  number_zero := rfl
  sort_one := rfl
  number_negInf := rfl
  number_add _ _ := unpack_toFloat32 _
  number_sub _ _ := unpack_toFloat32 _
  number_mul _ _ := unpack_toFloat32 _
  number_div _ _ := unpack_toFloat32 _
  isNonzero_eq _ := rfl
  isNegInf_iff x := by
    refine beq_iff_eq.trans ⟨?_, eq_negInf_of_unpack⟩
    rintro rfl
    rfl
  maxNum_eq x y := by
    simp only [RealScalar.maxNum, maxNum, toFloat32_lt_iff]
    rfl
  exp_eq x := by
    refine ⟨ofFloat32 x.toFloat32.exp, decide (1 < (ofFloat32 x.toFloat32.exp).toFloat32), ?_⟩
    simp only [RealScalar.exp, exp, holdUnit, toFloat32_lt_iff, decide_eq_true_eq]
    rfl

end Binary32

namespace NumberWord

open Number (stored_notANumber sort_eq_notANumber sort_eq_negInf sort_eq_posInf sort_eq_zero)

variable {α : Type} [RealScalar α] [NumberWord α] {x y : α}

/-- The sort of a word. -/
def sort (x : α) : NumberSort := Number.sort (number x)

theorem sort_zero : sort (0 : α) = .zero := congrArg Number.sort number_zero

theorem sort_negInf : sort (RealScalar.negInf : α) = .negInf := congrArg Number.sort number_negInf

theorem isNonzero_eq_false_iff : Scalar.isNonzero x = false ↔ sort x = .zero := by
  rw [isNonzero_eq, sort, Bool.not_eq_false']
  rcases number x with ⟨_ | _⟩ | _ | _ | ⟨_ | _, _, _, _⟩ <;>
    first | exact iff_of_true rfl rfl | exact iff_of_false Bool.false_ne_true nofun

theorem isNegInf_iff_sort : RealScalar.isNegInf x = true ↔ sort x = .negInf := by
  rw [isNegInf_iff, sort, sort_eq_negInf]

/-! ### Sums -/

theorem sort_add_notANumber (h : sort x = .notANumber ∨ sort y = .notANumber) :
    sort (x + y) = .notANumber := by
  have hsum : UnpackedFloat.add (format α) (number x) (number y) = .notANumber := by
    rcases h with h | h
    · rw [sort_eq_notANumber.mp h]
      rfl
    · rw [sort_eq_notANumber.mp h]
      exact Number.add_notANumber _ _
  rw [sort, number_add, hsum, stored_notANumber]
  rfl

theorem sort_zero_add_zero (hx : sort x = .zero) (hy : sort y = .zero) : sort (x + y) = .zero := by
  rcases sort_eq_zero.mp hx with ⟨s, hs⟩
  rcases sort_eq_zero.mp hy with ⟨t, ht⟩
  rcases Number.zero_add_zero (format α) s t with ⟨z, hz⟩
  rw [sort, number_add, hs, ht, hz, Number.stored_zero]
  rfl

/-- A sum of words that are not negative is of the larger sort, or above it. -/
theorem le_sort_add (hx : .zero ≤ sort x) (hy : .zero ≤ sort y) :
    max (sort x) (sort y) ≤ sort (x + y) := by
  have hsum := Number.le_sort_add (readable x) (readable y) hx hy
  have hzero := le_trans (le_max_of_le_left hx) hsum
  rw [sort, sort, sort, number_add]
  exact le_trans hsum (Number.le_sort_stored (Number.readable_add (readable x) (readable y)) hzero)

/-! ### Differences -/

theorem sort_sub_notANumber (h : sort x = .notANumber) : sort (x - y) = .notANumber := by
  rw [sort, number_sub, sort_eq_notANumber.mp h]
  exact congrArg Number.sort (stored_notANumber _)

/-- A number less a finite one is a number. -/
theorem sort_sub_ne (hx : sort x ≠ .notANumber) (hy : (sort y).isFinite = true) :
    sort (x - y) ≠ .notANumber := by
  rcases Number.readable_sub (readable x) (readable y) hy with ⟨hreadable, hnumber⟩
  rw [sort, number_sub]
  exact Number.sort_stored_ne_notANumber hreadable (hnumber hx)

/-- A finite word less itself is zero. -/
theorem sort_sub_self (hx : (sort x).isFinite = true) : sort (x - x) = .zero := by
  rcases Number.sub_self_eq (format α) hx with ⟨s, hs⟩
  rw [sort, number_sub, hs, Number.stored_zero]
  rfl

theorem sort_posInf_sub (hx : sort x = .posInf) (hy : sort y = .posInf) :
    sort (x - y) = .notANumber := by
  rw [sort, number_sub, sort_eq_posInf.mp hx, sort_eq_posInf.mp hy]
  exact congrArg Number.sort (stored_notANumber _)

theorem sort_negInf_sub (hx : sort x = .negInf) (hy : (sort y).isFinite = true) :
    sort (x - y) = .negInf := by
  rw [sort, number_sub, sort_eq_negInf.mp hx, Number.negInf_sub _ hy, Number.stored_infinity]
  rfl

/-! ### Products and quotients -/

theorem sort_mul_notANumber (h : sort x = .notANumber) : sort (x * y) = .notANumber := by
  rw [sort, number_mul, sort_eq_notANumber.mp h]
  exact congrArg Number.sort (stored_notANumber _)

/-- Zero times a finite word is zero. -/
theorem sort_zero_mul (hx : sort x = .zero) (hy : (sort y).isFinite = true) :
    sort (x * y) = .zero := by
  rcases sort_eq_zero.mp hx with ⟨s, hs⟩
  rcases Number.zero_mul_eq (format α) s hy with ⟨t, ht⟩
  rw [sort, number_mul, hs, ht, Number.stored_zero]
  rfl

/-- A finite word times zero is zero, and no other product with zero is a number. -/
theorem sort_mul_zero (x : α) (hy : sort y = .zero) :
    sort (x * y) = if (sort x).isFinite then .zero else .notANumber := by
  rcases sort_eq_zero.mp hy with ⟨s, hs⟩
  rcases Number.sort_mul_zero (format α) (number x) s with ⟨t, hfinite, hmul⟩ | ⟨hfinite, hmul⟩
  · rw [sort, number_mul, hs, hmul, Number.stored_zero, sort, hfinite]
    rfl
  · rw [sort, number_mul, hs, hmul, stored_notANumber, sort, hfinite]
    rfl

/-- A finite factor leaves zero as it is, and also what is not a number. -/
theorem sort_mul_of_isFinite (hx : sort x = .zero ∨ sort x = .notANumber)
    (hy : (sort y).isFinite = true) : sort (x * y) = sort x := by
  rcases hx with hx | hx
  · rw [sort_zero_mul hx hy, hx]
  · rw [sort_mul_notANumber hx, hx]

theorem sort_div_notANumber (h : sort y = .notANumber) : sort (x / y) = .notANumber := by
  rw [sort, number_div, sort_eq_notANumber.mp h, Number.div_notANumber, stored_notANumber]
  rfl

/-- Zero over anything above zero is zero. -/
theorem sort_zero_div (hx : sort x = .zero) (hy : .zero < sort y) : sort (x / y) = .zero := by
  rcases sort_eq_zero.mp hx with ⟨s, hs⟩
  rcases Number.zero_div_eq (format α) s hy with ⟨t, ht⟩
  rw [sort, number_div, hs, ht, Number.stored_zero]
  rfl

/-! ### The larger of two words -/

theorem maxNum_mem (x y : α) : RealScalar.maxNum x y = x ∨ RealScalar.maxNum x y = y := by
  rw [maxNum_eq]
  split_ifs <;> simp

/-- The larger of two words is of the larger sort. -/
theorem sort_maxNum (x y : α) : sort (RealScalar.maxNum x y) = max (sort x) (sort y) := by
  rw [maxNum_eq]
  by_cases hx : (number x).isNaN = true
  · rw [if_pos hx, sort, sort, Number.isNaN_iff_sort.mp hx]
    exact (max_eq_right (NumberSort.notANumber_le _)).symm
  · by_cases hy : (number y).isNaN = true
    · rw [if_neg hx, if_pos hy, sort, sort, Number.isNaN_iff_sort.mp hy]
      exact (max_eq_left (NumberSort.notANumber_le _)).symm
    · rw [if_neg hx, if_neg hy]
      by_cases hsort : sort x = sort y
      · -- Either of the two will do, and the larger one need not be known.
        split_ifs <;> simp [hsort]
      · have hlt := Number.lt_iff_of_sort_ne (fun h => hx (Number.isNaN_iff_sort.mpr h))
          (fun h => hy (Number.isNaN_iff_sort.mpr h)) hsort
        split_ifs with hless
        · exact (max_eq_right (le_of_lt (hlt.mp hless))).symm
        · exact (max_eq_left (not_lt.mp fun h => hless (hlt.mpr h))).symm

/-! ### Exponentials -/

theorem sort_exp_notANumber (h : sort x = .notANumber) :
    sort (RealScalar.exp x) = .notANumber := by
  rcases exp_eq x with ⟨y, above, hexp⟩
  rw [hexp, if_pos (Number.isNaN_iff_sort.mpr h), h]

theorem sort_exp_negInf (h : sort x = .negInf) : sort (RealScalar.exp x) = .zero := by
  rcases exp_eq x with ⟨y, above, hexp⟩
  rw [hexp, sort_eq_negInf.mp h]
  exact sort_zero

/-- The exponential of zero, of either sign, is one. -/
theorem exp_of_sort_zero (h : sort x = .zero) : RealScalar.exp x = 1 := by
  rcases exp_eq x with ⟨y, above, hexp⟩
  rcases sort_eq_zero.mp h with ⟨s, hs⟩
  rw [hexp, hs]
  rfl

theorem sort_exp_zero (h : sort x = .zero) : sort (RealScalar.exp x) = .positive := by
  rw [exp_of_sort_zero h]
  exact sort_one

/-- The exponential of a number is not negative. -/
theorem le_sort_exp (h : sort x ≠ .notANumber) : .zero ≤ sort (RealScalar.exp x) := by
  have hone : NumberSort.zero ≤ sort (1 : α) := by
    rw [sort, sort_one]
    decide
  -- Every case is at least zero, whatever was computed for `y`.
  rcases exp_eq x with ⟨y, above, hexp⟩
  rw [hexp, if_neg (fun hnan => h (Number.isNaN_iff_sort.mp hnan))]
  split_ifs with hinf hneg hneg _ hpos
  · exact le_of_eq sort_zero.symm
  · exact Number.nonneg_of_isInf hinf hneg
  · exact hone
  · rw [sort_maxNum, sort_zero]
    exact le_max_left _ _
  · rw [sort_maxNum]
    exact le_trans hone (le_max_left _ _)
  · exact hone

end NumberWord

/-! ### Elements of any kind -/

namespace DType

/-- The sort of an element. -/
def sort : (d : DType) → d.Elem → NumberSort
  | float32, x => NumberWord.sort (α := Binary32) x
  | float64, x => NumberWord.sort (α := Binary64) x
  | int64, x => if x = 0 then .zero else if x < 0 then .negative else .positive
  | uint8, x => if x = 0 then .zero else .positive

variable {d : DType} {x y : d.Elem}

/-- Zero, of either sign, is what is not told from zero. -/
theorem isNonzero_eq_false_iff : Scalar.isNonzero x = false ↔ d.sort x = .zero := by
  cases d with
  | float32 => exact NumberWord.isNonzero_eq_false_iff (α := Binary32)
  | float64 => exact NumberWord.isNonzero_eq_false_iff (α := Binary64)
  | int64 =>
    change (x != 0) = false ↔ (if x = 0 then NumberSort.zero else _) = _
    split_ifs with hzero <;> simp [hzero]
  | uint8 =>
    change (x != 0) = false ↔ (if x = 0 then NumberSort.zero else _) = _
    split_ifs with hzero <;> simp [hzero]

/-- The elements that pass for zero. -/
def zeros : (d : DType) → List d.Elem
  | float32 => Binary32.zeros
  | float64 => Binary64.zeros
  | int64 => [0]
  | uint8 => [0]

/-- Nothing else passes for zero. In particular what is not a number does not. -/
theorem isNonzero_eq_false_iff_mem : Scalar.isNonzero x = false ↔ x ∈ d.zeros := by
  cases d with
  | float32 =>
    exact (NumberWord.isNonzero_eq_false_iff (α := Binary32)).trans
      (Number.sort_eq_zero.trans Binary32.unpack_eq_zero_iff)
  | float64 =>
    exact (NumberWord.isNonzero_eq_false_iff (α := Binary64)).trans
      (Number.sort_eq_zero.trans Binary64.unpack_eq_zero_iff)
  | int64 =>
    change (x != 0) = false ↔ x ∈ [0]
    simp
  | uint8 =>
    change (x != 0) = false ↔ x ∈ [0]
    simp

/-- The cast of zero is zero. -/
theorem sort_ofFloat_zero (hd : d.isFloat = true) : d.sort (Scalar.ofFloat 0) = .zero := by
  cases d with
  | float32 => decide +kernel
  | float64 => decide +kernel
  | int64 => cases hd
  | uint8 => cases hd

theorem sort_zero (d : DType) : d.sort 0 = .zero := by
  cases d with
  | float32 => exact NumberWord.sort_zero (α := Binary32)
  | float64 => exact NumberWord.sort_zero (α := Binary64)
  | int64 => rfl
  | uint8 => rfl

/-- What passes for finite is of a finite sort. -/
theorem isFinite_eq_sort (hd : d.isFloat = true) (x : d.Elem) :
    Scalar.isFinite x = (d.sort x).isFinite := by
  cases d with
  | float32 => exact Number.isFinite_eq_sort _
  | float64 => exact Number.isFinite_eq_sort _
  | int64 => cases hd
  | uint8 => cases hd

theorem sort_zero_add_zero (hd : d.isFloat = true) (hx : d.sort x = .zero)
    (hy : d.sort y = .zero) : d.sort (x + y) = .zero := by
  cases d with
  | float32 => exact NumberWord.sort_zero_add_zero (α := Binary32) hx hy
  | float64 => exact NumberWord.sort_zero_add_zero (α := Binary64) hx hy
  | int64 => cases hd
  | uint8 => cases hd

theorem sort_add_notANumber (hd : d.isFloat = true)
    (h : d.sort x = .notANumber ∨ d.sort y = .notANumber) : d.sort (x + y) = .notANumber := by
  cases d with
  | float32 => exact NumberWord.sort_add_notANumber (α := Binary32) h
  | float64 => exact NumberWord.sort_add_notANumber (α := Binary64) h
  | int64 => cases hd
  | uint8 => cases hd

theorem sort_mul_zero (hd : d.isFloat = true) (x : d.Elem) (hy : d.sort y = .zero) :
    d.sort (x * y) = if (d.sort x).isFinite then .zero else .notANumber := by
  cases d with
  | float32 => exact NumberWord.sort_mul_zero (α := Binary32) x hy
  | float64 => exact NumberWord.sort_mul_zero (α := Binary64) x hy
  | int64 => cases hd
  | uint8 => cases hd

theorem sort_mul_of_isFinite (hd : d.isFloat = true)
    (hx : d.sort x = .zero ∨ d.sort x = .notANumber) (hy : (d.sort y).isFinite = true) :
    d.sort (x * y) = d.sort x := by
  cases d with
  | float32 => exact NumberWord.sort_mul_of_isFinite (α := Binary32) hx hy
  | float64 => exact NumberWord.sort_mul_of_isFinite (α := Binary64) hx hy
  | int64 => cases hd
  | uint8 => cases hd

end DType

end GraphAttention
