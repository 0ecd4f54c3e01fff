import GraphAttention.Proofs.Number.Rounding

/-!
# Sorts of Numbers

For much of what a computation does with a number, only its sort matters: whether
it is a number at all, infinite, negative, zero or positive. The sorts are ordered
as the numbers are, with what is not a number below everything. The maximum
that ignores what is not a number is then the maximum of sorts, numbers that are
not negative are those of the sort of zero or above, and there is nothing to be
said of magnitudes.

The sort of a result is not always settled by the sorts of what it is computed
from, and rounding may turn a number into an infinity. The laws below are for the
cases where it is settled, or bounded from below.

## Main definitions

* `NumberSort`: The sorts in their order.
* `Number.sort`: The sort of a number.

## Theorems

* `sort_stored`: Storing can only push a number to the infinity on its side.
* `readable_normalize`, `sort_normalize`: Sums and differences before they are stored.
* `readable_add`, `le_sort_add`: Sums of numbers that are not negative.
* `readable_sub`, `sub_self_eq`: Differences.
* `negInf_sub`, `zero_mul_eq`, `sort_mul_zero`, `zero_add_zero`, `zero_div_eq`:
  Results that need no rounding.
* `lt_iff_of_sort_ne`: Numbers of different sorts compare as their sorts do.
-/

namespace GraphAttention

/-- What a number is, apart from its magnitude. -/
inductive NumberSort where
  | notANumber
  | negInf
  | negative
  | zero
  | positive
  | posInf
deriving DecidableEq, Repr

namespace NumberSort

/-- The place of a sort in the order. -/
def rank : NumberSort → Nat
  | notANumber => 0
  | negInf => 1
  | negative => 2
  | zero => 3
  | positive => 4
  | posInf => 5

theorem rank_injective : Function.Injective rank := by
  intro s t h
  cases s <;> cases t <;> first | rfl | cases h

instance : LinearOrder NumberSort := LinearOrder.lift' rank rank_injective

theorem notANumber_le (s : NumberSort) : notANumber ≤ s := Nat.zero_le s.rank

theorem le_posInf (s : NumberSort) : s ≤ posInf := by
  cases s <;> decide

theorem le_negInf_iff {s : NumberSort} : s ≤ negInf ↔ s = negInf ∨ s = notANumber := by
  cases s <;> decide

/-- Whether a number of the sort is finite. -/
def isFinite (s : NumberSort) : Bool := decide (negInf < s ∧ s < posInf)

theorem isFinite_of_lt {s : NumberSort} (hnumber : s ≠ notANumber) (hlow : s ≠ negInf)
    (hhigh : s < posInf) : s.isFinite = true := by
  cases s with
  | notANumber => exact absurd rfl hnumber
  | negInf => exact absurd rfl hlow
  | posInf => exact absurd hhigh (lt_irrefl _)
  | negative => rfl
  | zero => rfl
  | positive => rfl

end NumberSort

namespace Number

open Float.Model (Format UnpackedFloat)
open Float.Model.UnpackedFloat

/-- The sort of a number. -/
def sort : UnpackedFloat → NumberSort
  | .notANumber => .notANumber
  | .infinity .negative => .negInf
  | .infinity .positive => .posInf
  | .zero _ => .zero
  | .finite .negative .. => .negative
  | .finite .positive .. => .positive

variable {S : Format} {x y u : UnpackedFloat}

/-! ### What a sort says of a number -/

theorem sort_eq_notANumber : sort u = .notANumber ↔ u = .notANumber := by
  rcases u with ⟨_ | _⟩ | _ | _ | ⟨_ | _, _, _, _⟩ <;> simp [sort]

theorem sort_eq_negInf : sort u = .negInf ↔ u = .infinity .negative := by
  rcases u with ⟨_ | _⟩ | _ | _ | ⟨_ | _, _, _, _⟩ <;> simp [sort]

theorem sort_eq_posInf : sort u = .posInf ↔ u = .infinity .positive := by
  rcases u with ⟨_ | _⟩ | _ | _ | ⟨_ | _, _, _, _⟩ <;> simp [sort]

theorem sort_eq_zero : sort u = .zero ↔ ∃ s, u = .zero s := by
  rcases u with ⟨_ | _⟩ | _ | _ | ⟨_ | _, _, _, _⟩ <;> simp [sort]

theorem isNaN_iff_sort : u.isNaN = true ↔ sort u = .notANumber := by
  rw [isNaN_iff, sort_eq_notANumber]

/-! ### Storing -/

/-- Storing keeps the sort, unless a number is too large and becomes infinite. -/
theorem sort_stored (h : Readable S u) :
    sort (stored S u) = sort u ∨
      (sort u = .positive ∧ sort (stored S u) = .posInf) ∨
      (sort u = .negative ∧ sort (stored S u) = .negInf) := by
  cases h with
  | notANumber => exact .inl (congrArg sort (stored_notANumber S))
  | infinity s => exact .inl (congrArg sort (stored_infinity S s))
  | zero s => exact .inl (congrArg sort (stored_zero S s))
  | finite s h =>
    rcases stored_ranged h s with ⟨-, hstored⟩ | ⟨e', -, h', hstored⟩
    · -- It was too large, and the infinity has its sign.
      rw [hstored]
      cases s with
      | negative => exact .inr (.inr ⟨rfl, rfl⟩)
      | positive => exact .inr (.inl ⟨rfl, rfl⟩)
    · rw [hstored]
      cases s <;> exact .inl rfl

/-- A number that is not negative does not fall below its sort. -/
theorem le_sort_stored (h : Readable S u) (hu : .zero ≤ sort u) : sort u ≤ sort (stored S u) := by
  rcases sort_stored h with heq | ⟨hsort, hstored⟩ | ⟨hsort, -⟩
  · exact Std.le_of_eq heq.symm
  · rw [hsort, hstored]
    decide
  · -- A number below zero is not one of those meant.
    rw [hsort] at hu
    exact absurd hu (by decide)

theorem sort_stored_ne_notANumber (h : Readable S u) (hu : sort u ≠ .notANumber) :
    sort (stored S u) ≠ .notANumber := by
  rcases sort_stored h with heq | ⟨-, hstored⟩ | ⟨-, hstored⟩
  · rwa [heq]
  · rw [hstored]
    decide
  · rw [hstored]
    decide

/-! ### Sums and differences -/

theorem readable_round {m : Nat} (hm : 0 < m) (S : Format) (s : Sign) (e : Int) :
    Readable S (UnpackedFloat.round S s m e) ∧
      sort (UnpackedFloat.round S s m e) ≠ .notANumber := by
  rcases round_ranged hm S s e with hround | ⟨m', e', h, hround, -⟩
  · rw [hround]
    exact ⟨.zero s, nofun⟩
  · rw [hround]
    exact ⟨.finite s h, by cases s <;> exact nofun⟩

/-- An exact sum or difference is rounded to a number. -/
theorem readable_normalize (S : Format) (k e : Int) :
    Readable S (UnpackedFloat.normalize S k e .positive) ∧
      sort (UnpackedFloat.normalize S k e .positive) ≠ .notANumber := by
  unfold UnpackedFloat.normalize
  cases hsign : compare k 0 with
  | lt =>
    have hk : k < 0 := Int.compare_eq_lt.mp hsign
    exact readable_round (by omega) S .negative e
  | eq => exact ⟨.zero _, nofun⟩
  | gt =>
    have hk : 0 < k := Int.compare_eq_gt.mp hsign
    exact readable_round (by omega) S .positive e

/-- What is above zero is rounded as such. -/
theorem normalize_of_pos {k : Int} (hk : 0 < k) (S : Format) (e : Int) (z : Sign) :
    UnpackedFloat.normalize S k e z = UnpackedFloat.round S .positive k.toNat e := by
  unfold UnpackedFloat.normalize
  rw [Int.compare_eq_gt.mpr hk]

/-- A sum above zero stays there, as its exponent is that of a summand. -/
theorem sort_normalize {k e : Int} (hk : 0 < k) (he : S.minExponent ≤ e) :
    sort (UnpackedFloat.normalize S k e .positive) = .positive := by
  have hpos : 0 < k.toNat := by omega
  rcases round_kept hpos he .positive with ⟨m', e', h, hround, -⟩
  rw [normalize_of_pos hk, hround]
  rfl

theorem decreaseExponent_pos {m : Nat} (hm : 0 < m) (e t : Int) :
    0 < (decreaseExponent m e t).1 := by
  rw [decreaseExponent, Nat.shiftLeft_eq]
  exact Nat.mul_pos hm (Nat.two_pow_pos _)

theorem readable_add (hx : Readable S x) (hy : Readable S y) : Readable S (add S x y) := by
  cases hx with
  | notANumber => exact .notANumber
  | infinity s =>
    cases hy with
    | notANumber => exact .notANumber
    | infinity t => cases s <;> cases t <;> first | exact .infinity _ | exact .notANumber
    | zero t => exact .infinity s
    | finite t h => exact .infinity s
  | zero s =>
    cases hy with
    | notANumber => exact .notANumber
    | infinity t => exact .infinity t
    | zero t => cases s <;> cases t <;> exact .zero _
    | finite t h => exact .finite t h
  | finite s h =>
    cases hy with
    | notANumber => exact .notANumber
    | infinity t => exact .infinity t
    | zero t => exact .finite s h
    | finite t h' => exact (readable_normalize S _ _).1

/-- What is not negative is infinite, zero or finite and above zero. -/
theorem Readable.cases_nonneg (hx : Readable S x) (h0 : .zero ≤ sort x) :
    x = .infinity .positive ∨ (∃ s, x = .zero s) ∨
      ∃ m e, ∃ h : Ranged S m e, x = .finite .positive m e h.pos := by
  cases hx with
  | notANumber => exact absurd h0 (by decide)
  | infinity s =>
    cases s with
    | negative => exact absurd h0 (by decide)
    | positive => exact .inl rfl
  | zero s => exact .inr (.inl ⟨s, rfl⟩)
  | finite s h =>
    cases s with
    | negative => exact absurd h0 (of_decide_eq_true rfl)
    | positive => exact .inr (.inr ⟨_, _, h, rfl⟩)

/-- A sum of numbers that are not negative is of the larger sort, or above it. -/
theorem le_sort_add (hx : Readable S x) (hy : Readable S y) (hx0 : .zero ≤ sort x)
    (hy0 : .zero ≤ sort y) : max (sort x) (sort y) ≤ sort (add S x y) := by
  -- Three cases for either operand, and only two finite ones need any arithmetic.
  rcases hx.cases_nonneg hx0 with rfl | ⟨s, rfl⟩ | ⟨m, e, h, rfl⟩
  · rcases hy.cases_nonneg hy0 with rfl | ⟨t, rfl⟩ | ⟨m', e', h', rfl⟩ <;>
      exact of_decide_eq_true rfl
  · rcases hy.cases_nonneg hy0 with rfl | ⟨t, rfl⟩ | ⟨m', e', h', rfl⟩
    · exact of_decide_eq_true rfl
    · cases s <;> cases t <;> exact of_decide_eq_true rfl
    · exact of_decide_eq_true rfl
  · rcases hy.cases_nonneg hy0 with rfl | ⟨t, rfl⟩ | ⟨m', e', h', rfl⟩
    · exact of_decide_eq_true rfl
    · exact of_decide_eq_true rfl
    · -- Both mantissas count, so the exact sum is above zero.
      have hleft := decreaseExponent_pos h.pos e (min e e')
      have hright := decreaseExponent_pos h'.pos e' (min e e')
      have hsum := Int.add_pos (Int.natCast_pos.mpr hleft) (Int.natCast_pos.mpr hright)
      exact Std.le_of_eq (sort_normalize hsum (Std.le_min_iff.mpr ⟨h.least, h'.least⟩)).symm

/-- A difference of finite numbers is a number. -/
theorem readable_sub (hx : Readable S x) (hy : Readable S y) (hfinite : (sort y).isFinite = true) :
    Readable S (sub S x y) ∧ (sort x ≠ .notANumber → sort (sub S x y) ≠ .notANumber) := by
  cases hy with
  | notANumber => cases hfinite
  | infinity t => cases t <;> cases hfinite
  | zero t =>
    cases hx with
    | notANumber => exact ⟨.notANumber, fun h => absurd rfl h⟩
    | infinity s => exact ⟨.infinity s, id⟩
    | zero s => cases s <;> cases t <;> exact ⟨.zero _, nofun⟩
    | finite s h => exact ⟨.finite s h, id⟩
  | finite t h' =>
    cases hx with
    | notANumber => exact ⟨.notANumber, fun h => absurd rfl h⟩
    | infinity s => exact ⟨.infinity s, id⟩
    | zero s => exact ⟨.finite (-t) h', fun _ => by cases t <;> nofun⟩
    | finite s h => exact ⟨(readable_normalize S _ _).1, fun _ => (readable_normalize S _ _).2⟩

/-- A finite number less itself is zero. -/
theorem sub_self_eq (S : Format) (hfinite : (sort x).isFinite = true) :
    ∃ s, sub S x x = .zero s := by
  cases x with
  | notANumber => cases hfinite
  | infinity s => cases s <;> cases hfinite
  | zero s => cases s <;> exact ⟨_, rfl⟩
  | finite s m e hm =>
    -- Both mantissas are shifted alike, so the exact difference is zero.
    have hexact : ∀ k : Int,
        UnpackedFloat.normalize S (k - k) (min e e) .positive = .zero .positive := by
      intro k
      rw [Int.sub_self]
      rfl
    exact ⟨.positive, hexact _⟩

/-! ### Operands that are not finite numbers above or below zero -/

theorem add_notANumber (S : Format) (x : UnpackedFloat) : add S x .notANumber = .notANumber := by
  cases x <;> rfl

theorem div_notANumber (S : Format) (x : UnpackedFloat) : div S x .notANumber = .notANumber := by
  cases x <;> rfl

theorem negInf_sub (S : Format) (hfinite : (sort y).isFinite = true) :
    sub S (.infinity .negative) y = .infinity .negative := by
  rcases y with ⟨_ | _⟩ | _ | _ | _ <;> first | rfl | cases hfinite

/-- Zero times a finite number is zero. -/
theorem zero_mul_eq (S : Format) (s : Sign) (hfinite : (sort y).isFinite = true) :
    ∃ t, mul S (.zero s) y = .zero t := by
  rcases y with ⟨_ | _⟩ | _ | _ | _ <;> first | exact ⟨_, rfl⟩ | cases hfinite

/-- A finite number times zero is zero, and no other product with zero is a number. -/
theorem sort_mul_zero (S : Format) (x : UnpackedFloat) (s : Sign) :
    (∃ t, (sort x).isFinite = true ∧ mul S x (.zero s) = .zero t) ∨
      ((sort x).isFinite = false ∧ mul S x (.zero s) = .notANumber) := by
  rcases x with ⟨_ | _⟩ | _ | _ | ⟨_ | _, _, _, _⟩ <;>
    first | exact .inr ⟨rfl, rfl⟩ | exact .inl ⟨_, rfl, rfl⟩

theorem zero_add_zero (S : Format) (s t : Sign) :
    ∃ z, add S (.zero s) (.zero t) = .zero z := by
  cases s <;> cases t <;> exact ⟨_, rfl⟩

theorem isFinite_eq_sort (u : UnpackedFloat) : u.isFinite = (sort u).isFinite := by
  rcases u with ⟨_ | _⟩ | _ | _ | ⟨_ | _, _, _, _⟩ <;> rfl

/-- Zero over what is above zero is zero. -/
theorem zero_div_eq (S : Format) (s : Sign) (hpos : .zero < sort y) :
    ∃ t, div S (.zero s) y = .zero t := by
  rcases y with ⟨_ | _⟩ | _ | _ | _ <;>
    first | exact ⟨_, rfl⟩ | exact absurd hpos (of_decide_eq_true rfl)

/-! ### Order -/

/-- Numbers of different sorts compare as their sorts do. -/
theorem lt_iff_of_sort_ne (hx : sort x ≠ .notANumber) (hy : sort y ≠ .notANumber)
    (hne : sort x ≠ sort y) : x.lt y = true ↔ sort x < sort y := by
  -- Two of one sort are excluded, and all other pairs are told apart by their constructors.
  rcases x with ⟨_ | _⟩ | _ | _ | ⟨_ | _, _, _, _⟩ <;>
    rcases y with ⟨_ | _⟩ | _ | _ | ⟨_ | _, _, _, _⟩ <;>
    first
      | exact absurd rfl hx
      | exact absurd rfl hy
      | exact absurd rfl hne
      | exact iff_of_true rfl (of_decide_eq_true rfl)
      | exact iff_of_false Bool.false_ne_true (of_decide_eq_true rfl)

/-- An infinity that is not below zero is the one above it. -/
theorem nonneg_of_isInf (hinf : u.isInf = true) (hneg : ¬ u.lt (.zero .positive) = true) :
    .zero ≤ sort u := by
  rcases u with ⟨_ | _⟩ | _ | _ | _ <;>
    first | exact of_decide_eq_true rfl | exact absurd rfl hneg | cases hinf

theorem nonneg_of_le (h : (UnpackedFloat.zero .positive).le u = true) : .zero ≤ sort u := by
  rcases u with ⟨_ | _⟩ | _ | _ | ⟨_ | _, _, _, _⟩ <;>
    first | exact of_decide_eq_true rfl | cases h

end Number

end GraphAttention
