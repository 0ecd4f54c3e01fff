import GraphAttention.Proofs.Number.Packing

/-!
# Rounding to the Nearest Number

What rounding to a format does to a rational number, with no mantissa in sight. The
size of a number and the precision of the format give the grain at which the number has
to lie; the number is taken in grains, rounded to an integer with ties going to the even
one, and put together again.

Rounding keeps the order of numbers. Two numbers with one grain are rounded like
integers. Where the grain changes there is a power of two between them, and a power of two
is a multiple of both grains, so neither number is rounded past it.

## Main definitions

* `evenRound`: The nearest integer, and the even one of two.
* `grain`: The exponent at which the numbers of a format lie about a number.
* `nearest`: The nearest multiple of the grain.

## Theorems

* `evenRound_mono`, `evenRound_neg`, `evenRound_intCast`: Rounding to an integer.
* `nearest_mono`, `nearest_neg`: Rounding to a format.
* `nearest_of_mul`: What the format holds is left as it is.
-/

namespace GraphAttention

namespace Number

open Float.Model (Format)

variable {S : Format} {x y : ℚ} {e : ℤ}

/-! ### Integers -/

/-- The nearest integer, and the even one of two that are equally near. -/
def evenRound (x : ℚ) : ℤ :=
  if Int.fract x < 1 / 2 ∨ Int.fract x = 1 / 2 ∧ Even ⌊x⌋ then ⌊x⌋ else ⌊x⌋ + 1

theorem floor_le_evenRound (x : ℚ) : ⌊x⌋ ≤ evenRound x ∧ evenRound x ≤ ⌊x⌋ + 1 := by
  unfold evenRound
  split_ifs <;> omega

theorem evenRound_intCast (n : ℤ) : evenRound n = n := by
  simp [evenRound]

/-- Rounding to an integer keeps the order. -/
theorem evenRound_mono : Monotone evenRound := by
  intro x y hxy
  rcases (Int.floor_le_floor hxy).lt_or_eq with hlt | heq
  · have hx := (floor_le_evenRound x).2
    have hy := (floor_le_evenRound y).1
    omega
  · -- Between two integers, what is rounded down stays below what is rounded up.
    have hfract : Int.fract x ≤ Int.fract y := by
      unfold Int.fract
      rw [heq]
      linarith
    unfold evenRound
    rw [heq]
    by_cases hy : Int.fract y < 1 / 2 ∨ Int.fract y = 1 / 2 ∧ Even ⌊y⌋
    · rw [if_pos hy, if_pos]
      rcases hy with hy | ⟨hy, heven⟩
      · exact .inl (lt_of_le_of_lt hfract hy)
      · rcases hfract.lt_or_eq with hx | hx
        · exact .inl (hy ▸ hx)
        · exact .inr ⟨hx.trans hy, heven⟩
    · rw [if_neg hy]
      split_ifs <;> omega

/-- Rounding to an integer does not prefer one side of zero. -/
theorem evenRound_neg (x : ℚ) : evenRound (-x) = -evenRound x := by
  by_cases hx : Int.fract x = 0
  · -- An integer is not rounded.
    obtain ⟨n, rfl⟩ := Int.fract_eq_zero_iff.mp hx
    rw [← Int.cast_neg, evenRound_intCast, evenRound_intCast]
  · have hfract := Int.fract_neg hx
    have hfloor : ⌊-x⌋ = -⌊x⌋ - 1 := by
      have hsum := Int.floor_add_fract x
      have hsum' := Int.floor_add_fract (-x)
      rw [hfract] at hsum'
      have hcast : ((⌊-x⌋ : ℤ) : ℚ) = ((-⌊x⌋ - 1 : ℤ) : ℚ) := by
        push_cast
        linarith
      exact_mod_cast hcast
    have heven : Even (-⌊x⌋ - 1) ↔ ¬ Even ⌊x⌋ := by
      rw [Int.even_sub_one, even_neg]
    -- The other side is the nearer one, and of two integers only one is even.
    have hside : 1 - Int.fract x < 1 / 2 ∨ 1 - Int.fract x = 1 / 2 ∧ Even (-⌊x⌋ - 1) ↔
        ¬ (Int.fract x < 1 / 2 ∨ Int.fract x = 1 / 2 ∧ Even ⌊x⌋) := by
      rw [heven]
      rcases lt_trichotomy (Int.fract x) (1 / 2) with hlt | heq | hgt
      · exact iff_of_false (by rintro (h | ⟨h, -⟩) <;> linarith) (not_not_intro (.inl hlt))
      · rw [heq]
        norm_num
      · exact iff_of_true (.inl (by linarith)) (by rintro (h | ⟨h, -⟩) <;> linarith)
    simp only [evenRound, hfract, hfloor, hside]
    split_ifs <;> omega

/-! ### Multiples of a power of two -/

theorem two_zpow_pos (e : ℤ) : (0 : ℚ) < 2 ^ e :=
  zpow_pos (by norm_num) e

/-- The nearest multiple of a power of two. -/
def toMultiple (g : ℤ) (x : ℚ) : ℚ := evenRound (x / 2 ^ g) * 2 ^ g

theorem toMultiple_mono (g : ℤ) : Monotone (toMultiple g) := by
  intro x y hxy
  have hpos := two_zpow_pos g
  have hround := evenRound_mono (div_le_div_of_nonneg_right hxy hpos.le)
  exact mul_le_mul_of_nonneg_right (by exact_mod_cast hround) hpos.le

theorem toMultiple_neg (g : ℤ) (x : ℚ) : toMultiple g (-x) = -toMultiple g x := by
  rw [toMultiple, toMultiple, neg_div, evenRound_neg]
  push_cast
  ring

/-- What is a multiple already is left as it is. -/
theorem toMultiple_of_le {g : ℤ} (k : ℤ) (he : g ≤ e) : toMultiple g (k * 2 ^ e) = k * 2 ^ e := by
  have hpos := two_zpow_pos g
  obtain ⟨n, rfl⟩ : ∃ n : ℕ, g + n = e := Int.le.dest he
  have hmultiple : (k : ℚ) * 2 ^ (g + n) / 2 ^ g = ((k * 2 ^ n : ℤ) : ℚ) := by
    rw [div_eq_iff hpos.ne', zpow_add₀ (by norm_num), zpow_natCast]
    push_cast
    ring
  rw [toMultiple, hmultiple, evenRound_intCast, ← hmultiple, div_mul_cancel₀ _ hpos.ne']

theorem toMultiple_zero (g : ℤ) : toMultiple g 0 = 0 := by
  simpa using toMultiple_of_le (e := g) 0 le_rfl

theorem toMultiple_two_zpow {g : ℤ} (he : g ≤ e) : toMultiple g (2 ^ e) = 2 ^ e := by
  simpa using toMultiple_of_le 1 he

/-! ### Formats -/

/-- The exponent at which the numbers of a format lie about a number. -/
def grain (S : Format) (x : ℚ) : ℤ :=
  max (Int.log 2 |x| + 1 - S.mantissaBits) S.minExponent

/-- The nearest number of a format, if its exponents had no upper end. -/
def nearest (S : Format) (x : ℚ) : ℚ := toMultiple (grain S x) x

theorem nearest_zero (S : Format) : nearest S 0 = 0 :=
  toMultiple_zero _

theorem nearest_neg (S : Format) (x : ℚ) : nearest S (-x) = -nearest S x := by
  rw [nearest, nearest, grain, abs_neg, toMultiple_neg]
  rfl

theorem nearest_nonneg (hx : 0 ≤ x) : 0 ≤ nearest S x := by
  rw [← toMultiple_zero (grain S x)]
  exact toMultiple_mono _ hx

/-- A larger number above zero has no finer grain. -/
theorem grain_mono (hx : 0 < x) (hxy : x ≤ y) : grain S x ≤ grain S y := by
  have hlog := Int.log_mono_right (b := 2) hx hxy
  rw [grain, grain, abs_of_pos hx, abs_of_pos (hx.trans_le hxy)]
  omega

/-- Rounding keeps the order of numbers above zero. -/
theorem nearest_le_of_pos (hx : 0 < x) (hxy : x ≤ y) : nearest S x ≤ nearest S y := by
  have hy := hx.trans_le hxy
  rcases (grain_mono (S := S) hx hxy).lt_or_eq with hlt | heq
  · -- The power of two below the larger number is a multiple of both grains.
    have hlow : (2 : ℚ) ^ Int.log 2 y ≤ y := by
      exact_mod_cast Int.zpow_log_le_self (b := 2) (by norm_num) hy
    have hgrain : grain S y ≤ Int.log 2 y := by
      unfold grain Format.mantissaBits at *
      rw [abs_of_pos hx, abs_of_pos hy] at *
      omega
    have hhigh : x ≤ 2 ^ Int.log 2 y := by
      have hlog : Int.log 2 x + 1 ≤ Int.log 2 y := by
        unfold grain at hlt
        rw [abs_of_pos hx, abs_of_pos hy] at hlt
        omega
      have hx' : x < 2 ^ (Int.log 2 x + 1) := by
        exact_mod_cast Int.lt_zpow_succ_log_self (b := 2) (by norm_num) x
      exact hx'.le.trans (zpow_le_zpow_right₀ (by norm_num) hlog)
    calc nearest S x
        ≤ toMultiple (grain S x) (2 ^ Int.log 2 y) := toMultiple_mono _ hhigh
      _ = 2 ^ Int.log 2 y := toMultiple_two_zpow (hlt.le.trans hgrain)
      _ = toMultiple (grain S y) (2 ^ Int.log 2 y) := (toMultiple_two_zpow hgrain).symm
      _ ≤ nearest S y := toMultiple_mono _ hlow
  · rw [nearest, nearest, heq]
    exact toMultiple_mono _ hxy

/-- Rounding keeps the order of numbers. -/
theorem nearest_mono (S : Format) : Monotone (nearest S) := by
  intro x y hxy
  rcases lt_or_ge 0 x with hx | hx
  · exact nearest_le_of_pos hx hxy
  have hnegx : nearest S x ≤ 0 := by
    have := nearest_nonneg (S := S) (neg_nonneg.mpr hx)
    rw [nearest_neg] at this
    exact neg_nonneg.mp this
  rcases le_or_gt 0 y with hy | hy
  · exact hnegx.trans (nearest_nonneg hy)
  · -- Below zero it is the order of the numbers above, turned around.
    have hneg := nearest_le_of_pos (S := S) (neg_pos.mpr hy) (neg_le_neg hxy)
    rw [nearest_neg, nearest_neg] at hneg
    exact neg_le_neg_iff.mp hneg

/-- The grain of a multiple that has few enough bits. -/
theorem grain_mul_le {k : ℤ} (hzero : k ≠ 0) (hk : |k| < 2 ^ S.mantissaBits)
    (he : S.minExponent ≤ e) : grain S (k * 2 ^ e) ≤ e := by
  have hpos := two_zpow_pos e
  have habs : |(k : ℚ) * 2 ^ e| = (|k| : ℤ) * 2 ^ e := by
    rw [abs_mul, abs_of_pos hpos, Int.cast_abs]
  have hlt : |(k : ℚ) * 2 ^ e| < ((2 : ℕ) : ℚ) ^ (S.mantissaBits + e) := by
    rw [habs, Nat.cast_ofNat, zpow_add₀ (by norm_num), zpow_natCast]
    exact mul_lt_mul_of_pos_right (by exact_mod_cast hk) hpos
  have hne : 0 < |(k : ℚ) * 2 ^ e| :=
    abs_pos.mpr (mul_ne_zero (by exact_mod_cast hzero) hpos.ne')
  have hlog := (Int.lt_zpow_iff_log_lt (by norm_num) hne).mp hlt
  unfold grain
  omega

/-- What a format holds is left as it is. -/
theorem nearest_of_mul {k : ℤ} (hk : |k| < 2 ^ S.mantissaBits) (he : S.minExponent ≤ e) :
    nearest S (k * 2 ^ e) = k * 2 ^ e := by
  by_cases hzero : k = 0
  · rw [hzero, Int.cast_zero, zero_mul, nearest_zero]
  · exact toMultiple_of_le k (grain_mul_le hzero hk he)

end Number

end GraphAttention
