import GraphAttention.Proofs.Number.Nearest
import GraphAttention.Proofs.Number.Order

/-!
# Numbers and What They Stand For

A finite number stands for a rational one, its mantissa at its exponent. Rounding works on
mantissas. It shifts out what there is no room for, keeps the first bit that was shifted out and
whether anything followed, and adds one or not. What comes out of this stands for the nearest
number of the format, with ties going to the even one, and nothing has to be known about
bits from there on.

## Main definitions

* `value`: The rational number that a finite number stands for.
* `Settled`: Finite, and in the form in which it is stored.

## Theorems

* `shiftRight_exact`, `roundedMantissa_exact`: Shifting and rounding is division and rounding.
* `grain_eq`: The exponent that a number is rounded to.
* `value_roundWithAccuracy`, `value_round`, `value_normalize`: Each way to round gives the
  nearest number.
-/

namespace GraphAttention

namespace Number

open Float.Model (Format UnpackedFloat totalExponent)
open Float.Model.UnpackedFloat

variable {S : Format} {s t : Sign} {u v : UnpackedFloat} {m m' : Nat} {e e' : Int}

/-! ### Mantissas rounded to integers -/

/-- What is shifted out of a mantissa leaves its leading bit, and whether anything else was
    there. -/
theorem shiftRight_exact (m k : Nat) :
    (⟨m, false, false⟩ : ExtendedMantissa) >>> (k + 1)
      = ⟨m / 2 ^ (k + 1), m / 2 ^ k % 2 != 0, m % 2 ^ k != 0⟩ := by
  induction k with
  | zero => simp [HShiftRight.hShiftRight, Nat.repeat, ExtendedMantissa.shiftRightOne, Nat.mod_one]
  | succ k ih =>
    change ExtendedMantissa.shiftRightOne
      ((⟨m, false, false⟩ : ExtendedMantissa) >>> (k + 1)) = _
    rw [ih]
    simp only [ExtendedMantissa.shiftRightOne, Nat.div_div_eq_div_mul, ← Nat.pow_succ]
    congr 1
    -- The bits below the next one are the bits below this one, and this one.
    have hsplit := Nat.mod_mul (x := m) (a := 2 ^ k) (b := 2)
    have hpos := Nat.two_pow_pos k
    rw [← Nat.pow_succ] at hsplit
    rcases Nat.mod_two_eq_zero_or_one (m / 2 ^ k) with hbit | hbit <;>
      rw [hbit] at hsplit ⊢ <;> simp [hsplit]

/-- A quotient by a power of two rounds by its remainder. -/
theorem evenRound_div (m k : Nat) :
    evenRound ((m : ℚ) / 2 ^ (k + 1)) = if m % 2 ^ (k + 1) < 2 ^ k ∨
      m % 2 ^ (k + 1) = 2 ^ k ∧ Even (m / 2 ^ (k + 1)) then ((m / 2 ^ (k + 1) : Nat) : ℤ)
      else ((m / 2 ^ (k + 1) : Nat) : ℤ) + 1 := by
  have hcast : (2 : ℚ) ^ (k + 1) = ((2 ^ (k + 1) : Nat) : ℚ) := by push_cast; rfl
  have hpos : (0 : ℚ) < 2 ^ k := by positivity
  have hfloor : ⌊(m : ℚ) / 2 ^ (k + 1)⌋ = ((m / 2 ^ (k + 1) : Nat) : ℤ) := by
    rw [hcast, Rat.floor_natCast_div_natCast, Int.natCast_ediv]
  have hfract : Int.fract ((m : ℚ) / 2 ^ (k + 1)) = (m % 2 ^ (k + 1) : Nat) / (2 ^ k * 2) := by
    rw [hcast, Int.fract_div_natCast_eq_div_natCast_mod, ← hcast, ← pow_succ]
  -- Half a step is half of what is divided by.
  have hlt : ((m % 2 ^ (k + 1) : Nat) : ℚ) / (2 ^ k * 2) < 1 / 2 ↔ m % 2 ^ (k + 1) < 2 ^ k := by
    rw [div_lt_div_iff₀ (by positivity) (by norm_num), ← Nat.cast_lt (α := ℚ)]
    push_cast
    constructor <;> intro h <;> linarith
  have heq : ((m % 2 ^ (k + 1) : Nat) : ℚ) / (2 ^ k * 2) = 1 / 2 ↔ m % 2 ^ (k + 1) = 2 ^ k := by
    rw [div_eq_div_iff (by positivity) (by norm_num), ← Nat.cast_inj (R := ℚ)]
    push_cast
    constructor <;> intro h <;> linarith
  unfold evenRound
  simp only [hfloor, hfract, hlt, heq, Int.even_coe_nat]

/-- Shifted out of a mantissa and rounded, an integer is left as division and rounding leave
    it. -/
theorem roundedMantissa_exact (m k : Nat) :
    (((⟨m, false, false⟩ : ExtendedMantissa) >>> k).roundedMantissa : ℤ)
      = evenRound ((m : ℚ) / 2 ^ k) := by
  cases k with
  | zero =>
    have hself : (((⟨m, false, false⟩ : ExtendedMantissa) >>> 0).roundedMantissa) = m := rfl
    rw [hself, pow_zero, div_one]
    exact_mod_cast (evenRound_intCast m).symm
  | succ k =>
    have hlow := Nat.mod_lt m (Nat.two_pow_pos k)
    have hsplit : m % 2 ^ (k + 1) = m % 2 ^ k + 2 ^ k * (m / 2 ^ k % 2) := by
      rw [Nat.pow_succ, Nat.mod_mul]
    rw [shiftRight_exact, evenRound_div]
    rcases Nat.mod_two_eq_zero_or_one (m / 2 ^ k) with hbit | hbit <;> rw [hbit] at hsplit ⊢
    · -- Less than half a step is dropped, whatever it is.
      rw [if_pos (.inl (by omega))]
      cases hsticky : (m % 2 ^ k != 0) <;> rfl
    · by_cases hsticky : m % 2 ^ k = 0
      · -- Half a step goes to the even side.
        rw [hsticky]
        change ((m / 2 ^ (k + 1) + m / 2 ^ (k + 1) % 2 : Nat) : ℤ) = _
        rcases Nat.even_or_odd (m / 2 ^ (k + 1)) with heven | hodd
        · rw [if_pos (.inr ⟨by omega, heven⟩), Nat.even_iff.mp heven, Nat.add_zero]
        · rw [if_neg, Nat.odd_iff.mp hodd]
          · push_cast
            rfl
          · rintro (h | ⟨-, heven⟩)
            · omega
            · exact (Nat.not_even_iff_odd.mpr hodd) heven
      · have hbits : (m % 2 ^ k != 0) = true := by simpa using hsticky
        rw [hbits, if_neg (by omega)]
        rfl

/-! ### Values -/

/-- The rational number that a finite number stands for. -/
def value : UnpackedFloat → ℚ
  | .finite s m e _ => s.apply m * 2 ^ e
  | _ => 0

/-- Finite, and in the form in which it is stored. -/
inductive Settled (S : Format) : UnpackedFloat → Prop
  | zero (s : Sign) : Settled S (.zero s)
  | finite (s : Sign) {m : Nat} {e : Int} (h : Ranged S m e) (hcanon : Canonical S m e) :
    Settled S (.finite s m e h.pos)

@[simp] theorem value_zero (s : Sign) : value (.zero s) = 0 := rfl

/-- A sign is a factor. -/
theorem apply_eq (s : Sign) (n : ℤ) : s.apply n = s.apply 1 * n := by
  cases s <;> simp [Sign.apply]

theorem nearest_apply (S : Format) (s : Sign) (x : ℚ) :
    nearest S ((s.apply 1 : ℤ) * x) = (s.apply 1 : ℤ) * nearest S x := by
  cases s with
  | positive => simp [Sign.apply]
  | negative => simp [Sign.apply, nearest_neg]

theorem value_positive (hm : 0 < m) (e : Int) : 0 < value (.finite .positive m e hm) :=
  mul_pos (by simpa [Sign.apply] using hm) (two_zpow_pos e)

theorem value_negative (hm : 0 < m) (e : Int) : value (.finite .negative m e hm) < 0 :=
  mul_neg_of_neg_of_pos (by simpa [Sign.apply] using hm) (two_zpow_pos e)

/-- What is carried stands for what it stood for before. -/
theorem value_carried {r : Nat} (hr : r ≤ 2 ^ S.mantissaBits) (he : S.minExponent ≤ e) (s : Sign) :
    value (carried S s r e) = (s.apply r : ℤ) * 2 ^ e := by
  rcases Nat.lt_or_eq_of_le hr with hlt | rfl
  · rcases Nat.eq_zero_or_pos r with rfl | hpos
    · cases s <;> simp [carried, value, Sign.apply]
    · rw [carried_of_ranged ⟨hpos, hlt, he⟩ s]
      rfl
  · -- The mantissa that is one too large is halved, and the exponent is raised.
    have hpos := Nat.two_pow_pos S.mantissaBitsWithoutImplicit
    have hhalf : 2 ^ S.mantissaBits / 2 ^ 1 = 2 ^ S.mantissaBitsWithoutImplicit := by
      rw [two_pow_mantissaBits]
      omega
    have hcarried : value (carried S s (2 ^ S.mantissaBits) e)
        = (s.apply (2 ^ S.mantissaBitsWithoutImplicit : Nat) : ℤ) * 2 ^ (e + 1) := by
      simp only [carried, shiftAmount_of_eq he, hhalf, Nat.ne_of_gt hpos, dif_neg,
        not_false_eq_true]
      rfl
    rw [hcarried, apply_eq, apply_eq s (2 ^ S.mantissaBits : Nat), two_pow_mantissaBits,
      zpow_add_one₀ (by norm_num)]
    push_cast
    ring

/-- The place of the leading bit of a mantissa, as a logarithm. -/
theorem log_mul_two_zpow (hm : 0 < m) (e : Int) : Int.log 2 ((m : ℚ) * 2 ^ e) = m.log2 + e := by
  have hpos : (0 : ℚ) < m * 2 ^ e := mul_pos (by exact_mod_cast hm) (two_zpow_pos e)
  have hlow : ((2 : ℕ) : ℚ) ^ ((m.log2 : ℤ) + e) ≤ m * 2 ^ e := by
    rw [Nat.cast_ofNat, zpow_add₀ (by norm_num), zpow_natCast]
    exact mul_le_mul_of_nonneg_right
      (by exact_mod_cast Nat.log2_self_le (Nat.ne_of_gt hm)) (two_zpow_pos e).le
  have hhigh : (m : ℚ) * 2 ^ e < ((2 : ℕ) : ℚ) ^ ((m.log2 : ℤ) + e + 1) := by
    rw [Nat.cast_ofNat, add_right_comm, zpow_add₀ (by norm_num)]
    refine mul_lt_mul_of_pos_right ?_ (two_zpow_pos e)
    exact_mod_cast Nat.lt_log2_self (n := m)
  have hle := (Int.zpow_le_iff_le_log (by norm_num) hpos).mp hlow
  have hlt := (Int.lt_zpow_iff_log_lt (by norm_num) hpos).mp hhigh
  omega

/-- The exponent that a number is rounded to is its grain. -/
theorem grain_eq (hm : 0 < m) (e : Int) :
    grain S ((m : ℚ) * 2 ^ e) = S.targetExponent (totalExponent m e) := by
  have hpos : (0 : ℚ) < m * 2 ^ e := mul_pos (by exact_mod_cast hm) (two_zpow_pos e)
  rw [grain, abs_of_pos hpos, log_mul_two_zpow hm, Format.targetExponent, totalExponent]
  omega

/-- Rounding gives the nearest number of the format. -/
theorem value_roundWithAccuracy (hm : 0 < m) (S : Format) (s : Sign) (e : Int) :
    value (roundWithAccuracy S s m e .exact) = nearest S ((s.apply m : ℤ) * 2 ^ e) := by
  let k := shiftAmount S m e
  have hgrain := grain_eq (S := S) hm e
  have hrounded := roundedMantissa_exact m k
  have hle : ((⟨m, false, false⟩ : ExtendedMantissa) >>> k).roundedMantissa
      ≤ 2 ^ S.mantissaBits := by
    have hbound := (roundedMantissa_bounds ((⟨m, false, false⟩ : ExtendedMantissa) >>> k)).2
    have hshifted := shifted_lt S m e
    rw [mantissa_shiftRight] at hbound
    exact hbound.trans hshifted
  -- Shifted by the grain, the mantissa is the number taken in grains.
  have hnearest : ((((⟨m, false, false⟩ : ExtendedMantissa) >>> k).roundedMantissa : ℤ) : ℚ)
      * 2 ^ (e + k) = nearest S ((m : ℚ) * 2 ^ e) := by
    rw [hrounded, nearest, hgrain]
    rcases le_or_gt e (S.targetExponent (totalExponent m e)) with hlow | hhigh
    · have htarget : e + k = S.targetExponent (totalExponent m e) := by
        have : (k : ℤ) = S.targetExponent (totalExponent m e) - e :=
          Int.toNat_of_nonneg (by omega)
        omega
      have hquotient : (m : ℚ) * 2 ^ e / 2 ^ (e + k) = m / 2 ^ k := by
        rw [zpow_add₀ (by norm_num), zpow_natCast, mul_comm (m : ℚ), mul_div_mul_left _ _
          (two_zpow_pos e).ne']
      rw [toMultiple, ← htarget, hquotient]
    · have hzero : k = 0 := Int.toNat_eq_zero.mpr (by omega)
      have hself := toMultiple_of_le m hhigh.le
      rw [Int.cast_natCast] at hself
      rw [hself, hzero, pow_zero, div_one]
      have hcast := evenRound_intCast m
      rw [Int.cast_natCast] at hcast
      rw [hcast]
      simp
  rw [roundWithAccuracy_eq]
  refine (value_carried hle (shiftAmount_bounds S m e).2.1 s).trans ?_
  rw [apply_eq s, apply_eq s m]
  push_cast
  rw [mul_assoc, mul_assoc, nearest_apply]
  exact congrArg _ (by simpa using hnearest)

/-- Lowering the exponent first does not change what a number stands for. -/
theorem value_round (hm : 0 < m) (S : Format) (s : Sign) (e : Int) :
    value (UnpackedFloat.round S s m e) = nearest S ((s.apply m : ℤ) * 2 ^ e) := by
  let k := (e - S.targetExponent (totalExponent m e)).toNat
  have hround : UnpackedFloat.round S s m e
      = roundWithAccuracy S s (m * 2 ^ k) (e - k) .exact := by
    rw [← Nat.shiftLeft_eq]
    rfl
  rw [hround, value_roundWithAccuracy (Nat.mul_pos hm (Nat.two_pow_pos k)), apply_eq,
    apply_eq s m, zpow_sub₀ (by norm_num), zpow_natCast]
  congr 1
  push_cast
  field_simp

/-- An exact sum or difference is rounded to the nearest number. -/
theorem value_normalize (S : Format) (k e : Int) (z : Sign) :
    value (UnpackedFloat.normalize S k e z) = nearest S (k * 2 ^ e) := by
  unfold UnpackedFloat.normalize
  cases hsign : compare k 0 with
  | lt =>
    have hk : k < 0 := Int.compare_eq_lt.mp hsign
    have hcast : Sign.apply .negative ((-k).toNat : ℤ) = k := by
      simp only [Sign.apply]
      omega
    dsimp only
    rw [value_round (by omega), hcast]
  | eq =>
    rw [Int.compare_eq_eq.mp hsign, Int.cast_zero, zero_mul, nearest_zero]
    rfl
  | gt =>
    have hk : 0 < k := Int.compare_eq_gt.mp hsign
    have hcast : Sign.apply .positive (k.toNat : ℤ) = k := by
      simp only [Sign.apply]
      omega
    dsimp only
    rw [value_round (by omega), hcast]

end Number

end GraphAttention
