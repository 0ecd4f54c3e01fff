import GraphAttention.Proofs.Number.Arithmetic
import GraphAttention.Proofs.Number.Word

/-!
# What Words Denote

A word denotes an extended real number, or nothing if it is not a number. A number that is
rounded and stored denotes itself, or an infinity where it is as large as the power of two at
the end of the format. So what is stored for a rational number is a function of this number
that keeps the order, and comparing words is comparing what they denote.

The words of zero and of the numbers above it are ordered as bit strings below that of infinity,
which lets one step from a number to the next smaller one.

## Main definitions

* `rounded`: What is stored for a rational number.
* `denoted`: What a number stands for, with the infinities at both ends.

## Theorems

* `rounded_mono`: Rounding and storing keeps the order.
* `denoted_stored`: What is stored for a rounded number.
* `Settled.lt_iff`, `Settled.denoted_lt`: Comparisons.
* `lt_packedInfinity_iff`: The words below that of infinity.
-/

namespace GraphAttention

namespace Number

open Float.Model (Format UnpackedFloat)
open Float.Model.UnpackedFloat

variable {S : Format} {s t : Sign} {u v : UnpackedFloat} {m m' : Nat} {e e' : Int} {x y : ℚ}

/-! ### The ends of a format -/

/-- The power of two from which on a number is stored as an infinity. -/
def overflow (S : Format) : ℚ := 2 ^ (S.exponentBias + 1)

/-- What is stored for a number that is rounded already. -/
noncomputable def clip (S : Format) (x : ℚ) : EReal :=
  if overflow S ≤ x then ⊤ else if x ≤ -overflow S then ⊥ else (x : ℝ)

/-- What is stored for a number. -/
noncomputable def rounded (S : Format) (x : ℚ) : EReal := clip S (nearest S x)

theorem overflow_pos (S : Format) : 0 < overflow S := by
  unfold overflow
  positivity

theorem clip_of_lt (hlow : -overflow S < x) (hhigh : x < overflow S) : clip S x = (x : ℝ) := by
  rw [clip, if_neg hhigh.not_ge, if_neg hlow.not_ge]

theorem clip_mono (S : Format) : Monotone (clip S) := by
  intro x y hxy
  have hpos := overflow_pos S
  unfold clip
  split_ifs with hx hy hy hy' hx' hy hy'
  · exact le_refl _
  · linarith
  · linarith
  · exact le_top
  · exact bot_le
  · exact bot_le
  · exact le_top
  · linarith
  · exact_mod_cast hxy

/-- What is stored keeps the order of numbers. -/
theorem rounded_mono (S : Format) : Monotone (rounded S) :=
  (clip_mono S).comp (nearest_mono S)

/-! ### Numbers -/

/-- What a number stands for, with the infinities at both ends. Nothing is not a number. -/
noncomputable def denoted : UnpackedFloat → Option EReal
  | .notANumber => none
  | .infinity .positive => some ⊤
  | .infinity .negative => some ⊥
  | u => some (value u : ℝ)

theorem Settled.denoted_eq (h : Settled S u) : denoted u = some ((value u : ℝ) : EReal) := by
  cases h with
  | zero s => rfl
  | finite s h hcanon => rfl

theorem Settled.ne_notANumber (h : Settled S u) : u ≠ .notANumber := by
  cases h <;> exact nofun

/-- The exponent says whether a number is too large to be stored. -/
theorem overflow_le_iff (hS : 2 ≤ S.exponentBits) (h : Ranged S m e) (hcanon : Canonical S m e) :
    overflow S ≤ m * 2 ^ e ↔ S.exponentBias < e + S.mantissaBitsWithoutImplicit := by
  have hpower : overflow S = 2 ^ ((S.exponentBias : ℤ) + 1) := by
    rw [overflow, ← zpow_natCast]
    push_cast
    rfl
  have hpos := two_zpow_pos e
  rw [hpower]
  constructor
  · intro hle
    by_contra hsmall
    have hlt : (m : ℚ) * 2 ^ e < 2 ^ ((S.mantissaBits : ℤ) + e) := by
      rw [zpow_add₀ (by norm_num), zpow_natCast]
      exact mul_lt_mul_of_pos_right (by exact_mod_cast h.lt) hpos
    have hexponent : (2 : ℚ) ^ ((S.mantissaBits : ℤ) + e) ≤ 2 ^ ((S.exponentBias : ℤ) + 1) := by
      refine zpow_le_zpow_right₀ (by norm_num) ?_
      unfold Format.mantissaBits
      omega
    exact absurd hle (hlt.trans_le hexponent).not_ge
  · -- Far above the least exponent, a mantissa has all its bits.
    intro hlarge
    have hbias : 1 ≤ S.exponentBias := by
      have hcapacity := two_pow_exponentBits S
      have hbits : 2 ^ 2 ≤ 2 ^ S.exponentBits := Nat.pow_le_pow_right (by norm_num) hS
      omega
    have hleast := minExponent_eq S
    have hfull : m.log2 + 1 = S.mantissaBits := hcanon.resolve_right (by omega)
    have hlog : m.log2 = S.mantissaBitsWithoutImplicit := by
      unfold Format.mantissaBits at hfull
      omega
    have hlead := Nat.log2_self_le (Nat.ne_of_gt h.pos)
    rw [hlog] at hlead
    calc (2 : ℚ) ^ ((S.exponentBias : ℤ) + 1)
        ≤ 2 ^ ((S.mantissaBitsWithoutImplicit : ℤ) + e) :=
          zpow_le_zpow_right₀ (by norm_num) (by omega)
      _ = 2 ^ S.mantissaBitsWithoutImplicit * 2 ^ e := by
          rw [zpow_add₀ (by norm_num), zpow_natCast]
      _ ≤ m * 2 ^ e := mul_le_mul_of_nonneg_right (by exact_mod_cast hlead) hpos.le

/-- A number that is rounded is stored up to the ends of the format. -/
theorem denoted_stored (hS : 2 ≤ S.exponentBits) (h : Settled S u) :
    denoted (stored S u) = some (clip S (value u)) := by
  have hends := overflow_pos S
  cases h with
  | zero s =>
    rw [stored_zero, value_zero, clip_of_lt (neg_lt_zero.mpr hends) hends]
    rfl
  | @finite s m e h hcanon =>
    have hpos : (0 : ℚ) < m * 2 ^ e := mul_pos (by exact_mod_cast h.pos) (two_zpow_pos e)
    have hsigned : value (.finite s m e h.pos) = (s.apply 1 : ℤ) * (m * 2 ^ e) := by
      rw [value, apply_eq, Int.cast_mul, Int.cast_natCast, mul_assoc]
    by_cases hlarge : S.exponentBias < e + S.mantissaBitsWithoutImplicit
    · have hle := (overflow_le_iff hS h hcanon).mpr hlarge
      rw [stored_overflow h.pos hlarge, hsigned]
      cases s with
      | positive =>
        simp only [Sign.apply, Int.cast_one, one_mul, clip, if_pos hle]
        rfl
      | negative =>
        have hlow : ¬ overflow S ≤ -(m * 2 ^ e) := by linarith
        simp only [Sign.apply, Int.cast_neg, Int.cast_one, neg_one_mul, clip, if_neg hlow,
          if_pos (neg_le_neg hle)]
        rfl
    · have hlt := not_le.mp (mt (overflow_le_iff hS h hcanon).mp hlarge)
      have hbounds : |value (.finite s m e h.pos)| < overflow S := by
        rw [value, abs_mul, ← Int.cast_abs, abs_apply, Int.cast_natCast,
          abs_of_pos (two_zpow_pos e)]
        exact hlt
      rw [stored_canonical h hcanon s (by omega), clip_of_lt (abs_lt.mp hbounds).1
        (abs_lt.mp hbounds).2]
      rfl

/-- A number that was read is within the ends of the format. -/
theorem Settled.clip_eq (hS : 2 ≤ S.exponentBits) (h : Settled S u) (hstored : stored S u = u) :
    clip S (value u) = (value u : ℝ) := by
  have heq := denoted_stored hS h
  rw [hstored, h.denoted_eq] at heq
  exact (Option.some.inj heq).symm

/-! ### Comparisons -/

/-- Mantissas and exponents are ordered as what they stand for. -/
theorem mul_lt_mul_of_lt (h : Ranged S m e) (h' : Ranged S m' e') (hcanon : Canonical S m' e')
    (hlt : e < e' ∨ e = e' ∧ m < m') : (m : ℚ) * 2 ^ e < m' * 2 ^ e' := by
  rcases hlt with hlt | ⟨rfl, hlt⟩
  · -- The larger exponent is not the least one, so twice its mantissa is beyond any other.
    have hfull : m'.log2 + 1 = S.mantissaBits := hcanon.resolve_right fun heq => by
      have := h.least
      omega
    have hlead := Nat.log2_self_le (Nat.ne_of_gt h'.pos)
    have hless := h.lt
    rw [← hfull, Nat.pow_succ] at hless
    calc (m : ℚ) * 2 ^ e
        < (m' * 2 : Nat) * 2 ^ e :=
          mul_lt_mul_of_pos_right (by exact_mod_cast (by omega : m < m' * 2)) (two_zpow_pos e)
      _ = m' * 2 ^ (e + 1) := by
          rw [zpow_add_one₀ (by norm_num)]
          push_cast
          ring
      _ ≤ m' * 2 ^ e' :=
          mul_le_mul_of_nonneg_left (zpow_le_zpow_right₀ (by norm_num) (by omega)) (by positivity)
  · exact mul_lt_mul_of_pos_right (by exact_mod_cast hlt) (two_zpow_pos e)

/-- Numbers are compared as what they stand for. -/
theorem mul_lt_mul_iff (h : Ranged S m e) (h' : Ranged S m' e') (hcanon : Canonical S m e)
    (hcanon' : Canonical S m' e') :
    (m : ℚ) * 2 ^ e < m' * 2 ^ e' ↔ e < e' ∨ e = e' ∧ m < m' := by
  refine ⟨fun hlt => ?_, mul_lt_mul_of_lt h h' hcanon'⟩
  by_contra hge
  by_cases heq : e = e' ∧ m = m'
  · rw [heq.1, heq.2] at hlt
    exact lt_irrefl _ hlt
  · exact lt_asymm hlt (mul_lt_mul_of_lt h' h hcanon (by omega))

theorem Settled.lt_iff (hu : Settled S u) (hv : Settled S v) :
    u.lt v = true ↔ value u < value v := by
  cases hu with
  | zero s =>
    cases hv with
    | zero t => exact iff_of_false Bool.false_ne_true (lt_irrefl _)
    | finite t h' hcanon' =>
      cases t with
      | positive => exact iff_of_true rfl (value_positive h'.pos _)
      | negative => exact iff_of_false Bool.false_ne_true (value_negative h'.pos _).not_gt
  | finite s h hcanon =>
    cases hv with
    | zero t =>
      cases s with
      | positive => exact iff_of_false Bool.false_ne_true (value_positive h.pos _).not_gt
      | negative => exact iff_of_true rfl (value_negative h.pos _)
    | finite t h' hcanon' =>
      cases s with
      | positive =>
        cases t with
        | positive =>
          rw [positive_lt_iff, ← mul_lt_mul_iff h h' hcanon hcanon']
          simp [value, Sign.apply]
        | negative =>
          exact iff_of_false Bool.false_ne_true
            ((value_negative h'.pos _).trans (value_positive h.pos _)).not_gt
      | negative =>
        cases t with
        | positive =>
          exact iff_of_true rfl ((value_negative h.pos _).trans (value_positive h'.pos _))
        | negative =>
          -- Below zero the order is turned around.
          rw [negative_lt_iff, eq_comm, ← mul_lt_mul_iff h' h hcanon' hcanon]
          simp [value, Sign.apply]

/-- Comparing the other way round turns the answer around. -/
theorem compare_swap (u v : UnpackedFloat) : v.compare u = (u.compare v).map Ordering.swap := by
  rcases u with ⟨_ | _⟩ | _ | _ | ⟨_ | _, m, e, hm⟩ <;>
    rcases v with ⟨_ | _⟩ | _ | _ | ⟨_ | _, m', e', hm'⟩ <;>
    first
      | rfl
      | simp [UnpackedFloat.compare, Ordering.swap_then, Int.compare_swap, Nat.compare_swap]

/-- Of two numbers that are not in order, the second is the smaller one. -/
theorem lt_of_not_le (hu : u ≠ .notANumber) (hv : v ≠ .notANumber) (h : ¬ u.le v = true) :
    v.lt u = true := by
  unfold UnpackedFloat.le at h
  unfold UnpackedFloat.lt
  rw [compare_swap u v]
  cases hcompare : u.compare v with
  | none =>
    rcases u with ⟨_ | _⟩ | _ | _ | ⟨_ | _, m, e, hm⟩ <;>
      rcases v with ⟨_ | _⟩ | _ | _ | ⟨_ | _, m', e', hm'⟩ <;>
      simp_all [UnpackedFloat.compare]
  | some o =>
    rw [hcompare] at h
    cases o with
    | lt => exact absurd rfl h
    | eq => exact absurd rfl h
    | gt => rfl

/-- What is not below or at a finite number is less than that number. -/
theorem Settled.denoted_lt {y : EReal} (hu : Settled S u) (hv : Readable S v)
    (hstored : stored S v = v) (hy : denoted v = some y) (hle : ¬ u.le v = true) :
    y < ((value u : ℝ) : EReal) := by
  have hfinite : Settled S v → y < ((value u : ℝ) : EReal) := fun hv => by
    have hlt := (hv.lt_iff hu).mp (lt_of_not_le hu.ne_notANumber hv.ne_notANumber hle)
    rw [hv.denoted_eq, Option.some.injEq] at hy
    rw [← hy]
    exact_mod_cast hlt
  cases hv with
  | notANumber => cases hy
  | infinity s =>
    cases s with
    | negative =>
      obtain rfl := Option.some.inj hy
      exact EReal.bot_lt_coe _
    | positive =>
      cases hu with
      | zero t => exact absurd rfl hle
      | finite t h hcanon => cases t <;> exact absurd rfl hle
  | zero s => exact hfinite (.zero s)
  | finite s h => exact hfinite (.finite s h (canonical_of_stored h hstored))

/-! ### Words below infinity -/

/-- With an exponent that is not special, zero or a finite number is read. -/
theorem unpack_of_ne {E : BitVec S.exponentBits} (hE : E ≠ -1#_)
    (M : BitVec S.mantissaBitsWithoutImplicit) (s : Sign) :
    unpack S (packComponents S s E M) = .zero s ∨
      ∃ m e hm, unpack S (packComponents S s E M) = .finite s m e hm := by
  by_cases hzero : E = 0#_
  · rw [hzero]
    by_cases hM : M = 0#_
    · rw [hM]
      exact .inl unpack_packedZero
    · have hpos : 0 < M.toNat := Nat.pos_of_ne_zero fun h =>
        hM (BitVec.eq_of_toNat_eq (by simpa using h))
      exact .inr ⟨_, _, _, unpack_subnormal hpos⟩
  · rcases unpack_normal (s := s) (M := M) hzero hE with ⟨hpos, hread⟩
    exact .inr ⟨_, _, hpos, hread⟩

/-- The words below that of infinity are those of zero and of the numbers above it. -/
theorem lt_packedInfinity_iff {b : BitVec S.numBits} :
    b.toNat < (packedInfinity S .positive).toNat ↔
      unpack S b = .zero .positive ∨ ∃ m e hm, unpack S b = .finite .positive m e hm := by
  obtain ⟨s, E, M, rfl⟩ : ∃ s E M, b = packComponents S s E M :=
    ⟨_, _, _, (packComponents_unpackSign_unpackExponent_unpackMantissa b).symm⟩
  have hE := E.isLt
  have hM := M.isLt
  have hword : (packComponents S s E M).toNat
      = (s.toBitVec.toNat * 2 ^ S.exponentBits + E.toNat) * 2 ^ S.mantissaBitsWithoutImplicit
        + M.toNat := by
    rw [packComponents, toNat_append, toNat_append]
  have hinfinity : (packedInfinity S .positive).toNat
      = (2 ^ S.exponentBits - 1) * 2 ^ S.mantissaBitsWithoutImplicit := by
    rw [packedInfinity, packComponents, toNat_append, toNat_append, toNat_neg_one]
    simp [Sign.toBitVec]
  have hpow := Nat.two_pow_pos S.mantissaBitsWithoutImplicit
  rw [hword, hinfinity]
  by_cases hones : E = -1#_
  · refine iff_of_false ?_ ?_
    · rw [hones, toNat_neg_one, not_lt]
      exact le_trans (Nat.mul_le_mul_right _ (Nat.le_add_left _ _)) (Nat.le_add_right _ _)
    · rw [hones, unpack_special]
      split <;> simp
  have hread := unpack_of_ne hones M s
  cases s with
  | negative =>
    -- The bit of the sign alone makes a word larger than that of infinity.
    refine iff_of_false ?_ ?_
    · rw [not_lt]
      refine le_trans (Nat.mul_le_mul_right _ ?_) (Nat.le_add_right _ _)
      simp only [Sign.toBitVec, BitVec.toNat_ofNat]
      omega
    · rcases hread with hread | ⟨m, e, hm, hread⟩ <;> rw [hread] <;> simp
  | positive =>
    refine iff_of_true ?_ hread
    have hless : E.toNat + 1 ≤ 2 ^ S.exponentBits - 1 := by
      have hne : E.toNat ≠ 2 ^ S.exponentBits - 1 := fun h =>
        hones (BitVec.eq_of_toNat_eq (by rw [h, toNat_neg_one]))
      omega
    have hmul := Nat.mul_le_mul_right (2 ^ S.mantissaBitsWithoutImplicit) hless
    rw [Nat.add_mul] at hmul
    simp only [Sign.toBitVec, BitVec.toNat_ofNat, Nat.zero_mod, Nat.zero_mul, Nat.zero_add]
    omega

end Number

end GraphAttention
