import GraphAttention.Proofs.Number.Denoted

/-!
# Exact Numbers

The arithmetic of finite `Float`s and the cast to the kinds of element, put as arithmetic on
rational numbers: the exact result is rounded to the nearest number of the format, and
is an infinity if it lies beyond the ends of the format. Rounding keeps the order, so a
result is bounded by bounding the exact one.

## Main definitions

* `exact`: The rational number that a finite `Float` stands for.
* `DType.denoted`, `DType.format`: What an element stands for, and the format that it is
  stored in.

## Theorems

* `denoted_add`, `denoted_sub`, `denoted_mul`: One operation is one rounding.
* `isFinite_of_between`, `exact_of_denoted`: Results that are finite, and those that are exact.
* `rounded_fraction`, `exact_toFloat`: Numbers with few enough bits.
* `exact_sub_pos`: A difference above zero does not vanish.
* `lt_iff_exact`, `denoted_lt_of_not_le`: Comparisons.
* `DType.denoted_ofFloat`: The cast to a floating kind rounds once more.
-/

namespace GraphAttention

open Float.Model (Format UnpackedFloat)

/-! ### Numbers of the wider format -/

namespace Number

open Float.Model.UnpackedFloat

variable {f h : Float} {u : UnpackedFloat} {y : EReal} {a b : ℚ}

/-- The rational number that a finite `Float` stands for. -/
def exact (f : Float) : ℚ := value f.toModel.unpack

theorem settled_unpack (hf : f.isFinite = true) : Settled .binary64 f.toModel.unpack :=
  settled_of_isFinite (readable_unpack _ _) (stored_unpack (by decide) _)
    ((isFinite_eq_sort _).symm.trans hf)

theorem denoted_of_isFinite (hf : f.isFinite = true) :
    denoted f.toModel.unpack = some ((exact f : ℝ) : EReal) :=
  (settled_unpack hf).denoted_eq

/-- A finite `Float` is not rounded again. -/
theorem rounded_exact (hf : f.isFinite = true) : rounded .binary64 (exact f) = (exact f : ℝ) := by
  have hsettled := settled_unpack hf
  rw [rounded, exact, hsettled.nearest_eq]
  exact hsettled.clip_eq (by decide) (stored_unpack (by decide) _)

/-- What is stored of a result denotes the exact one, rounded. -/
theorem denoted_of_settled (hf : f.toModel.unpack = stored .binary64 u)
    (hu : Settled .binary64 u ∧ value u = nearest .binary64 a) :
    denoted f.toModel.unpack = some (rounded .binary64 a) := by
  rw [hf, denoted_stored (by decide) hu.1, hu.2]
  rfl

theorem denoted_add (hf : f.isFinite = true) (hh : h.isFinite = true) :
    denoted (f + h).toModel.unpack = some (rounded .binary64 (exact f + exact h)) :=
  denoted_of_settled rfl (settled_add (settled_unpack hf) (settled_unpack hh))

theorem denoted_sub (hf : f.isFinite = true) (hh : h.isFinite = true) :
    denoted (f - h).toModel.unpack = some (rounded .binary64 (exact f - exact h)) :=
  denoted_of_settled rfl (settled_sub (settled_unpack hf) (settled_unpack hh))

theorem denoted_mul (hf : f.isFinite = true) (hh : h.isFinite = true) :
    denoted (f * h).toModel.unpack = some (rounded .binary64 (exact f * exact h)) :=
  denoted_of_settled rfl (settled_mul (by decide) (settled_unpack hf) (settled_unpack hh))

/-- What is stored between two numbers is finite. -/
theorem isFinite_of_between (hf : denoted f.toModel.unpack = some y)
    (hlow : ((a : ℝ) : EReal) ≤ y) (hhigh : y ≤ ((b : ℝ) : EReal)) :
    f.isFinite = true ∧ y = (exact f : ℝ) := by
  have hfinite : f.isFinite = f.toModel.unpack.isFinite := rfl
  cases hu : f.toModel.unpack with
  | notANumber =>
    rw [hu] at hf
    cases hf
  | infinity s =>
    rw [hu] at hf
    cases s <;> obtain rfl := Option.some.inj hf
    · exact absurd hlow (EReal.bot_lt_coe _).not_ge
    · exact absurd hhigh (EReal.coe_lt_top _).not_ge
  | zero s =>
    rw [hu] at hfinite
    exact ⟨hfinite, Option.some.inj (hf.symm.trans (denoted_of_isFinite hfinite))⟩
  | finite s m e hm =>
    rw [hu] at hfinite
    exact ⟨hfinite, Option.some.inj (hf.symm.trans (denoted_of_isFinite hfinite))⟩

theorem lt_iff_exact (hf : f.isFinite = true) (hh : h.isFinite = true) :
    f < h ↔ exact f < exact h :=
  (Binary64.toFloat_lt_iff f h).trans ((settled_unpack hf).lt_iff (settled_unpack hh))

/-- What a finite `Float` is not at most stands for something smaller. -/
theorem denoted_lt_of_not_le (hf : f.isFinite = true) (hh : denoted h.toModel.unpack = some y)
    (hle : ¬ f ≤ h) : y < ((exact f : ℝ) : EReal) := by
  have hle_iff : f ≤ h ↔ f.toModel.unpack.le h.toModel.unpack = true := decide_eq_true_iff
  exact (settled_unpack hf).denoted_lt (readable_unpack _ _) (stored_unpack (by decide) _) hh
    (mt hle_iff.mpr hle)

/-- A number that is stored as it is. -/
theorem exact_of_denoted (hf : denoted f.toModel.unpack = some (rounded .binary64 a))
    (hself : rounded .binary64 a = (a : ℝ)) : f.isFinite = true ∧ exact f = a := by
  rcases isFinite_of_between hf hself.ge hself.le with ⟨hfinite, heq⟩
  refine ⟨hfinite, ?_⟩
  rw [hself] at heq
  exact_mod_cast heq.symm

/-- Fractions with few enough bits are stored as they are. -/
theorem rounded_fraction {k : ℕ} {e : ℤ} (hk : k < 2 ^ 53) (hlow : -1074 ≤ e) (hhigh : e ≤ 0) :
    rounded .binary64 (k * 2 ^ e) = ((k * 2 ^ e : ℚ) : ℝ) := by
  have hself := nearest_of_mul (S := .binary64) (k := k) (e := e)
    (by rw [Nat.abs_cast]; exact_mod_cast hk) hlow
  rw [Int.cast_natCast] at hself
  have hnonneg : (0 : ℚ) ≤ k * 2 ^ e := by positivity
  have hbound : (k : ℚ) * 2 ^ e < overflow .binary64 := calc
    (k : ℚ) * 2 ^ e ≤ k * 1 :=
      mul_le_mul_of_nonneg_left (zpow_le_one_of_nonpos₀ (by norm_num) hhigh) (by positivity)
    _ < 2 ^ 53 := by
      rw [mul_one]
      exact_mod_cast hk
    _ ≤ 2 ^ (Format.binary64.exponentBias + 1) := pow_le_pow_right₀ (by norm_num) (by decide)
  rw [rounded, hself, clip_of_lt ((neg_neg_of_pos (overflow_pos _)).trans_le hnonneg) hbound]

theorem rounded_zero : rounded .binary64 0 = ((0 : ℚ) : ℝ) := by
  simpa using rounded_fraction (show 0 < 2 ^ 53 by norm_num) (show -1074 ≤ 0 by decide) le_rfl

/-- An integer with few enough bits is a `Float`. -/
theorem exact_toFloat {n : UInt64} (hn : n.toNat < 2 ^ 53) :
    n.toFloat.isFinite = true ∧ exact n.toFloat = n.toNat := by
  have hself := rounded_fraction hn (show -1074 ≤ 0 by decide) le_rfl
  rw [zpow_zero, mul_one] at hself
  have hvalue := value_normalize .binary64 n.toNat 0 .positive
  rw [zpow_zero, mul_one] at hvalue
  exact exact_of_denoted (denoted_of_settled rfl ⟨settled_normalize _ _ _ _, hvalue⟩) hself

/-- Numbers of a format are multiples of its least power of two. -/
theorem Settled.exists_multiple {S : Format} (h : Settled S u) :
    ∃ k : ℤ, value u = k * 2 ^ S.minExponent := by
  cases h with
  | zero s => exact ⟨0, by simp [value]⟩
  | @finite s m e h hcanon =>
    obtain ⟨n, rfl⟩ : ∃ n : ℕ, S.minExponent + n = e := Int.le.dest h.least
    refine ⟨s.apply m * 2 ^ n, ?_⟩
    rw [value, zpow_add₀ (by norm_num), zpow_natCast]
    push_cast
    ring

/-- A difference is above zero if it should be. -/
theorem exact_sub_pos (hf : f.isFinite = true) (hh : h.isFinite = true)
    (hdiff : (h - f).isFinite = true) (hlt : exact f < exact h) : 0 < exact (h - f) := by
  rcases (settled_unpack hf).exists_multiple with ⟨k, hk⟩
  rcases (settled_unpack hh).exists_multiple with ⟨l, hl⟩
  have hpos := two_zpow_pos Format.binary64.minExponent
  -- Two numbers are apart by one least power of two or more, and that one can be stored.
  have hleast : ((1 : ℕ) : ℚ) * 2 ^ Format.binary64.minExponent ≤ exact h - exact f := by
    rw [exact, exact, hk, hl] at hlt ⊢
    have hless : k < l := by exact_mod_cast lt_of_mul_lt_mul_right hlt hpos.le
    have hstep : 1 ≤ l - k := by omega
    rw [← sub_mul]
    refine mul_le_mul_of_nonneg_right ?_ hpos.le
    exact_mod_cast hstep
  have hrounded := rounded_mono .binary64 hleast
  have heq := (denoted_of_isFinite hdiff).symm.trans (denoted_sub hh hf)
  rw [← Option.some.inj heq, rounded_fraction (by norm_num) (by decide) (by decide)] at hrounded
  have hle : ((1 : ℕ) : ℚ) * 2 ^ Format.binary64.minExponent ≤ exact (h - f) := by
    exact_mod_cast hrounded
  exact lt_of_lt_of_le (by simpa using hpos) hle

end Number

/-! ### Elements -/

namespace DType

open Number

/-- What an element stands for, with the infinities at both ends. Nothing is not a number. -/
noncomputable def denoted : (d : DType) → d.Elem → Option EReal
  | .float32, x => Number.denoted x.toFloat32.toModel.unpack
  | .float64, x => Number.denoted x.toFloat.toModel.unpack
  | .int64, x => some ((x.toInt : ℝ) : EReal)
  | .uint8, x => some ((x.toNat : ℝ) : EReal)

/-- The format that the elements of a floating kind are stored in. Numbers come to the other
    kinds in the wider one. -/
def format : DType → Format
  | .float32 => .binary32
  | .float64 | .int64 | .uint8 => .binary64

/-- A finite number is rounded when it is cast to a floating kind. -/
theorem denoted_ofFloat {d : DType} (hd : d.isFloat = true) {f : Float} (hf : f.isFinite = true) :
    d.denoted (Scalar.ofFloat f) = some (rounded d.format (exact f)) := by
  cases d with
  | int64 => cases hd
  | uint8 => cases hd
  | float64 =>
    have hunpack : (Binary64.ofFloat f).toFloat.toModel.unpack = f.toModel.unpack :=
      Binary64.unpack_toFloat _
    have hwide : DType.float64.denoted (Scalar.ofFloat f)
        = Number.denoted (Binary64.ofFloat f).toFloat.toModel.unpack := rfl
    rw [hwide, hunpack, denoted_of_isFinite hf]
    exact congrArg some (rounded_exact hf).symm
  | float32 =>
    have hunpack : (Binary64.ofFloat f).toFloat.toModel.unpack = f.toModel.unpack :=
      Binary64.unpack_toFloat _
    have hread : ∀ u, (⟨(Float32.Model.pack u).toBits⟩ : Binary32).toFloat32.toModel.unpack
        = stored .binary32 u := fun u => Binary32.unpack_toFloat32 _
    have hnarrow : DType.float32.denoted (Scalar.ofFloat f)
        = Number.denoted (Binary64.ofFloat f).narrow.toFloat32.toModel.unpack := rfl
    have hfinite : f.toModel.unpack.isFinite = true := hf
    rw [hnarrow, Binary64.narrow, hunpack, exact]
    cases hu : f.toModel.unpack with
    | notANumber =>
      rw [hu] at hfinite
      cases hfinite
    | infinity s =>
      rw [hu] at hfinite
      cases hfinite
    | zero s =>
      dsimp only
      rw [hread, denoted_stored (by decide) (.zero s), rounded, value_zero, nearest_zero]
      rfl
    | finite s m e hm =>
      dsimp only
      rw [Binary32.round, hread, denoted_stored (by decide) (settled_round hm _ _ _),
        value_round hm]
      rfl

end DType

end GraphAttention
