import GraphAttention.Proofs.Dropout
import GraphAttention.Proofs.Number.Word

/-!
# The Factor of a Dropout Layer

What a dropout layer keeps is multiplied by `1 / (1 - p)`. This is a finite number
for every probability `p` below one, however close to one it is: the numbers
below one are at least `2 ^ (-53)` away from it, so the quotient is about `2 ^ 53` at
most. Both kinds of element have room for that, so an element that is zero
stays zero.

Only the place of the leading bit is followed through the difference and the
quotient. Neither is exact, and rounding moves the leading bit by one place at
most.

## Main definitions

* `Number.Moderate`: Zero, or finite and not too large for any kind.

## Theorems

* `complement_spec`: One less a probability is not too small.
* `binade_divCore`, `reciprocal_moderate`: One over what is not too small.
* `Dropout.keepFactor_moderate`: The factor of any word.
* `DType.isFinite_ofFloat`: A moderate number is finite in either kind.
-/

namespace GraphAttention

namespace Number

open Float.Model (Format UnpackedFloat totalExponent)
open Float.Model.UnpackedFloat

/-- Zero, or finite and well below the largest numbers of either format. -/
def Moderate (u : UnpackedFloat) : Prop :=
  (∃ s, u = .zero s) ∨ ∃ s m e hm, u = .finite s m e hm ∧ binade m e ≤ 64

/-- The number one. -/
def one : UnpackedFloat := .finite .positive (2 ^ 52) (-52) (by decide)

/-! ### Differences from one -/

/-- The difference between a power of two and something smaller, at an exponent
    that is `k` places below that of the power. -/
theorem log2_complement {m k : Nat} (hm : m < 2 ^ 53) (hzero : k = 0 → m < 2 ^ 52) :
    0 < 2 ^ 52 * 2 ^ k - m ∧ k ≤ (2 ^ 52 * 2 ^ k - m).log2 + 1 ∧
      (2 ^ 52 * 2 ^ k - m).log2 ≤ 52 + k := by
  have hupper : (2 ^ 52 * 2 ^ k - m).log2 ≤ 52 + k := by
    rw [← Nat.log2_two_pow (n := 52 + k), Nat.pow_add]
    exact log2_le_log2 (Nat.sub_le _ _)
  cases k with
  | zero =>
    have := hzero rfl
    exact ⟨by omega, Nat.zero_le _, hupper⟩
  | succ k =>
    have hpos := Nat.two_pow_pos k
    have hlow : 2 ^ k ≤ 2 ^ 52 * 2 ^ (k + 1) - m := by omega
    have hlog := (Nat.le_log2 (Nat.ne_of_gt (Nat.lt_of_lt_of_le hpos hlow))).mpr hlow
    exact ⟨Nat.lt_of_lt_of_le hpos hlow, by omega, hupper⟩

/-- A number below one has the exponent of one or a smaller one. -/
theorem lt_one {m : Nat} {e : Int} {hm : 0 < m}
    (h : (UnpackedFloat.finite .positive m e hm).lt one = true) :
    e < -52 ∨ e = -52 ∧ m < 2 ^ 52 := by
  have hcompare : (compare e (-52)).then (compare m (2 ^ 52)) = .lt := by
    simpa [UnpackedFloat.lt, UnpackedFloat.compare, one] using h
  rcases Ordering.then_eq_lt.mp hcompare with hlt | ⟨heq, hlt⟩
  · exact .inl (Int.compare_eq_lt.mp hlt)
  · exact .inr ⟨Int.compare_eq_eq.mp heq, Nat.compare_eq_lt.mp hlt⟩

/-- The difference between one and a number below it, before it is rounded. -/
theorem one_sub_eq {m k : Nat} (hm : 0 < m) (hless : m < 2 ^ 52 * 2 ^ k) (S : Format) :
    sub S one (.finite .positive m (-52 - k) hm)
      = UnpackedFloat.round S .positive (2 ^ 52 * 2 ^ k - m) (-52 - k) := by
  have hmin : min (-52 : Int) (-52 - k) = -52 - k := by omega
  have hleft : (-52 - (-52 - k) : Int).toNat = k := by omega
  have hright : (-52 - k - (-52 - k) : Int).toNat = 0 := by omega
  have hdiff : sub S one (.finite .positive m (-52 - k) hm)
      = UnpackedFloat.normalize S (((2 ^ 52 * 2 ^ k : Nat) : Int) - (m : Nat)) (-52 - k)
          .positive := by
    simp only [sub, one, decreaseExponent, hmin, hleft, hright, Sign.apply, Nat.shiftLeft_eq,
      Nat.pow_zero, Nat.mul_one]
  have hcast : (((2 ^ 52 * 2 ^ k : Nat) : Int) - (m : Nat)).toNat = 2 ^ 52 * 2 ^ k - m := by omega
  rw [hdiff, normalize_of_pos (by omega), hcast]

/-- One less a probability is not too small. -/
theorem complement_spec {u : UnpackedFloat} (hu : Readable Format.binary64 u)
    (hlow : .zero ≤ sort u) (hhigh : u.lt one = true) :
    ∃ m e, ∃ h : Ranged Format.binary64 m e,
      stored Format.binary64 (sub Format.binary64 one u) = .finite .positive m e h.pos ∧
        -53 ≤ binade m e := by
  rcases hu.cases_nonneg hlow with rfl | ⟨s, rfl⟩ | ⟨m, e, h, rfl⟩
  · cases hhigh
  · -- Nothing is taken away from one, and one is stored as it is.
    have hone : Ranged Format.binary64 (2 ^ 52) (-52) := ⟨by decide, by decide, by decide⟩
    have hstored : stored Format.binary64 one = one :=
      stored_canonical hone (.inl (by decide)) .positive (by decide)
    exact ⟨2 ^ 52, -52, hone, hstored, by decide⟩
  · -- The exponent is `k` places below that of one, and the difference is taken there.
    have hless := lt_one hhigh
    obtain ⟨k, rfl⟩ : ∃ k : Nat, e = -52 - k := ⟨(-52 - e).toNat, by omega⟩
    rcases log2_complement (k := k) h.lt (by omega) with ⟨hpos, hlower, hupper⟩
    rcases round_kept hpos h.least .positive with ⟨m', e', h', hround, hbelow, habove, hcanon⟩
    have hplace : binade m' e' ≤ 1 := by
      unfold binade at *
      omega
    have hstored := (stored_of_binade h' (by
      have hbias : Format.binary64.exponentBias = 1023 := by decide
      rw [hbias]
      dsimp only
      omega) .positive).1 hcanon
    refine ⟨m', e', h', ?_, ?_⟩
    · rw [one_sub_eq h.pos (by omega), hround, hstored]
    · unfold binade at *
      omega

/-! ### Quotients -/

/-- The leading bit of a quotient is where the leading bits of the operands have it,
    or lower. -/
theorem binade_divCore {m₁ m₂ : Nat} (hm₁ : 0 < m₁) (hm₂ : 0 < m₂) (S : Format) (e₁ e₂ : Int) :
    binade (divCore S m₁ e₁ m₂ e₂).1 (divCore S m₁ e₁ m₂ e₂).2.1
      ≤ max (binade m₁ e₁ - binade m₂ e₂) S.minExponent := by
  -- The dividend is shifted to the exponent `t`, which is low enough for all bits needed.
  let t := min (e₁ - e₂) (S.targetExponent (totalExponent m₁ e₁ - totalExponent m₂ e₂))
  have hlog : ((m₁ <<< (e₁ - e₂ - t).toNat) / m₂).log2
      ≤ m₁.log2 + (e₁ - e₂ - t).toNat - m₂.log2 := by
    rw [← log2_mul_two_pow hm₁, ← log2_div_two_pow, Nat.shiftLeft_eq]
    exact log2_le_log2
      (Nat.div_le_div_left (Nat.log2_self_le (Nat.ne_of_gt hm₂)) (Nat.two_pow_pos _))
  have ht : t = min (e₁ - e₂)
      (max (binade m₁ e₁ - binade m₂ e₂ - S.mantissaBits) S.minExponent) := by
    unfold t Format.targetExponent totalExponent binade
    omega
  change binade ((m₁ <<< (e₁ - e₂ - t).toNat) / m₂) t ≤ _
  unfold binade at *
  omega

/-- One over a number that is not too small is moderate. -/
theorem reciprocal_moderate {m : Nat} {e : Int} (h : Ranged Format.binary64 m e)
    (hplace : -53 ≤ binade m e) :
    Moderate (stored Format.binary64 (div Format.binary64 one (.finite .positive m e h.pos))) := by
  have hquotient := binade_divCore (by decide : 0 < 2 ^ 52) h.pos Format.binary64 (-52) e
  have hleast : Format.binary64.minExponent = -1074 := by decide
  have hone : binade (2 ^ 52) (-52) = 0 := by decide
  have hdiv : div Format.binary64 one (.finite .positive m e h.pos)
      = roundWithAccuracy Format.binary64 .positive (divCore Format.binary64 (2 ^ 52) (-52) m e).1
          (divCore Format.binary64 (2 ^ 52) (-52) m e).2.1
          (divCore Format.binary64 (2 ^ 52) (-52) m e).2.2 := rfl
  rw [hdiv]
  -- The quotient has its leading bit at place 53 at most, far below the largest.
  rcases roundWithAccuracy_ranged Format.binary64 .positive
    (divCore Format.binary64 (2 ^ 52) (-52) m e).1 (divCore Format.binary64 (2 ^ 52) (-52) m e).2.1
    (divCore Format.binary64 (2 ^ 52) (-52) m e).2.2 with hround | ⟨m', e', h', hround, hbound⟩
  · rw [hround, stored_zero]
    exact .inl ⟨_, rfl⟩
  · have hbias : Format.binary64.exponentBias = 1023 := by decide
    rcases (stored_of_binade h' (by rw [hbias]; dsimp only; omega) .positive).2 with
      ⟨e'', hle, h'', hstored⟩
    rw [hround, hstored]
    refine .inr ⟨_, _, _, _, rfl, ?_⟩
    unfold binade at *
    omega

end Number

open Float.Model (Format)

/-- The factor that a word decides on is moderate for every probability below one. -/
theorem Dropout.keepFactor_moderate {p : Float} (hp : Tensor.isProbability p = true)
    (word : UInt64) : Number.Moderate (keepFactor p word).toModel.unpack := by
  rw [Tensor.isProbability, Bool.and_eq_true, decide_eq_true_eq, decide_eq_true_eq] at hp
  have hread : Number.Readable Format.binary64 p.toModel.unpack :=
    Number.readable_unpack _ _
  have hlow : .zero ≤ Number.sort p.toModel.unpack :=
    Number.nonneg_of_le (decide_eq_true_iff.mp hp.1)
  have hhigh : p.toModel.unpack.lt Number.one = true := (Binary64.toFloat_lt_iff p 1).mp hp.2
  unfold keepFactor
  split
  · -- What is dropped is multiplied by zero.
    exact .inl ⟨.positive, rfl⟩
  · rcases Number.complement_spec hread hlow hhigh with ⟨m, e, h, hdifference, hplace⟩
    have hquotient : (1 / (1 - p)).toModel.unpack
        = Number.stored Format.binary64 (.div Format.binary64 Number.one
            (Number.stored Format.binary64
              (.sub Format.binary64 Number.one p.toModel.unpack))) := rfl
    rw [hquotient, hdifference]
    exact Number.reciprocal_moderate h hplace

/-- A moderate number is cast to a word of the wider kind that stands for it. -/
theorem Binary64.isFinite_ofFloat {f : Float} (hf : Number.Moderate f.toModel.unpack) :
    (NumberWord.sort (Scalar.ofFloat f : Binary64)).isFinite = true := by
  have hnumber : NumberWord.number (Scalar.ofFloat f : Binary64) = f.toModel.unpack :=
    unpack_toFloat _
  rw [NumberWord.sort, hnumber]
  rcases hf with ⟨s, hs⟩ | ⟨s, m, e, hm, hfinite, -⟩
  · rw [hs]
    rfl
  · rw [hfinite]
    cases s <;> rfl

/-- A moderate number is narrowed to a finite one. -/
theorem Binary32.isFinite_ofFloat {f : Float} (hf : Number.Moderate f.toModel.unpack) :
    (NumberWord.sort (Scalar.ofFloat f : Binary32)).isFinite = true := by
  have hwide : (Binary64.ofFloat f).toFloat.toModel.unpack = f.toModel.unpack :=
    Binary64.unpack_toFloat _
  have hread : ∀ u, NumberWord.number (⟨(Float32.Model.pack u).toBits⟩ : Binary32)
      = Number.stored Format.binary32 u := fun u => unpack_toFloat32 _
  have hcast : (Scalar.ofFloat f : Binary32) = (Binary64.ofFloat f).narrow := rfl
  rw [NumberWord.sort, hcast, Binary64.narrow, hwide]
  rcases hf with ⟨s, hs⟩ | ⟨s, m, e, hm, hfinite, hbound⟩
  · rw [hs]
    dsimp only
    rw [hread, Number.stored_zero]
    rfl
  · rw [hfinite]
    dsimp only
    rw [Binary32.round, hread]
    have hbias : Format.binary32.exponentBias = 127 := by decide
    have hleast : Format.binary32.minExponent = -149 := by decide
    -- The leading bit moves up by one at most, and there is room for twice as many.
    rcases Number.round_ranged hm Format.binary32 s e with hround | ⟨m', e', h', hround, hplace⟩
    · rw [hround, Number.stored_zero]
      rfl
    · rcases (Number.stored_of_binade h' (by rw [hbias]; dsimp only; omega) s).2 with
        ⟨e'', -, h'', hstored⟩
      rw [hround, hstored]
      cases s <;> rfl

/-- A moderate number is finite in either kind. -/
theorem DType.isFinite_ofFloat {d : DType} (hd : d.isFloat = true) {f : Float}
    (hf : Number.Moderate f.toModel.unpack) :
    (d.sort (Scalar.ofFloat f : d.Elem)).isFinite = true := by
  cases d with
  | float32 => exact Binary32.isFinite_ofFloat hf
  | float64 => exact Binary64.isFinite_ofFloat hf
  | int64 => cases hd
  | uint8 => cases hd

end GraphAttention
