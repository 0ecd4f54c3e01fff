import GraphAttention.Proofs.Dropping
import GraphAttention.Proofs.Number.Exact
import GraphAttention.Proofs.Number.Factor

/-!
# Uniform Samples

A sample is a fraction of a width, added to a lower end. The fraction is exact. The product and
the sum are rounded, but rounding keeps the order: no sample is below the lower end, and none is
above the one that the largest fraction gives. The width is stepped down until this one is
below the upper end, and at width zero it is, so the search for a width ends and all samples lie
between the ends, the upper one excluded.

This is so for the numbers that are drawn, which are those of the wider kind. In the smaller
kind they are rounded once more. This keeps the order, too, but not its strictness, and it moves
the ends where they are not of the smaller kind. So an element may be the upper end.

The normal samples of `SplitMix` are samples of a range, too, and this is why they are
finite, in the smaller kind as well.

## Main definitions

* `UniformRange.Spans`: The largest fraction of a width stays below an upper end.

## Theorems

* `UniformRange.spans_fitWidth`, `UniformRange.spans_ofBounds`: The search for a width.
* `UniformRange.Spans.sample_between`: Samples lie between the two ends.
* `SplitMix.finite_normals`: Normal samples made of words are finite.
* `Tensor.randUniform_drawn`, `Tensor.randUniform_roomless`: When samples are drawn.
* `Tensor.randUniform_between`: Tensors of samples.
-/

namespace GraphAttention

open Float.Model (Format UnpackedFloat)

/-! ### The width of a range -/

namespace UniformRange

open Number

variable {low high f : Float} {range : UniformRange}

/-- The largest fraction of the width of a range stays below an upper end. -/
structure Spans (range : UniformRange) (high : Float) : Prop where
  low : range.low.isFinite = true
  width : range.width.isFinite = true
  nonneg : 0 ≤ exact range.width
  top : ∃ y, denoted (range.width * largestFraction + range.low).toModel.unpack = some y ∧
    y < ((exact high : ℝ) : EReal)

theorem exact_step : step.isFinite = true ∧ exact step = 2 ^ (-52 : ℤ) := by
  have hunpack : step.toModel.unpack = .finite .positive (2 ^ 52) (-104) (by decide) := rfl
  refine ⟨rfl, ?_⟩
  rw [exact, hunpack, value]
  norm_num [UnpackedFloat.Sign.apply]

theorem exact_largestFraction :
    largestFraction.isFinite = true ∧ exact largestFraction = (2 ^ 52 - 1) * 2 ^ (-52 : ℤ) := by
  have hunpack : largestFraction.toModel.unpack
      = .finite .positive (2 ^ 53 - 2) (-53) (by decide) := rfl
  refine ⟨rfl, ?_⟩
  rw [exact, hunpack, value]
  norm_num [UnpackedFloat.Sign.apply]

theorem largestFraction_bounds : 0 ≤ exact largestFraction ∧ exact largestFraction ≤ 1 := by
  rw [exact_largestFraction.2]
  norm_num

/-- A fraction of a width is a number that is not below zero. -/
theorem exact_fraction_mul {p w : Float} {q : ℚ} (hw : w.isFinite = true) (hnonneg : 0 ≤ exact w)
    (hlow : 0 ≤ q) (hhigh : q ≤ 1)
    (hp : denoted p.toModel.unpack = some (rounded .binary64 (q * exact w))) :
    p.isFinite = true ∧ 0 ≤ exact p ∧ rounded .binary64 (q * exact w) = (exact p : ℝ) := by
  have hlower : ((0 : ℚ) : ℝ) ≤ rounded .binary64 (q * exact w) := by
    rw [← rounded_zero]
    exact rounded_mono _ (mul_nonneg hlow hnonneg)
  have hupper : rounded .binary64 (q * exact w) ≤ (exact w : ℝ) := by
    rw [← rounded_exact hw]
    exact rounded_mono _ (mul_le_of_le_one_left hnonneg hhigh)
  rcases isFinite_of_between hp hlower hupper with ⟨hfinite, heq⟩
  rw [heq] at hlower
  exact ⟨hfinite, by exact_mod_cast hlower, heq⟩

/-- The largest product that is added to a lower end. -/
theorem exact_mul_largest {w : Float} (hw : w.isFinite = true) (hnonneg : 0 ≤ exact w) :
    (w * largestFraction).isFinite = true ∧
      rounded .binary64 (exact largestFraction * exact w)
        = (exact (w * largestFraction) : ℝ) := by
  have hproduct := denoted_mul hw exact_largestFraction.1
  rw [mul_comm (exact w)] at hproduct
  rcases exact_fraction_mul hw hnonneg largestFraction_bounds.1 largestFraction_bounds.2
    hproduct with ⟨hfinite, -, heq⟩
  exact ⟨hfinite, heq⟩

/-- A word below that of infinity stands for a finite number that is not below zero. -/
theorem exact_ofBits {b : UInt64} (hb : b.toNat < (UnpackedFloat.packedInfinity .binary64
    .positive).toNat) : (Float.ofBits b).isFinite = true ∧ 0 ≤ exact (Float.ofBits b) := by
  have hunpack : (Float.ofBits b).toModel.unpack = .unpack .binary64 b.toBitVec :=
    Binary64.unpack_toFloat b
  have hfinite : (Float.ofBits b).isFinite = (Float.ofBits b).toModel.unpack.isFinite := rfl
  rw [hfinite, exact, hunpack]
  rcases (lt_packedInfinity_iff (S := .binary64) (b := b.toBitVec)).mp hb with
    hread | ⟨m, e, hm, hread⟩
  · rw [hread]
    exact ⟨rfl, le_rfl⟩
  · rw [hread]
    exact ⟨rfl, (value_positive hm e).le⟩

/-- The word of a finite number above zero is below that of infinity. -/
theorem toBits_lt (hpos : 0 < exact f) :
    f.toBits.toNat < (UnpackedFloat.packedInfinity .binary64 .positive).toNat := by
  have hunpack : f.toModel.unpack = .unpack .binary64 f.toBits.toBitVec := rfl
  refine (lt_packedInfinity_iff (S := .binary64) (b := f.toBits.toBitVec)).mpr (.inr ?_)
  rw [← hunpack]
  unfold exact at hpos
  cases hu : f.toModel.unpack with
  | finite s m e hm =>
    cases s with
    | positive => exact ⟨m, e, hm, rfl⟩
    | negative =>
      rw [hu] at hpos
      exact absurd hpos (value_negative hm e).not_gt
  | _ =>
    rw [hu] at hpos
    exact absurd hpos (lt_irrefl _)

/-- The width is stepped down until its largest fraction stays below the upper end. -/
theorem spans_fitWidth (hlow : low.isFinite = true) (hhigh : high.isFinite = true)
    (hlt : exact low < exact high) {n : Nat}
    (hn : n < (UnpackedFloat.packedInfinity .binary64 .positive).toNat) :
    Spans ⟨low, fitWidth low high n⟩ high := by
  induction n with
  | zero =>
    -- At width zero every sample is the lower end.
    have hzero : (0 : Float).isFinite = true ∧ exact 0 = 0 := by
      refine ⟨rfl, ?_⟩
      have hunpack : (0 : Float).toModel.unpack = .zero .positive := rfl
      rw [exact, hunpack]
      rfl
    have hwidth : fitWidth low high 0 = 0 := rfl
    have hproduct : (0 * largestFraction).isFinite = true ∧ exact (0 * largestFraction) = 0 := by
      refine exact_of_denoted ?_ rounded_zero
      rw [denoted_mul hzero.1 exact_largestFraction.1, hzero.2, zero_mul]
    rw [hwidth]
    refine ⟨hlow, hzero.1, hzero.2.ge, _, denoted_add hproduct.1 hlow, ?_⟩
    rw [hproduct.2, zero_add, rounded_exact hlow]
    exact_mod_cast hlt
  | succ n ih =>
    unfold fitWidth
    dsimp only
    split
    · exact ih (by omega)
    · rename_i hbelow
      have hword : (n + 1).toUInt64.toNat = n + 1 :=
        Nat.mod_eq_of_lt (hn.trans (UnpackedFloat.packedInfinity .binary64 .positive).isLt)
      have hwidth := exact_ofBits (b := (n + 1).toUInt64) (by rw [hword]; exact hn)
      have hsum := denoted_add (exact_mul_largest hwidth.1 hwidth.2).1 hlow
      exact ⟨hlow, hwidth.1, hwidth.2, _, hsum, denoted_lt_of_not_le hhigh hsum hbelow⟩

/-- A range between two numbers can be sampled from, and it spans to the larger one. -/
theorem spans_ofBounds (hlow : low.isFinite = true) (hhigh : high.isFinite = true)
    (hwidth : (high - low).isFinite = true) (hlt : exact low < exact high) :
    ∃ range, ofBounds? low high = some range ∧ range.low = low ∧ range.Spans high := by
  refine ⟨⟨low, fitWidth low high (high - low).toBits.toNat⟩, ?_, rfl, ?_⟩
  · simp only [ofBounds?, hlow, hhigh, hwidth, Bool.and_self, if_true]
  · exact spans_fitWidth hlow hhigh hlt
      (toBits_lt (exact_sub_pos hlow hhigh hwidth hlt))

/-- The fraction that a word stands for is not rounded, and it is not above the largest one. -/
theorem exact_fraction (word : UInt64) :
    ((word >>> 12).toFloat * step).isFinite = true ∧
      0 ≤ exact ((word >>> 12).toFloat * step) ∧
      exact ((word >>> 12).toFloat * step) ≤ exact largestFraction := by
  have hbits : (word >>> 12).toNat ≤ 2 ^ 52 - 1 := by
    have hlt := word.toNat_lt
    have hshift : (12 : UInt64).toNat % 64 = 12 := rfl
    rw [UInt64.toNat_shiftRight, hshift, Nat.shiftRight_eq_div_pow]
    omega
  have hword := exact_toFloat (n := word >>> 12) (by omega)
  have hself := rounded_fraction (k := (word >>> 12).toNat) (e := -52) (by omega) (by decide)
    (by decide)
  have hproduct := denoted_mul hword.1 exact_step.1
  rw [hword.2, exact_step.2] at hproduct
  rcases exact_of_denoted hproduct hself with ⟨hfinite, heq⟩
  rw [heq, exact_largestFraction.2]
  have hle : ((word >>> 12).toNat : ℚ) ≤ (2 ^ 52 - 1 : ℕ) := by exact_mod_cast hbits
  refine ⟨hfinite, by positivity, mul_le_mul_of_nonneg_right (hle.trans ?_) (two_zpow_pos _).le⟩
  norm_num

/-- Samples of a range lie between its lower end and the upper end that it spans to. -/
theorem Spans.sample_between (h : range.Spans high) (word : UInt64) :
    (range.sample word).isFinite = true ∧ exact range.low ≤ exact (range.sample word) ∧
      exact (range.sample word) < exact high := by
  rcases exact_fraction word with ⟨hfinite, hnonneg, hle⟩
  rcases exact_fraction_mul h.width h.nonneg hnonneg (hle.trans largestFraction_bounds.2)
    (denoted_mul hfinite h.width) with ⟨hproduct, hpositive, heq⟩
  rcases exact_mul_largest h.width h.nonneg with ⟨hlargest, heq'⟩
  rcases h.top with ⟨y, htop, hy⟩
  -- A smaller fraction gives a smaller product, and this a smaller sum.
  have hmul : exact ((word >>> 12).toFloat * step * range.width)
      ≤ exact (range.width * largestFraction) := by
    have hmono := rounded_mono .binary64 (mul_le_mul_of_nonneg_right hle h.nonneg)
    rw [heq, heq'] at hmono
    exact_mod_cast hmono
  have hsum := denoted_add hproduct h.low
  have hupper : rounded .binary64 (exact ((word >>> 12).toFloat * step * range.width)
      + exact range.low) ≤ y := by
    have hlast := denoted_add hlargest h.low
    rw [htop] at hlast
    rw [Option.some.inj hlast]
    exact rounded_mono _ (add_le_add_left hmul _)
  have hlower : (exact range.low : ℝ) ≤ rounded .binary64
      (exact ((word >>> 12).toFloat * step * range.width) + exact range.low) := by
    rw [← rounded_exact h.low]
    exact rounded_mono _ (le_add_of_nonneg_left hpositive)
  rcases isFinite_of_between hsum hlower (hupper.trans hy.le) with ⟨hsample, hvalue⟩
  rw [hvalue] at hlower hupper
  refine ⟨hsample, by exact_mod_cast hlower, ?_⟩
  exact_mod_cast hupper.trans_lt hy

end UniformRange

/-! ### Normal samples -/

namespace Number

/-- The leading bit of a number is no larger than the number. -/
theorem two_zpow_binade_le {m : Nat} (hm : 0 < m) (e : Int) :
    (2 : ℚ) ^ binade m e ≤ m * 2 ^ e := by
  have hlead := Nat.log2_self_le (Nat.ne_of_gt hm)
  rw [binade, zpow_add₀ (by norm_num), zpow_natCast]
  exact mul_le_mul_of_nonneg_right (by exact_mod_cast hlead) (two_zpow_pos e).le

/-- A number that is not large is moderate. -/
theorem moderate_of_abs_le {f : Float} (hf : f.isFinite = true) (hle : |exact f| ≤ 2 ^ 64) :
    Moderate f.toModel.unpack := by
  have hfinite : f.isFinite = f.toModel.unpack.isFinite := rfl
  rw [exact] at hle
  cases hu : f.toModel.unpack with
  | notANumber =>
    rw [hfinite, hu] at hf
    cases hf
  | infinity s =>
    rw [hfinite, hu] at hf
    cases hf
  | zero s => exact .inl ⟨s, rfl⟩
  | finite s m e hm =>
    refine .inr ⟨s, m, e, hm, rfl, ?_⟩
    have habs : |value (.finite s m e hm)| = m * 2 ^ e := by
      have hpos := two_zpow_pos e
      cases s <;> simp [value, UnpackedFloat.Sign.apply, abs_mul, abs_of_pos hpos]
    rw [hu, habs] at hle
    have hbound : (2 : ℚ) ^ binade m e ≤ 2 ^ (64 : ℤ) := by
      exact_mod_cast (two_zpow_binade_le hm e).trans hle
    exact (zpow_le_zpow_iff_right₀ (by norm_num)).mp hbound

end Number

namespace SplitMix

open Number

theorem exact_normalRange : normalRange.low.isFinite = true ∧ exact normalRange.low = -6 ∧
    normalRange.width.isFinite = true ∧ exact normalRange.width = 16 := by
  have hlow : normalRange.low.toModel.unpack
      = .finite .negative (6 * 2 ^ 50) (-50) (by decide) := rfl
  have hwidth : normalRange.width.toModel.unpack = .finite .positive (2 ^ 52) (-48) (by decide) :=
    rfl
  refine ⟨rfl, ?_, rfl, ?_⟩
  · rw [exact, hlow, value]
    norm_num [UnpackedFloat.Sign.apply]
  · rw [exact, hwidth, value]
    norm_num [UnpackedFloat.Sign.apply]

/-- The range ends well below its width. -/
theorem spans_normalRange : normalRange.Spans normalRange.width := by
  rcases exact_normalRange with ⟨hlow, hleft, hwidth, hright⟩
  have hnonneg : 0 ≤ exact normalRange.width := by
    rw [hright]
    norm_num
  rcases UniformRange.exact_mul_largest hwidth hnonneg with ⟨hproduct, heq⟩
  refine ⟨hlow, hwidth, hnonneg, _, denoted_add hproduct hlow, ?_⟩
  -- The product is at most the width, and six less than the width is far below it.
  have hle : exact (normalRange.width * UniformRange.largestFraction)
      ≤ exact normalRange.width := by
    have hmono := rounded_mono .binary64
      (mul_le_of_le_one_left hnonneg UniformRange.largestFraction_bounds.2)
    rw [heq, rounded_exact hwidth] at hmono
    exact_mod_cast hmono
  have hten : rounded .binary64 10 = ((10 : ℚ) : ℝ) := by
    simpa using rounded_fraction (show 10 < 2 ^ 53 by norm_num) (show -1074 ≤ 0 by decide) le_rfl
  refine (rounded_mono .binary64 (show _ ≤ 10 by linarith)).trans_lt ?_
  rw [hten, hright]
  exact_mod_cast show (10 : ℚ) < 16 by norm_num

/-- A normal sample is a sample of a range, so it is finite and not large. -/
theorem finite_normals : NormalSource.Finite SplitMix := by
  intro g d hd
  rcases spans_normalRange.sample_between (normalWord (WordSource.take 12 g).1) with
    ⟨hfinite, hlow, hhigh⟩
  rcases exact_normalRange with ⟨-, hleft, -, hright⟩
  rw [hleft] at hlow
  rw [hright] at hhigh
  have hle : |exact (normalRange.sample (normalWord (WordSource.take 12 g).1))| ≤ 2 ^ 64 :=
    abs_le.mpr ⟨by linarith, by linarith⟩
  rw [DType.isFinite_eq_sort hd]
  exact DType.isFinite_ofFloat hd (moderate_of_abs_le hfinite hle)

end SplitMix

/-! ### Tensors -/

namespace Tensor

open GraphAttention.Action Number

variable {G : Type} [WordSource G] {d : DType} {s : Shape} {low high : Float} {g : G}
  {range : UniformRange}

/-- Once the kind and the range are fine, there is a sample for each element if there is room for
    all of them. -/
theorem randUniform_drawn (hd : d.isFloat = true) (hlt : low < high)
    (hrange : UniformRange.ofBounds? low high = some range) (room : Shape.Allocatable 8 s) (g : G) :
    ∃ t, randUniform s low high d g = (.ok t, WordSource.after s.size g) ∧ t.Matches d s ∧
      ∀ idx, Shape.Within idx s →
        t.entry d idx = Scalar.ofFloat (range.sample (WordSource.word (s.ravel idx) g)) := by
  have hkind : requireFloat d = .ok () := if_pos hd
  have hfits := ensureGatherable_ok room
  have hdraw : drawWords s.numel g
      = (.ok (WordSource.take s.size g).1, WordSource.after s.size g) := by
    rw [drawWords, Shape.numel_of_addressable room.1, WordSource.take_eq]
  let data : Array d.Elem := ((WordSource.take s.size g).1.map range.sample).map Scalar.ofFloat
  have hsize : data.size = s.size := by simp [data, WordSource.take_size]
  refine ⟨⟨d, ⟨s, data, hsize⟩, allocatable_width room⟩, ?_, ⟨rfl, rfl⟩, fun idx hidx => ?_⟩
  · have hcast : ofFloats ((WordSource.take s.size g).1.map range.sample) s d
        = .ok ⟨d, ⟨s, data, hsize⟩, _⟩ := ofElements_ok hsize (allocatable_width room)
    simp only [randUniform, hkind, hlt, hrange, hfits, run_bind, run_attempt, hdraw, hcast,
      not_true_eq_false, if_false]
  · have hravel := Shape.ravel_lt hidx
    have hlt' : s.ravel idx < (WordSource.take s.size g).1.size := by
      rw [WordSource.take_size]
      exact hravel
    rw [entry_mk, ← WordSource.take_getD hravel]
    simp [DenseArray.get, data, hlt']

/-- Without room for the samples nothing is drawn. -/
theorem randUniform_roomless (hd : d.isFloat = true) (hlt : low < high)
    (hrange : UniformRange.ofBounds? low high = some range) (hcount : s.numel = s.size)
    (hfits : ¬ Shape.Fits 8 s) (g : G) :
    randUniform s low high d g = (.error (.unaddressable s), g) := by
  have hkind : requireFloat d = .ok () := if_pos hd
  have hgather := ensureGatherable_error hcount hfits
  simp only [randUniform, hkind, hlt, hrange, hgather, run_bind, run_attempt, not_true_eq_false,
    if_false]

/-- Samples are drawn only with room for all of them. -/
theorem room_of_randUniform (hd : d.isFloat = true) (hlt : low < high)
    (hrange : UniformRange.ofBounds? low high = some range) {t : Tensor} {g' : G}
    (hrun : randUniform s low high d g = (.ok t, g')) : Shape.Allocatable 8 s := by
  have hspan := (randUniform_yields low high g t g' hrun).room.1
  refine ⟨hspan, ?_⟩
  by_contra hfits
  rw [randUniform_roomless hd hlt hrange (Shape.numel_of_addressable hspan) hfits] at hrun
  cases hrun

/-- Between two numbers whose difference is finite, samples are drawn exactly if there is room for
    them, one word for each. A sample is a number between the two that is not the upper one, and
    it is rounded to the kind only then: in the wider kind that changes nothing, and in the other
    it can make an element as large as the rounded upper number and as small as the rounded lower
    one. -/
theorem randUniform_between (hd : d.isFloat = true) (hlow : low.isFinite = true)
    (hhigh : high.isFinite = true) (hlt : low < high) (hwidth : (high - low).isFinite = true)
    (s : Shape) (g : G) :
    ∃ range, UniformRange.ofBounds? low high = some range ∧
      ((∃ t g', randUniform s low high d g = (.ok t, g')) ↔ Shape.Allocatable 8 s) ∧
      ∀ t g', randUniform s low high d g = (.ok t, g') →
        g' = WordSource.after s.size g ∧ t.Matches d s ∧
        ∀ idx, Shape.Within idx s → ∃ (x : Float) (y : EReal),
          x = range.sample (WordSource.word (s.ravel idx) g) ∧
          x.isFinite = true ∧ exact low ≤ exact x ∧ exact x < exact high ∧
          t.entry d idx = Scalar.ofFloat x ∧ d.denoted (t.entry d idx) = some y ∧
          y = rounded d.format (exact x) ∧
          rounded d.format (exact low) ≤ y ∧ y ≤ rounded d.format (exact high) ∧
          (d = .float64 → y = ((exact x : ℝ) : EReal)) := by
  have hless := (lt_iff_exact hlow hhigh).mp hlt
  rcases UniformRange.spans_ofBounds hlow hhigh hwidth hless with ⟨range, hrange, rfl, hspans⟩
  refine ⟨range, hrange, ⟨?_, fun room => ?_⟩, fun t g' hrun => ?_⟩
  · rintro ⟨t, g', hrun⟩
    exact room_of_randUniform hd hlt hrange hrun
  · rcases randUniform_drawn hd hlt hrange room g with ⟨t, hrun, -⟩
    exact ⟨t, _, hrun⟩
  · have room := room_of_randUniform hd hlt hrange hrun
    rcases randUniform_drawn hd hlt hrange room g with ⟨t', hrun', hM, hE⟩
    have hsame := Prod.mk.inj (hrun.symm.trans hrun')
    obtain rfl : t = t' := Except.ok.inj hsame.1
    refine ⟨hsame.2, hM, fun idx hidx => ?_⟩
    rcases hspans.sample_between (WordSource.word (s.ravel idx) g) with ⟨hfinite, hle, hless⟩
    rw [hE idx hidx]
    refine ⟨_, _, rfl, hfinite, hle, hless, rfl, DType.denoted_ofFloat hd hfinite, rfl,
      rounded_mono _ hle, rounded_mono _ hless.le, ?_⟩
    rintro rfl
    exact rounded_exact hfinite

/-- Samples between zero and one, of the smaller kind. -/
theorem randUniform_between_zero_one : DType.float32.isFloat = true ∧ (0 : Float).isFinite = true ∧
    (1 : Float).isFinite = true ∧ (0 : Float) < 1 ∧ ((1 : Float) - 0).isFinite = true ∧
    ∃ t g', randUniform [2] 0 1 .float32 (SplitMix.mk 1) = (.ok t, g') ∧ t.Matches .float32 [2] ∧
      ∃ y, DType.float32.denoted (t.entry .float32 [1]) = some y ∧
        rounded .binary32 (exact 0) ≤ y ∧ y ≤ rounded .binary32 (exact 1) := by
  have hlt : (0 : Float) < 1 := by decide +kernel
  have hwidth : ((1 : Float) - 0).isFinite = true := rfl
  rcases randUniform_between (d := .float32) rfl rfl rfl hlt hwidth [2] (SplitMix.mk 1) with
    ⟨range, -, hroom, hdrawn⟩
  rcases hroom.mpr (by decide) with ⟨t, g', hrun⟩
  rcases hdrawn t g' hrun with ⟨-, hM, hE⟩
  rcases hE [1] (by decide) with ⟨x, y, -, -, -, -, -, hy, -, hle, hge, -⟩
  exact ⟨rfl, rfl, rfl, hlt, hwidth, t, g', hrun, hM, y, hy, hle, hge⟩

/-- It is not so that the upper number is never drawn. The word with all bits set is drawn as the
    number below one, and this is rounded to one. -/
theorem not_forall_randUniform_below : ¬ ∀ (s : Shape) (low high : Float) (d : DType)
    (g : SplitMix), d.isFloat = true → low.isFinite = true → high.isFinite = true → low < high →
    (high - low).isFinite = true → ∀ t g', randUniform s low high d g = (.ok t, g') →
    ∀ idx, Shape.Within idx s → ∃ y, d.denoted (t.entry d idx) = some y ∧
      ((exact low : ℝ) : EReal) ≤ y ∧ y < ((exact high : ℝ) : EReal) := by
  intro h
  have hlt : (0 : Float) < 1 := by decide +kernel
  have hrange : UniformRange.ofBounds? 0 1 = some ⟨0, 1⟩ := by decide +kernel
  -- The first word of this source has all bits set.
  let g := SplitMix.mk 3558559446808474027
  rcases randUniform_drawn (d := .float32) (s := [1]) rfl hlt hrange (by decide) g with
    ⟨t, hrun, -, hE⟩
  rcases h [1] 0 1 .float32 g rfl rfl rfl hlt rfl t _ hrun [0] (by decide) with ⟨y, hy, -, hless⟩
  have hone : (Scalar.ofFloat (UniformRange.sample ⟨0, 1⟩
      (WordSource.word (Shape.ravel [1] [0]) g)) : Binary32) = 1 := by decide +kernel
  -- The word of one and the upper number stand for one.
  have hword : DType.float32.denoted (1 : Binary32)
      = some ((value (.finite .positive (2 ^ 23) (-23) (by decide)) : ℝ) : EReal) := rfl
  have hunpack : (1 : Float).toModel.unpack
      = .finite .positive (2 ^ 52) (-52) (by decide) := rfl
  have hvalue : value (.finite .positive (2 ^ 23) (-23) (by decide)) = 1 := by
    norm_num [value, UnpackedFloat.Sign.apply]
  have hvalue' : exact 1 = 1 := by
    rw [exact, hunpack]
    norm_num [value, UnpackedFloat.Sign.apply]
  rw [hE [0] (by decide), hone, hword, hvalue] at hy
  rw [← Option.some.inj hy, hvalue'] at hless
  exact lt_irrefl _ hless

end Tensor

end GraphAttention
