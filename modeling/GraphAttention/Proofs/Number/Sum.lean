import GraphAttention.Proofs.Number.Order

/-!
# Sums of Small Numbers

A sum of many numbers, none of them larger than one, stays finite however many there
are. This is not because there are too few of them. Once the sum has grown to where its
steps are wider than two, a summand is less than half a step, and rounding to the
nearest leaves the sum where it is.

All of this is read off exponents. A number is called small up to a bound if it is zero or
above zero with an exponent that is not above the bound. With mantissas of `p` bits one
has the exponent `1 - p`, and no sum gets past the exponent two. One over such a
number is far above the least number that can be stored, so it does not vanish.

## Main definitions

* `Number.Small`: Not negative, with an exponent that is not above a bound.
* `Number.Roomy`: A format with room for exponents a little above zero.

## Theorems

* `roundedMantissa_shiftRight`, `round_below`: What is less than half a step does not
  count.
* `small_unit`, `small_of_lt`: One, and what is between zero and one.
* `small_round`, `Small.add`: Sums stay small.
* `le_sort_unit_div`: One over a sum is above zero.
-/

namespace GraphAttention

namespace Number

open Float.Model (Format UnpackedFloat totalExponent)
open Float.Model.UnpackedFloat

variable {S : Format} {s : Sign} {u v : UnpackedFloat} {m m' k : Nat} {e e' : Int}

/-! ### Less than half a step -/

theorem roundedMantissa_of_roundBit {em : ExtendedMantissa} (h : em.roundBit = false) :
    em.roundedMantissa = em.mantissa := by
  rcases em with ⟨m, _ | _, _ | _⟩
  · rfl
  · rfl
  · cases h
  · cases h

/-- What is shifted out does not count if it is less than half of what could be. -/
theorem roundedMantissa_shiftRight {em : ExtendedMantissa} (h : em.mantissa % 2 ^ (k + 1) < 2 ^ k) :
    (em >>> (k + 1)).roundedMantissa = em.mantissa / 2 ^ (k + 1) := by
  have hbit : (em >>> (k + 1)).roundBit = false := by
    -- The round bit is the last one that was shifted out.
    change ((em >>> k).mantissa % 2 != 0) = false
    have hlast : em.mantissa / 2 ^ k % 2 = 0 := by
      rw [← Nat.mod_mul_right_div_self, ← Nat.pow_succ]
      exact Nat.div_eq_of_lt h
    rw [mantissa_shiftRight, hlast]
    rfl
  rw [roundedMantissa_of_roundBit hbit, mantissa_shiftRight]

/-- The exponent is lowered only if the mantissa is too short for it. -/
theorem round_of_le (h : e ≤ S.targetExponent (totalExponent m e)) (s : Sign) :
    UnpackedFloat.round S s m e = roundWithAccuracy S s m e .exact := by
  have hzero : (e - S.targetExponent (totalExponent m e)).toNat = 0 := by omega
  simp only [UnpackedFloat.round, decreaseExponent, hzero, Nat.shiftLeft_zero, Nat.cast_zero,
    Int.sub_zero]

/-- A canonical number with less than half a step added to it is rounded to itself. -/
theorem round_below (h : Ranged S m e) (hcanon : Canonical S m e) (s : Sign) (hm' : m' < 2 ^ k) :
    UnpackedFloat.round S s (m * 2 ^ (k + 1) + m') (e - (k + 1 : Nat)) = .finite s m e h.pos := by
  have hlt : m' < 2 ^ (k + 1) := by
    have := Nat.two_pow_pos k
    rw [Nat.pow_succ]
    omega
  have hdiv : (m * 2 ^ (k + 1) + m') / 2 ^ (k + 1) = m := by
    rw [Nat.add_comm, Nat.add_mul_div_right _ _ (Nat.two_pow_pos _), Nat.div_eq_of_lt hlt,
      Nat.zero_add]
  have hmod : (m * 2 ^ (k + 1) + m') % 2 ^ (k + 1) < 2 ^ k := by
    rwa [Nat.mul_add_mod_self_right, Nat.mod_eq_of_lt hlt]
  -- What is added does not reach the leading bit, so the shift is the one for zeros.
  have hlog : (m * 2 ^ (k + 1) + m').log2 = (m * 2 ^ (k + 1)).log2 := by
    have hquotient := log2_div_two_pow (m * 2 ^ (k + 1) + m') (k + 1)
    have hproduct := log2_mul_two_pow h.pos (k + 1)
    have hle := log2_le_log2 (Nat.le_add_right (m * 2 ^ (k + 1)) m')
    rw [hdiv] at hquotient
    omega
  have hshift : shiftAmount S (m * 2 ^ (k + 1) + m') (e - (k + 1 : Nat)) = k + 1 := by
    have hzeros := shiftAmount_mul_two_pow h hcanon (k + 1)
    unfold shiftAmount totalExponent at *
    rwa [hlog]
  have htarget : e - (k + 1 : Nat)
      ≤ S.targetExponent (totalExponent (m * 2 ^ (k + 1) + m') (e - (k + 1 : Nat))) := by
    unfold shiftAmount at hshift
    omega
  have hrounded : (ExtendedMantissa.ofMantissaAndAccuracy (m * 2 ^ (k + 1) + m') .exact
      >>> (k + 1)).roundedMantissa = m := (roundedMantissa_shiftRight hmod).trans hdiv
  have hexponent : e - (k + 1 : Nat) + (k + 1 : Nat) = e := by omega
  rw [round_of_le htarget, roundWithAccuracy_eq, hshift, hrounded, hexponent]
  exact carried_of_ranged h s

/-! ### Sums of small numbers -/

/-- Zero, or above zero with an exponent that is not above a bound. -/
def Small (S : Format) (bound : Int) (u : UnpackedFloat) : Prop :=
  (∃ s, u = .zero s) ∨ ∃ m e, ∃ h : Ranged S m e,
    u = .finite .positive m e h.pos ∧ Canonical S m e ∧ e ≤ bound

/-- There is room for exponents that are a little above zero. -/
def Roomy (S : Format) : Prop := S.mantissaBits + 3 ≤ S.exponentBias

theorem Small.mono {b b' : Int} (h : Small S b u) (hb : b ≤ b') : Small S b' u := by
  rcases h with hzero | ⟨m, e, h, hu, hcanon, he⟩
  · exact .inl hzero
  · exact .inr ⟨m, e, h, hu, hcanon, Int.le_trans he hb⟩

/-- One is small. -/
theorem small_unit (hS : Roomy S) : Small S (1 - S.mantissaBits) (unit S) := by
  have hpos := Nat.two_pow_pos S.mantissaBitsWithoutImplicit
  have hbits := two_pow_mantissaBits S
  have hleast := minExponent_eq S
  unfold Roomy at hS
  have h : Ranged S (2 ^ S.mantissaBitsWithoutImplicit) (-S.mantissaBitsWithoutImplicit) :=
    ⟨hpos, by omega, by omega⟩
  refine .inr ⟨_, _, h, rfl, .inl ?_, ?_⟩
  · rw [Nat.log2_two_pow, Format.mantissaBits, Nat.add_comm]
  · rw [Format.mantissaBits]
    omega

/-- What is above zero and not above one is small. -/
theorem small_of_lt (hu : Readable S u) (hstored : stored S u = u)
    (hpos : (UnpackedFloat.zero .positive).lt u = true) (hone : (unit S).lt u = false) :
    Small S (1 - S.mantissaBits) u := by
  cases hu with
  | notANumber => cases hpos
  | infinity s =>
    cases s with
    | negative => cases hpos
    | positive => cases hone
  | zero s => cases hpos
  | @finite s m e h =>
    cases s with
    | negative => cases hpos
    | positive =>
      have hle : ¬ (-(S.mantissaBitsWithoutImplicit : Int) < e) := fun hlt =>
        Bool.eq_false_iff.mp hone (positive_lt_iff.mpr (.inl hlt))
      refine .inr ⟨m, e, h, rfl, canonical_of_stored h hstored, ?_⟩
      rw [Format.mantissaBits]
      omega

theorem Small.stored_eq (hS : Roomy S) (h : Small S 2 u) : stored S u = u := by
  rcases h with ⟨s, rfl⟩ | ⟨m, e, h, rfl, hcanon, he⟩
  · exact stored_zero S s
  · refine stored_canonical h hcanon .positive ?_
    unfold Roomy Format.mantissaBits at hS
    omega

/-- A sum above zero that is not too large is rounded to something small. -/
theorem small_round (hS : Roomy S) (hm : 0 < m) (he : S.minExponent ≤ e)
    (hplace : binade m e ≤ S.mantissaBits) :
    Small S 2 (UnpackedFloat.round S .positive m e) := by
  rcases round_kept hm he .positive with ⟨m', e', h, hround, -, hbinade, hcanon⟩
  refine .inr ⟨m', e', h, hround, hcanon, ?_⟩
  have hleast := minExponent_eq S
  unfold Roomy at hS
  unfold binade at *
  unfold Format.mantissaBits at *
  rcases hcanon with hfull | hfull
  · unfold Format.mantissaBits at hfull
    omega
  · omega

/-- The sum of two numbers above zero before it is rounded. -/
theorem add_positive (S : Format) (hm : 0 < m) (hm' : 0 < m') (e e' : Int) :
    add S (.finite .positive m e hm) (.finite .positive m' e' hm')
      = UnpackedFloat.round S .positive
          (m * 2 ^ (e - min e e').toNat + m' * 2 ^ (e' - min e e').toNat) (min e e') := by
  have hpos := decreaseExponent_pos hm e (min e e')
  have hadd : add S (.finite .positive m e hm) (.finite .positive m' e' hm')
      = UnpackedFloat.normalize S (((decreaseExponent m e (min e e')).1 : Int)
          + ((decreaseExponent m' e' (min e e')).1 : Int)) (min e e') .positive := rfl
  rw [hadd, normalize_of_pos (by omega), ← Int.natCast_add, Int.toNat_natCast]
  simp only [decreaseExponent, Nat.shiftLeft_eq]

/-- The mantissa of a sum that is below `2 ^ (p + 1)` for a mantissa of `p` bits. -/
theorem sum_lt {p a b c : Nat} (hm : m < 2 ^ p) (hm' : m' < 2 ^ p) (ha : a ≤ c) (hb : b + p ≤ c) :
    m * 2 ^ a + m' * 2 ^ b < 2 ^ (p + c) := by
  have hleft : m * 2 ^ a ≤ m * 2 ^ c := Nat.mul_le_mul_left _ (Nat.pow_le_pow_right (by decide) ha)
  have hright : m' * 2 ^ b < 2 ^ p * 2 ^ b := Nat.mul_lt_mul_of_pos_right hm' (Nat.two_pow_pos b)
  have hpow : 2 ^ p * 2 ^ b ≤ 2 ^ c := by
    rw [← Nat.pow_add]
    exact Nat.pow_le_pow_right (by decide) (by omega)
  -- The mantissa is one less than its bound at least, and the second summand fits in between.
  calc m * 2 ^ a + m' * 2 ^ b
      < m * 2 ^ c + 2 ^ c := by omega
    _ = (m + 1) * 2 ^ c := by ring
    _ ≤ 2 ^ p * 2 ^ c := Nat.mul_le_mul_right _ hm
    _ = 2 ^ (p + c) := (Nat.pow_add 2 p c).symm

/-- The sum of a small number and one that is about one at most is small: where it could
    become larger, the second is less than half a step of the first. -/
theorem Small.add (hS : Roomy S) (hu : Small S 2 u) (hv : Small S (1 - S.mantissaBits) v) :
    Small S 2 (add S u v) := by
  have hv' : Small S 2 v := hv.mono (by omega)
  rcases hu with ⟨s, rfl⟩ | ⟨m, e, h, rfl, hcanon, he⟩
  · rcases hv with ⟨t, rfl⟩ | ⟨m', e', h', rfl, hcanon', he'⟩
    · exact .inl (zero_add_zero S s t)
    · exact hv'
  rcases hv with ⟨t, rfl⟩ | ⟨m', e', h', rfl, hcanon', he'⟩
  · exact .inr ⟨m, e, h, rfl, hcanon, he⟩
  have hpos : 0 < m * 2 ^ (e - min e e').toNat + m' * 2 ^ (e' - min e e').toNat :=
    Nat.add_pos_left (Nat.mul_pos h.pos (Nat.two_pow_pos _)) _
  rw [add_positive]
  rcases Int.lt_or_eq_of_le he with hlt | rfl
  · -- The exact sum has room at exponent one, and rounding takes it to two at most.
    refine small_round hS hpos (Int.le_min.mpr ⟨h.least, h'.least⟩) ?_
    have hsum := sum_lt (a := (e - min e e').toNat) (b := (e' - min e e').toNat)
      (c := (1 - min e e').toNat) h.lt h'.lt (by omega) (by omega)
    have hlog := (Nat.log2_lt (Nat.ne_of_gt hpos)).mpr hsum
    unfold binade
    omega
  · -- The first summand has steps of four, and the second is below two.
    obtain ⟨k, hk⟩ : ∃ k : Nat, e' = 2 - (k + 1 : Nat) := ⟨(1 - e').toNat, by omega⟩
    have hmin : min 2 e' = 2 - (k + 1 : Nat) := by omega
    have hleft : (2 - min 2 e').toNat = k + 1 := by omega
    have hright : (e' - min 2 e').toNat = 0 := by omega
    have hhalf : m' < 2 ^ k :=
      Nat.lt_of_lt_of_le h'.lt (Nat.pow_le_pow_right (by decide) (by omega))
    rw [hleft, hright, hmin, Nat.pow_zero, Nat.mul_one, round_below h hcanon .positive hhalf]
    exact .inr ⟨m, 2, h, rfl, hcanon, Int.le_refl 2⟩

/-! ### One over a sum -/

/-- One over a small number above zero does not vanish. -/
theorem le_sort_unit_div (hS : Roomy S) (h : Ranged S m e) (he : e ≤ 2) :
    .positive ≤ sort (stored S (div S (unit S) (.finite .positive m e h.pos))) := by
  let q := divCore S (2 ^ S.mantissaBitsWithoutImplicit) (-S.mantissaBitsWithoutImplicit) m e
  have hdiv : div S (unit S) (.finite .positive m e h.pos)
      = roundWithAccuracy S .positive q.1 q.2.1 q.2.2 := rfl
  have hexponent : q.2.1 = min (-S.mantissaBitsWithoutImplicit - e)
      (max (-m.log2 - e - S.mantissaBits) S.minExponent) := by
    change min (-S.mantissaBitsWithoutImplicit - e) (S.targetExponent (totalExponent
      (2 ^ S.mantissaBitsWithoutImplicit) (-S.mantissaBitsWithoutImplicit) - totalExponent m e)) = _
    unfold Format.targetExponent totalExponent
    rw [Nat.log2_two_pow]
    congr 2
    omega
  have hlog := (Nat.log2_lt (Nat.ne_of_gt h.pos)).mpr h.lt
  have hleast := minExponent_eq S
  unfold Roomy at hS
  unfold Format.mantissaBits at *
  -- The dividend is shifted far enough up for the divisor to go into it.
  have hpos : 0 < q.1 := by
    change 0 < (2 ^ S.mantissaBitsWithoutImplicit
      <<< (-S.mantissaBitsWithoutImplicit - e - q.2.1).toNat) / m
    refine Nat.div_pos ?_ h.pos
    rw [Nat.shiftLeft_eq, ← Nat.pow_add]
    refine Nat.le_trans (Nat.le_of_lt Nat.lt_log2_self) (Nat.pow_le_pow_right (by decide) ?_)
    omega
  rcases roundWithAccuracy_kept hpos (show S.minExponent ≤ q.2.1 by omega) .positive q.2.2 with
    ⟨m', e', h', hround, -⟩
  rw [hdiv, hround]
  exact le_sort_stored (.finite .positive h') (of_decide_eq_true rfl)

end Number

end GraphAttention
