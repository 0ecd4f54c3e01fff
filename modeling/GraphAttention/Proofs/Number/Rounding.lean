import GraphAttention.Proofs.Number.Packing

/-!
# What Rounding Does to a Number

An exact result has a mantissa of any length. Rounding shifts it to the right until
it fits, adds one at most for what was lost, and shifts once more if this has made
it too long. The mantissa then fits and the exponent is not below the least one,
in any format and whatever the result was.

Two more things are kept track of. One is the place of the leading bit, here called
the binade, which rounding moves up by one at most and which bounds the number
from both sides without saying anything of the rest of it. The other is that
nothing is lost altogether: only a result below the least exponent can round to
zero, and sums and differences of numbers that were read have no such exponent.

## Main definitions

* `Number.binade`: The place of the leading bit of a finite number.
* `Number.shiftAmount`: How far a mantissa is shifted.
* `Number.carried`: The last step of rounding.

## Theorems

* `roundWithAccuracy_eq`, `roundWithAccuracy_eq_carried`: Rounding in two steps.
* `carried_of_ranged`, `carried_spec`: What the second step does.
* `roundWithAccuracy_ranged`: A rounded number fits and is not much larger.
* `roundWithAccuracy_kept`: A number of sufficient exponent does not vanish.
* `round_ranged`, `round_kept`: The same where the exponent may be lowered first.
-/

namespace GraphAttention

namespace Number

open Float.Model (Format UnpackedFloat totalExponent)
open Float.Model.UnpackedFloat

variable {S : Format} {s : Sign} {m : Nat} {e : Int}

/-- The place of the leading bit of a mantissa at an exponent. -/
def binade (m : Nat) (e : Int) : Int := m.log2 + e

/-- A number whose leading bit is not too far up is not stored as an infinity. -/
theorem stored_of_binade (h : Ranged S m e)
    (hfits : binade m e + S.mantissaBitsWithoutImplicit ≤ S.exponentBias) (s : Sign) :
    (Canonical S m e → stored S (.finite s m e h.pos) = .finite s m e h.pos) ∧
      ∃ e', e' ≤ e ∧ ∃ h' : Ranged S m e',
        stored S (.finite s m e h.pos) = .finite s m e' h'.pos := by
  unfold binade at hfits
  refine ⟨fun hcanon => stored_canonical h hcanon s (by omega), ?_⟩
  rcases stored_ranged h s with ⟨hlarge, -⟩ | hkept
  · omega
  · exact hkept

/-! ### Logarithms -/

theorem log2_le_log2 {k n : Nat} (h : k ≤ n) : k.log2 ≤ n.log2 := by
  rw [Nat.log2_eq_log_two, Nat.log2_eq_log_two]
  exact Nat.log_mono_right h

theorem log2_div_two_pow (n k : Nat) : (n / 2 ^ k).log2 = n.log2 - k := by
  rw [Nat.log2_eq_log_two, Nat.log2_eq_log_two, Nat.log_div_base_pow]

theorem log2_mul_two_pow {n : Nat} (hn : 0 < n) (k : Nat) : (n * 2 ^ k).log2 = n.log2 + k := by
  have hquotient := log2_div_two_pow (n * 2 ^ k) k
  rw [Nat.mul_div_cancel _ (Nat.two_pow_pos k)] at hquotient
  have hle : k ≤ (n * 2 ^ k).log2 :=
    (Nat.le_log2 (Nat.ne_of_gt (Nat.mul_pos hn (Nat.two_pow_pos k)))).mpr
      (Nat.le_mul_of_pos_left _ hn)
  omega

/-- The leading bit moves up by one at most when one is added. -/
theorem log2_succ_le {n : Nat} (hn : 0 < n) : (n + 1).log2 ≤ n.log2 + 1 := by
  have hle : n + 1 ≤ n * 2 ^ 1 := by omega
  exact Nat.le_trans (log2_le_log2 hle) (Nat.le_of_eq (log2_mul_two_pow hn 1))

/-! ### Shifting -/

theorem mantissa_shiftRight (em : ExtendedMantissa) (k : Nat) :
    (em >>> k).mantissa = em.mantissa / 2 ^ k := by
  induction k with
  | zero => simp [HShiftRight.hShiftRight, Nat.repeat]
  | succ k ih =>
    change (em >>> k).mantissa / 2 = _
    rw [ih, Nat.div_div_eq_div_mul, Nat.pow_succ]

theorem mantissa_ofMantissaAndAccuracy (m : Nat) (acc : Accuracy) :
    (ExtendedMantissa.ofMantissaAndAccuracy m acc).mantissa = m := by
  rcases acc with _ | _ | _ | _ <;> rfl

/-- Rounding to an integer goes up by one at most. -/
theorem roundedMantissa_bounds (em : ExtendedMantissa) :
    em.mantissa ≤ em.roundedMantissa ∧ em.roundedMantissa ≤ em.mantissa + 1 := by
  rcases em with ⟨m, _ | _, _ | _⟩ <;>
    simp only [ExtendedMantissa.roundedMantissa, ExtendedMantissa.accuracy,
      Accuracy.roundToNearestEven] <;> omega

/-- By how many bits a number is shifted for the exponent that it is to have. -/
def shiftAmount (S : Format) (m : Nat) (e : Int) : Nat :=
  (S.targetExponent (totalExponent m e) - e).toNat

theorem shiftToTargetExponent_eq (m : Nat) (e : Int) (acc : Accuracy) :
    (shiftToTargetExponent S m e acc).1.mantissa = m / 2 ^ shiftAmount S m e ∧
      (shiftToTargetExponent S m e acc).2 = e + shiftAmount S m e := by
  refine ⟨?_, rfl⟩
  change (ExtendedMantissa.ofMantissaAndAccuracy m acc >>> shiftAmount S m e).mantissa = _
  rw [mantissa_shiftRight, mantissa_ofMantissaAndAccuracy]

/-- The shift is large enough for the mantissa and for the least exponent, and is
    made for one of these two reasons. -/
theorem shiftAmount_bounds (S : Format) (m : Nat) (e : Int) :
    m.log2 + 1 ≤ S.mantissaBits + shiftAmount S m e ∧
      S.minExponent ≤ e + shiftAmount S m e ∧
      (shiftAmount S m e = 0 ∨ m.log2 + 1 = S.mantissaBits + shiftAmount S m e ∨
        S.minExponent = e + shiftAmount S m e) := by
  unfold shiftAmount Format.targetExponent totalExponent
  omega

/-- A mantissa that fits, at an exponent that is not too low, is not shifted. -/
theorem shiftAmount_of_lt (hm : m < 2 ^ S.mantissaBits) (he : S.minExponent ≤ e) :
    shiftAmount S m e = 0 := by
  have hbits := two_pow_mantissaBits S
  have hlog : m.log2 + 1 ≤ S.mantissaBits := by
    rcases Nat.eq_zero_or_pos m with rfl | hpos
    · rw [Nat.log2_zero, Format.mantissaBits]
      omega
    · exact (Nat.log2_lt (Nat.ne_of_gt hpos)).mpr hm
  unfold shiftAmount Format.targetExponent totalExponent
  omega

/-- A mantissa with one bit too many is shifted by one. -/
theorem shiftAmount_of_eq (he : S.minExponent ≤ e) :
    shiftAmount S (2 ^ S.mantissaBits) e = 1 := by
  unfold shiftAmount Format.targetExponent totalExponent
  rw [Nat.log2_two_pow]
  omega

/-! ### Rounding -/

/-- The last step of rounding: a mantissa that has become too long is shifted once
    more, and what is left may be zero. -/
def carried (S : Format) (s : Sign) (r : Nat) (e : Int) : UnpackedFloat :=
  if h : r / 2 ^ shiftAmount S r e = 0 then .zero s
  else .finite s (r / 2 ^ shiftAmount S r e) (e + shiftAmount S r e) (Nat.pos_of_ne_zero h)

/-- Rounding shifts the mantissa, rounds it to an integer, and carries. -/
theorem roundWithAccuracy_eq (S : Format) (s : Sign) (m : Nat) (e : Int) (acc : Accuracy) :
    roundWithAccuracy S s m e acc = carried S s
      (ExtendedMantissa.ofMantissaAndAccuracy m acc >>> shiftAmount S m e).roundedMantissa
      (e + shiftAmount S m e) := by
  let em := ExtendedMantissa.ofMantissaAndAccuracy m acc >>> shiftAmount S m e
  have hfirst : shiftToTargetExponent S m e acc = (em, e + shiftAmount S m e) := rfl
  -- The second shift is exact, and rounding does not look at its accuracy.
  rcases shiftToTargetExponent_eq (S := S) em.roundedMantissa (e + shiftAmount S m e) .exact with
    ⟨hmantissa, hexponent⟩
  rcases hsecond : shiftToTargetExponent S em.roundedMantissa (e + shiftAmount S m e) .exact with
    ⟨em₂, e₂⟩
  rw [hsecond] at hmantissa hexponent
  dsimp only at hmantissa hexponent
  rw [roundWithAccuracy, hfirst]
  dsimp only
  rw [hsecond]
  dsimp only
  simp only [carried, hmantissa, hexponent]
  rfl

/-- Rounding to an integer makes the mantissa larger by one at most. -/
theorem roundWithAccuracy_eq_carried (S : Format) (s : Sign) (m : Nat) (e : Int)
    (acc : Accuracy) :
    ∃ r, m / 2 ^ shiftAmount S m e ≤ r ∧ r ≤ m / 2 ^ shiftAmount S m e + 1 ∧
      roundWithAccuracy S s m e acc = carried S s r (e + shiftAmount S m e) := by
  have hbounds := roundedMantissa_bounds
    (ExtendedMantissa.ofMantissaAndAccuracy m acc >>> shiftAmount S m e)
  rw [mantissa_shiftRight, mantissa_ofMantissaAndAccuracy] at hbounds
  exact ⟨_, hbounds.1, hbounds.2, roundWithAccuracy_eq S s m e acc⟩

/-- Nothing is carried where there is room. -/
theorem carried_of_ranged (h : Ranged S m e) (s : Sign) :
    carried S s m e = .finite s m e h.pos := by
  simp [carried, shiftAmount_of_lt h.lt h.least, Nat.ne_of_gt h.pos]

/-- What is carried stays as it is if it fits. If it is one too large, it becomes a
    full mantissa. The leading bit does not move in either case. -/
theorem carried_spec {r : Nat} (hr : r ≤ 2 ^ S.mantissaBits) (he : S.minExponent ≤ e) (s : Sign) :
    (r = 0 ∧ carried S s r e = .zero s) ∨
      (0 < r ∧ ∃ m' e', ∃ h : Ranged S m' e', carried S s r e = .finite s m' e' h.pos ∧
        binade m' e' = binade r e ∧ (m' = r ∧ e' = e ∨ m'.log2 + 1 = S.mantissaBits)) := by
  rcases Nat.lt_or_eq_of_le hr with hlt | rfl
  · rcases Nat.eq_zero_or_pos r with rfl | hpos
    · exact .inl ⟨rfl, by simp [carried]⟩
    · have h : Ranged S r e := ⟨hpos, hlt, he⟩
      exact .inr ⟨hpos, r, e, h, carried_of_ranged h s, rfl, .inl ⟨rfl, rfl⟩⟩
  · have hbits := two_pow_mantissaBits S
    have hpos := Nat.two_pow_pos S.mantissaBitsWithoutImplicit
    have hhalf : 2 ^ S.mantissaBits / 2 ^ 1 = 2 ^ S.mantissaBitsWithoutImplicit := by omega
    refine .inr ⟨Nat.two_pow_pos _, 2 ^ S.mantissaBitsWithoutImplicit, e + 1,
      ⟨hpos, by omega, by omega⟩, ?_, ?_, .inr ?_⟩
    · simp only [carried, shiftAmount_of_eq he, hhalf, Nat.ne_of_gt hpos, dif_neg,
        not_false_eq_true]
      rfl
    · simp only [binade, Nat.log2_two_pow, Format.mantissaBits]
      omega
    · rw [Nat.log2_two_pow, Format.mantissaBits]
      omega

/-- What is left of a mantissa after the first shift fits. -/
theorem shifted_lt (S : Format) (m : Nat) (e : Int) :
    m / 2 ^ shiftAmount S m e < 2 ^ S.mantissaBits := by
  rcases shiftAmount_bounds S m e with ⟨hlog, -, -⟩
  rw [Nat.div_lt_iff_lt_mul (Nat.two_pow_pos _), ← Nat.pow_add]
  exact Nat.lt_of_lt_of_le Nat.lt_log2_self (Nat.pow_le_pow_right (by omega) hlog)

/-- Where the leading bit of a rounded number ends up: where it was for the rounded
    mantissa. -/
theorem roundWithAccuracy_binade (S : Format) (s : Sign) (m : Nat) (e : Int) (acc : Accuracy) :
    ∃ r, m / 2 ^ shiftAmount S m e ≤ r ∧ r ≤ m / 2 ^ shiftAmount S m e + 1 ∧
      ((r = 0 ∧ roundWithAccuracy S s m e acc = .zero s) ∨
      (0 < r ∧ ∃ m' e', ∃ h : Ranged S m' e',
        roundWithAccuracy S s m e acc = .finite s m' e' h.pos ∧
        binade m' e' = binade r (e + shiftAmount S m e) ∧
        (m' = r ∧ e' = e + shiftAmount S m e ∨ m'.log2 + 1 = S.mantissaBits))) := by
  rcases roundWithAccuracy_eq_carried S s m e acc with ⟨r, hlow, hhigh, hround⟩
  rcases shiftAmount_bounds S m e with ⟨-, hleast, -⟩
  have hshifted := shifted_lt S m e
  rw [hround]
  exact ⟨r, hlow, hhigh, carried_spec (by omega) hleast s⟩

/-- A rounded number fits. Its leading bit is not far above that of the result, or
    above the least exponent. -/
theorem roundWithAccuracy_ranged (S : Format) (s : Sign) (m : Nat) (e : Int) (acc : Accuracy) :
    roundWithAccuracy S s m e acc = .zero s ∨
      ∃ m' e', ∃ h : Ranged S m' e', roundWithAccuracy S s m e acc = .finite s m' e' h.pos ∧
        binade m' e' ≤ max (binade m e) S.minExponent + 1 := by
  rcases roundWithAccuracy_binade S s m e acc with
    ⟨r, -, hhigh, ⟨-, hzero⟩ | ⟨hpos, m', e', h, hround, hbinade, -⟩⟩
  · exact .inl hzero
  · refine .inr ⟨m', e', h, hround, ?_⟩
    rw [hbinade, binade]
    rcases shiftAmount_bounds S m e with ⟨-, -, hreason⟩
    rcases Nat.eq_zero_or_pos (m / 2 ^ shiftAmount S m e) with hquotient | hquotient
    · -- Everything was shifted out, and at most one came back.
      have hlog : r.log2 = 0 := by
        obtain rfl : r = 1 := by omega
        rfl
      unfold binade
      omega
    · -- The leading bit was not shifted out, so it moved up by one at most.
      have hlog : r.log2 ≤ (m / 2 ^ shiftAmount S m e).log2 + 1 :=
        Nat.le_trans (log2_le_log2 hhigh) (log2_succ_le hquotient)
      have hshift : shiftAmount S m e ≤ m.log2 :=
        (Nat.le_log2 (by rintro rfl; simp at hquotient)).mpr
          (Nat.le_of_not_lt fun hlt => Nat.ne_of_gt hquotient (Nat.div_eq_of_lt hlt))
      rw [log2_div_two_pow] at hlog
      unfold binade
      omega

/-- A number whose exponent is not too low does not vanish, and its leading bit
    stays where it is or moves up by one. If the exponent is not too high either,
    the result is as it should be stored. -/
theorem roundWithAccuracy_kept (hm : 0 < m) (he : S.minExponent ≤ e) (s : Sign) (acc : Accuracy) :
    ∃ m' e', ∃ h : Ranged S m' e', roundWithAccuracy S s m e acc = .finite s m' e' h.pos ∧
      binade m e ≤ binade m' e' ∧ binade m' e' ≤ binade m e + 1 ∧
      (e ≤ S.targetExponent (totalExponent m e) → Canonical S m' e') := by
  -- The shift is only for a mantissa that is too long, so its leading bit remains.
  have hshift : shiftAmount S m e ≤ m.log2 := by
    unfold shiftAmount Format.targetExponent totalExponent Format.mantissaBits
    omega
  have hquotient : 0 < m / 2 ^ shiftAmount S m e :=
    Nat.div_pos (Nat.le_trans (Nat.pow_le_pow_right (by omega) hshift)
      (Nat.log2_self_le (Nat.ne_of_gt hm))) (Nat.two_pow_pos _)
  rcases roundWithAccuracy_binade S s m e acc with
    ⟨r, hlow, hhigh, ⟨rfl, -⟩ | ⟨hpos, m', e', h, hround, hbinade, hplace⟩⟩
  · omega
  have hlog := log2_le_log2 hlow
  have hlog' := Nat.le_trans (log2_le_log2 hhigh) (log2_succ_le hquotient)
  rw [log2_div_two_pow] at hlog hlog'
  refine ⟨m', e', h, hround, ?_, ?_, fun htarget => ?_⟩
  · rw [hbinade, binade, binade]
    omega
  · rw [hbinade, binade, binade]
    omega
  · rcases hplace with ⟨rfl, rfl⟩ | hfull
    · -- The exponent is the one aimed at, so the mantissa is full or the exponent least.
      have hfits := (Nat.log2_lt (Nat.ne_of_gt h.pos)).mpr h.lt
      unfold Canonical shiftAmount at *
      unfold Format.targetExponent totalExponent at *
      omega
    · exact .inl hfull

/-! ### Rounding any number -/

/-- Lowering the exponent of a number first leaves its leading bit in place. -/
theorem round_eq (hm : 0 < m) (S : Format) (s : Sign) (e : Int) :
    ∃ m₁ e₁, UnpackedFloat.round S s m e = roundWithAccuracy S s m₁ e₁ .exact ∧ 0 < m₁ ∧
      binade m₁ e₁ = binade m e ∧ e₁ ≤ S.targetExponent (totalExponent m₁ e₁) ∧
      (S.minExponent ≤ e → S.minExponent ≤ e₁) := by
  let k := (e - S.targetExponent (totalExponent m e)).toNat
  have hlog : (m <<< k).log2 = m.log2 + k := by
    rw [Nat.shiftLeft_eq, log2_mul_two_pow hm]
  have htotal : totalExponent (m <<< k) (e - k) = totalExponent m e := by
    unfold totalExponent
    rw [hlog]
    omega
  refine ⟨m <<< k, e - k, rfl, ?_, ?_, ?_, fun hleast => ?_⟩
  · rw [Nat.shiftLeft_eq]
    exact Nat.mul_pos hm (Nat.two_pow_pos k)
  · unfold binade
    rw [hlog]
    omega
  · rw [htotal]
    omega
  · have htarget : S.minExponent ≤ S.targetExponent (totalExponent m e) := Int.le_max_right _ _
    omega

/-- Rounding to a format gives zero or a number that fits and is not much larger. -/
theorem round_ranged (hm : 0 < m) (S : Format) (s : Sign) (e : Int) :
    UnpackedFloat.round S s m e = .zero s ∨
      ∃ m' e', ∃ h : Ranged S m' e', UnpackedFloat.round S s m e = .finite s m' e' h.pos ∧
        binade m' e' ≤ max (binade m e) S.minExponent + 1 := by
  rcases round_eq hm S s e with ⟨m₁, e₁, hround, -, hbinade, -, -⟩
  rw [hround, ← hbinade]
  exact roundWithAccuracy_ranged S s m₁ e₁ .exact

/-- A number whose exponent is not too low keeps its place, and is rounded to what
    is stored as it is. -/
theorem round_kept (hm : 0 < m) (he : S.minExponent ≤ e) (s : Sign) :
    ∃ m' e', ∃ h : Ranged S m' e', UnpackedFloat.round S s m e = .finite s m' e' h.pos ∧
      binade m e ≤ binade m' e' ∧ binade m' e' ≤ binade m e + 1 ∧ Canonical S m' e' := by
  rcases round_eq hm S s e with ⟨m₁, e₁, hround, hpos, hbinade, htarget, hleast⟩
  rcases roundWithAccuracy_kept hpos (hleast he) s .exact with ⟨m', e', h, heq, hlow, hhigh, hcanon⟩
  rw [hround, ← hbinade]
  exact ⟨m', e', h, heq, hlow, hhigh, hcanon htarget⟩

end Number

end GraphAttention
