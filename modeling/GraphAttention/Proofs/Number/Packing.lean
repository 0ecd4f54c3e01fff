import Mathlib

/-!
# Storing a Number and Reading It Again

A floating-point word is read as a number, the number is computed with, and the
result is stored as a word again. What is left of a result when it is read back
is `stored`, and this module says what that is, in any format.

What is not a number, the infinities and the zeros are read back as they were. A
finite number is read back with its sign and its mantissa if the mantissa fits
and the exponent is not below the least one; all that can happen is that the
exponent is too large, and then an infinity is read, or that a mantissa of few
bits is stored as if it had the least exponent. `Ranged` is the condition for
this, and every number that is read from a word satisfies it.

## Main definitions

* `Number.stored`: What is left of a number that is stored.
* `Number.Ranged`: A mantissa and an exponent that a word has room for.
* `Number.Canonical`: The mantissa and exponent that are stored as they are.
* `Number.Readable`: What can be read from a word.

## Theorems

* `stored_notANumber`, `stored_infinity`, `stored_zero`: Special numbers.
* `stored_ranged`, `stored_canonical`: Finite numbers.
* `readable_unpack`, `stored_unpack`: What is read from a word, and that it is left as
  it is.
* `eq_pack`, `eq_packedInfinity`: A number, and so an infinity, is read from one word
  only.
-/

namespace GraphAttention

namespace Number

open Float.Model (Format UnpackedFloat)
open Float.Model.UnpackedFloat

variable {S : Format} {m : Nat} {e : Int} {s : Sign}

/-- What is left of a number that is stored and read again. -/
def stored (S : Format) (u : UnpackedFloat) : UnpackedFloat := unpack S (pack S u)

/-- A mantissa that a word has room for, and an exponent that is not below the
    least one. -/
structure Ranged (S : Format) (m : Nat) (e : Int) : Prop where
  pos : 0 < m
  lt : m < 2 ^ S.mantissaBits
  least : S.minExponent ≤ e

/-- A mantissa with all its bits, or with fewer at the least exponent. -/
def Canonical (S : Format) (m : Nat) (e : Int) : Prop :=
  m.log2 + 1 = S.mantissaBits ∨ e = S.minExponent

/-- The numbers that are read from words. -/
inductive Readable (S : Format) : UnpackedFloat → Prop
  | notANumber : Readable S .notANumber
  | infinity (s : Sign) : Readable S (.infinity s)
  | zero (s : Sign) : Readable S (.zero s)
  | finite (s : Sign) {m : Nat} {e : Int} (h : Ranged S m e) : Readable S (.finite s m e h.pos)

/-! ### Formats -/

theorem two_pow_exponentBits (S : Format) : 2 ^ S.exponentBits = 2 * S.exponentBias + 2 := by
  obtain ⟨k, hk⟩ : ∃ k, S.exponentBits = k + 1 := Nat.exists_eq_add_of_lt S.he |>.imp (by simp)
  have hpos : 0 < 2 ^ k := Nat.two_pow_pos k
  rw [Format.exponentBias, hk, Nat.add_sub_cancel, Nat.pow_succ]
  omega

theorem minExponent_eq (S : Format) :
    S.minExponent = 1 - S.exponentBias - S.mantissaBitsWithoutImplicit := by
  have hcapacity := two_pow_exponentBits S
  have hpos : 0 < 2 ^ (S.exponentBits - 1) := Nat.two_pow_pos _
  have hcast : ((2 ^ (S.exponentBits - 1) : Nat) : Int) = 2 ^ (S.exponentBits - 1) := by
    push_cast
    rfl
  unfold Format.minExponent Format.exponentBias Format.mantissaBits
  omega

theorem two_pow_mantissaBits (S : Format) :
    2 ^ S.mantissaBits = 2 * 2 ^ S.mantissaBitsWithoutImplicit := by
  rw [Format.mantissaBits, Nat.add_comm, Nat.pow_succ, Nat.mul_comm]

/-! ### Components -/

theorem toNat_append {k n : Nat} (x : BitVec k) (y : BitVec n) :
    (x ++ y).toNat = x.toNat * 2 ^ n + y.toNat := by
  rw [BitVec.toNat_append, ← Nat.shiftLeft_add_eq_or_of_lt y.isLt, Nat.shiftLeft_eq]

theorem toNat_neg_one (n : Nat) : (-1#n).toNat = 2 ^ n - 1 := by
  rw [BitVec.neg_one_eq_allOnes, BitVec.toNat_allOnes]

theorem zero_ne_neg_one (S : Format) : (0#S.exponentBits) ≠ -1#_ := by
  simp [BitVec.zero_eq_neg_one_iff, Nat.ne_of_gt S.he]

/-- The exponent with all bits set is read as an infinity or as no number. -/
theorem unpack_special (M : BitVec S.mantissaBitsWithoutImplicit) :
    unpack S (packComponents S s (-1#_) M)
      = if M = 0#_ then .infinity s else .notANumber := by
  simp only [unpack, unpackMantissa_packComponents, unpackExponent_packComponents,
    unpackSign_packComponents, Sign.ofBitVec_toBitVec, if_true]

/-- Without an exponent the mantissa is read as it is, at the least exponent. -/
theorem unpack_subnormal {M : BitVec S.mantissaBitsWithoutImplicit} (hM : 0 < M.toNat) :
    unpack S (packComponents S s 0#_ M) = .finite s M.toNat S.minExponent hM := by
  have hne : M ≠ 0#_ := by
    rintro rfl
    simp at hM
  simp only [unpack, unpackMantissa_packComponents, unpackExponent_packComponents,
    unpackSign_packComponents, Sign.ofBitVec_toBitVec, zero_ne_neg_one, if_false, if_true,
    dif_neg hne, minExponent_eq]
  congr 1
  simp
  omega

/-- With any other exponent the mantissa is read with its leading bit. -/
theorem unpack_normal {E : BitVec S.exponentBits} {M : BitVec S.mantissaBitsWithoutImplicit}
    (hE : E ≠ 0#_) (hE' : E ≠ -1#_) :
    ∃ h, unpack S (packComponents S s E M)
      = .finite s (2 ^ S.mantissaBitsWithoutImplicit + M.toNat)
          (E.toNat - (S.exponentBias + S.mantissaBitsWithoutImplicit)) h := by
  have hbits : (1#1 ++ M).toNat = 2 ^ S.mantissaBitsWithoutImplicit + M.toNat := by
    rw [toNat_append]
    simp
  have hpos : 0 < 2 ^ S.mantissaBitsWithoutImplicit + M.toNat := by
    have := Nat.two_pow_pos S.mantissaBitsWithoutImplicit
    omega
  refine ⟨hpos, ?_⟩
  simp only [unpack, unpackMantissa_packComponents, unpackExponent_packComponents,
    unpackSign_packComponents, Sign.ofBitVec_toBitVec, hE, hE', if_false, hbits]

/-! ### Stored numbers -/

theorem stored_notANumber (S : Format) : stored S .notANumber = .notANumber :=
  unpack_packedNaN

theorem stored_infinity (S : Format) (s : Sign) : stored S (.infinity s) = .infinity s := by
  rw [stored, pack, packedInfinity]
  exact (unpack_special _).trans (if_pos rfl)

theorem stored_zero (S : Format) (s : Sign) : stored S (.zero s) = .zero s :=
  unpack_packedZero

/-- A number with an exponent that is too large is stored as an infinity. -/
theorem stored_overflow (hm : 0 < m) (hlarge : S.exponentBias < e + S.mantissaBitsWithoutImplicit) :
    stored S (.finite s m e hm) = .infinity s := by
  have hcapacity := two_pow_exponentBits S
  have hbiased : 2 ^ S.exponentBits
      ≤ (e + S.exponentBias + S.mantissaBitsWithoutImplicit).toNat + 1 := by omega
  rw [stored, pack]
  rw [if_pos hbiased, packedInfinity]
  exact (unpack_special _).trans (if_pos rfl)

/-- An exponent that is stored is told from the two special ones. -/
theorem storedExponent_spec {biased : Nat} (hpos : 0 < biased)
    (hlt : biased + 1 < 2 ^ S.exponentBits) :
    (BitVec.ofNat S.exponentBits biased).toNat = biased ∧
      BitVec.ofNat S.exponentBits biased ≠ 0#_ ∧ BitVec.ofNat S.exponentBits biased ≠ -1#_ := by
  have hvalue : (BitVec.ofNat S.exponentBits biased).toNat = biased := by
    rw [BitVec.toNat_ofNat, Nat.mod_eq_of_lt (by omega)]
  refine ⟨hvalue, fun heq => ?_, fun heq => ?_⟩
  · rw [heq, BitVec.toNat_ofNat, Nat.zero_mod] at hvalue
    omega
  · rw [heq, toNat_neg_one] at hvalue
    omega

/-- The leading bit of a full mantissa is dropped when it is stored and put back when
    it is read. -/
theorem storedMantissa_full (h : Ranged S m e) (hfull : m.log2 + 1 = S.mantissaBits) :
    2 ^ S.mantissaBitsWithoutImplicit + (BitVec.ofNat S.mantissaBitsWithoutImplicit m).toNat
      = m := by
  have hbits := two_pow_mantissaBits S
  have hlt := h.lt
  have hlog : m.log2 = S.mantissaBitsWithoutImplicit := by
    rw [Format.mantissaBits] at hfull
    omega
  have hle : 2 ^ S.mantissaBitsWithoutImplicit ≤ m := by
    rw [← hlog]
    exact Nat.log2_self_le (Nat.ne_of_gt h.pos)
  rw [BitVec.toNat_ofNat, Nat.mod_eq_sub_mod hle, Nat.mod_eq_of_lt (by omega)]
  omega

/-- A number with a full mantissa is read back as it was. -/
theorem stored_full (h : Ranged S m e) (hfull : m.log2 + 1 = S.mantissaBits)
    (hfits : e + S.mantissaBitsWithoutImplicit ≤ S.exponentBias) :
    stored S (.finite s m e h.pos) = .finite s m e h.pos := by
  have hcapacity := two_pow_exponentBits S
  have hleast := h.least
  rw [minExponent_eq] at hleast
  -- The exponent is stored above the bias, as a number between the two special ones.
  obtain ⟨biased, hbiased⟩ : ∃ biased : Nat,
      e + S.exponentBias + S.mantissaBitsWithoutImplicit = biased :=
    Int.eq_ofNat_of_zero_le (by omega)
  have hlarge : ¬ 2 ^ S.exponentBits ≤ biased + 1 := by omega
  rcases storedExponent_spec (S := S) (show 0 < biased by omega) (by omega) with
    ⟨hvalue, hzero, hones⟩
  rcases unpack_normal (s := s) (M := BitVec.ofNat S.mantissaBitsWithoutImplicit m) hzero hones with
    ⟨hpos, hread⟩
  rw [stored, pack]
  rw [hbiased, Int.toNat_natCast, if_neg hlarge, if_pos hfull, hread]
  congr 1
  · exact storedMantissa_full h hfull
  · rw [hvalue]
    omega

/-- A number with fewer bits is read back as if it had the least exponent. -/
theorem stored_few (h : Ranged S m e) (hfew : m.log2 + 1 ≠ S.mantissaBits)
    (hfits : e + S.mantissaBitsWithoutImplicit ≤ S.exponentBias) :
    stored S (.finite s m e h.pos) = .finite s m S.minExponent h.pos := by
  have hcapacity := two_pow_exponentBits S
  have hlarge : ¬ 2 ^ S.exponentBits
      ≤ (e + S.exponentBias + S.mantissaBitsWithoutImplicit).toNat + 1 := by omega
  have hlt : m < 2 ^ S.mantissaBitsWithoutImplicit := by
    have hlog := (Nat.log2_lt (Nat.ne_of_gt h.pos)).mpr h.lt
    rw [Format.mantissaBits] at hlog hfew
    exact (Nat.log2_lt (Nat.ne_of_gt h.pos)).mp (by omega)
  have hvalue : (BitVec.ofNat S.mantissaBitsWithoutImplicit m).toNat = m := by
    rw [BitVec.toNat_ofNat, Nat.mod_eq_of_lt hlt]
  have hpos : 0 < (BitVec.ofNat S.mantissaBitsWithoutImplicit m).toNat := by
    rw [hvalue]
    exact h.pos
  rw [stored, pack]
  -- Such a mantissa is stored without an exponent, whatever its own is.
  rw [if_neg hlarge, if_neg hfew, unpack_subnormal hpos]
  congr 1

/-- A number that a word has room for is read back with its sign and mantissa and
    an exponent that is no larger, unless that was too large to begin with. -/
theorem stored_ranged (h : Ranged S m e) (s : Sign) :
    (S.exponentBias < e + S.mantissaBitsWithoutImplicit ∧
      stored S (.finite s m e h.pos) = .infinity s) ∨
    ∃ e', e' ≤ e ∧ ∃ h' : Ranged S m e',
      stored S (.finite s m e h.pos) = .finite s m e' h'.pos := by
  by_cases hlarge : S.exponentBias < e + S.mantissaBitsWithoutImplicit
  · exact .inl ⟨hlarge, stored_overflow h.pos hlarge⟩
  · right
    by_cases hfull : m.log2 + 1 = S.mantissaBits
    · exact ⟨e, Int.le_refl e, h, stored_full h hfull (by omega)⟩
    · exact ⟨S.minExponent, h.least, ⟨h.pos, h.lt, Int.le_refl _⟩, stored_few h hfull (by omega)⟩

/-- A canonical number is read back as it was, if its exponent is not too large. -/
theorem stored_canonical (h : Ranged S m e) (hcanon : Canonical S m e) (s : Sign)
    (hfits : e + S.mantissaBitsWithoutImplicit ≤ S.exponentBias) :
    stored S (.finite s m e h.pos) = .finite s m e h.pos := by
  by_cases hfull : m.log2 + 1 = S.mantissaBits
  · exact stored_full h hfull hfits
  · obtain rfl := hcanon.resolve_left hfull
    exact stored_few h hfull hfits

/-! ### Numbers that were read -/

/-- A word stands for something readable. -/
theorem readable_unpack (S : Format) (b : BitVec S.numBits) : Readable S (unpack S b) := by
  have hbits := two_pow_mantissaBits S
  -- Every word is made of a sign, an exponent and a mantissa.
  obtain ⟨s, E, M, rfl⟩ : ∃ s E M, b = packComponents S s E M :=
    ⟨_, _, _, (packComponents_unpackSign_unpackExponent_unpackMantissa b).symm⟩
  have hM := M.isLt
  by_cases hones : E = -1#_
  · rw [hones, unpack_special]
    split
    · exact .infinity s
    · exact .notANumber
  · by_cases hzero : E = 0#_
    · by_cases hmantissa : M = 0#_
      · have hread : unpack S (packComponents S s 0#_ 0#_) = .zero s := unpack_packedZero
        rw [hzero, hmantissa, hread]
        exact .zero s
      · have hpos : 0 < M.toNat := Nat.pos_of_ne_zero fun h =>
          hmantissa (BitVec.eq_of_toNat_eq (by simpa using h))
        rw [hzero, unpack_subnormal hpos]
        exact .finite s ⟨hpos, by omega, Int.le_refl _⟩
    · rcases unpack_normal (s := s) (M := M) hzero hones with ⟨hpos, hread⟩
      have hE : E.toNat ≠ 0 := fun h => hzero (BitVec.eq_of_toNat_eq (by simpa using h))
      rw [hread]
      refine .finite s ⟨hpos, by omega, ?_⟩
      rw [minExponent_eq]
      omega

/-- Reading a word whose bits are no number. -/
theorem unpack_of_isNaNBits {b : BitVec S.numBits} (h : isNaNBits b = true) :
    unpack S b = .notANumber := by
  rw [isNaNBits, decide_eq_true_eq] at h
  simp [unpack, h]

/-- What is read from a word is left as it is when it is stored. -/
theorem stored_unpack (hspec : 2 ≤ S.exponentBits) (b : BitVec S.numBits) :
    stored S (unpack S b) = unpack S b := by
  rw [stored, pack_unpack b hspec]
  split
  · rw [unpack_packedNaN, unpack_of_isNaNBits ‹_›]
  · rfl

/-- Everything that is a number is read from one word only. -/
theorem eq_pack (hspec : 2 ≤ S.exponentBits) {b : BitVec S.numBits} {u : UnpackedFloat}
    (h : unpack S b = u) (hu : u ≠ .notANumber) : b = pack S u := by
  have hpack := pack_unpack b hspec
  rw [h] at hpack
  split at hpack
  · rw [unpack_of_isNaNBits ‹_›] at h
    exact absurd h.symm hu
  · exact hpack.symm

/-- There is one word for each infinity. -/
theorem eq_packedInfinity (hspec : 2 ≤ S.exponentBits) {b : BitVec S.numBits}
    (h : unpack S b = .infinity s) : b = packedInfinity S s :=
  eq_pack hspec h UnpackedFloat.noConfusion

end Number

end GraphAttention
