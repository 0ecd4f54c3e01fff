import GraphAttention.Proofs.Number.Lane
import GraphAttention.Proofs.Number.Order
import GraphAttention.Proofs.Number.Sum

/-!
# The Normalizer of a Lane

The softmax of a lane divides exponentials by their sum. The largest element of the lane
has the exponential one, so its weight is one over the sum, and this is above zero if
the sum is finite. It always is, in a lane of any length. No element is above the
largest one, so no distance is above zero and no exponential is above one, and a sum of
such numbers is small.

A lane therefore comes out as zeros in one case only: nothing in it is above negative
infinity. What is not a number is not above negative infinity either, because the
largest element is found by passing over it. A lane of nothing else comes out as zeros
like one that is negative infinity throughout, and this is the only way in which what
is not a number can be lost: beside anything above negative infinity it spoils the lane.

## Main definitions

* `RoomyWord`: A kind of word that can hold the sum of a lane.
* `NumberWord.key`: The place of a word in the order.

## Theorems

* `key_largest`: No number in a lane is above the largest one.
* `sort_sub_largest`: No distance to it is above zero.
* `small_exp`, `small_foldl`: Exponentials of distances, and their sum.
* `exists_positive`: The weight of the largest element.
* `softmaxLane_zero_iff`, `DType.softmaxLane_zero_iff`: The lanes that come out as zeros.
-/

namespace GraphAttention

open Float.Model (Format UnpackedFloat)
open Number (Small Roomy)

/-- A kind of word that is left as it is when it is stored again, with one as the number
    one, with room for the sum of a lane, and with exponentials that stay below one. -/
class RoomyWord (α : Type) [RealScalar α] [NumberWord α] : Prop where
  stored_number : ∀ x : α,
    Number.stored (NumberWord.format α) (NumberWord.number x) = NumberWord.number x
  number_one : NumberWord.number (1 : α) = Number.unit (NumberWord.format α)
  roomy : Roomy (NumberWord.format α)
  /-- What is known of the exponential below zero. -/
  exp_negative : ∀ x : α, NumberWord.sort x = .negative → RealScalar.exp x = 1 ∨
    ∃ y : α, (NumberWord.number (1 : α)).lt (NumberWord.number y) = false ∧
      RealScalar.exp x = RealScalar.maxNum 0 y

theorem Number.eq_negative {u : UnpackedFloat} (h : Number.sort u = .negative) :
    ∃ m e hm, u = .finite .negative m e hm := by
  rcases u with ⟨_ | _⟩ | _ | _ | ⟨_ | _, m, e, hm⟩ <;> first | exact ⟨m, e, hm, rfl⟩ | cases h

/-- The exponential of a number below zero is what is computed, held between zero and
    one. -/
theorem Binary64.exp_of_negative {x : Binary64} (hx : NumberWord.sort x = .negative) :
    exp x = holdUnit (ofFloat x.toFloat.exp) := by
  rcases Number.eq_negative hx with ⟨m, e, hm, hnumber⟩
  have hnumber : x.toFloat.toModel.unpack = .finite .negative m e hm := hnumber
  have hnan : x.toFloat.isNaN = false := congrArg UnpackedFloat.isNaN hnumber
  have hinf : x.toFloat.isInf = false := congrArg UnpackedFloat.isInf hnumber
  have hneg : x.toFloat < 0 := (toFloat_lt_iff _ _).mpr (hnumber ▸ rfl)
  simp only [exp, hnan, hinf, hneg, Bool.false_eq_true, if_false, if_true]

theorem Binary32.exp_of_negative {x : Binary32} (hx : NumberWord.sort x = .negative) :
    exp x = holdUnit (ofFloat32 x.toFloat32.exp) := by
  rcases Number.eq_negative hx with ⟨m, e, hm, hnumber⟩
  have hnumber : x.toFloat32.toModel.unpack = .finite .negative m e hm := hnumber
  have hnan : x.toFloat32.isNaN = false := congrArg UnpackedFloat.isNaN hnumber
  have hinf : x.toFloat32.isInf = false := congrArg UnpackedFloat.isInf hnumber
  have hneg : x.toFloat32 < 0 := (toFloat32_lt_iff _ _).mpr (hnumber ▸ rfl)
  simp only [exp, hnan, hinf, hneg, Bool.false_eq_true, if_false, if_true]

instance : RoomyWord Binary64 where
  stored_number _ := Number.stored_unpack (by decide) _
  number_one := rfl
  roomy := (by decide : Format.binary64.mantissaBits + 3 ≤ Format.binary64.exponentBias)
  exp_negative x hx := by
    let y := Binary64.ofFloat x.toFloat.exp
    by_cases habove : 1 < y.toFloat
    · exact .inl ((Binary64.exp_of_negative hx).trans (if_pos habove))
    · exact .inr ⟨y, Bool.eq_false_iff.mpr fun h => habove ((Binary64.toFloat_lt_iff _ _).mpr h),
        (Binary64.exp_of_negative hx).trans (if_neg habove)⟩

instance : RoomyWord Binary32 where
  stored_number _ := Number.stored_unpack (by decide) _
  number_one := rfl
  roomy := (by decide : Format.binary32.mantissaBits + 3 ≤ Format.binary32.exponentBias)
  exp_negative x hx := by
    let y := Binary32.ofFloat32 x.toFloat32.exp
    by_cases habove : 1 < y.toFloat32
    · exact .inl ((Binary32.exp_of_negative hx).trans (if_pos habove))
    · exact .inr ⟨y, Bool.eq_false_iff.mpr fun h => habove ((Binary32.toFloat32_lt_iff _ _).mpr h),
        (Binary32.exp_of_negative hx).trans (if_neg habove)⟩

namespace NumberWord

variable {α : Type} [RealScalar α] [NumberWord α] {x : α} {lane : List α}

/-! ### The largest element -/

/-- The place of a word in the order. -/
def key (x : α) : NumberSort ×ₗ Int ×ₗ Int := Number.key (number x)

/-- The larger of two words has the larger key. -/
theorem key_maxNum (x y : α) : key (RealScalar.maxNum x y) = max (key x) (key y) := by
  rw [maxNum_eq]
  split_ifs with hx hy hlt
  · rw [key, key, UnpackedFloat.isNaN_iff.mp hx]
    exact (max_eq_right (Number.key_notANumber_le _)).symm
  · rw [key, key, UnpackedFloat.isNaN_iff.mp hy]
    exact (max_eq_left (Number.key_notANumber_le _)).symm
  all_goals
    have hkeys := Number.lt_iff_key_lt (fun h => hx (Number.isNaN_iff_sort.mpr h))
      (fun h => hy (Number.isNaN_iff_sort.mpr h))
  · exact (max_eq_right (le_of_lt (hkeys.mp hlt))).symm
  · exact (max_eq_left (not_lt.mp fun h => hlt (hkeys.mpr h))).symm

/-- No number in a lane is above the largest one. -/
theorem key_largest (lane : List α) : ∀ x ∈ lane, key x ≤ key (largest lane) :=
  (le_foldl key (P := fun _ => True)
    (fun x y _ _ => ⟨trivial, le_of_eq (key_maxNum x y).symm⟩) trivial (fun _ _ => trivial)).2

variable [RoomyWord α]

open RoomyWord (stored_number number_one roomy exp_negative)

/-- No distance to the largest element is above zero, if that is finite. -/
theorem sort_sub_largest (hx : x ∈ lane) (hnumber : sort x ≠ .notANumber)
    (hfinite : (sort (largest lane)).isFinite = true) : sort (x - largest lane) ≤ .zero := by
  by_cases hlow : sort x = .negInf
  · rw [sort_negInf_sub hlow hfinite]
    decide
  · -- What is neither missing nor infinite below the largest element is finite.
    have hxfinite : (sort x).isFinite = true := NumberSort.isFinite_of_lt hnumber hlow
      (lt_of_le_of_lt ((sort_largest lane).2.1 x hx) (of_decide_eq_true hfinite).2)
    have hsub := Number.sort_sub_le (readable x) (readable (largest lane)) (stored_number x)
      (stored_number _) hxfinite hfinite (key_largest lane x hx)
    rw [sort, number_sub]
    exact Number.sort_stored_le (Number.readable_sub (readable x) (readable _) hfinite).1 hsub

/-! ### The sum -/

/-- The exponential of a number that is not above zero is one at most. -/
theorem small_exp (hnumber : sort x ≠ .notANumber) (hle : sort x ≤ .zero) :
    Small (format α) (1 - (format α).mantissaBits) (number (RealScalar.exp x)) := by
  have hone : Small (format α) (1 - (format α).mantissaBits) (number (1 : α)) := by
    rw [number_one]
    exact Number.small_unit roomy
  have hzero : Small (format α) (1 - (format α).mantissaBits) (number (0 : α)) :=
    .inl ⟨_, number_zero⟩
  cases hsort : sort x with
  | notANumber => exact absurd hsort hnumber
  | negInf => exact .inl (Number.sort_eq_zero.mp (sort_exp_negInf hsort))
  | zero => rwa [exp_of_sort_zero hsort]
  | negative =>
    rcases exp_negative x hsort with hexp | ⟨y, hbelow, hexp⟩
    · rwa [hexp]
    · have hnan : ¬ (number (0 : α)).isNaN = true := by
        rw [number_zero]
        exact Bool.false_ne_true
      rw [hexp, maxNum_eq, if_neg hnan]
      split_ifs with _ hpos
      · exact hzero
      · rw [number_one] at hbelow
        rw [number_zero] at hpos
        exact Number.small_of_lt (readable y) (stored_number y) hpos hbelow
      · exact hzero
  | positive =>
    rw [hsort] at hle
    exact absurd hle (by decide)
  | posInf =>
    rw [hsort] at hle
    exact absurd hle (by decide)

/-- A sum of numbers that are one at most is small, however many there are. -/
theorem small_foldl {t : α} (ht : Small (format α) 2 (number t))
    (hlane : ∀ w ∈ lane, Small (format α) (1 - (format α).mantissaBits) (number w)) :
    Small (format α) 2 (number (lane.foldl (· + ·) t)) := by
  -- The sum so far is what the next one starts from, so it varies.
  induction lane generalizing t with
  | nil => exact ht
  | cons w lane ih =>
    refine ih ?_ fun w' hw' => hlane w' (List.mem_cons_of_mem w hw')
    have hsum := ht.add roomy (hlane w List.mem_cons_self)
    rw [number_add, hsum.stored_eq roomy]
    exact hsum

/-! ### Lanes that come out as zeros -/

/-- In a lane that is not spoiled, the weight of the largest element is above zero. -/
theorem exists_positive (h : NumberSort.spoils (lane.map sort) = false)
    (htop : sort (largest lane) ≠ .negInf) : ∃ y ∈ softmaxLane lane, .positive ≤ sort y := by
  rcases largest_of_not_spoiled h htop with ⟨hin, hfinite, hnumber⟩
  have htotal := normalizer_of_not_spoiled h htop
  rw [softmaxLane_of_sort_ne htop]
  let weights := lane.map fun x => RealScalar.exp (x - largest lane)
  have hweights : ∀ w ∈ weights, Small (format α) (1 - (format α).mantissaBits) (number w) := by
    intro w hw
    rcases List.mem_map.mp hw with ⟨x, hx, rfl⟩
    exact small_exp (sort_sub_ne (hnumber x hx) hfinite)
      (sort_sub_largest hx (hnumber x hx) hfinite)
  have hone : (1 : α) ∈ weights :=
    List.mem_map.mpr ⟨_, hin, exp_of_sort_zero (sort_sub_self hfinite)⟩
  -- The sum is small and above zero, and the largest element has one over it.
  refine ⟨1 / weights.foldl (· + ·) 0, List.mem_map_of_mem hone, ?_⟩
  rcases small_foldl (t := 0) (.inl ⟨_, number_zero⟩) hweights with
    ⟨s, hzero⟩ | ⟨m, e, hm, hsum, -, he⟩
  · exact absurd (Number.sort_eq_zero.mpr ⟨s, hzero⟩) (ne_of_gt htotal)
  · rw [sort, number_div, number_one, hsum]
    exact Number.le_sort_unit_div roomy hm he

/-- A lane comes out as zeros exactly when nothing in it is above negative infinity. -/
theorem softmaxLane_zero_iff (lane : List α) :
    (∀ y ∈ softmaxLane lane, sort y = .zero) ↔ ∀ x ∈ lane, sort x ≤ .negInf := by
  refine ⟨fun hzero x hx => ?_, fun hnone y hy => ?_⟩
  · by_contra habove
    have htop : sort (largest lane) ≠ .negInf :=
      ne_of_gt (lt_of_lt_of_le (not_le.mp habove) ((sort_largest lane).2.1 x hx))
    obtain ⟨y, hy, hne⟩ : ∃ y ∈ softmaxLane lane, sort y ≠ .zero := by
      cases hspoiled : NumberSort.spoils (lane.map sort) with
      | true =>
        -- No entry is a number, and there is an entry.
        have hlength : 0 < (softmaxLane lane).length := by
          rw [length_softmaxLane]
          exact List.length_pos_of_mem hx
        have hsort := sort_softmaxLane_spoiled hspoiled _ (List.getElem_mem hlength)
        exact ⟨_, List.getElem_mem hlength, by rw [hsort]; decide⟩
      | false =>
        rcases exists_positive hspoiled htop with ⟨y, hy, hpos⟩
        exact ⟨y, hy, ne_of_gt (lt_of_lt_of_le (by decide) hpos)⟩
    exact hne (hzero y hy)
  · rw [softmaxLane_of_sort_eq (sort_largest_of_le hnone)] at hy
    rcases List.mem_map.mp hy with ⟨x, -, rfl⟩
    exact sort_zero

end NumberWord

namespace DType

variable {d : DType}

theorem length_softmaxLane (d : DType) (lane : List d.Elem) :
    (d.softmaxLane lane).length = lane.length := by
  cases d with
  | float32 => exact GraphAttention.length_softmaxLane (α := Binary32) lane
  | float64 => exact GraphAttention.length_softmaxLane (α := Binary64) lane
  | int64 => rfl
  | uint8 => rfl

/-- A lane of any floating kind comes out as zeros exactly when nothing in it is above
    negative infinity. -/
theorem softmaxLane_zero_iff (hd : d.isFloat = true) (lane : List d.Elem) :
    (∀ y ∈ d.softmaxLane lane, d.sort y = .zero) ↔ ∀ x ∈ lane, d.sort x ≤ .negInf := by
  cases d with
  | float32 => exact NumberWord.softmaxLane_zero_iff (α := Binary32) lane
  | float64 => exact NumberWord.softmaxLane_zero_iff (α := Binary64) lane
  | int64 => cases hd
  | uint8 => cases hd

/-- The zeros of such a lane are positive ones. -/
theorem softmaxLane_of_le (hd : d.isFloat = true) {lane : List d.Elem}
    (h : ∀ x ∈ lane, d.sort x ≤ .negInf) : d.softmaxLane lane = lane.map fun _ => 0 := by
  cases d with
  | float32 =>
    exact NumberWord.softmaxLane_of_sort_eq (α := Binary32) (NumberWord.sort_largest_of_le h)
  | float64 =>
    exact NumberWord.softmaxLane_of_sort_eq (α := Binary64) (NumberWord.sort_largest_of_le h)
  | int64 => cases hd
  | uint8 => cases hd

/-- A spoiled lane of any floating kind has no numbers in it. -/
theorem sort_softmaxLane_spoiled (hd : d.isFloat = true) {lane : List d.Elem}
    (h : NumberSort.spoils (lane.map d.sort) = true) :
    ∀ y ∈ d.softmaxLane lane, d.sort y = .notANumber := by
  cases d with
  | float32 => exact NumberWord.sort_softmaxLane_spoiled (α := Binary32) h
  | float64 => exact NumberWord.sort_softmaxLane_spoiled (α := Binary64) h
  | int64 => cases hd
  | uint8 => cases hd

end DType

end GraphAttention
