import GraphAttention.Proofs.Number.Normalizer

/-!
# Lanes of a Tensor That Become Zero

The softmax of a tensor along an axis makes zeros of a lane if every element of it is
negative infinity, which is what masking relies on. It makes zeros of a few other lanes
as well, those in which some elements are not numbers and all the rest is negative
infinity. There is nothing in the result to tell such a lane from a masked one. As soon
as anything in the lane is above negative infinity, the lane is not zero throughout, and
if something in it is not a number, no entry of the result is.

Infinities, finite numbers and what is not a number may be mixed in any way, and a lane
may have any length.

## Main definitions

* `Tensor.laneAt`: The elements of a lane.

## Theorems

* `Tensor.softmax_laneAt`: Lanes of a result.
* `DType.spoils_of_notANumber`: What is not a number beside something above negative
  infinity.
* `Tensor.softmax_lanes`: The lanes that come out as zeros, in a tensor of any floating
  kind and along any axis.
* `Tensor.not_forall_softmax_zero`: Not only what is negative infinity throughout.
-/

namespace GraphAttention

namespace DType

variable {d : DType} {lane : List d.Elem}

/-- What is not a number spoils a lane that has anything above negative infinity. -/
theorem spoils_of_notANumber (hnan : ∃ x ∈ lane, d.sort x = .notANumber)
    (habove : ∃ x ∈ lane, .negInf < d.sort x) : NumberSort.spoils (lane.map d.sort) = true := by
  rcases hnan with ⟨x, hx, hsort⟩
  rcases habove with ⟨y, hy, hlt⟩
  simp only [NumberSort.spoils, Bool.or_eq_true, Bool.and_eq_true, List.contains_iff_mem,
    List.any_eq_true, List.mem_map, decide_eq_true_eq]
  exact .inr ⟨⟨x, hx, hsort⟩, _, ⟨y, hy, rfl⟩, hlt⟩

end DType

namespace Tensor

/-- The elements of a lane along an axis. -/
def laneAt (t : Tensor) (d : DType) (n : Nat) (p q : Index) : List d.Elem :=
  (List.range n).map fun j => t.entry d (p ++ j :: q)

theorem forall_laneAt_iff {t : Tensor} {d : DType} {n : Nat} {p q : Index} (P : d.Elem → Prop) :
    (∀ x ∈ t.laneAt d n p q, P x) ↔ ∀ j, j < n → P (t.entry d (p ++ j :: q)) := by
  simp only [laneAt, List.forall_mem_map, List.mem_range]

/-- A lane of the result is the softmax of the lane. -/
theorem softmax_laneAt {d : DType} (hd : d.isFloat = true) (pre post : Shape) {n : Nat}
    {t : Tensor} (ht : t.Matches d (pre ++ n :: post)) :
    ∃ r, t.softmax pre.length = .ok r ∧ r.Matches d (pre ++ n :: post) ∧
      ∀ p q, Shape.Within p pre → Shape.Within q post →
        r.laneAt d n p q = d.softmaxLane (t.laneAt d n p q) := by
  rcases softmax_ok hd pre post ht with ⟨r, hr, hM, hE⟩
  refine ⟨r, hr, hM, fun p q hp hq => ?_⟩
  have hlength : (d.softmaxLane (t.laneAt d n p q)).length = n := by
    rw [DType.length_softmaxLane, laneAt, List.length_map, List.length_range]
  refine List.ext_getElem (by rw [hlength, laneAt, List.length_map, List.length_range])
    fun j hj hj' => ?_
  have hentry := hE p j q hp (hlength ▸ hj') hq
  rw [← laneAt, List.getD_eq_getElem _ _ hj'] at hentry
  simpa [laneAt] using hentry

/-- The softmax of a tensor of a floating kind succeeds along every axis. A lane comes out
    as zeros, and as positive ones, exactly when each of its elements is negative
    infinity or not a number. In any other lane a single element that is not a number
    leaves no numbers. -/
theorem softmax_lanes (d : DType) (hd : d.isFloat = true) (pre post : Shape) (n : Nat)
    (t : Tensor) (ht : t.Matches d (pre ++ n :: post)) :
    ∃ r, t.softmax pre.length = .ok r ∧ r.Matches d (pre ++ n :: post) ∧
      ∀ p q, Shape.Within p pre → Shape.Within q post →
        ((∀ j, j < n → Scalar.isNonzero (r.entry d (p ++ j :: q)) = false) ↔
          ∀ j, j < n → d.sort (t.entry d (p ++ j :: q)) = .negInf ∨
            d.sort (t.entry d (p ++ j :: q)) = .notANumber) ∧
        ((∀ j, j < n → Scalar.isNonzero (r.entry d (p ++ j :: q)) = false) →
          ∀ j, j < n → r.entry d (p ++ j :: q) = 0) ∧
        ((∃ j, j < n ∧ d.sort (t.entry d (p ++ j :: q)) = .notANumber) →
          (∃ j, j < n ∧ .negInf < d.sort (t.entry d (p ++ j :: q))) →
          ∀ j, j < n → d.sort (r.entry d (p ++ j :: q)) = .notANumber) := by
  rcases softmax_laneAt hd pre post ht with ⟨r, hr, hM, hlane⟩
  refine ⟨r, hr, hM, fun p q hp hq => ?_⟩
  have hresult := hlane p q hp hq
  have hzero : (∀ j, j < n → Scalar.isNonzero (r.entry d (p ++ j :: q)) = false) ↔
      ∀ x ∈ t.laneAt d n p q, d.sort x ≤ .negInf := by
    rw [← DType.softmaxLane_zero_iff hd, ← hresult, forall_laneAt_iff]
    exact forall₂_congr fun j _ => DType.isNonzero_eq_false_iff
  refine ⟨?_, fun h => ?_, fun ⟨i, hi, hnan⟩ ⟨k, hk, habove⟩ => ?_⟩
  · rw [hzero, forall_laneAt_iff]
    exact forall₂_congr fun j _ => NumberSort.le_negInf_iff
  · refine (forall_laneAt_iff (· = 0)).mp ?_
    rw [hresult, DType.softmaxLane_of_le hd (hzero.mp h)]
    exact List.forall_mem_map.mpr fun _ _ => rfl
  · have hmem : ∀ j, j < n → t.entry d (p ++ j :: q) ∈ t.laneAt d n p q := fun j hj =>
      List.mem_map_of_mem (List.mem_range.mpr hj)
    refine (forall_laneAt_iff fun y => d.sort y = .notANumber).mp ?_
    rw [hresult]
    exact DType.sort_softmaxLane_spoiled hd
      (DType.spoils_of_notANumber ⟨_, hmem i hi, hnan⟩ ⟨_, hmem k hk, habove⟩)

/-- Two lanes with something that is not a number in each: beside negative infinity it is
    lost, and beside one it is not. -/
theorem softmax_lanes_spoiled :
    ∃ t r : Tensor, t.Matches .float64 [2, 2] ∧ t.softmax 1 = .ok r ∧
      DType.float64.sort (t.entry .float64 [0, 0]) = .notANumber ∧
      r.entry .float64 [0, 0] = 0 ∧ r.entry .float64 [0, 1] = 0 ∧
      DType.float64.sort (r.entry .float64 [1, 1]) = .notANumber := by
  let t : Tensor := ⟨.float64, .generate [2, 2] fun k =>
    if k = 1 then Binary64.negInf else if k = 3 then 1 else ⟨0x7ff8000000000000⟩, by decide⟩
  rcases softmax_lanes .float64 rfl [2] [] 2 t ⟨rfl, rfl⟩ with ⟨r, hr, -, hlanes⟩
  have hfirst := hlanes [0] [] (by decide) (by decide)
  have hzero := hfirst.1.mpr (by decide +kernel)
  exact ⟨t, r, ⟨rfl, rfl⟩, hr, by decide +kernel, hfirst.2.1 hzero 0 (by decide),
    hfirst.2.1 hzero 1 (by decide), (hlanes [1] [] (by decide) (by decide)).2.2
      ⟨0, by decide, by decide +kernel⟩ ⟨1, by decide, by decide +kernel⟩ 1 (by decide)⟩

/-- Zeros do not mean that a lane was negative infinity throughout: they are also what
    becomes of a lane without any numbers. -/
theorem not_forall_softmax_zero :
    ¬ ∀ (d : DType) (n : Nat) (t r : Tensor), d.isFloat = true → t.Matches d [n] →
      t.softmax 0 = .ok r →
      ((∀ j, j < n → Scalar.isNonzero (r.entry d [j]) = false) ↔
        ∀ j, j < n → d.sort (t.entry d [j]) = .negInf) := by
  intro hall
  let t : Tensor := ⟨.float64, .fill [2] ⟨0x7ff8000000000000⟩, by decide⟩
  have ht : t.Matches .float64 ([] ++ 2 :: []) := ⟨rfl, rfl⟩
  rcases softmax_laneAt rfl [] [] ht with ⟨r, hr, -, hlane⟩
  have hlow : ∀ x ∈ t.laneAt .float64 2 [] [], DType.float64.sort x ≤ .negInf := by
    rw [forall_laneAt_iff]
    decide +kernel
  have hzero : ∀ y ∈ r.laneAt .float64 2 [] [], Scalar.isNonzero y = false := by
    rw [hlane [] [] trivial trivial, DType.softmaxLane_of_le rfl hlow]
    exact List.forall_mem_map.mpr fun _ _ => by decide +kernel
  have hsort := (hall .float64 2 t r rfl ht hr).mp ((forall_laneAt_iff _).mp hzero) 0 (by decide)
  revert hsort
  decide +kernel

end Tensor

end GraphAttention
