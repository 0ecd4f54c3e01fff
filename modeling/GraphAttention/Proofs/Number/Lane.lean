import GraphAttention.DenseArray.Softmax
import GraphAttention.Proofs.Entries
import GraphAttention.Proofs.Number.Word

/-!
# Negative Infinity in a Softmax

An element of a lane that is negative infinity is meant to have no weight. It does
have none if the normalizer is a number above zero, because its exponential is
zero and zero over that is zero. The normalizer is not a number if any
exponential in it is not, and then no entry of the lane is.

There are two ways to spoil a normalizer. Positive infinity is its own distance from
the largest element, which is not a number. And an element that is not a number
is passed over when the largest is looked for, but not when the distances are taken.
A lane with nothing above negative infinity is not normalized, so it becomes
zero even if something in it is not a number.

The two cases exclude each other and there is no third, so what happens to negative
infinity is settled by the sorts in the lane. How large any of the numbers is has
nothing to do with it.

## Main definitions

* `NumberSort.spoils`: Whether the sorts of a lane spoil its normalizer.
* `NumberWord.largest`: The largest element of a lane.

## Theorems

* `le_foldl`: A fold is bounded from below by what goes into it.
* `sort_softmaxLane_spoiled`: A spoiled lane has no numbers in it.
* `largest_of_not_spoiled`, `normalizer_of_not_spoiled`: Any other lane has a finite
  largest element, and a normalizer above zero.
* `sort_softmaxLane_negInf`: In such a lane negative infinity has no weight.
* `sort_softmaxLane`, `DType.sort_softmaxLane`: Both cases, for an entry of a lane.
-/

namespace GraphAttention

/-- Whether a lane with elements of the given sorts has no number for a normalizer:
    something is positive infinity, or something is not a number while
    something else is above negative infinity. -/
def NumberSort.spoils (lane : List NumberSort) : Bool :=
  lane.contains .posInf || (lane.contains .notANumber && lane.any (.negInf < ·))

/-- If an operation gives nothing below either operand, a fold gives nothing below
    what it starts from or takes in. -/
theorem le_foldl {α β : Type} [LinearOrder β] (f : α → β) {P : α → Prop} {op : α → α → α}
    {lane : List α}
    (hop : ∀ x y, P x → P y → P (op x y) ∧ max (f x) (f y) ≤ f (op x y)) {t : α}
    (ht : P t) (hlane : ∀ x ∈ lane, P x) :
    f t ≤ f (lane.foldl op t) ∧ ∀ x ∈ lane, f x ≤ f (lane.foldl op t) := by
  -- The start of the fold is what has been taken in so far, so it varies.
  induction lane generalizing t with
  | nil => exact ⟨le_refl _, fun x hx => nomatch hx⟩
  | cons y lane ih =>
    rcases hop t y ht (hlane y List.mem_cons_self) with ⟨hP, hmax⟩
    rcases ih hP (fun x hx => hlane x (List.mem_cons_of_mem y hx)) with ⟨hstart, hrest⟩
    refine ⟨le_trans (le_trans (le_max_left _ _) hmax) hstart, fun x hx => ?_⟩
    rcases List.mem_cons.mp hx with rfl | hx
    · exact le_trans (le_trans (le_max_right _ _) hmax) hstart
    · exact hrest x hx

theorem length_softmaxLane {α : Type} [RealScalar α] (lane : List α) :
    (softmaxLane lane).length = lane.length := by
  rw [softmaxLane]
  split <;> simp

namespace NumberWord

variable {α : Type} [RealScalar α] [NumberWord α] {lane : List α}

/-- The largest element of a lane, ignoring what is not a number. -/
def largest (lane : List α) : α := lane.foldl RealScalar.maxNum RealScalar.negInf

/-! ### Folds -/

/-- The largest element of a lane is negative infinity or in the lane, and nothing in
    the lane is above it. -/
theorem sort_largest (lane : List α) :
    .negInf ≤ sort (largest lane) ∧ (∀ x ∈ lane, sort x ≤ sort (largest lane)) ∧
      (largest lane = RealScalar.negInf ∨ largest lane ∈ lane) := by
  have hmem : ∀ t : α, lane.foldl RealScalar.maxNum t = t ∨
      lane.foldl RealScalar.maxNum t ∈ lane := by
    induction lane with
    | nil => exact fun t => .inl rfl
    | cons y lane ih =>
      intro t
      rcases ih (RealScalar.maxNum t y) with hfold | hfold
      · rcases maxNum_mem t y with hmax | hmax
        · exact .inl (hfold.trans hmax)
        · exact .inr (List.mem_cons.mpr (.inl (hfold.trans hmax)))
      · exact .inr (List.mem_cons_of_mem y hfold)
  have hfold : sort (RealScalar.negInf : α) ≤ sort (largest lane) ∧
      ∀ x ∈ lane, sort x ≤ sort (largest lane) :=
    le_foldl sort (P := fun _ => True)
      (fun x y _ _ => ⟨trivial, le_of_eq (sort_maxNum x y).symm⟩) trivial (fun _ _ => trivial)
  exact ⟨le_of_eq_of_le sort_negInf.symm hfold.1, hfold.2, hmem _⟩

/-- With nothing above negative infinity in a lane, the largest element is negative
    infinity, also where the lane consists of what is not a number. -/
theorem sort_largest_of_le (h : ∀ x ∈ lane, sort x ≤ .negInf) :
    sort (largest lane) = .negInf := by
  rcases sort_largest lane with ⟨hlow, -, heq | hin⟩
  · rw [heq, sort_negInf]
  · exact le_antisymm (h _ hin) hlow

/-- A sum with something in it that is not a number is not one. -/
theorem sort_foldl_add_notANumber {t : α}
    (h : sort t = .notANumber ∨ ∃ x ∈ lane, sort x = .notANumber) :
    sort (lane.foldl (· + ·) t) = .notANumber := by
  induction lane generalizing t with
  | nil => exact h.resolve_right (fun ⟨x, hx, _⟩ => nomatch hx)
  | cons y lane ih =>
    refine ih ?_
    rcases h with ht | ⟨x, hx, hsort⟩
    · exact .inl (sort_add_notANumber (.inl ht))
    · rcases List.mem_cons.mp hx with rfl | hx
      · exact .inl (sort_add_notANumber (.inr hsort))
      · exact .inr ⟨x, hx, hsort⟩

/-- A sum of numbers that are not negative is above zero if one of them is. -/
theorem zero_lt_sort_foldl_add (hlane : ∀ x ∈ lane, .zero ≤ sort x)
    (hpos : ∃ x ∈ lane, .zero < sort x) : .zero < sort (lane.foldl (· + ·) 0) := by
  rcases hpos with ⟨x, hx, hlt⟩
  refine lt_of_lt_of_le hlt
    ((le_foldl sort (P := fun x => .zero ≤ sort x) ?_ (le_of_eq sort_zero.symm) hlane).2 x hx)
  intro y z hy hz
  have hsum := le_sort_add hy hz
  exact ⟨le_trans (le_max_of_le_left hy) hsum, hsum⟩

/-! ### Softmax -/

/-- A lane with nothing above negative infinity becomes zero. -/
theorem softmaxLane_of_sort_eq (h : sort (largest lane) = .negInf) :
    softmaxLane lane = lane.map fun _ => 0 :=
  if_pos (isNegInf_iff_sort.mpr h)

/-- A lane with something above negative infinity is normalized by a sum of
    exponentials of distances to the largest element. -/
theorem softmaxLane_of_sort_ne (h : sort (largest lane) ≠ .negInf) :
    softmaxLane lane = (lane.map fun x => RealScalar.exp (x - largest lane)).map
      (· / (lane.map fun x => RealScalar.exp (x - largest lane)).foldl (· + ·) 0) :=
  if_neg (fun htop => h (isNegInf_iff_sort.mp htop))

/-- If a distance to the largest element is not a number, no entry is. -/
theorem sort_softmaxLane_of_distance (htop : sort (largest lane) ≠ .negInf)
    (hdistance : ∃ x ∈ lane, sort (x - largest lane) = .notANumber) :
    ∀ y ∈ softmaxLane lane, sort y = .notANumber := by
  rcases hdistance with ⟨x, hx, hsort⟩
  intro y hy
  rw [softmaxLane_of_sort_ne htop] at hy
  rcases List.mem_map.mp hy with ⟨w, -, rfl⟩
  exact sort_div_notANumber (sort_foldl_add_notANumber
    (.inr ⟨_, List.mem_map_of_mem hx, sort_exp_notANumber hsort⟩))

/-- A spoiled lane has no numbers in it. -/
theorem sort_softmaxLane_spoiled (h : NumberSort.spoils (lane.map sort) = true) :
    ∀ y ∈ softmaxLane lane, sort y = .notANumber := by
  rcases sort_largest lane with ⟨-, hbound, -⟩
  simp only [NumberSort.spoils, Bool.or_eq_true, Bool.and_eq_true, List.contains_iff_mem,
    List.any_eq_true, List.mem_map, decide_eq_true_eq, exists_exists_and_eq_and] at h
  rcases h with ⟨x, hx, hsort⟩ | ⟨⟨x, hx, hsort⟩, z, hz, habove⟩
  · -- Positive infinity is the largest element and has no distance from itself.
    have htop : sort (largest lane) = .posInf :=
      le_antisymm (NumberSort.le_posInf _) (hsort ▸ hbound x hx)
    exact sort_softmaxLane_of_distance (by rw [htop]; decide) ⟨x, hx, sort_posInf_sub hsort htop⟩
  · -- What is not a number has no distance from anything.
    exact sort_softmaxLane_of_distance (ne_of_gt (lt_of_lt_of_le habove (hbound z hz)))
      ⟨x, hx, sort_sub_notANumber hsort⟩

/-- A lane that is not spoiled, but has something above negative infinity, consists of
    numbers, and the largest of them is finite. -/
theorem largest_of_not_spoiled (h : NumberSort.spoils (lane.map sort) = false)
    (htop : sort (largest lane) ≠ .negInf) :
    largest lane ∈ lane ∧ (sort (largest lane)).isFinite = true ∧
      ∀ x ∈ lane, sort x ≠ .notANumber := by
  rcases sort_largest lane with ⟨hlow, -, hmem⟩
  simp only [NumberSort.spoils, Bool.or_eq_false_iff, Bool.and_eq_false_iff,
    List.contains_eq_mem, decide_eq_false_iff_not, List.any_eq_false, List.mem_map, not_exists,
    not_and, decide_eq_true_eq, forall_exists_index, and_imp, forall_apply_eq_imp_iff₂] at h
  rcases h with ⟨hposInf, hnumbers⟩
  -- The largest element is in the lane, so it is neither infinite nor missing.
  have habove : .negInf < sort (largest lane) := lt_of_le_of_ne hlow (Ne.symm htop)
  have hin : largest lane ∈ lane :=
    hmem.resolve_left fun heq => htop ((congrArg sort heq).trans sort_negInf)
  exact ⟨hin,
    decide_eq_true ⟨habove, lt_of_le_of_ne (NumberSort.le_posInf _) (hposInf _ hin)⟩,
    hnumbers.resolve_right fun hnone => hnone _ hin habove⟩

/-- In a lane that is not spoiled, the normalizer is above zero wherever it is used. -/
theorem normalizer_of_not_spoiled (h : NumberSort.spoils (lane.map sort) = false)
    (htop : sort (largest lane) ≠ .negInf) :
    .zero < sort ((lane.map fun x => RealScalar.exp (x - largest lane)).foldl (· + ·) 0) := by
  rcases largest_of_not_spoiled h htop with ⟨hin, hfinite, hnumber⟩
  refine zero_lt_sort_foldl_add (fun w hw => ?_) ⟨_, List.mem_map_of_mem hin, ?_⟩
  · rcases List.mem_map.mp hw with ⟨x, hx, rfl⟩
    exact le_sort_exp (sort_sub_ne (hnumber x hx) hfinite)
  · -- The largest element is at distance zero from itself.
    rw [sort_exp_zero (sort_sub_self hfinite)]
    decide

/-- In a lane that is not spoiled, negative infinity has no weight. -/
theorem sort_softmaxLane_negInf (h : NumberSort.spoils (lane.map sort) = false) {j : Nat}
    (hj : j < lane.length) (hhidden : sort lane[j] = .negInf) :
    sort ((softmaxLane lane).getD j default) = .zero := by
  by_cases htop : sort (largest lane) = .negInf
  · -- Nothing is normalized, the lane is zero throughout.
    rw [softmaxLane_of_sort_eq htop]
    simp [hj, sort_zero]
  · have hfinite := (largest_of_not_spoiled h htop).2.1
    have hexp := sort_exp_negInf (sort_negInf_sub hhidden hfinite)
    rw [softmaxLane_of_sort_ne htop]
    simpa [hj] using sort_zero_div hexp (normalizer_of_not_spoiled h htop)

/-- Negative infinity in a lane has no weight, or the lane is spoiled and the weight
    is not a number. -/
theorem sort_softmaxLane (lane : List α) {j : Nat} (hj : j < lane.length)
    (hhidden : sort lane[j] = .negInf) :
    sort ((softmaxLane lane).getD j default)
      = if NumberSort.spoils (lane.map sort) then .notANumber else .zero := by
  split_ifs with h
  · have hlength : j < (softmaxLane lane).length := by rwa [length_softmaxLane]
    rw [List.getD_eq_getElem?_getD, List.getElem?_eq_getElem hlength]
    exact sort_softmaxLane_spoiled h _ (List.getElem_mem hlength)
  · exact sort_softmaxLane_negInf (Bool.eq_false_iff.mpr h) hj hhidden

end NumberWord

theorem DType.sort_negInf {d : DType} (hd : d.isFloat = true) : d.sort d.negInf = .negInf := by
  cases d with
  | float32 => exact NumberWord.sort_negInf (α := Binary32)
  | float64 => exact NumberWord.sort_negInf (α := Binary64)
  | int64 => cases hd
  | uint8 => cases hd

/-- Negative infinity in a lane of any floating kind. -/
theorem DType.sort_softmaxLane {d : DType} (hd : d.isFloat = true) (lane : List d.Elem) {j : Nat}
    (hj : j < lane.length) (hhidden : d.sort lane[j] = .negInf) :
    d.sort ((d.softmaxLane lane).getD j default)
      = if NumberSort.spoils (lane.map d.sort) then .notANumber else .zero := by
  cases d with
  | float32 => exact NumberWord.sort_softmaxLane (α := Binary32) lane hj hhidden
  | float64 => exact NumberWord.sort_softmaxLane (α := Binary64) lane hj hhidden
  | int64 => cases hd
  | uint8 => cases hd

end GraphAttention
