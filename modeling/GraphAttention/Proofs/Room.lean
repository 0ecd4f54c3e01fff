import GraphAttention.Proofs.Indexing

/-!
# Room for Folded Axes

A reshape keeps the number of elements but not always the room. What a buffer
may span is the product of the lengths that are not zero, and folding two axes
into one can lose such a length: `[0, 5]` spans five and `[0]` only one. Folding
never asks for more room, and unfolding asks for no more where both lengths are
positive. Everything an operation needs to know about the room of its results
comes from these two facts and from `allocatable_perm`.

The product over the lengths that are not zero is awkward to compute with.
`span_cons` puts it as a product over all lengths, each at least one.

## Theorems

* `span_cons`: The span as a product of lengths that are at least one.
* `size_le_span`, `le_span`: Neither the elements nor an axis exceed the span.
* `numel_of_addressable`: Where there can be a buffer, its elements are counted right.
* `span_of_pos`, `addressable_fewer`, `addressable_rows`: Fewer rows, and rows that
  have elements.
* `allocatable_below`: A part of an array.
* `allocatable_flatten`, `allocatable_fold`: Folding leading axes into one keeps
  the room.
* `length_le_of_fits`, `allocatable_vector`, `allocatable_column`,
  `allocatable_matrix_iff`: Lists, columns and matrices.
* `addressable_matrix`: Matrices of any lengths.
* `allocatable_unfold`: Dividing an axis into positive lengths keeps the room.
-/

namespace GraphAttention

namespace Shape

theorem span_cons (n : Nat) (s : Shape) : span (n :: s) = max n 1 * span s := by
  by_cases hn : n = 0
  · simp [span, hn]
  · have hmax : max n 1 = n := by omega
    simp [span, hn, hmax]

theorem span_append (s t : Shape) : span (s ++ t) = span s * span t := by
  induction s with
  | nil => simp [span]
  | cons n s ih => rw [List.cons_append, span_cons, span_cons, ih, Nat.mul_assoc]

theorem size_le_span (s : Shape) : max (size s) 1 ≤ span s := by
  induction s with
  | nil => simp [span]
  | cons n s ih =>
    rw [span_cons, size_cons]
    have hn : n ≤ max n 1 := Nat.le_max_left _ _
    have hone : 1 ≤ max n 1 := Nat.le_max_right _ _
    refine Nat.max_le.mpr ⟨?_, ?_⟩
    · exact Nat.mul_le_mul hn (Nat.le_trans (Nat.le_max_left _ _) ih)
    · exact Nat.mul_le_mul hone (Nat.le_trans (Nat.le_max_right _ _) ih)

/-- The elements of a shape that can be addressed are counted right. -/
theorem numel_of_addressable {s : Shape} (h : Addressable s) : numel s = size s := by
  have hsize := Nat.le_trans (Nat.le_max_left _ _) (size_le_span s)
  rw [numel_eq, wrap_of_lt]
  exact Nat.lt_of_le_of_lt (Nat.le_trans hsize h.1) (by decide)

theorem le_span {n : Nat} {s : Shape} (h : n ∈ s) : n ≤ span s := by
  induction s with
  | nil => cases h
  | cons m s ih =>
    rw [span_cons]
    have hm : 1 ≤ max m 1 := Nat.le_max_right _ _
    have hs : 1 ≤ span s := Nat.le_trans (Nat.le_max_right _ _) (size_le_span s)
    rcases List.mem_cons.mp h with rfl | h
    · exact Nat.le_trans (Nat.le_max_left _ _) (Nat.le_mul_of_pos_right _ hs)
    · exact Nat.le_trans (ih h) (Nat.le_mul_of_pos_left _ hm)

/-- Where there are elements, a shape spans as many. -/
theorem span_of_pos {s : Shape} (h : 0 < size s) : span s = size s := by
  induction s with
  | nil => rfl
  | cons n s ih =>
    rw [size_cons] at h
    have hn : max n 1 = n := Nat.max_eq_left (Nat.pos_of_mul_pos_right h)
    rw [span_cons, size_cons, hn, ih (Nat.pos_of_mul_pos_left h)]

/-- Fewer rows may be laid out where more may. -/
theorem addressable_fewer {m n : Nat} {s : Shape} (hmn : m ≤ n) (h : Addressable (n :: s)) :
    Addressable (m :: s) := by
  rcases h with ⟨hspan, hrank⟩
  rw [span_cons] at hspan
  refine ⟨?_, hrank⟩
  rw [span_cons]
  exact Nat.le_trans (Nat.mul_le_mul_right _ (max_le_max_right 1 hmn)) hspan

/-- Rows with elements may be laid out unless these are too many. -/
theorem addressable_rows {m n : Nat} {s : Shape} (h : Addressable (n :: s)) (hpos : 0 < size s)
    (hsize : m * size s ≤ maxSpan) : Addressable (m :: s) := by
  rcases h with ⟨hspan, hrank⟩
  refine ⟨?_, hrank⟩
  rw [span_cons, span_of_pos hpos] at hspan ⊢
  -- Without rows there is the span of one, and that was allowed before.
  have hone : 1 * size s ≤ maxSpan :=
    Nat.le_trans (Nat.mul_le_mul_right _ (Nat.le_max_right n 1)) hspan
  rcases Nat.le_total m 1 with hm | hm
  · rwa [Nat.max_eq_right hm]
  · rwa [Nat.max_eq_left hm]

/-- What lies below a coordinate of the first axis asks for no more room than the whole. -/
theorem allocatable_below {width n : Nat} {s : Shape} (hn : 0 < n)
    (room : Allocatable width (n :: s)) : Allocatable width s := by
  rcases room with ⟨⟨hspan, hrank⟩, hfits⟩
  rw [span_cons] at hspan
  rw [Fits, size_cons, Nat.mul_assoc] at hfits
  refine ⟨⟨?_, Nat.le_trans (Nat.le_succ _) hrank⟩, ?_⟩
  · exact Nat.le_trans (Nat.le_mul_of_pos_left _ (by omega)) hspan
  · exact Nat.le_trans (Nat.le_mul_of_pos_left _ hn) hfits

/-- Folding leading axes into one asks for no more room. -/
theorem allocatable_flatten {width : Nat} (lead : Shape) {t : Shape} (hrank : t.length < maxSpan)
    (room : Allocatable width (lead ++ t)) : Allocatable width (size lead :: t) := by
  rcases room with ⟨⟨hspan, -⟩, hfits⟩
  have hsize : size (lead ++ t) = size (size lead :: t) := by rw [size_append, size_cons]
  refine ⟨⟨?_, Nat.succ_le_of_lt hrank⟩, (fits_congr hsize).mp hfits⟩
  -- The folded axis may have lost a length that is not zero, never gained one.
  rw [span_cons]
  rw [span_append] at hspan
  exact Nat.le_trans (Nat.mul_le_mul_right _ (size_le_span lead)) hspan

theorem allocatable_fold {width m n : Nat} {s : Shape} (hrank : s.length < maxSpan)
    (room : Allocatable width (m :: n :: s)) : Allocatable width (m * n :: s) := by
  have hflat := allocatable_flatten [m, n] hrank room
  rwa [size_cons, size_cons, size_nil, Nat.mul_one] at hflat

/-- Dividing an axis into two of positive length asks for no more room. -/
theorem allocatable_unfold {width m n : Nat} {s : Shape} (hm : 0 < m) (hn : 0 < n)
    (hrank : s.length + 1 < maxSpan) (room : Allocatable width (m * n :: s)) :
    Allocatable width (m :: n :: s) := by
  rcases room with ⟨⟨hspan, -⟩, hfits⟩
  have hsize : size (m * n :: s) = size (m :: n :: s) := by
    simp only [size_cons, Nat.mul_assoc]
  -- Lengths that are positive count in full on both sides.
  have hpos : 0 < m * n := Nat.mul_pos hm hn
  have hmax : max m 1 = m := by omega
  have hmax' : max n 1 = n := by omega
  have hmax'' : max (m * n) 1 = m * n := by omega
  refine ⟨⟨?_, Nat.succ_le_of_lt hrank⟩, (fits_congr hsize).mp hfits⟩
  rw [span_cons, hmax''] at hspan
  rw [span_cons, span_cons, hmax, hmax', ← Nat.mul_assoc]
  exact hspan

/-- A list with room for its elements is not longer than a buffer may span. -/
theorem length_le_of_fits {width n : Nat} (hwidth : 0 < width) (h : Fits width [n]) :
    n ≤ maxSpan := by
  rw [Fits, size_cons, size_nil, Nat.mul_one] at h
  exact Nat.le_trans (Nat.le_mul_of_pos_right n hwidth) h

/-- A list has room when its elements fit. -/
theorem allocatable_vector {width n : Nat} (hwidth : 0 < width) (h : Fits width [n]) :
    Allocatable width [n] := by
  have hone : 1 ≤ maxSpan := by decide
  refine ⟨⟨?_, hone⟩, h⟩
  -- A list without elements spans one.
  have hn := length_le_of_fits hwidth h
  have hnil : span [] = 1 := rfl
  rw [span_cons, hnil]
  omega

/-- A column has the room of a list. -/
theorem allocatable_column {width n : Nat} (hwidth : 0 < width) (h : Fits width [n]) :
    Allocatable width [n, 1] := by
  have htwo : 2 ≤ maxSpan := by decide
  rcases allocatable_vector hwidth h with ⟨⟨hspan, -⟩, hfits⟩
  refine ⟨⟨?_, htwo⟩, hfits⟩
  rw [span_cons] at hspan ⊢
  exact hspan

/-- A matrix may be laid out unless it has too many rows, columns or elements. -/
theorem addressable_matrix {m n : Nat} (hm : m ≤ maxSpan) (hn : n ≤ maxSpan)
    (hsize : m * n ≤ maxSpan) : Addressable [m, n] := by
  have htwo : 2 ≤ maxSpan := by decide
  have hnil : span [] = 1 := rfl
  refine ⟨?_, htwo⟩
  rw [span_cons, span_cons, hnil, Nat.mul_one]
  -- Lengths that are zero count as one.
  rcases Nat.eq_zero_or_pos m with rfl | hm'
  · rw [Nat.zero_max, Nat.one_mul]
    omega
  · rcases Nat.eq_zero_or_pos n with rfl | hn'
    · rw [Nat.zero_max, Nat.mul_one]
      omega
    · rwa [Nat.max_eq_left hm', Nat.max_eq_left hn']

/-- A matrix with columns has room when its elements fit. -/
theorem allocatable_matrix_iff {width m n : Nat} (hwidth : 0 < width) (hpos : 0 < n)
    (hn : n ≤ maxSpan) : Allocatable width [m, n] ↔ Fits width [m, n] := by
  refine ⟨fun room => room.2, fun h => ⟨⟨?_, by change 2 ≤ maxSpan; decide⟩, h⟩⟩
  have hnil : span [] = 1 := rfl
  have hmax : max n 1 = n := by omega
  rw [span_cons, span_cons, hnil, hmax]
  by_cases hm : m = 0
  · -- Without rows a matrix spans one of them.
    rw [hm]
    simpa using hn
  · have hmax' : max m 1 = m := by omega
    rw [Fits, size_cons, size_cons, size_nil] at h
    rw [hmax']
    exact Nat.le_trans (Nat.le_mul_of_pos_right _ hwidth) h

end Shape

end GraphAttention
