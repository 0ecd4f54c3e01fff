import GraphAttention.MachineWord

/-!
# Shapes and Row-Major Positions

A shape lists the lengths of the axes, outermost first, and an index lists one
coordinate per axis. Elements lie in row-major order, so the last coordinate
runs fastest and the position of an index is a mixed-radix number whose digits
are its coordinates.

The empty shape belongs to a single number: it has one index, the empty one. A
shape with an axis of length zero has no index at all, and everything here
makes sense for it, since `unravel` is only ever asked about positions below
the number of elements.

Axis lengths are natural numbers, but a buffer is addressed with machine words.
The limit on a shape is not on the number of elements. It is on the product of
the lengths that are not zero, so a shape may be refused although it holds
nothing; the number of axes has the same limit. A new buffer has another one, on
the bytes that its elements take. The elements of a shape that no buffer can have
are counted all the same, in a machine word, and there the count may be wrong.

## Main definitions

* `Shape`, `Index`: Axis lengths and coordinates.
* `Within`: An index has one coordinate for each axis, each below its length.
* `size`: How many elements an array of a shape has.
* `numel`: The elements counted in a machine word.
* `ravel`, `unravel`: The row-major position of an index, and back.
* `strides`: How far apart neighbors along each axis lie.
* `Addressable`: A shape whose positions a machine word can name.
* `Fits`, `Allocatable`: A shape small enough for a buffer of its elements.

## Theorems

* `numel_eq`: The count is what is left of the number of elements.
* `size_perm`, `allocatable_perm`: The order of the axes matters to neither.
* `ravel_lt`, `within_unravel`: Positions and indices stay within the shape.
* `ravel_unravel`, `unravel_ravel`: Positions and indices determine each other.
-/

namespace GraphAttention

/-- The lengths of the axes of an array, outermost first. -/
abbrev Shape := List Nat

/-- The coordinates of an element, one for each axis. -/
abbrev Index := List Nat

namespace Shape

/-- The index has one coordinate for each axis and each lies below the length
    of its axis. -/
def Within : Index → Shape → Prop
  | [], [] => True
  | i :: idx, n :: s => i < n ∧ Within idx s
  | _, _ => False

instance decidableWithin : (idx : Index) → (s : Shape) → Decidable (Within idx s)
  | [], [] => inferInstanceAs (Decidable True)
  | i :: idx, n :: s =>
    have := decidableWithin idx s
    inferInstanceAs (Decidable (i < n ∧ Within idx s))
  | [], _ :: _ => inferInstanceAs (Decidable False)
  | _ :: _, [] => inferInstanceAs (Decidable False)

/-- The number of elements: one for the empty shape, and one block of them for
    each step along the outermost axis. -/
def size : Shape → Nat
  | [] => 1
  | n :: s => n * size s

/-- The number of elements, multiplied up in a machine word. -/
def numel (s : Shape) : Nat := s.foldl (fun n d => wrap (n * d)) 1

/-- The row-major position of an index. -/
def ravel : Shape → Index → Nat
  | _ :: s, i :: idx => i * size s + ravel s idx
  | _, _ => 0

/-- The index at a row-major position. -/
def unravel : Shape → Nat → Index
  | [], _ => []
  | _ :: s, k => k / size s :: unravel s (k % size s)

/-- The distance between neighbors along each axis of a row-major buffer. -/
def strides : Shape → List Nat
  | [] => []
  | _ :: s => size s :: strides s

/-- The most elements a shape may span, and the most bytes a buffer may take. -/
def maxSpan : Nat := 0x7fffffffffffffff

/-- The product of the axis lengths that are not zero. -/
def span (s : Shape) : Nat := size (s.filter (· ≠ 0))

/-- A buffer of this shape can be addressed: the axis lengths that are not zero
    have a product within `maxSpan`, and so have the axes a number within it. -/
def Addressable (s : Shape) : Prop := span s ≤ maxSpan ∧ s.length ≤ maxSpan

instance (s : Shape) : Decidable (Addressable s) :=
  inferInstanceAs (Decidable (_ ∧ _))

/-- The elements fit in a buffer when each takes `width` bytes. -/
def Fits (width : Nat) (s : Shape) : Prop := size s * width ≤ maxSpan

instance (width : Nat) (s : Shape) : Decidable (Fits width s) :=
  inferInstanceAs (Decidable (_ ≤ _))

/-- There can be a new buffer of this shape with elements of `width` bytes. -/
def Allocatable (width : Nat) (s : Shape) : Prop := Addressable s ∧ Fits width s

instance (width : Nat) (s : Shape) : Decidable (Allocatable width s) :=
  inferInstanceAs (Decidable (_ ∧ _))

@[simp] theorem size_nil : size [] = 1 := rfl

@[simp] theorem size_cons (n : Nat) (s : Shape) : size (n :: s) = n * size s := rfl

theorem foldl_wrap_mul (s : Shape) {n : Nat} (hn : n < wordCount) :
    s.foldl (fun n d => wrap (n * d)) n = wrap (n * size s) := by
  -- The product so far varies in the induction.
  induction s generalizing n with
  | nil => rw [size_nil, Nat.mul_one, wrap_of_lt hn, List.foldl_nil]
  | cons d s ih => rw [List.foldl_cons, ih (wrap_lt _), wrap_wrap_mul, size_cons, Nat.mul_assoc]

/-- What is counted is what a machine word holds of the number of elements. -/
theorem numel_eq (s : Shape) : numel s = wrap (size s) := by
  rw [numel, foldl_wrap_mul s (by decide), Nat.one_mul]

@[simp] theorem unravel_nil (k : Nat) : unravel [] k = [] := rfl

@[simp] theorem length_unravel (s : Shape) (k : Nat) : (unravel s k).length = s.length := by
  induction s generalizing k with
  | nil => rfl
  | cons n s ih => simp [unravel, ih]

/-- Reordering the axes keeps the number of elements. -/
theorem size_perm {s t : Shape} (h : s.Perm t) : size s = size t := by
  induction h with
  | nil => rfl
  | cons n _ ih => rw [size_cons, size_cons, ih]
  | swap m n s => rw [size_cons, size_cons, size_cons, size_cons, Nat.mul_left_comm]
  | trans _ _ ih₁ ih₂ => rw [ih₁, ih₂]

theorem fits_congr {s t : Shape} (h : size s = size t) {width : Nat} :
    Fits width s ↔ Fits width t := by
  rw [Fits, Fits, h]

/-- Reordering the axes keeps the room that a buffer needs. -/
theorem allocatable_perm {s t : Shape} (h : s.Perm t) {width : Nat}
    (room : Allocatable width s) : Allocatable width t := by
  have hspan : span s = span t := size_perm (h.filter _)
  refine ⟨?_, (fits_congr (size_perm h)).mp room.2⟩
  rw [Addressable, ← hspan, ← h.length_eq]
  exact room.1

/-- An index within a shape has a position below the number of elements. -/
theorem ravel_lt {idx : Index} {s : Shape} (h : Within idx s) : ravel s idx < size s := by
  induction s generalizing idx with
  | nil => cases idx <;> simp_all [Within, ravel]
  | cons n s ih =>
    cases idx with
    | nil => simp [Within] at h
    | cons i idx =>
      have hrest := ih h.2
      have hi : (i + 1) * size s ≤ n * size s := Nat.mul_le_mul_right _ h.1
      rw [Nat.succ_mul] at hi
      simp only [ravel, size_cons]
      omega

/-- The index at a position below the number of elements lies within the
    shape. -/
theorem within_unravel {s : Shape} {k : Nat} (h : k < size s) : Within (unravel s k) s := by
  induction s generalizing k with
  | nil => trivial
  | cons n s ih =>
    rw [size_cons] at h
    have hpos : 0 < size s := by
      rcases Nat.eq_zero_or_pos (size s) with h0 | h0
      · simp [h0] at h
      · exact h0
    refine ⟨?_, ih (Nat.mod_lt _ hpos)⟩
    exact (Nat.div_lt_iff_lt_mul hpos).mpr h

/-- Taking the index at a position and its position again changes nothing. -/
theorem ravel_unravel {s : Shape} {k : Nat} (h : k < size s) : ravel s (unravel s k) = k := by
  induction s generalizing k with
  | nil => simp at h; simp [ravel, h]
  | cons n s ih =>
    rw [size_cons] at h
    have hpos : 0 < size s := by
      rcases Nat.eq_zero_or_pos (size s) with h0 | h0
      · simp [h0] at h
      · exact h0
    simp only [unravel, ravel, ih (Nat.mod_lt _ hpos)]
    rw [Nat.mul_comm]
    exact Nat.div_add_mod k (size s)

/-- An index within the shape is the one at its own position. -/
theorem unravel_ravel {idx : Index} {s : Shape} (h : Within idx s) :
    unravel s (ravel s idx) = idx := by
  induction s generalizing idx with
  | nil => cases idx <;> simp_all [Within]
  | cons n s ih =>
    cases idx with
    | nil => simp [Within] at h
    | cons i idx =>
      have hlt := ravel_lt h.2
      have hpos : 0 < size s := Nat.lt_of_le_of_lt (Nat.zero_le _) hlt
      simp only [ravel, unravel]
      rw [Nat.mul_comm, Nat.mul_add_div hpos, Nat.div_eq_of_lt hlt, Nat.mul_add_mod,
        Nat.mod_eq_of_lt hlt, ih h.2]
      simp

end Shape

end GraphAttention
