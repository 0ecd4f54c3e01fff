import GraphAttention.DenseArray.Elementwise
import GraphAttention.DenseArray.Layout
import GraphAttention.DenseArray.Product
import GraphAttention.DenseArray.Softmax
import Mathlib.Algebra.BigOperators.Group.List.Basic
import Mathlib.Tactic.Ring

/-!
# Reading Arrays by Index

The operations on arrays are written with positions in a buffer: strides,
quotients and remainders. What they mean is said with indices. This module goes
from the one to the other, once for each operation, so that nothing after it has
to divide.

An index is cut where the operation cuts the shape. A softmax along an axis
leaves the coordinates before and after the axis alone, so its array is read at
`p ++ j :: q`; a mask covers the leading axes, so the array it is laid on is read
at `p ++ r`. `ravel_append` is what makes a cut index worth having: the position
of `p ++ r` is that of `p` among the blocks and that of `r` within a block.

Reordering axes is stated without an inverse order. Reading the result at the
reordered index gives the element that was at the index, and as every index of
the result is the reordering of one, this says all.

## Theorems

* `Shape.ravel_append`: The position of an index in two parts.
* `Shape.project_append`: Broadcasting along the leading axes drops them.
* `DenseArray.ext_get`: Arrays are equal when they read the same.
* `DenseArray.get_permute`: Reordered axes, read at the reordered index.
* `DenseArray.get_matmul`, `DenseArray.get_bmm`: Products as sums.
* `DenseArray.get_mapLanes`: A lane, read after a function of lanes.
* `DenseArray.get_fillBlocks`: Blocks overwritten under leading indices.
* `DenseArray.get_zipBroadcast`: Elements combined over a common shape.
-/

namespace GraphAttention

namespace Shape

@[simp] theorem within_cons (i n : Nat) (idx : Index) (s : Shape) :
    Within (i :: idx) (n :: s) ↔ i < n ∧ Within idx s := Iff.rfl

@[simp] theorem within_nil : Within [] [] := trivial

theorem div_block {q r n : Nat} (h : r < n) : (q * n + r) / n = q := by
  rw [Nat.mul_comm, Nat.mul_add_div (by omega), Nat.div_eq_of_lt h, Nat.add_zero]

theorem mod_block {q r n : Nat} (h : r < n) : (q * n + r) % n = r := by
  rw [Nat.mul_comm, Nat.mul_add_mod, Nat.mod_eq_of_lt h]

/-- Two folded coordinates stay below the product of their lengths. -/
theorem fold_lt {q r m n : Nat} (hq : q < m) (hr : r < n) : q * n + r < m * n := by
  have hle : (q + 1) * n ≤ m * n := Nat.mul_le_mul_right _ hq
  rw [Nat.succ_mul] at hle
  omega

theorem within_length {idx : Index} {s : Shape} (h : Within idx s) : idx.length = s.length := by
  induction s generalizing idx with
  | nil => cases idx <;> simp_all [Within]
  | cons n s ih =>
    cases idx with
    | nil => simp [Within] at h
    | cons i idx => simp [ih h.2]

/-- An index for two axes has two parts. -/
theorem within_pair {idx : Index} {m n : Nat} (h : Within idx [m, n]) :
    ∃ i j, idx = [i, j] ∧ i < m ∧ j < n := by
  rcases idx with _ | ⟨i, _ | ⟨j, _ | ⟨k, idx⟩⟩⟩
  · exact h.elim
  · exact h.2.elim
  · exact ⟨i, j, rfl, h.1, h.2.1⟩
  · exact h.2.2.elim

theorem within_append {i j : Index} {s t : Shape} (hi : Within i s) (hj : Within j t) :
    Within (i ++ j) (s ++ t) := by
  induction s generalizing i with
  | nil =>
    have hnil : i = [] := List.length_eq_zero_iff.mp (within_length hi)
    simpa only [hnil, List.nil_append] using hj
  | cons n s ih =>
    cases i with
    | nil => simp [Within] at hi
    | cons k i => exact ⟨hi.1, ih hi.2⟩

/-- An index for a shape in two parts falls into an index for each. -/
theorem within_split {idx : Index} {s t : Shape} (h : Within idx (s ++ t)) :
    ∃ i j, idx = i ++ j ∧ Within i s ∧ Within j t := by
  induction s generalizing idx with
  | nil => exact ⟨[], idx, rfl, trivial, h⟩
  | cons n s ih =>
    cases idx with
    | nil => simp [Within] at h
    | cons k idx =>
      rcases ih h.2 with ⟨i, j, rfl, hi, hj⟩
      exact ⟨k :: i, j, rfl, ⟨h.1, hi⟩, hj⟩

theorem size_append (s t : Shape) : size (s ++ t) = size s * size t := by
  induction s with
  | nil => simp
  | cons n s ih => simp only [List.cons_append, size_cons, ih, Nat.mul_assoc]

/-- The position of an index in two parts: that of the first part counts the
    blocks before it, that of the second lies within the block. -/
theorem ravel_append (s t : Shape) (i j : Index) (h : i.length = s.length) :
    ravel (s ++ t) (i ++ j) = ravel s i * size t + ravel t j := by
  induction s generalizing i with
  | nil =>
    have hnil : i = [] := List.length_eq_zero_iff.mp h
    simp [hnil, ravel]
  | cons n s ih =>
    cases i with
    | nil => simp at h
    | cons k i =>
      -- The outermost coordinate counts blocks of both parts together.
      have hlength : i.length = s.length := by simpa using h
      simp only [List.cons_append, ravel, size_append, ih i hlength]
      ring

theorem within_getD {idx : Index} {s : Shape} (h : Within idx s) {k : Nat} (hk : k < s.length) :
    idx.getD k 0 < s.getD k 0 := by
  induction s generalizing idx k with
  | nil => simp at hk
  | cons n s ih =>
    cases idx with
    | nil => simp [Within] at h
    | cons i idx =>
      cases k with
      | zero => simpa using h.1
      | succ k => simpa using ih h.2 (by simpa using hk)

/-- Lying within a shape is a matter of each coordinate. -/
theorem within_of_getD {idx : Index} {s : Shape} (hlength : idx.length = s.length)
    (h : ∀ k, k < s.length → idx.getD k 0 < s.getD k 0) : Within idx s := by
  induction s generalizing idx with
  | nil =>
    obtain rfl := List.length_eq_zero_iff.mp hlength
    trivial
  | cons n s ih =>
    cases idx with
    | nil => simp at hlength
    | cons i idx =>
      refine ⟨by simpa using h 0 (by simp), ih (by simpa using hlength) fun k hk => ?_⟩
      simpa using h (k + 1) (by simpa using hk)

/-- An index reordered lies within the shape reordered. -/
theorem within_reorder {idx : Index} {s : Shape} (h : Within idx s) {axes : List Nat}
    (haxes : ∀ axis ∈ axes, axis < s.length) :
    Within (axes.map fun axis => idx.getD axis 0) (axes.map fun axis => s.getD axis 0) := by
  induction axes with
  | nil => trivial
  | cons axis axes ih =>
    exact ⟨within_getD h (haxes axis List.mem_cons_self),
      ih fun other hmem => haxes other (List.mem_cons_of_mem _ hmem)⟩

/-- A shape that a reading does not reach is dropped from the index. -/
theorem project_append (i : Index) {j : Index} {t : Shape} (h : Within j t) :
    project t (i ++ j) = j := by
  have hlength := within_length h
  have hdrop : (i ++ j).drop ((i ++ j).length - t.length) = j := by
    rw [← hlength, List.length_append, Nat.add_sub_cancel, List.drop_left]
  rw [project, hdrop]
  -- Along an axis of length one the coordinate is zero anyway.
  clear hdrop hlength
  induction t generalizing j with
  | nil => cases j <;> simp_all [Within]
  | cons n t ih =>
    cases j with
    | nil => simp [Within] at h
    | cons k j =>
      rw [List.zipWith_cons_cons, ih h.2]
      by_cases hn : n = 1
      · have hk : k = 0 := by
          have := h.1
          omega
        rw [if_pos hn, hk]
      · rw [if_neg hn]

theorem broadcastReversed_append (u v : Shape) : broadcastReversed (u ++ v) u = some (u ++ v) := by
  induction u with
  | nil => cases v <;> rfl
  | cons n u ih => simp [broadcastReversed, broadcastAxis, ih]

/-- A shape broadcasts with its own trailing axes to itself. -/
theorem broadcast_append (lead t : Shape) : broadcast? (lead ++ t) t = some (lead ++ t) := by
  rw [broadcast?, List.reverse_append, broadcastReversed_append]
  simp

end Shape

/-- A sum looks only at the terms below its bound. -/
theorem sumRange_congr {α : Type} [Zero α] [Add α] {n : Nat} {f g : Nat → α}
    (h : ∀ k, k < n → f k = g k) : sumRange n f = sumRange n g := by
  refine List.foldl_ext _ _ _ fun acc k hk => ?_
  rw [h k (List.mem_range.mp hk)]

namespace DenseArray

variable {α β : Type}

section Reading

variable [Inhabited α] [Inhabited β]

theorem item_generate (s : Shape) (f : Nat → α) {k : Nat} (h : k < s.size) :
    (generate s f).item k = f k := by
  simp [item, generate, h]

theorem get_eq_item (a : DenseArray α) (idx : Index) : a.get idx = a.item (a.shape.ravel idx) :=
  rfl

theorem get_generate (s : Shape) (f : Nat → α) {idx : Index} (h : Shape.Within idx s) :
    (generate s f).get idx = f (s.ravel idx) :=
  item_generate s f (Shape.ravel_lt h)

/-- Arrays of one shape are equal when they read the same at every index. -/
theorem ext_get {a b : DenseArray α} (hshape : a.shape = b.shape)
    (h : ∀ idx, Shape.Within idx a.shape → a.get idx = b.get idx) : a = b := by
  refine DenseArray.ext hshape (Array.ext (by rw [a.size_data, b.size_data, hshape]) ?_)
  intro k hka hkb
  have hk : k < a.shape.size := by rwa [a.size_data] at hka
  -- Every position belongs to an index, and there the two read the same.
  have hread := h _ (Shape.within_unravel hk)
  simp only [get, ← hshape, Shape.ravel_unravel hk] at hread
  simpa [hka, hkb] using hread

theorem get_map (f : α → β) (a : DenseArray α) {idx : Index} (h : Shape.Within idx a.shape) :
    (a.map f).get idx = f (a.get idx) := by
  have hk : a.shape.ravel idx < a.data.size := by
    rw [a.size_data]
    exact Shape.ravel_lt h
  simp [get, map, hk]

/-- Under another shape an element keeps its position. -/
theorem get_withShape (a : DenseArray α) (s : Shape) (hsize : s.size = a.shape.size)
    {idx src : Index} (h : s.ravel idx = a.shape.ravel src) :
    (a.withShape s hsize).get idx = a.get src := by
  simp only [get, withShape, h]

/-! ### Reordering axes -/

theorem offset_map (axes : List Nat) (f g : Nat → Nat) :
    offset (axes.map f) (axes.map g) = (axes.map fun axis => g axis * f axis).sum := by
  induction axes with
  | nil => rfl
  | cons axis axes ih => simp only [List.map_cons, offset, List.sum_cons, ih]

/-- The position of an index is how far it reaches along the strides. -/
theorem offset_strides (s : Shape) (idx : Index) :
    offset (Shape.strides s) idx = s.ravel idx := by
  induction s generalizing idx with
  | nil => cases idx <;> rfl
  | cons n s ih =>
    cases idx with
    | nil => rfl
    | cons i idx => simp only [Shape.strides, offset, Shape.ravel, ih]

theorem length_strides (s : Shape) : (Shape.strides s).length = s.length := by
  induction s with
  | nil => rfl
  | cons n s ih => simp [Shape.strides, ih]

/-- Axes in another order: the element that was at an index is found at the
    index reordered in the same way. -/
theorem get_permute (a : DenseArray α) {axes : List Nat}
    (hperm : axes.Perm (List.range a.shape.length)) {idx : Index}
    (h : Shape.Within idx a.shape) :
    (a.permute axes).get (axes.map fun axis => idx.getD axis 0) = a.get idx := by
  have hrange : ∀ axis ∈ axes, axis < a.shape.length :=
    fun axis hmem => List.mem_range.mp (hperm.mem_iff.mp hmem)
  have hwithin := Shape.within_reorder h hrange
  have hlength := Shape.within_length h
  -- Both sides are positions: a reach along the strides, and a mixed-radix number.
  rw [permute, get_generate _ _ hwithin, Shape.unravel_ravel hwithin, offset_map,
    get_eq_item]
  -- The sum over the axes does not depend on their order.
  have hsum := (hperm.map fun axis =>
    idx.getD axis 0 * (Shape.strides a.shape).getD axis 0).sum_eq
  rw [hsum, ← offset_map]
  -- In the order of the shape the strides and coordinates are those of the array.
  have hstrides := Shape.map_getD_range (Shape.strides a.shape)
  have hself := Shape.map_getD_range idx
  rw [length_strides] at hstrides
  rw [hlength] at hself
  rw [hstrides, hself, offset_strides]

/-! ### Functions of lanes and blocks -/

/-- A function applied to every lane along an axis, read at `p ++ j :: q`: the
    lane is what stands at `p ++ j' :: q` for every `j'`. -/
theorem get_mapLanes (f : List α → List α) (a : DenseArray α) {pre post : Shape} {n : Nat}
    (hs : a.shape = pre ++ n :: post) {p q : Index} {j : Nat} (hp : Shape.Within p pre)
    (hj : j < n) (hq : Shape.Within q post) :
    (a.mapLanes f pre.length).get (p ++ j :: q)
      = (f ((List.range n).map fun j' => a.get (p ++ j' :: q))).getD j default := by
  have hposition : ∀ j', a.shape.ravel (p ++ j' :: q)
      = (pre.ravel p * n + j') * post.size + post.ravel q := by
    intro j'
    rw [hs, Shape.ravel_append _ _ _ _ (Shape.within_length hp)]
    simp only [Shape.ravel, Shape.size_cons]
    ring
  have hinner : post.ravel q < post.size := Shape.ravel_lt hq
  have houter : pre.ravel p < pre.size := Shape.ravel_lt hp
  have hwithin : Shape.Within (p ++ j :: q) a.shape := by
    rw [hs]
    exact Shape.within_append hp ⟨hj, hq⟩
  -- What the operation reads off the shape: the lane, the blocks after it and before it.
  have hlength : a.shape.getD pre.length 1 = n := by simp [hs]
  have htail : Shape.size (a.shape.drop (pre.length + 1)) = post.size := by
    rw [hs, ← List.drop_drop, List.drop_left, List.drop_one, List.tail_cons]
  have hhead : Shape.size (a.shape.take pre.length) = pre.size := by simp [hs]
  rw [mapLanes, get_generate _ _ hwithin, hposition, hlength, htail, hhead]
  have hnumber : pre.ravel p * post.size + post.ravel q < pre.size * post.size :=
    Shape.fold_lt houter hinner
  have hread : ∀ j', a.item ((pre.ravel p * n + j') * post.size + post.ravel q)
      = a.get (p ++ j' :: q) := by
    intro j'
    rw [get_eq_item, hposition]
  -- The position falls apart into the lane and the place within it.
  simp only [Shape.div_block hinner, Shape.mod_block hinner, Shape.div_block hj,
    Shape.mod_block hj]
  simp [hnumber, Shape.div_block hinner, Shape.mod_block hinner, lane, hread]

/-- Flagged blocks overwritten, read at `p ++ r`: the flag is the one for `p`. -/
theorem get_fillBlocks (a : DenseArray α) (flags : Array Bool) (value : α) {lead tail : Shape}
    (hs : a.shape = lead ++ tail) {p r : Index} (hp : Shape.Within p lead)
    (hr : Shape.Within r tail) :
    (a.fillBlocks flags tail.size value).get (p ++ r)
      = if flags.getD (lead.ravel p) false then value else a.get (p ++ r) := by
  have hblock : tail.ravel r < tail.size := Shape.ravel_lt hr
  have hposition : a.shape.ravel (p ++ r) = lead.ravel p * tail.size + tail.ravel r := by
    rw [hs, Shape.ravel_append _ _ _ _ (Shape.within_length hp)]
  have hwithin : Shape.Within (p ++ r) a.shape := by
    rw [hs]
    exact Shape.within_append hp hr
  have hlt : lead.ravel p * tail.size + tail.ravel r < a.data.size := by
    rw [a.size_data, ← hposition]
    exact Shape.ravel_lt hwithin
  -- The number of the block is the position of the leading part.
  simp only [get, fillBlocks, hposition]
  simp [hlt, Shape.div_block hblock]

/-! ### Combining two arrays -/

theorem get_zipBroadcast (op : α → α → α) (a b : DenseArray α) (s : Shape) {idx : Index}
    (h : Shape.Within idx s) :
    (zipBroadcast op a b s).get idx
      = op (a.get (Shape.project a.shape idx)) (b.get (Shape.project b.shape idx)) := by
  rw [zipBroadcast, get_generate _ _ h, Shape.unravel_ravel h]

end Reading

section Products

variable [Inhabited α] [Zero α] [Add α] [Mul α]

theorem get_matmul (a b : DenseArray α) {m k n i j : Nat} (ha : a.shape = [m, k])
    (hb : b.shape = [k, n]) (hi : i < m) (hj : j < n) :
    (matmul m k n a b).get [i, j] = sumRange k fun l => a.get [i, l] * b.get [l, j] := by
  have hwithin : Shape.Within [i, j] [m, n] := by simp [hi, hj]
  rw [matmul, get_generate _ _ hwithin]
  simp only [get_eq_item, ha, hb, Shape.ravel, Shape.size_cons, Shape.size_nil, Nat.mul_one,
    Nat.add_zero, Shape.div_block hj, Shape.mod_block hj]

theorem get_bmm (a b : DenseArray α) {batch m k n p i j : Nat} (ha : a.shape = [batch, m, k])
    (hb : b.shape = [batch, k, n]) (hp : p < batch) (hi : i < m) (hj : j < n) :
    (bmm batch m k n a b).get [p, i, j]
      = sumRange k fun l => a.get [p, i, l] * b.get [p, l, j] := by
  have hwithin : Shape.Within [p, i, j] [batch, m, n] := by simp [hp, hi, hj]
  -- All matrices of a stack lie behind each other, so their rows can be counted through.
  have hposition : p * (m * n) + (i * n + j) = (p * m + i) * n + j := by ring
  have hleft : ∀ l, p * (m * k) + (i * k + l) = (p * m + i) * k + l := fun l => by ring
  have hright : ∀ l, p * (k * n) + (l * n + j) = (p * k + l) * n + j := fun l => by ring
  rw [bmm, get_generate _ _ hwithin]
  simp only [get_eq_item, ha, hb, Shape.ravel, Shape.size_cons, Shape.size_nil, Nat.mul_one,
    Nat.add_zero, hposition, Shape.div_block hj, Shape.mod_block hj, Shape.div_block hi, hleft,
    hright]

end Products

end DenseArray

end GraphAttention
