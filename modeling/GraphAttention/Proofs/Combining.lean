import GraphAttention.Proofs.Broadcasting

/-!
# Sums and Products Element by Element

Two tensors of one kind are added or multiplied over their common shape. An element of the
result comes from one element of each, and where these stand is a matter of the index and of
one shape at a time: `ReadAt` keeps the last coordinates of the index, as many as the operand
has axes, and puts zero wherever the operand has an axis of length one. What the other
operand looks like does not enter, so both may be stretched at once, along the same axes of
the result or along different ones.

That this is always an index of the operand is where alignment matters. A length that is not
one is the length of the axis of the result that stands in the same place from the end, and
a coordinate is in range there if and only if it is in range here.

The kinds are compared before the shapes, and room for the result is asked for last. The
room is a condition of its own. Two operands without elements may have a common shape that
no buffer can have, since every length counts for it that is not zero. Nothing looks for
that before the buffer is made, so it ends the work and is not reported.

## Main definitions

* `Shape.ReadAt`: Where an operand is read for an index of the result.
* `Tensor.MadeOf`: Elements made of the elements of two tensors.
* `Tensor.CombinesTo`: What becomes of two tensors that are combined.

## Theorems

* `Shape.ReadAt.eq_project`: There is one such place.
* `Shape.Stretches.within`: It lies within the operand.
* `Tensor.combine_madeOf`, `Tensor.combine_ok_iff`: When there is a result, and its elements.
* `Tensor.combinesTo_combine`: All outcomes, for any operation on elements.
* `Tensor.add_mul_elementwise`: Sums and products.
* `Tensor.not_forall_add_ok`: A common shape does not mean that there is a sum.
-/

namespace GraphAttention

namespace Shape

variable {s r : Shape} {idx src : Index}

/-- The place where an operand of shape `s` is read for an index of the result: its
    coordinates are the last ones of the index, with zero along axes of length one. -/
structure ReadAt (s : Shape) (idx src : Index) : Prop where
  length : src.length = s.length
  coordinate : ∀ k, k < s.length →
    src.getD k 0 = if s.getD k 0 = 1 then 0 else idx.getD (idx.length - s.length + k) 0

theorem readAt_project (h : s.length ≤ idx.length) : ReadAt s idx (project s idx) := by
  have hdrop : (idx.drop (idx.length - s.length)).length = s.length := by
    rw [List.length_drop]
    omega
  constructor
  · rw [project, List.length_zipWith, hdrop, Nat.min_self]
  · intro k hk
    have hk' : idx.length - s.length + k < idx.length := by omega
    have hread : k < (project s idx).length := by
      rw [project, List.length_zipWith, hdrop, Nat.min_self]
      exact hk
    rw [List.getD_eq_getElem _ _ hread, List.getD_eq_getElem _ _ hk, List.getD_eq_getElem _ _ hk']
    simp only [project, List.getElem_zipWith, List.getElem_drop]

/-- The conditions leave no choice. -/
theorem ReadAt.eq_project (h : ReadAt s idx src) (hrank : s.length ≤ idx.length) :
    src = project s idx := by
  have hproject := readAt_project hrank
  refine List.ext_getElem (h.length.trans hproject.length.symm) fun k hk hk' => ?_
  have hks : k < s.length := h.length ▸ hk
  have hread := (h.coordinate k hks).trans (hproject.coordinate k hks).symm
  rwa [List.getD_eq_getElem _ _ hk, List.getD_eq_getElem _ _ hk'] at hread

theorem lengthAt_eq_getD {k : Nat} (h : k < s.length) :
    s.lengthAt (s.length - 1 - k) = s.getD k 0 := by
  have hlast : s.length - 1 - k < s.reverse.length := by
    rw [List.length_reverse]
    omega
  have hplace : s.length - 1 - (s.length - 1 - k) = k := by omega
  rw [lengthAt, List.getD_eq_getElem _ _ hlast, List.getElem_reverse, List.getD_eq_getElem _ _ h]
  simp only [hplace]

/-- Axes that are aligned have the same number when counted from the last one. -/
theorem Stretches.aligned (h : Stretches s r) {k : Nat} (hk : k < s.length) :
    s.getD k 0 = 1 ∨ s.getD k 0 = r.getD (r.length - s.length + k) 0 := by
  have hlength := h.1
  have hplace : r.length - s.length + k < r.length := by omega
  have hnumber : r.length - 1 - (r.length - s.length + k) = s.length - 1 - k := by omega
  rw [← lengthAt_eq_getD hk, ← lengthAt_eq_getD hplace, hnumber]
  exact h.2 _

/-- For an index of a shape to which an operand can be stretched, the operand is read
    within its own shape. -/
theorem Stretches.within (h : Stretches s r) (hidx : Within idx r) (hsrc : ReadAt s idx src) :
    Within src s := by
  have hrank : idx.length = r.length := within_length hidx
  refine within_of_getD hsrc.length fun k hk => ?_
  rw [hsrc.coordinate k hk]
  by_cases hone : s.getD k 0 = 1
  · rw [if_pos hone, hone]
    exact Nat.one_pos
  · have hlength := h.1
    have hplace : r.length - s.length + k < r.length := by omega
    rw [if_neg hone, hrank, (h.aligned hk).resolve_left hone]
    exact within_getD hidx hplace

end Shape

namespace Tensor

variable {op : (d : DType) → d.Elem → d.Elem → d.Elem} {a b r : Tensor} {s : Shape}

/-- Each element of `r` is made of the elements at the two places that its index names. -/
def MadeOf (op : (d : DType) → d.Elem → d.Elem → d.Elem) (a b r : Tensor) : Prop :=
  ∀ idx, Shape.Within idx r.shape → ∃ i j,
    a.shape.ReadAt idx i ∧ Shape.Within i a.shape ∧
    b.shape.ReadAt idx j ∧ Shape.Within j b.shape ∧
    r.entry a.dtype idx = op a.dtype (a.entry a.dtype i) (b.entry a.dtype j)

/-- What becomes of two tensors when their elements are combined: the refusals in the order
    of the checks, when there is a result, and what it is. -/
structure CombinesTo (op : (d : DType) → d.Elem → d.Elem → d.Elem) (a b : Tensor)
    (outcome : Except TensorError Tensor) : Prop where
  /-- Tensors of two kinds are refused, whatever their shapes. -/
  kind : b.dtype ≠ a.dtype → outcome = .error (.typeMismatch a.dtype b.dtype)
  /-- Shapes without a common one are refused next. -/
  shapes : b.dtype = a.dtype → ∀ e, broadcastShape a.shape b.shape = .error e →
    outcome = .error e
  /-- A common shape that no buffer can have is refused last. -/
  room : b.dtype = a.dtype → ∀ s, broadcastShape a.shape b.shape = .ok s →
    ¬ Shape.Allocatable a.dtype.width s → outcome = .error (.unaddressable s)
  /-- Nothing else is refused. -/
  succeeds_iff : (∃ r, outcome = .ok r) ↔ b.dtype = a.dtype ∧
    ∃ s, broadcastShape a.shape b.shape = .ok s ∧ Shape.Allocatable a.dtype.width s
  /-- The result has the kind of both and the common shape, and its elements are made of
      theirs. -/
  result : ∀ r, outcome = .ok r → r.dtype = a.dtype ∧
    broadcastShape a.shape b.shape = .ok r.shape ∧ MadeOf op a b r

theorem combine_kind (h : b.dtype ≠ a.dtype) :
    combine op a b = .error (.typeMismatch a.dtype b.dtype) := by
  rw [combine, elements_error h]
  rfl

/-- Behind the check of the kinds the shapes decide, and then the room. -/
theorem combine_shapes (op : (d : DType) → d.Elem → d.Elem → d.Elem)
    (h : b.dtype = a.dtype) :
    ∃ other, combine op a b = (do
      let s ← broadcastShape a.shape b.shape
      let room ← ensureAllocatable a.dtype s
      return ⟨a.dtype, a.array.zipBroadcast (op a.dtype) other s, room.down⟩) := by
  refine ⟨h ▸ b.array, ?_⟩
  have helements : b.elements a.dtype = .ok (h ▸ b.array) := dif_pos h
  rw [combine, helements]
  rfl

theorem combine_incompatible (h : b.dtype = a.dtype) {e : TensorError}
    (hshape : broadcastShape a.shape b.shape = .error e) : combine op a b = .error e := by
  rcases combine_shapes op h with ⟨other, hcombine⟩
  rw [hcombine, hshape]
  rfl

theorem combine_roomless (h : b.dtype = a.dtype)
    (hshape : broadcastShape a.shape b.shape = .ok s)
    (hroom : ¬ Shape.Allocatable a.dtype.width s) :
    combine op a b = .error (.unaddressable s) := by
  rcases combine_shapes op h with ⟨other, hcombine⟩
  rw [hcombine, hshape]
  change (ensureAllocatable a.dtype s >>= _) = _
  rw [ensureAllocatable_error hroom]
  rfl

/-- Where there is room for the common shape there is a result. -/
theorem combine_madeOf (op : (d : DType) → d.Elem → d.Elem → d.Elem)
    (h : b.dtype = a.dtype) (hshape : broadcastShape a.shape b.shape = .ok s)
    (room : Shape.Allocatable a.dtype.width s) :
    ∃ r, combine op a b = .ok r ∧ r.Matches a.dtype s ∧ MadeOf op a b r := by
  have hcommon := broadcastShape_eq_ok_iff.mp hshape
  have habove := (Shape.leastAbove_of_broadcast? hcommon).above
  simp only [Shape.above_cons, Shape.above_nil, and_true] at habove
  rcases combine_broadcast_ok op ⟨rfl, rfl⟩ ⟨h, rfl⟩ hcommon room with ⟨r, hr, hM, hE⟩
  refine ⟨r, hr, hM, fun idx hidx => ?_⟩
  rw [hM.shape] at hidx
  -- Both operands can be stretched to the common shape, so both are read within theirs.
  have hrank := Shape.within_length hidx
  have ha : a.shape.ReadAt idx (Shape.project a.shape idx) :=
    Shape.readAt_project (hrank ▸ habove.1.1)
  have hb : b.shape.ReadAt idx (Shape.project b.shape idx) :=
    Shape.readAt_project (hrank ▸ habove.2.1)
  exact ⟨_, _, ha, habove.1.within hidx ha, hb, habove.2.within hidx hb, hE idx hidx⟩

theorem combine_ok_iff : (∃ r, combine op a b = .ok r) ↔ b.dtype = a.dtype ∧
    ∃ s, broadcastShape a.shape b.shape = .ok s ∧ Shape.Allocatable a.dtype.width s := by
  constructor
  · rintro ⟨r, hr⟩
    rcases combine_result hr with ⟨hkind, s, hs, hM⟩
    exact ⟨hkind, s, broadcastShape_eq_ok_iff.mpr hs, hM.room⟩
  · rintro ⟨hkind, s, hs, room⟩
    rcases combine_madeOf op hkind hs room with ⟨r, hr, -⟩
    exact ⟨r, hr⟩

/-- Whatever the operation on elements is, these are the outcomes. -/
theorem combinesTo_combine (op : (d : DType) → d.Elem → d.Elem → d.Elem) (a b : Tensor) :
    CombinesTo op a b (combine op a b) where
  kind := combine_kind
  shapes h _ hshape := combine_incompatible h hshape
  room h _ hshape hroom := combine_roomless h hshape hroom
  succeeds_iff := combine_ok_iff
  result r hr := by
    rcases combine_ok_iff.mp ⟨r, hr⟩ with ⟨hkind, s, hs, room⟩
    rcases combine_madeOf op hkind hs room with ⟨r', hr', hM, hmade⟩
    rw [hr] at hr'
    cases hr'
    exact ⟨hM.dtype, hM.shape ▸ hs, hmade⟩

/-- Sums and products are taken element by element over the common shape. They are refused
    for the kinds, the shapes and the room, in this order, and for nothing else. Want of room
    is fatal, and not an answer like the other two. -/
theorem add_mul_elementwise (a b : Tensor) :
    CombinesTo (fun _ x y => x + y) a b (a.add b) ∧
      CombinesTo (fun _ x y => x * y) a b (a.mul b) :=
  ⟨combinesTo_combine _ a b, combinesTo_combine _ a b⟩

/-- A column and a row are both stretched, each along the axis of the other. -/
example :
    let column : Tensor := ⟨.int64, ⟨[2, 1], #[10, 20], rfl⟩, by decide⟩
    let row : Tensor := ⟨.int64, ⟨[3], #[1, 2, 3], rfl⟩, by decide⟩
    column.add row = .ok ⟨.int64, ⟨[2, 3], #[11, 12, 13, 21, 22, 23], rfl⟩, by decide⟩ := by
  cbv

/-- For a sum it is not enough that the kinds agree and that there is a common shape: without
    elements it may still be one that no buffer can have. -/
theorem not_forall_add_ok :
    ¬ ∀ a b : Tensor, (∃ r, a.add b = .ok r) ↔
      b.dtype = a.dtype ∧ ∃ s, broadcastShape a.shape b.shape = .ok s := by
  intro h
  let a : Tensor := ⟨.float64, .fill [0, 4611686018427387904, 1] 1, by decide⟩
  let b : Tensor := ⟨.float64, .fill [1, 1, 4] 1, by decide⟩
  have hshape : broadcastShape a.shape b.shape = .ok [0, 4611686018427387904, 4] := by decide
  rcases (h a b).mpr ⟨rfl, _, hshape⟩ with ⟨r, hr⟩
  -- The lengths that are not zero multiply to more than a buffer may span.
  rcases combine_ok_iff.mp ⟨r, hr⟩ with ⟨-, s, hs, room⟩
  rw [hshape] at hs
  cases hs
  exact absurd room (by decide)

end Tensor

end GraphAttention
