import GraphAttention.Proofs.Linear
import Mathlib.Data.List.GetD

/-!
# Laws of Layout

An order of the axes is a list that names each axis once, and `reorder` reads any list in
this order: the lengths of a shape, the coordinates of an index, and another order as well.
Reading an order in the order of another is composing the two, so one operation on lists
serves for shapes, indices and composition.

An order and its inverse must not be mistaken for each other. With two axes they are the
same, and with three axes a rotation and its inverse already differ. Here axis `k` of the
result is axis `p[k]` of the argument, so the coordinate that was `p[k]` is now `k`, and the
inverse names for each axis the place at which the order has it.

That two reordered tensors are equal is shown where every index of the result is the
reordering of one: it is enough to compare what stands at reordered indices. No position in
a buffer appears in these laws.

A reshape is the other half. It keeps the elements in row-major order, and this is the order
of the indices, so it is about the tensor as it is now and not about the tensor that it may
have been made of by reordering. For that reason a reshape between two reorderings may not
be moved past them, but one around them that undoes itself may.

## Main definitions

* `Shape.reorder`: A list read in an order of the axes.
* `Shape.inverseAxes`: The order that undoes an order.
* `Tensor.inRowMajor`: The elements by their indices in row-major order.

## Theorems

* `Shape.reorder_reorder`, `Shape.reorder_inverseAxes`: Orders composed and undone.
* `Tensor.permute_entries`, `Tensor.permute_source`: Elements after a reordering.
* `Tensor.permute_permute`, `Tensor.permute_inverse`: Reorderings composed and undone.
* `Tensor.permute_reverse`, `Tensor.transpose_transpose`: Two special orders.
* `Tensor.reshape_inRowMajor`, `Tensor.reshape_back`: What a reshape keeps.
* `Tensor.layout_laws`: All of these for any tensor.
-/

namespace GraphAttention

namespace Shape

variable {axes other xs : List Nat} {rank : Nat}

/-- A list read in the order that a list of axes gives. -/
def reorder (axes xs : List Nat) : List Nat := axes.map fun axis => xs.getD axis 0

/-- The order that undoes another: for each axis the place at which that one names it. -/
def inverseAxes (axes : List Nat) : List Nat := (List.range axes.length).map axes.idxOf

@[simp] theorem length_reorder (axes xs : List Nat) : (reorder axes xs).length = axes.length :=
  List.length_map _

theorem getD_reorder {k : Nat} (hk : k < axes.length) :
    (reorder axes xs).getD k 0 = xs.getD (axes.getD k 0) 0 := by
  simp [reorder, hk]

theorem length_of_perm (h : axes.Perm (List.range rank)) : axes.length = rank := by
  rw [h.length_eq, List.length_range]

theorem lt_of_perm (h : axes.Perm (List.range rank)) : ∀ axis ∈ axes, axis < rank :=
  fun _ hmem => List.mem_range.mp (h.mem_iff.mp hmem)

theorem getD_lt_of_perm (h : axes.Perm (List.range rank)) {k : Nat} (hk : k < rank) :
    axes.getD k 0 < rank := by
  have hk' : k < axes.length := by rwa [length_of_perm h]
  rw [List.getD_eq_getElem _ _ hk']
  exact lt_of_perm h _ (List.getElem_mem hk')

theorem nodup_of_perm (h : axes.Perm (List.range rank)) : axes.Nodup :=
  h.nodup_iff.mpr List.nodup_range

/-! ### Orders composed and undone -/

theorem reorder_range (xs : List Nat) : reorder (List.range xs.length) xs = xs :=
  map_getD_range xs

/-- A list read in one order and then in another is read in the composition of both. -/
theorem reorder_reorder (h : ∀ k ∈ other, k < axes.length) :
    reorder other (reorder axes xs) = reorder (reorder other axes) xs := by
  unfold reorder
  rw [List.map_map]
  refine List.map_congr_left fun k hk => ?_
  exact getD_reorder (h k hk)

theorem reorder_perm (h : axes.Perm (List.range rank)) (h' : other.Perm (List.range rank)) :
    (reorder other axes).Perm (List.range rank) := by
  have hread := h'.map fun axis => axes.getD axis 0
  have hself := map_getD_range axes
  rw [length_of_perm h] at hself
  rw [hself] at hread
  exact hread.trans h

/-- The places at which an order names its own axes, one after another. -/
theorem map_idxOf (h : axes.Nodup) : axes.map axes.idxOf = List.range axes.length := by
  refine List.ext_getElem (by simp) fun k hk _ => ?_
  have hk : k < axes.length := by simpa using hk
  simp [h.idxOf_getElem k hk]

theorem inverseAxes_perm (h : axes.Perm (List.range rank)) :
    (inverseAxes axes).Perm (List.range rank) := by
  have hlength := length_of_perm h
  have hplaces := h.map axes.idxOf
  rw [map_idxOf (nodup_of_perm h), hlength] at hplaces
  rw [inverseAxes, hlength]
  exact hplaces.symm

/-- An order read in the order of its inverse is the order in which the axes are. -/
theorem reorder_inverseAxes (h : axes.Perm (List.range rank)) :
    reorder (inverseAxes axes) axes = List.range rank := by
  rw [reorder, inverseAxes, List.map_map, length_of_perm h]
  refine (List.map_congr_left fun axis haxis => ?_).trans (List.map_id _)
  have hmem : axis ∈ axes := h.mem_iff.mpr haxis
  have hplace : axes.idxOf axis < axes.length := List.idxOf_lt_length_of_mem hmem
  rw [Function.comp_apply, List.getD_eq_getElem _ _ hplace, List.getElem_idxOf, id_eq]

/-- The inverse read in the order is the order in which the axes are as well. -/
theorem inverseAxes_reorder (h : axes.Perm (List.range rank)) :
    reorder axes (inverseAxes axes) = List.range rank := by
  have hlength := length_of_perm h
  rw [← hlength, ← map_idxOf (nodup_of_perm h), reorder]
  refine List.map_congr_left fun axis haxis => ?_
  have hlt : axis < axes.length := by
    rw [hlength]
    exact lt_of_perm h axis haxis
  simp [inverseAxes, hlt]

/-- An index read in an order lies within the shape read in it. -/
theorem within_reordered {s : Shape} {idx : Index} (h : Within idx s)
    (haxes : ∀ axis ∈ axes, axis < s.length) : Within (reorder axes idx) (reorder axes s) :=
  within_reorder h haxes

/-- Every index of a reordered shape is the reordering of an index of the shape. -/
theorem exists_reordered {s : Shape} {idx : Index} (h : axes.Perm (List.range s.length))
    (hidx : Within idx (reorder axes s)) : ∃ src, Within src s ∧ reorder axes src = idx := by
  have hlength : idx.length = s.length := by
    rw [within_length hidx, length_reorder, length_of_perm h]
  have hinverse := inverseAxes_perm h
  refine ⟨reorder (inverseAxes axes) idx, ?_, ?_⟩
  · -- Undoing the order on both sides leaves the shape.
    have hback : Within (reorder (inverseAxes axes) idx)
        (reorder (inverseAxes axes) (reorder axes s)) := by
      refine within_reordered hidx ?_
      rw [length_reorder, length_of_perm h]
      exact lt_of_perm hinverse
    have hshape : reorder (inverseAxes axes) (reorder axes s) = s := by
      rw [reorder_reorder, reorder_inverseAxes h, reorder_range]
      rw [length_of_perm h]
      exact lt_of_perm hinverse
    rwa [hshape] at hback
  · rw [reorder_reorder, inverseAxes_reorder h, ← hlength, reorder_range]
    rw [length_of_perm hinverse]
    exact lt_of_perm h

/-! ### Two axes exchanged -/

theorem getD_swapAxes {a b k : Nat} (hk : k < rank) :
    (swapAxes rank a b).getD k 0 = if k = a then b else if k = b then a else k := by
  simp [swapAxes, hk]

theorem length_swapAxes (rank a b : Nat) : (swapAxes rank a b).length = rank := by
  simp [swapAxes]

/-- Exchanging two axes twice leaves every axis in its place. -/
theorem reorder_swapAxes {a b : Nat} (ha : a < rank) (hb : b < rank) :
    reorder (swapAxes rank a b) (swapAxes rank a b) = List.range rank := by
  refine List.ext_getElem (by simp [length_swapAxes]) fun k hk _ => ?_
  have hlt : k < (swapAxes rank a b).length := by rwa [length_reorder] at hk
  have hk' : k < rank := by rwa [length_swapAxes] at hlt
  have hmoved : (if k = a then b else if k = b then a else k) < rank := by
    split_ifs <;> assumption
  rw [← List.getD_eq_getElem _ 0, getD_reorder hlt, getD_swapAxes hk', getD_swapAxes hmoved,
    List.getElem_range]
  split_ifs <;> omega

theorem swapAxes_perm {a b : Nat} (ha : a < rank) (hb : b < rank) :
    (swapAxes rank a b).Perm (List.range rank) := by
  have hsubset : List.range rank ⊆ swapAxes rank a b := by
    intro k hk
    -- What is exchanged twice is found at the place to which it was moved first.
    rw [← reorder_swapAxes ha hb] at hk
    rcases List.mem_map.mp hk with ⟨axis, haxis, rfl⟩
    have hlt : axis < (swapAxes rank a b).length := by
      rcases List.mem_map.mp haxis with ⟨other, hother, rfl⟩
      have hother := List.mem_range.mp hother
      rw [length_swapAxes]
      split_ifs <;> assumption
    rw [List.getD_eq_getElem _ _ hlt]
    exact List.getElem_mem hlt
  have hlength : (swapAxes rank a b).length ≤ (List.range rank).length := by
    rw [length_swapAxes, List.length_range]
  exact ((List.subperm_of_subset List.nodup_range hsubset).perm_of_length_le hlength).symm

end Shape

namespace Tensor

variable {d : DType} {t u r : Tensor} {s : Shape} {p q : List Nat}

/-! ### Reordering -/

/-- The elements of a tensor with its axes in any order. -/
theorem permute_entries (ht : t.Matches d s) (hp : p.Perm (List.range s.length)) :
    ∃ r, t.permute p = .ok r ∧ r.Matches d (Shape.reorder p s) ∧
      ∀ idx, Shape.Within idx s → r.entry d (Shape.reorder p idx) = t.entry d idx :=
  permute_ok p ht (Shape.checkAxes_of_perm hp)

theorem permute_ok_iff : (∃ r, t.permute p = .ok r) ↔ p.Perm (List.range t.rank) := by
  constructor
  · rintro ⟨r, hr⟩
    exact (permute_result hr).1
  · intro hp
    rcases permute_entries ⟨rfl, rfl⟩ hp with ⟨r, hr, -⟩
    exact ⟨r, hr⟩

/-- What is known of a reordering that has succeeded. -/
theorem entries_of_permute (ht : t.Matches d s) (h : t.permute p = .ok r) :
    p.Perm (List.range s.length) ∧ r.Matches d (Shape.reorder p s) ∧
      ∀ idx, Shape.Within idx s → r.entry d (Shape.reorder p idx) = t.entry d idx := by
  have hp := permute_ok_iff.mp ⟨r, h⟩
  rw [rank, ht.shape] at hp
  rcases permute_entries ht hp with ⟨r', hr', hM, hE⟩
  rw [h] at hr'
  cases hr'
  exact ⟨hp, hM, hE⟩

/-- An element of a reordered tensor was at the index whose coordinate `p[k]` is coordinate
    `k` now. -/
theorem permute_source (ht : t.Matches d s) (h : t.permute p = .ok r) {idx : Index}
    (hidx : Shape.Within idx r.shape) :
    ∃ src, Shape.Within src s ∧
      (∀ k, k < s.length → src.getD (p.getD k 0) 0 = idx.getD k 0) ∧
      r.entry d idx = t.entry d src := by
  rcases entries_of_permute ht h with ⟨hp, hM, hE⟩
  rw [hM.shape] at hidx
  rcases Shape.exists_reordered hp hidx with ⟨src, hsrc, rfl⟩
  refine ⟨src, hsrc, fun k hk => ?_, hE src hsrc⟩
  rw [Shape.getD_reorder (by rwa [Shape.length_of_perm hp])]

/-- Reordered tensors are equal when they agree at reordered indices. -/
theorem ext_reordered (hp : p.Perm (List.range s.length)) (ht : t.Matches d (Shape.reorder p s))
    (hu : u.Matches d (Shape.reorder p s))
    (h : ∀ idx, Shape.Within idx s →
      t.entry d (Shape.reorder p idx) = u.entry d (Shape.reorder p idx)) : t = u := by
  refine ext_entry ht hu fun idx hidx => ?_
  rcases Shape.exists_reordered hp hidx with ⟨src, hsrc, rfl⟩
  exact h src hsrc

/-- A reordering of a reordering is a reordering by both orders composed. -/
theorem permute_permute (h : t.permute p = .ok r) (hq : q.Perm (List.range t.rank)) :
    r.permute q = t.permute (Shape.reorder q p) := by
  rcases entries_of_permute ⟨rfl, rfl⟩ h with ⟨hp, hM, hE⟩
  have hlength : (Shape.reorder p t.shape).length = t.rank := by
    rw [Shape.length_reorder, Shape.length_of_perm hp]
    rfl
  have hrange : ∀ k ∈ q, k < p.length := by
    rw [Shape.length_of_perm hp]
    exact Shape.lt_of_perm hq
  have hboth := Shape.reorder_perm hp hq
  rcases permute_entries hM (hlength ▸ hq) with ⟨v, hv, hvM, hvE⟩
  rcases permute_entries ⟨rfl, rfl⟩ hboth with ⟨w, hw, hwM, hwE⟩
  rw [Shape.reorder_reorder hrange] at hvM
  rw [hv, hw]
  refine congrArg _ (ext_reordered hboth hvM hwM fun idx hidx => ?_)
  have hread := hvE _ (Shape.within_reordered hidx (Shape.lt_of_perm hp))
  rw [hwE idx hidx, ← hE idx hidx, ← hread]
  exact congrArg _ (Shape.reorder_reorder hrange).symm

theorem permute_range (t : Tensor) : t.permute (List.range t.rank) = .ok t := by
  have hrefl := List.Perm.refl (List.range t.shape.length)
  rcases permute_entries ⟨rfl, rfl⟩ hrefl with ⟨r, hr, hM, hE⟩
  rw [Shape.reorder_range] at hM
  refine hr.trans (congrArg _ (ext_entry hM ⟨rfl, rfl⟩ fun idx hidx => ?_))
  rw [← hE idx hidx, ← Shape.within_length hidx, Shape.reorder_range]

/-- The inverse order undoes a reordering. -/
theorem permute_inverse (h : t.permute p = .ok r) :
    r.permute (Shape.inverseAxes p) = .ok t := by
  have hp := permute_ok_iff.mp ⟨r, h⟩
  rw [permute_permute h (Shape.inverseAxes_perm hp), Shape.reorder_inverseAxes hp, permute_range]

theorem permute_reverse (t : Tensor) : t.permute (List.range t.rank).reverse = .ok t.t := by
  rcases permute_ok_iff.mpr (List.reverse_perm (List.range t.rank)) with ⟨r, hr⟩
  rw [hr]
  unfold permute at hr
  split at hr
  · cases hr
  · cases hr
    rfl

/-- Two axes of a tensor are exchanged by the order that exchanges them. -/
theorem transpose_eq_permute {a b : Nat} (ha : a < t.rank) (hb : b < t.rank) :
    t.transpose a b = t.permute (Shape.swapAxes t.rank a b) := by
  unfold transpose
  rw [if_neg (Nat.not_le.mpr ha), if_neg (Nat.not_le.mpr hb)]

theorem transpose_ok_iff {a b : Nat} :
    (∃ r, t.transpose a b = .ok r) ↔ a < t.rank ∧ b < t.rank := by
  constructor
  · rintro ⟨r, hr⟩
    rcases transpose_result hr with ⟨ha, hb, -⟩
    exact ⟨ha, hb⟩
  · rintro ⟨ha, hb⟩
    rw [transpose_eq_permute ha hb]
    exact permute_ok_iff.mpr (Shape.swapAxes_perm ha hb)

/-- An exchange of two axes is undone by another. -/
theorem transpose_transpose {a b : Nat} (h : t.transpose a b = .ok r) :
    r.transpose a b = .ok t := by
  rcases transpose_result h with ⟨ha, hb, hM⟩
  have hrank : r.rank = t.rank := by
    rw [rank, hM.shape, List.length_set, List.length_set]
    rfl
  rw [transpose_eq_permute ha hb] at h
  rw [transpose_eq_permute (hrank ▸ ha) (hrank ▸ hb), hrank,
    permute_permute h (Shape.swapAxes_perm ha hb), Shape.reorder_swapAxes ha hb, permute_range]

/-! ### Reshaping -/

/-- The elements by their indices in row-major order, read at a kind. -/
def inRowMajor (t : Tensor) (d : DType) : List d.Elem :=
  (List.range t.count).map fun k => t.entry d (t.shape.unravel k)

theorem inRowMajor_eq (ht : t.dtype = d) :
    t.inRowMajor d = (List.range t.count).map (t.itemAt d) := by
  refine List.map_congr_left fun k hk => ?_
  rw [entry_eq_itemAt ⟨ht, rfl⟩, Shape.ravel_unravel (List.mem_range.mp hk)]

/-- A reshape keeps the elements in row-major order. -/
theorem reshape_inRowMajor (h : t.reshape s = .ok r) :
    r.inRowMajor t.dtype = t.inRowMajor t.dtype := by
  rcases reshape_result h with ⟨hsize, hM⟩
  have hcount : r.count = t.count := by
    rw [count, hM.shape, hsize]
    rfl
  rw [inRowMajor_eq hM.dtype, inRowMajor_eq rfl, hcount]
  exact List.map_congr_left fun k _ => itemAt_reshape h k

theorem reshape_ok_iff :
    (∃ r, t.reshape s = .ok r) ↔ s.size = t.count ∧ Shape.Addressable s := by
  constructor
  · rintro ⟨r, hr⟩
    rcases reshape_result hr with ⟨hsize, hM⟩
    exact ⟨hsize, hM.room.1⟩
  · rintro ⟨hsize, hspan⟩
    rcases reshape_ok s ⟨rfl, rfl⟩ hsize hspan with ⟨r, hr, -⟩
    exact ⟨r, hr⟩

/-- The shape that a tensor had can be given back to it. -/
theorem reshape_back (h : t.reshape s = .ok r) : r.reshape t.shape = .ok t := by
  rcases reshape_ok t.shape ⟨rfl, rfl⟩ rfl t.room.1 with ⟨v, hv, hM, hE⟩
  have hself : v = t := ext_entry hM ⟨rfl, rfl⟩ fun idx _ => hE idx idx rfl
  rw [reshape_reshape h, hv, hself]

/-! ### All laws -/

/-- What reordering and reshaping do to any tensor. A list of axes is accepted exactly if it
    is an order of them; the element at an index is the one whose coordinate `p[k]` was the
    coordinate `k` of the index; two reorderings are one by the composition of the orders,
    and the inverse order undoes one. All axes in reverse order are such an order, and so are
    two axes exchanged, which undoes itself. A reshape succeeds exactly if the number of elements
    is kept and the shape can be addressed. It keeps the elements in row-major order, another
    one forgets it, and the first shape may be given back after a reordering was undone. -/
theorem layout_laws (t : Tensor) :
    (∀ p, (∃ r, t.permute p = .ok r) ↔ p.Perm (List.range t.rank)) ∧
    (∀ p r, t.permute p = .ok r →
      r.Matches t.dtype (p.map fun axis => t.shape.getD axis 0) ∧
      (∀ idx, Shape.Within idx r.shape → ∃ src, Shape.Within src t.shape ∧
        (∀ k, k < t.rank → src.getD (p.getD k 0) 0 = idx.getD k 0) ∧
        r.entry t.dtype idx = t.entry t.dtype src) ∧
      (∀ q, q.Perm (List.range t.rank) → r.permute q = t.permute (q.map fun k => p.getD k 0)) ∧
      r.permute (Shape.inverseAxes p) = .ok t) ∧
    t.permute (List.range t.rank).reverse = .ok t.t ∧
    (∀ a b, (∃ r, t.transpose a b = .ok r) ↔ a < t.rank ∧ b < t.rank) ∧
    (∀ a b r, t.transpose a b = .ok r →
      t.permute (Shape.swapAxes t.rank a b) = .ok r ∧ r.transpose a b = .ok t) ∧
    (∀ s, (∃ r, t.reshape s = .ok r) ↔ s.size = t.count ∧ Shape.Addressable s) ∧
    ∀ s r, t.reshape s = .ok r →
      r.Matches t.dtype s ∧ r.inRowMajor t.dtype = t.inRowMajor t.dtype ∧
      (∀ s', r.reshape s' = t.reshape s') ∧
      ∀ p, p.Perm (List.range s.length) →
        (r.permute p >>= fun u => u.permute (Shape.inverseAxes p) >>= fun v =>
          v.reshape t.shape) = .ok t := by
  refine ⟨fun p => permute_ok_iff, fun p r hr => ⟨?_, ?_, ?_, ?_⟩, permute_reverse t,
    fun a b => transpose_ok_iff, fun a b r hr => ⟨?_, transpose_transpose hr⟩,
    fun s => reshape_ok_iff, fun s r hr => ⟨?_, ?_, ?_, ?_⟩⟩
  · exact (permute_result hr).2
  · exact fun idx hidx => permute_source ⟨rfl, rfl⟩ hr hidx
  · exact fun q hq => permute_permute hr hq
  · exact permute_inverse hr
  · rcases transpose_ok_iff.mp ⟨r, hr⟩ with ⟨ha, hb⟩
    rw [← transpose_eq_permute ha hb, hr]
  · exact (reshape_result hr).2
  · exact reshape_inRowMajor hr
  · exact reshape_reshape hr
  · intro p hp
    have hrank : r.rank = s.length := congrArg List.length (reshape_result hr).2.shape
    rcases permute_ok_iff.mpr (hrank ▸ hp) with ⟨u, hu⟩
    -- The reordering is undone first, and then the reshape.
    rw [hu]
    change (u.permute _ >>= _) = _
    rw [permute_inverse hu]
    exact reshape_back hr

/-- Three axes rotated: the rotation is not its own inverse, and done twice it is. -/
theorem layout_laws_rotated :
    ∃ t r : Tensor, t.shape = [2, 3, 4] ∧ t.permute [1, 2, 0] = .ok r ∧ r.shape = [3, 4, 2] ∧
      r.entry .int64 [2, 3, 1] = t.entry .int64 [1, 2, 3] ∧
      r.permute [2, 0, 1] = .ok t ∧ r.permute [1, 2, 0] = t.permute [2, 0, 1] := by
  let t : Tensor := ⟨.int64, .generate [2, 3, 4] Int64.ofNat, by decide⟩
  rcases layout_laws t with ⟨hok, hpermuted, -⟩
  rcases (hok [1, 2, 0]).mpr (by decide) with ⟨r, hr⟩
  rcases hpermuted [1, 2, 0] r hr with ⟨hM, hread, htwice, hback⟩
  rcases hread [2, 3, 1] (hM.shape ▸ by decide) with ⟨src, hsrc, hcoordinates, hentry⟩
  refine ⟨t, r, rfl, hr, hM.shape, hentry.trans (congrArg _ ?_), hback,
    htwice [1, 2, 0] (by decide)⟩
  -- The three coordinates of the source are those of the index, each in its old place.
  obtain ⟨i, j, k, rfl⟩ : ∃ i j k, src = [i, j, k] :=
    List.length_eq_three.mp (Shape.within_length hsrc)
  have hj : j = 2 := hcoordinates 0 (by decide)
  have hk : k = 3 := hcoordinates 1 (by decide)
  have hi : i = 1 := hcoordinates 2 (by decide)
  rw [hi, hj, hk]

end Tensor

end GraphAttention
