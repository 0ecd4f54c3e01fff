import GraphAttention.Proofs.Reordering
import GraphAttention.Proofs.Softmax

/-!
# Softmax Lane by Lane

A lane along an axis is what stays in place when all other coordinates are held. In the
buffer the elements of a lane lie apart from each other, as far as the axes after it are
long, and a reordering of the axes changes how far this is. Here a lane is given by an index
that it passes through, so that none of this is seen: `laneThrough` moves one coordinate of
the index over the length of its axis.

An entry of a softmax depends on the lane through its index and on its place in it. Both
laws below follow from this alone. What is outside of the lane is not read, so it may be
anything, infinite or not a number. And a reordering carries lanes to lanes, those along
axis `axes[a]` to those along axis `a`, so it does not matter on which side of a reordering
the softmax is taken.

The axis is looked at first and the kind of the elements only after it.

## Main definitions

* `Shape.SameLane`: Two indices differ along one axis at most.
* `Tensor.laneThrough`: The lane along an axis that passes through an index.

## Theorems

* `Shape.reorder_set`: One coordinate replaced, in any order of the axes.
* `Tensor.softmax_entries`: The entries of a softmax along any axis.
* `Tensor.laneThrough_permute`: Lanes after a reordering.
* `Tensor.softmax_permute`: Softmax and reordering exchanged.
* `Tensor.softmax_lane_laws`: What a softmax does, lane by lane.
-/

namespace GraphAttention

namespace Shape

variable {s : Shape} {idx : Index} {axis j : Nat}

/-- Two indices that differ in the coordinate for one axis at most. -/
def SameLane (axis : Nat) (idx idx' : Index) : Prop :=
  ∀ k, k ≠ axis → idx.getD k 0 = idx'.getD k 0

theorem getD_set (xs : List Nat) {b k : Nat} (hb : b < xs.length) :
    (xs.set b j).getD k 0 = if k = b then j else xs.getD k 0 := by
  rcases eq_or_ne k b with rfl | hne
  · simp [List.getD_eq_getElem?_getD, List.getElem?_set_self hb]
  · rw [if_neg hne, List.getD_eq_getElem?_getD, List.getElem?_set_ne hne.symm,
      List.getD_eq_getElem?_getD]

theorem sameLane_set (haxis : axis < idx.length) : SameLane axis idx (idx.set axis j) := by
  intro k hk
  rw [getD_set idx haxis, if_neg hk]

theorem SameLane.trans {idx₁ idx₂ idx₃ : Index} (h : SameLane axis idx₁ idx₂)
    (h' : SameLane axis idx₂ idx₃) : SameLane axis idx₁ idx₃ :=
  fun k hk => (h k hk).trans (h' k hk)

/-- An index may be moved along an axis as far as the axis is long. -/
theorem within_set (h : Within idx s) (hj : j < s.getD axis 0) :
    Within (idx.set axis j) s := by
  have hlength := within_length h
  refine within_of_getD (by rw [List.length_set, hlength]) fun k hk => ?_
  by_cases haxis : axis < idx.length
  · rw [getD_set idx haxis]
    split_ifs with hk'
    · rwa [hk']
    · exact within_getD h hk
  · rw [List.set_eq_of_length_le (Nat.not_lt.mp haxis)]
    exact within_getD h hk

/-- The coordinate for axis `axes[a]` is the coordinate `a` in another order of the axes. -/
theorem reorder_set {axes : List Nat} {a : Nat} (hnodup : axes.Nodup) (ha : a < axes.length)
    (hb : axes.getD a 0 < idx.length) :
    reorder axes (idx.set (axes.getD a 0) j) = (reorder axes idx).set a j := by
  refine List.ext_getElem (by simp) fun k hk _ => ?_
  have hk : k < axes.length := by simpa using hk
  have hsame : axes.getD k 0 = axes.getD a 0 ↔ a = k := by
    rw [List.getD_eq_getElem _ _ hk, List.getD_eq_getElem _ _ ha, hnodup.getElem_inj_iff]
    exact eq_comm
  rw [← List.getD_eq_getElem _ 0, getD_reorder hk, getD_set idx hb, List.getElem_set]
  simp only [hsame]
  split_ifs
  · rfl
  · rw [← List.getD_eq_getElem _ 0, getD_reorder hk]

end Shape

namespace Tensor

variable {d : DType} {t u : Tensor} {s : Shape} {axis : Nat}

/-- The lane along an axis that passes through an index. -/
def laneThrough (t : Tensor) (d : DType) (axis : Nat) (idx : Index) : List d.Elem :=
  (List.range (t.shape.getD axis 0)).map fun j => t.entry d (idx.set axis j)

/-- A lane through an index that is cut around the axis. -/
theorem laneThrough_append {pre post : Shape} {n j : Nat} {p q : Index}
    (ht : t.Matches d (pre ++ n :: post)) (hp : p.length = pre.length) :
    t.laneThrough d pre.length (p ++ j :: q) = t.laneAt d n p q := by
  simp [laneThrough, laneAt, ht.shape, ← hp]

/-- The softmax of a tensor of a floating kind succeeds along every axis, and an entry of it
    is found in the softmax of the lane through its index. -/
theorem softmax_entries (hd : d.isFloat = true) (ht : t.Matches d s) (haxis : axis < s.length) :
    ∃ r, t.softmax axis = .ok r ∧ r.Matches d s ∧
      ∀ idx, Shape.Within idx s → r.entry d idx
        = (d.softmaxLane (t.laneThrough d axis idx)).getD (idx.getD axis 0) default := by
  obtain ⟨pre, n, post, rfl, rfl⟩ : ∃ pre n post, s = pre ++ n :: post ∧ pre.length = axis :=
    ⟨s.take axis, s[axis], s.drop (axis + 1), by simp, by simp; omega⟩
  rcases softmax_ok hd pre post ht with ⟨r, hr, hM, hE⟩
  refine ⟨r, hr, hM, fun idx hidx => ?_⟩
  -- The index is cut around the axis, which is where the lane moves it.
  rcases Shape.within_split hidx with ⟨p, rest, rfl, hp, hrest⟩
  rcases rest with _ | ⟨j, q⟩
  · exact hrest.elim
  have hlength := Shape.within_length hp
  have hplace : (p ++ j :: q).getD pre.length 0 = j := by simp [← hlength]
  rw [laneThrough_append ht hlength, hplace]
  exact hE p j q hp hrest.1 hrest.2

/-- A reordering carries the lanes along axis `axes[a]` to those along axis `a`. -/
theorem laneThrough_permute {axes : List Nat} {a : Nat} (ht : t.Matches d s)
    (hu : t.permute axes = .ok u) (ha : a < s.length) {idx : Index} (hidx : Shape.Within idx s) :
    u.laneThrough d a (Shape.reorder axes idx) = t.laneThrough d (axes.getD a 0) idx := by
  rcases entries_of_permute ht hu with ⟨hp, hM, hE⟩
  have hlength := Shape.length_of_perm hp
  have ha' : a < axes.length := hlength ▸ ha
  have hb := Shape.getD_lt_of_perm hp ha
  rw [laneThrough, laneThrough, hM.shape, ht.shape, Shape.getD_reorder ha']
  refine List.map_congr_left fun j hj => ?_
  have hb' : axes.getD a 0 < idx.length := by rwa [Shape.within_length hidx]
  rw [← Shape.reorder_set (Shape.nodup_of_perm hp) ha' hb']
  exact hE _ (Shape.within_set hidx (List.mem_range.mp hj))

/-- A softmax may be taken before a reordering or after it, along the axis that has moved. -/
theorem softmax_permute {axes : List Nat} {a : Nat} (hd : d.isFloat = true)
    (ht : t.Matches d s) (hp : axes.Perm (List.range s.length)) (ha : a < s.length) :
    ∃ r, (t.softmax (axes.getD a 0) >>= fun v => v.permute axes) = .ok r ∧
      (t.permute axes >>= fun u => u.softmax a) = .ok r := by
  have hlength := Shape.length_of_perm hp
  have ha' : a < axes.length := hlength ▸ ha
  have hb := Shape.getD_lt_of_perm hp ha
  rcases softmax_entries hd ht hb with ⟨v, hv, hvM, hvE⟩
  rcases permute_entries hvM hp with ⟨r, hr, hrM, hrE⟩
  rcases permute_entries ht hp with ⟨u, hu, huM, -⟩
  have haxis : a < (Shape.reorder axes s).length := by rwa [Shape.length_reorder]
  rcases softmax_entries hd huM haxis with ⟨w, hw, hwM, hwE⟩
  have hself : w = r := by
    refine ext_reordered hp hwM hrM fun idx hidx => ?_
    rw [hwE _ (Shape.within_reordered hidx (Shape.lt_of_perm hp)), hrE idx hidx, hvE idx hidx,
      laneThrough_permute ht hu ha hidx, Shape.getD_reorder ha']
  refine ⟨r, ?_, ?_⟩
  · rw [hv]
    exact hr
  · rw [hu, ← hself]
    exact hw

/-- Tensors that agree on a lane have the same lane through each of its indices. -/
theorem laneThrough_congr (ht : t.Matches d s) (hu : u.Matches d s) {idx : Index}
    (hidx : Shape.Within idx s) (haxis : axis < s.length)
    (h : ∀ idx', Shape.Within idx' s → Shape.SameLane axis idx idx' →
      t.entry d idx' = u.entry d idx') :
    t.laneThrough d axis idx = u.laneThrough d axis idx := by
  rw [laneThrough, laneThrough, ht.shape, hu.shape]
  refine List.map_congr_left fun j hj => ?_
  exact h _ (Shape.within_set hidx (List.mem_range.mp hj))
    (Shape.sameLane_set (Shape.within_length hidx ▸ haxis))

/-- What is outside of a lane does not change what a softmax makes of the lane. -/
theorem softmax_agree (hd : d.isFloat = true) (ht : t.Matches d s) (hu : u.Matches d s)
    (haxis : axis < s.length) {idx : Index}
    (h : ∀ idx', Shape.Within idx' s → Shape.SameLane axis idx idx' →
      t.entry d idx' = u.entry d idx') :
    ∃ v w, t.softmax axis = .ok v ∧ u.softmax axis = .ok w ∧
      ∀ idx', Shape.Within idx' s → Shape.SameLane axis idx idx' →
        v.entry d idx' = w.entry d idx' := by
  rcases softmax_entries hd ht haxis with ⟨v, hv, -, hvE⟩
  rcases softmax_entries hd hu haxis with ⟨w, hw, -, hwE⟩
  refine ⟨v, w, hv, hw, fun idx' hidx' hlane => ?_⟩
  rw [hvE idx' hidx', hwE idx' hidx',
    laneThrough_congr ht hu hidx' haxis fun k hk hk' => h k hk (hlane.trans hk')]

theorem softmax_invalidAxis (h : t.rank ≤ axis) :
    t.softmax axis = .error (.invalidAxis axis t.rank) :=
  if_pos h

theorem softmax_invalidKind (hd : t.dtype.isFloat = false) (h : axis < t.rank) :
    t.softmax axis = .error (.invalidOperation .softmaxKind) := by
  unfold softmax
  rw [if_neg (Nat.not_le.mpr h)]
  rcases t with ⟨d, a, room⟩
  cases d with
  | float32 => cases hd
  | float64 => cases hd
  | int64 => rfl
  | uint8 => rfl

/-- A softmax acts on lanes. An axis that a tensor does not have is refused before its kind
    is. For a floating kind each entry is found in the softmax of the lane through its index;
    a softmax along axis `axes[a]` and a reordering after it come to the same as the
    reordering and a softmax along axis `a`; and tensors that agree on one lane along an axis
    have results that agree on it, whatever they have elsewhere. -/
theorem softmax_lane_laws (t : Tensor) :
    (∀ axis, t.rank ≤ axis → t.softmax axis = .error (.invalidAxis axis t.rank)) ∧
    (∀ axis, axis < t.rank → t.dtype.isFloat = false →
      t.softmax axis = .error (.invalidOperation .softmaxKind)) ∧
    (t.dtype.isFloat = true →
      (∀ axis, axis < t.rank → ∃ r, t.softmax axis = .ok r ∧ r.Matches t.dtype t.shape ∧
        ∀ idx, Shape.Within idx t.shape → r.entry t.dtype idx
          = (t.dtype.softmaxLane (t.laneThrough t.dtype axis idx)).getD (idx.getD axis 0)
            default) ∧
      (∀ axes a, axes.Perm (List.range t.rank) → a < t.rank →
        ∃ r, (t.softmax (axes.getD a 0) >>= fun v => v.permute axes) = .ok r ∧
          (t.permute axes >>= fun u => u.softmax a) = .ok r) ∧
      ∀ (u : Tensor) axis idx, u.Matches t.dtype t.shape → axis < t.rank →
        (∀ idx', Shape.Within idx' t.shape → Shape.SameLane axis idx idx' →
          t.entry t.dtype idx' = u.entry t.dtype idx') →
        ∃ v w, t.softmax axis = .ok v ∧ u.softmax axis = .ok w ∧
          ∀ idx', Shape.Within idx' t.shape → Shape.SameLane axis idx idx' →
            v.entry t.dtype idx' = w.entry t.dtype idx') := by
  have hself : t.Matches t.dtype t.shape := ⟨rfl, rfl⟩
  refine ⟨fun axis h => softmax_invalidAxis h, fun axis h hd => softmax_invalidKind hd h,
    fun hd => ⟨?_, ?_, ?_⟩⟩
  · exact fun axis haxis => softmax_entries hd hself haxis
  · exact fun axes a hp ha => softmax_permute hd hself hp ha
  · exact fun u axis idx hu haxis hagree => softmax_agree hd hself hu haxis hagree

/-- Three axes rotated, and a lane beside which one element is no number. -/
theorem softmax_lane_laws_rotated :
    ∃ t u r v w : Tensor, t.Matches .float64 [2, 3, 2] ∧ u.Matches .float64 [2, 3, 2] ∧
      (t.softmax 2 >>= fun v => v.permute [2, 0, 1]) = .ok r ∧
      (t.permute [2, 0, 1] >>= fun u => u.softmax 0) = .ok r ∧
      t.entry .float64 [0, 0, 0] ≠ u.entry .float64 [0, 0, 0] ∧
      t.softmax 1 = .ok v ∧ u.softmax 1 = .ok w ∧
      v.entry .float64 [1, 2, 0] = w.entry .float64 [1, 2, 0] ∧
      t.softmax 3 = .error (.invalidAxis 3 3) := by
  let t : Tensor := ⟨.float64, .generate [2, 3, 2] fun k => ⟨.ofNat k⟩, by decide⟩
  let u : Tensor := ⟨.float64, .generate [2, 3, 2] fun k =>
    if k = 0 then ⟨0x7ff8000000000000⟩ else ⟨.ofNat k⟩, by decide⟩
  rcases softmax_lane_laws t with ⟨haxis, -, hlaws⟩
  rcases hlaws rfl with ⟨-, hreorder, hlane⟩
  rcases hreorder [2, 0, 1] 0 (by decide) (by decide) with ⟨r, hr, hr'⟩
  have hagree : ∀ idx, Shape.Within idx [2, 3, 2] → Shape.SameLane 1 [1, 2, 0] idx →
      t.entry .float64 idx = u.entry .float64 idx := by
    intro idx hidx hsame
    obtain ⟨i, j, k, rfl⟩ : ∃ i j k, idx = [i, j, k] :=
      List.length_eq_three.mp (Shape.within_length hidx)
    have hi : 1 = i := hsame 0 (by decide)
    have hk : 0 = k := hsame 2 (by decide)
    subst hi hk
    have hj : j < 3 := hidx.2.1
    obtain rfl | rfl | rfl : j = 0 ∨ j = 1 ∨ j = 2 := by omega
    all_goals decide +kernel
  rcases hlane u 1 [1, 2, 0] ⟨rfl, rfl⟩ (by decide) hagree with ⟨v, w, hv, hw, hsame⟩
  exact ⟨t, u, r, v, w, ⟨rfl, rfl⟩, ⟨rfl, rfl⟩, hr, hr', by decide +kernel, hv, hw,
    hsame [1, 2, 0] (by decide) fun _ _ => rfl, haxis 3 (by decide)⟩

end Tensor

end GraphAttention
