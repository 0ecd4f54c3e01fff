import GraphAttention.Proofs.Room
import GraphAttention.Tensor.Arithmetic
import GraphAttention.Tensor.Layout

/-!
# Tensors by Their Entries

What an operation on tensors makes of tensors of known kind and shape. Each
theorem says three things at once: that the operation succeeds, what kind and
shape the result has, and what stands at each index. A proof about several
operations in a row then never looks at how one of them is written, and it gets
the success of the whole together with its value.

The kind of a tensor is a value, so an element of it has a type that depends on
the tensor. `Tensor.entry` reads an element at a kind that is named beforehand;
reading at another kind than the tensor's own gives nothing of interest. All
theorems are about reading at the right one.

Two operations exist for the floating kinds only and are defined kind by kind.
`DType.softmaxLane` and `DType.negInf` name their parts for any kind, which lets
one statement cover both.

## Main definitions

* `Tensor.Matches`: A tensor of a kind and a shape.
* `Tensor.entry`: The element at an index, read at a kind.
* `Tensor.nonzeroAt`: Whether the element at an index differs from zero.
* `DType.negInf`, `DType.softmaxLane`: Negative infinity and the softmax of a
  lane, for any kind.

## Theorems

* `Tensor.ext_entry`: Tensors are equal when their entries are.
* `ofElements_eq_ok_iff`, `reshape_eq_ok_iff`: When elements make a tensor, and when it takes
  another shape.
* `reshape_mismatch`, `reshape_refused`: Why it does not.
* `reshape_ok`, `permute_ok`, `transpose_ok`: Entries under another layout.
* `shape_of_reshape`, `shape_of_permute`: Shapes, whatever the argument.
* `combine_broadcast_ok`, `combine_ok`, `combine_column_ok`, `scalarMul_matches`,
  `entry_scalarMul`, `clamp_ok`: Entries combined.
* `matmul_ok`, `matmul_kind`, `bmm_ok`: Entries of products.
* `softmax_ok`, `maskedFill_ok`: Entries of lanes and of masked tensors.
* `maskedFill_congr`: What a mask covers does not matter.
-/

namespace GraphAttention

namespace DType

/-- Negative infinity, and zero where there is none. -/
def negInf : (d : DType) → d.Elem
  | float32 => Binary32.negInf
  | float64 => Binary64.negInf
  | int64 => 0
  | uint8 => 0

/-- The softmax of a lane of a floating kind. -/
def softmaxLane : (d : DType) → List d.Elem → List d.Elem
  | float32, lane => @GraphAttention.softmaxLane Binary32 _ lane
  | float64, lane => @GraphAttention.softmaxLane Binary64 _ lane
  | int64, lane => lane
  | uint8, lane => lane

/-- The quotient of minus one by zero is cast to negative infinity. -/
theorem ofFloat_negInf {d : DType} (h : d.isFloat = true) :
    (Scalar.ofFloat (-1 / 0) : d.Elem) = d.negInf := by
  cases d with
  | float32 => decide +kernel
  | float64 => decide +kernel
  | int64 => cases h
  | uint8 => cases h

end DType

namespace Tensor

/-- A tensor of a kind and a shape. -/
structure Matches (t : Tensor) (d : DType) (s : Shape) : Prop where
  dtype : t.dtype = d
  shape : t.shape = s

/-- The element at an index, read at a kind. -/
def entry (t : Tensor) (d : DType) (idx : Index) : d.Elem :=
  if h : t.dtype = d then (h ▸ t.array : DenseArray d.Elem).get idx else default

/-- Whether the element at an index differs from zero. -/
def nonzeroAt (t : Tensor) (idx : Index) : Bool := Scalar.isNonzero (t.array.get idx)

variable {d : DType} {t u : Tensor} {s : Shape}

@[simp] theorem entry_mk (a : DenseArray d.Elem) (room) (idx : Index) :
    (⟨d, a, room⟩ : Tensor).entry d idx = a.get idx := by
  simp [entry]

@[simp] theorem elements_mk (a : DenseArray d.Elem) (room) :
    (⟨d, a, room⟩ : Tensor).elements d = .ok a := by
  simp [elements]

theorem Matches.room (h : t.Matches d s) : Shape.Allocatable d.width s := by
  rw [← h.dtype, ← h.shape]
  exact t.room

/-- A tensor of a known kind is an array of that kind. -/
theorem Matches.exists_array (h : t.Matches d s) :
    ∃ (a : DenseArray d.Elem) (room : _), t = ⟨d, a, room⟩ ∧ a.shape = s := by
  rcases t with ⟨d', a, room⟩
  obtain rfl : d' = d := h.dtype
  exact ⟨a, room, rfl, h.shape⟩

theorem width_pos (d : DType) : 0 < d.width := by
  cases d <;> decide

/-- A number takes at most eight bytes, whatever its kind. -/
theorem width_le (d : DType) : d.width ≤ 8 := by
  cases d <;> decide

theorem allocatable_width (room : Shape.Allocatable 8 s) : Shape.Allocatable d.width s :=
  ⟨room.1, Nat.le_trans (Nat.mul_le_mul_left _ (width_le d)) room.2⟩

/-- There are no more elements than a buffer can have. -/
theorem count_le (t : Tensor) : t.count ≤ Shape.maxSpan :=
  Nat.le_trans (Nat.le_mul_of_pos_right _ (width_pos t.dtype)) t.room.2

theorem Matches.count_matrix {m n : Nat} (h : t.Matches d [m, n]) : t.count = m * n := by
  rw [count, h.shape, Shape.size_cons, Shape.size_cons, Shape.size_nil, Nat.mul_one]

theorem ensureAllocatable_ok (room : Shape.Allocatable d.width s) :
    ensureAllocatable d s = .ok ⟨room⟩ :=
  dif_pos room

theorem ensureAllocatable_error (hroom : ¬ Shape.Allocatable d.width s) :
    ensureAllocatable d s = .error (.unaddressable s) :=
  dif_neg hroom

theorem ofElements_ok {data : Array d.Elem} (hsize : data.size = s.size)
    (room : Shape.Allocatable d.width s) :
    ofElements d data s = .ok ⟨d, ⟨s, data, hsize⟩, room⟩ := by
  have hcount : ¬ data.size ≠ s.numel := by
    rw [Shape.numel_of_addressable room.1]
    exact not_not.mpr hsize
  rw [ofElements, if_neg hcount, dif_pos ⟨hsize, room⟩]

/-- Elements make a tensor if there are as many as the shape has, and room for them. -/
theorem ofElements_eq_ok_iff {data : Array d.Elem} :
    ofElements d data s = .ok t ↔ ∃ (h : data.size = s.size) (room : Shape.Allocatable d.width s),
      t = ⟨d, ⟨s, data, h⟩, room⟩ := by
  constructor
  · intro h
    unfold ofElements at h
    split_ifs at h with hcount hfits haddressable
    exact ⟨hfits.1, hfits.2, (Except.ok.inj h).symm⟩
  · rintro ⟨h, room, rfl⟩
    exact ofElements_ok h room

/-- One element everywhere. -/
theorem filled_ok (room : Shape.Allocatable d.width s) (x : d.Elem) :
    ∃ t, filled d s x = .ok t ∧ t.Matches d s ∧
      ∀ idx, Shape.Within idx s → t.entry d idx = x := by
  refine ⟨⟨d, .fill s x, room⟩, ?_, ⟨rfl, rfl⟩, fun idx hidx => ?_⟩
  · rw [filled, ensureAllocatable_ok room]
    rfl
  · have hlt := Shape.ravel_lt hidx
    refine (entry_mk (.fill s x) room idx).trans ?_
    simp [DenseArray.get, DenseArray.fill, hlt]

theorem ensureShape_ok (h : t.shape = s) : t.ensureShape s = .ok () :=
  if_pos h

theorem ensureShape_error (h : t.shape ≠ s) :
    t.ensureShape s = .error (.shapeMismatch s t.shape) :=
  if_neg h

theorem elements_error (h : t.dtype ≠ d) : t.elements d = .error (.typeMismatch d t.dtype) :=
  dif_neg h

/-- Tensors of one kind and shape are equal when their entries are. -/
theorem ext_entry (ht : t.Matches d s) (hu : u.Matches d s)
    (h : ∀ idx, Shape.Within idx s → t.entry d idx = u.entry d idx) : t = u := by
  rcases ht.exists_array with ⟨a, ra, rfl, ha⟩
  rcases hu.exists_array with ⟨b, rb, rfl, hb⟩
  -- With both kinds known the entries are those of two arrays.
  have hab : a = b := by
    refine DenseArray.ext_get (ha.trans hb.symm) fun idx hidx => ?_
    simpa only [entry_mk] using h idx (ha ▸ hidx)
  subst hab
  rfl

/-! ### Layout -/

/-- A tensor takes another shape if this has as many elements and can be addressed. -/
theorem reshape_eq_ok_iff {s' : Shape} {r : Tensor} : t.reshape s' = .ok r ↔
    ∃ (h : s'.size = t.array.shape.size) (hspan : Shape.Addressable s'),
      r = ⟨t.dtype, t.array.withShape s' h, hspan, (Shape.fits_congr h).mpr t.room.2⟩ := by
  unfold reshape
  constructor
  · intro h
    split_ifs at h with hcount hfits
    exact ⟨hfits.1, hfits.2, (Except.ok.inj h).symm⟩
  · rintro ⟨h, hspan, rfl⟩
    have hcount : ¬ s'.numel ≠ t.count := by
      rw [Shape.numel_of_addressable hspan]
      exact not_not.mpr h
    rw [if_neg hcount, dif_pos ⟨h, hspan⟩]

/-- A shape that is counted to have another number of elements is refused for that. -/
theorem reshape_mismatch {s' : Shape} (hcount : s'.numel ≠ t.count) :
    t.reshape s' = .error (.shapeMismatch [t.count] s') :=
  if_pos hcount

/-- A shape that is counted to have as many elements may still not be one for them. -/
theorem reshape_refused {s' : Shape} (hcount : s'.numel = t.count)
    (h : ¬ (s'.size = t.count ∧ Shape.Addressable s')) :
    t.reshape s' = .error (.invalidOperation .spanIncompatible) := by
  rw [reshape, if_neg (not_not.mpr hcount)]
  exact dif_neg h

/-- The elements of a tensor are counted right, whatever shape they are counted by. -/
theorem numel_of_size {s' : Shape} (hsize : s'.size = t.count) : s'.numel = t.count := by
  rw [Shape.numel_eq, hsize, wrap_of_lt (Nat.lt_of_le_of_lt t.count_le (by decide))]

/-- So are they by the shape that it has. -/
theorem numel_shape (t : Tensor) : t.shape.numel = t.shape.size := numel_of_size rfl

/-- Under another shape an entry keeps its row-major position. -/
theorem reshape_ok (s' : Shape) (ht : t.Matches d s) (hsize : s'.size = s.size)
    (hspan : Shape.Addressable s') :
    ∃ r, t.reshape s' = .ok r ∧ r.Matches d s' ∧
      ∀ idx src, s'.ravel idx = s.ravel src → r.entry d idx = t.entry d src := by
  rcases ht.exists_array with ⟨a, room, rfl, rfl⟩
  refine ⟨⟨d, a.withShape s' hsize, hspan, (Shape.fits_congr hsize).mpr room.2⟩, ?_, ⟨rfl, rfl⟩, ?_⟩
  · exact reshape_eq_ok_iff.mpr ⟨hsize, hspan, rfl⟩
  · intro idx src hravel
    refine (entry_mk (a.withShape s' hsize) _ idx).trans ?_
    rw [entry_mk]
    exact DenseArray.get_withShape a s' hsize hravel

/-- What a reshape hands back has the shape that was asked for. -/
theorem shape_of_reshape {s' : Shape} {r : Tensor} (h : t.reshape s' = .ok r) : r.shape = s' := by
  rcases reshape_eq_ok_iff.mp h with ⟨-, -, rfl⟩
  rfl

/-- A shape that spans too much is refused. -/
theorem reshape_incompatible {s' : Shape} (ht : t.Matches d s) (hsize : s'.size = s.size)
    (hspan : ¬ Shape.Addressable s') :
    t.reshape s' = .error (.invalidOperation .spanIncompatible) := by
  have hcount : s'.size = t.count := by rw [hsize, count, ht.shape]
  exact reshape_refused (numel_of_size hcount) fun h => hspan h.2

/-- With the axes in another order an entry is found at the reordered index. -/
theorem permute_ok (axes : List Nat) (ht : t.Matches d s)
    (haxes : Shape.checkAxes axes s.length = .ok ()) :
    ∃ r, t.permute axes = .ok r ∧ r.Matches d (axes.map fun axis => s.getD axis 0) ∧
      ∀ idx, Shape.Within idx s →
        r.entry d (axes.map fun axis => idx.getD axis 0) = t.entry d idx := by
  rcases ht.exists_array with ⟨a, room, rfl, rfl⟩
  have hcheck : checkAxes axes (⟨d, a, room⟩ : Tensor).rank = .ok () := by
    rw [checkAxes, rank, shape, haxes]
    rfl
  refine ⟨⟨d, a.permute axes, ?_⟩, ?_, ⟨rfl, rfl⟩, ?_⟩
  · exact Shape.allocatable_perm
      (Shape.reordered_perm (Shape.perm_of_checkAxes haxes)).symm room
  · -- The other outcome of the check is ruled out.
    unfold permute
    split
    · rename_i e h
      rw [hcheck] at h
      cases h
    · rfl
  · intro idx hidx
    refine (entry_mk (a.permute axes) _ _).trans ?_
    rw [entry_mk]
    exact DenseArray.get_permute a (Shape.perm_of_checkAxes haxes) hidx

/-- What a reordering hands back has the axis lengths in the new order. -/
theorem shape_of_permute {axes : List Nat} {r : Tensor} (h : t.permute axes = .ok r) :
    r.shape = axes.map fun axis => t.shape.getD axis 0 := by
  unfold permute at h
  split at h
  · cases h
  · cases h
    rfl

/-- The last two axes of a stack of matrices exchanged. -/
theorem transpose_ok {batch m n : Nat} (ht : t.Matches d [batch, m, n]) :
    ∃ r, t.transpose 1 2 = .ok r ∧ r.Matches d [batch, n, m] ∧
      ∀ p i j, p < batch → i < m → j < n → r.entry d [p, j, i] = t.entry d [p, i, j] := by
  have hrank : t.rank = 3 := by
    rw [rank, ht.shape]
    rfl
  rcases permute_ok [0, 2, 1] ht rfl with ⟨r, hr, hmatch, hentry⟩
  refine ⟨r, ?_, hmatch, ?_⟩
  · rw [transpose, hrank]
    exact hr
  · intro p i j hp hi hj
    exact hentry [p, i, j] (by simp [hp, hi, hj])

/-! ### Element by element -/

/-- Two tensors combined over their common shape, each read where it is stretched
    from. -/
theorem combine_broadcast_ok (op : (d : DType) → d.Elem → d.Elem → d.Elem) {s' r : Shape}
    (ht : t.Matches d s) (hu : u.Matches d s') (hbroadcast : Shape.broadcast? s s' = some r)
    (room : Shape.Allocatable d.width r) :
    ∃ x, combine op t u = .ok x ∧ x.Matches d r ∧ ∀ idx, Shape.Within idx r →
      x.entry d idx
        = op d (t.entry d (Shape.project s idx)) (u.entry d (Shape.project s' idx)) := by
  rcases ht.exists_array with ⟨a, ra, rfl, rfl⟩
  rcases hu.exists_array with ⟨b, rb, rfl, rfl⟩
  refine ⟨⟨d, a.zipBroadcast (op d) b r, room⟩, ?_, ⟨rfl, rfl⟩, fun idx hidx => ?_⟩
  · have hshape : broadcastShape a.shape b.shape = .ok r := by
      rw [broadcastShape, hbroadcast]
      rfl
    simp only [combine, elements_mk, shape, hshape, bind, Except.bind]
    rw [ensureAllocatable_ok room]
    rfl
  · refine (entry_mk (a.zipBroadcast (op d) b r) _ _).trans ?_
    rw [DenseArray.get_zipBroadcast _ _ _ _ hidx, entry_mk, entry_mk]

/-- Two tensors combined where the second has the trailing axes of the first. -/
theorem combine_ok (op : (d : DType) → d.Elem → d.Elem → d.Elem) (lead : Shape) {tail : Shape}
    (ht : t.Matches d (lead ++ tail)) (hu : u.Matches d tail) :
    ∃ r, combine op t u = .ok r ∧ r.Matches d (lead ++ tail) ∧
      ∀ i j, Shape.Within i lead → Shape.Within j tail →
        r.entry d (i ++ j) = op d (t.entry d (i ++ j)) (u.entry d j) := by
  rcases combine_broadcast_ok op ht hu (Shape.broadcast_append lead tail) ht.room with
    ⟨r, hr, hmatch, hentry⟩
  refine ⟨r, hr, hmatch, fun i j hi hj => ?_⟩
  -- The first tensor is read at the whole index and the second at its trailing part.
  have hwithin := Shape.within_append hi hj
  have hwhole : Shape.project (lead ++ tail) (i ++ j) = i ++ j := Shape.project_append [] hwithin
  rw [hentry (i ++ j) hwithin, hwhole, Shape.project_append i hj]

/-- A matrix combined with a column, row by row. -/
theorem combine_column_ok (op : (d : DType) → d.Elem → d.Elem → d.Elem) {m n : Nat}
    (ht : t.Matches d [m, n]) (hu : u.Matches d [m, 1]) :
    ∃ r, combine op t u = .ok r ∧ r.Matches d [m, n] ∧ ∀ i j, i < m → j < n →
      r.entry d [i, j] = op d (t.entry d [i, j]) (u.entry d [i, 0]) := by
  have hbroadcast : Shape.broadcast? [m, n] [m, 1] = some [m, n] := by
    simp [Shape.broadcast?, Shape.broadcastReversed, Shape.broadcastAxis]
  rcases combine_broadcast_ok op ht hu hbroadcast ht.room with ⟨r, hr, hmatch, hentry⟩
  refine ⟨r, hr, hmatch, fun i j hi hj => ?_⟩
  have hwhole : Shape.project [m, n] [i, j] = [i, j] :=
    Shape.project_append [] (j := [i, j]) (by simp [hi, hj])
  have hcolumn : Shape.project [m, 1] [i, j] = [i, 0] := by
    -- A column of one row is stretched along both axes, and its only row is the first.
    by_cases hone : m = 1
    · obtain rfl : i = 0 := by omega
      simp [Shape.project]
    · simp [Shape.project, hone]
  rw [hentry [i, j] (by simp [hi, hj]), hwhole, hcolumn]

theorem scalarMul_matches (ht : t.Matches d s) (scalar : Float) :
    (t.scalarMul scalar).Matches d s :=
  ⟨ht.dtype, ht.shape⟩

theorem entry_scalarMul (ht : t.Matches d s) (scalar : Float) {idx : Index}
    (h : Shape.Within idx s) :
    (t.scalarMul scalar).entry d idx = t.entry d idx * Scalar.ofFloat scalar := by
  rcases ht.exists_array with ⟨a, room, rfl, rfl⟩
  refine (entry_mk (a.map (· * Scalar.ofFloat scalar)) _ idx).trans ?_
  rw [entry_mk]
  exact DenseArray.get_map (fun x : d.Elem => x * Scalar.ofFloat scalar) a h

/-- Integers held within a range. -/
theorem clamp_ok {low high : Int64} (ht : t.Matches .int64 s) (h : ¬ high < low) :
    ∃ r, t.clamp low high = .ok r ∧ r.Matches .int64 s ∧ ∀ idx, Shape.Within idx s →
      r.entry .int64 idx
        = if t.entry .int64 idx < low then low
          else if high < t.entry .int64 idx then high else t.entry .int64 idx := by
  rcases ht.exists_array with ⟨a, room, rfl, rfl⟩
  let held : Int64 → Int64 := fun x => if x < low then low else if high < x then high else x
  refine ⟨⟨.int64, a.map held, room⟩, ?_, ⟨rfl, rfl⟩, fun idx hidx => ?_⟩
  · rw [clamp, if_neg h]
    rfl
  · refine (entry_mk (a.map held) room idx).trans ?_
    rw [entry_mk]
    exact DenseArray.get_map held a hidx

/-! ### Products -/

theorem matmul_ok {m k n : Nat} (hd : d ≠ .uint8) (ht : t.Matches d [m, k])
    (hu : u.Matches d [k, n]) (room : Shape.Allocatable d.width [m, n]) :
    ∃ r, t.matmul u = .ok r ∧ r.Matches d [m, n] ∧ ∀ i j, i < m → j < n →
      r.entry d [i, j] = sumRange k fun l => t.entry d [i, l] * u.entry d [l, j] := by
  rcases ht.exists_array with ⟨a, ra, rfl, ha⟩
  rcases hu.exists_array with ⟨b, rb, rfl, hb⟩
  refine ⟨⟨d, a.matmul m k n b, room⟩, ?_, ⟨rfl, rfl⟩, ?_⟩
  · simp only [matmul, shape, ha, hb, elements_mk, hd, bind, Except.bind, ne_eq,
      not_true_eq_false, if_false]
    rw [ensureAllocatable_ok room]
    rfl
  · intro i j hi hj
    refine (entry_mk (a.matmul m k n b) _ _).trans ?_
    simp only [entry_mk]
    exact DenseArray.get_matmul a b ha hb hi hj

/-- Matrices of two kinds have no product, whatever their sizes. -/
theorem matmul_kind {m k l n : Nat} (ht : t.shape = [m, k]) (hu : u.shape = [l, n])
    (h : u.dtype ≠ t.dtype) : t.matmul u = .error (.typeMismatch t.dtype u.dtype) := by
  simp only [matmul, ht, hu, elements_error h, bind, Except.bind]

theorem bmm_ok {batch m k n : Nat} (hd : d ≠ .uint8) (ht : t.Matches d [batch, m, k])
    (hu : u.Matches d [batch, k, n]) (room : Shape.Allocatable d.width [batch, m, n]) :
    ∃ r, t.bmm u = .ok r ∧ r.Matches d [batch, m, n] ∧
      ∀ p i j, p < batch → i < m → j < n →
        r.entry d [p, i, j] = sumRange k fun l => t.entry d [p, i, l] * u.entry d [p, l, j] := by
  rcases ht.exists_array with ⟨a, ra, rfl, ha⟩
  rcases hu.exists_array with ⟨b, rb, rfl, hb⟩
  refine ⟨⟨d, a.bmm batch m k n b, room⟩, ?_, ⟨rfl, rfl⟩, ?_⟩
  · simp only [bmm, shape, ha, hb, elements_mk, hd, bind, Except.bind, ne_eq,
      not_true_eq_false, or_self, if_false]
    rw [ensureAllocatable_ok room]
    rfl
  · intro p i j hp hi hj
    refine (entry_mk (a.bmm batch m k n b) _ _).trans ?_
    simp only [entry_mk]
    exact DenseArray.get_bmm a b ha hb hp hi hj

/-- Stacks whose products have no room are refused. -/
theorem bmm_unaddressable {batch m k n : Nat} (hd : d ≠ .uint8) (ht : t.Matches d [batch, m, k])
    (hu : u.Matches d [batch, k, n]) (hroom : ¬ Shape.Allocatable d.width [batch, m, n]) :
    t.bmm u = .error (.unaddressable [batch, m, n]) := by
  rcases ht.exists_array with ⟨a, ra, rfl, ha⟩
  rcases hu.exists_array with ⟨b, rb, rfl, hb⟩
  simp only [bmm, shape, ha, hb, elements_mk, hd, bind, Except.bind, ne_eq, not_true_eq_false,
    or_self, if_false]
  rw [ensureAllocatable_error hroom]

/-! ### Lanes and masks -/

/-- The softmax of either floating kind maps the lanes. -/
theorem softmax_mk (hd : d.isFloat = true) (a : DenseArray d.Elem) (room) {axis : Nat}
    (haxis : axis < a.shape.length) :
    (⟨d, a, room⟩ : Tensor).softmax axis = .ok ⟨d, a.mapLanes d.softmaxLane axis, room⟩ := by
  have hrank : ¬ (⟨d, a, room⟩ : Tensor).rank ≤ axis := Nat.not_le.mpr haxis
  -- The operation is defined kind by kind, and so is the proof.
  cases d with
  | float32 =>
    rw [softmax, if_neg hrank]
    rfl
  | float64 =>
    rw [softmax, if_neg hrank]
    rfl
  | int64 => cases hd
  | uint8 => cases hd

theorem softmax_ok (hd : d.isFloat = true) (pre post : Shape) {n : Nat}
    (ht : t.Matches d (pre ++ n :: post)) :
    ∃ r, t.softmax pre.length = .ok r ∧ r.Matches d (pre ++ n :: post) ∧
      ∀ p j q, Shape.Within p pre → j < n → Shape.Within q post →
        r.entry d (p ++ j :: q)
          = (d.softmaxLane ((List.range n).map fun j' => t.entry d (p ++ j' :: q))).getD j
              default := by
  rcases ht.exists_array with ⟨a, room, rfl, ha⟩
  have haxis : pre.length < a.shape.length := by simp [ha]
  refine ⟨⟨d, a.mapLanes d.softmaxLane pre.length, room⟩, softmax_mk hd a room haxis,
    ⟨rfl, ha⟩, ?_⟩
  intro p j q hp hj hq
  refine (entry_mk (a.mapLanes d.softmaxLane pre.length) _ _).trans ?_
  simp only [entry_mk]
  exact DenseArray.get_mapLanes _ a ha hp hj hq

theorem nonzeroAt_eq (h : t.dtype = d) (idx : Index) :
    t.nonzeroAt idx = Scalar.isNonzero (t.entry d idx) := by
  subst h
  simp [nonzeroAt, entry]

/-- The flag of an element is whether it differs from zero. -/
theorem nonzeroFlags_getD {idx : Index} (h : Shape.Within idx t.shape) :
    t.nonzeroFlags.getD (t.shape.ravel idx) false = t.nonzeroAt idx := by
  have hlt : t.shape.ravel idx < t.array.data.size := by
    rw [t.array.size_data]
    exact Shape.ravel_lt h
  simp only [shape] at hlt
  simp [nonzeroFlags, nonzeroAt, DenseArray.get, shape, hlt]

theorem maskedFill_ok (hd : d.isFloat = true) (lead tail : Shape) {mask : Tensor} (value : Float)
    (ht : t.Matches d (lead ++ tail)) (hmask : mask.shape = lead) :
    ∃ r, t.maskedFill mask value = .ok r ∧ r.Matches d (lead ++ tail) ∧
      ∀ p q, Shape.Within p lead → Shape.Within q tail →
        r.entry d (p ++ q)
          = if mask.nonzeroAt p then Scalar.ofFloat value else t.entry d (p ++ q) := by
  subst hmask
  rcases ht.exists_array with ⟨a, room, rfl, ha⟩
  have hleading : a.shape.take mask.shape.length = mask.shape := by simp [ha]
  have htail : a.shape.drop mask.shape.length = tail := by simp [ha]
  refine ⟨⟨d, a.fillBlocks mask.nonzeroFlags tail.size (Scalar.ofFloat value), room⟩, ?_,
    ⟨rfl, ha⟩, ?_⟩
  · simp only [maskedFill, rank, shape] at hleading htail ⊢
    simp only [hleading, htail, hd, if_true, ne_eq, not_true_eq_false, if_false, bind,
      Except.bind, pure, Except.pure]
  · intro p q hp hq
    refine (entry_mk (a.fillBlocks mask.nonzeroFlags tail.size (Scalar.ofFloat value)) _ _).trans ?_
    rw [DenseArray.get_fillBlocks a _ _ ha hp hq, nonzeroFlags_getD hp, entry_mk]

/-- What stands under a mask is not looked at: two tensors that agree elsewhere
    are filled alike, or refused alike. -/
theorem maskedFill_congr (lead tail : Shape) {mask : Tensor} (value : Float)
    (ht : t.Matches d (lead ++ tail)) (hu : u.Matches d (lead ++ tail)) (hmask : mask.shape = lead)
    (hagree : ∀ p q, Shape.Within p lead → Shape.Within q tail → mask.nonzeroAt p = false →
      t.entry d (p ++ q) = u.entry d (p ++ q)) :
    t.maskedFill mask value = u.maskedFill mask value := by
  by_cases hd : d.isFloat = true
  · rcases maskedFill_ok hd lead tail value ht hmask with ⟨r, hr, hrM, hrE⟩
    rcases maskedFill_ok hd lead tail value hu hmask with ⟨r', hr', hrM', hrE'⟩
    have heq : r = r' := by
      refine ext_entry hrM hrM' fun idx hidx => ?_
      -- The leading part of an index decides whether the entry is covered.
      rcases Shape.within_split hidx with ⟨p, q, rfl, hp, hq⟩
      rw [hrE p q hp hq, hrE' p q hp hq]
      cases hflag : mask.nonzeroAt p with
      | true => rfl
      | false => exact hagree p q hp hq hflag
    rw [hr, hr', heq]
  · -- Without a floating kind both are refused, and the refusal names kinds and shapes only.
    simp only [maskedFill, ht.shape, hu.shape, ht.dtype, hu.dtype, hd]
    rfl

end Tensor

end GraphAttention
