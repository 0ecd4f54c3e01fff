import GraphAttention.Proofs.Entries
import GraphAttention.Proofs.ScatterSum
import GraphAttention.Tensor.Rows

/-!
# Gathered and Scattered Rows

A row number comes out of a tensor of integers of any shape, so which row belongs
to which place is a matter of row-major order. `Tensor.rowList` are the numbers in
that order. Gathering reads, at an index in two parts, the row that the first part
names, and scattering adds, into each row, those rows of the source whose number it
has, in the order in which they come.

What a scatter makes of a row is a `scatterSum` over the numbers. Its terms come in
the order in which the rows are added, so nothing has to be reordered, and floating
sums could not be.

Whether a scatter is refused depends on its source only through the kind and the
shape. This is said together with what it yields, because it is needed where two
sources are compared that differ in some elements.

## Main definitions

* `Tensor.rowList`: The row numbers in row-major order.
* `Tensor.itemAt`: The element at a row-major position, read at a kind.
* `Tensor.Names`: Every number names a row.
* `Tensor.ScatterFault`: Why rows are not scattered.

## Theorems

* `rowNumbers_spec`, `rowNumbers_ok`: The numbers that are looked up.
* `indexSelect_ok`, `indexSelect_roomless`, `indexSelect_incompatible`: Rows gathered, or
  no room for them.
* `indexAdd_ok`, `indexAdd_error`, `indexAdd_cases`: Rows scattered, or a refusal
  that no element decides.
-/

namespace GraphAttention

namespace DenseArray

variable {α : Type} [Inhabited α]

/-- Rows gathered, read at the place of a row and an index within it. -/
theorem get_selectRows (a : DenseArray α) {n : Nat} {tail : Shape} (h : a.shape = n :: tail)
    (rows : List (Fin n)) {k : Nat} (hk : k < rows.length) {j : Index}
    (hj : Shape.Within j tail) :
    (a.selectRows h rows).get (k :: j) = a.get ((rows.map Fin.val).getD k 0 :: j) := by
  have hwithin : Shape.Within (k :: j) (rows.length :: tail) := ⟨hk, hj⟩
  have hinner : tail.ravel j < tail.size := Shape.ravel_lt hj
  rw [selectRows, get_generate _ _ hwithin, get_eq_item, h]
  simp only [Shape.ravel, Shape.div_block hinner, Shape.mod_block hinner]
  simp [hk]

variable [Add α]

/-- A block added into a buffer changes the elements of the block and no others. -/
theorem addBlock_getD (buffer : Array α) (start length : Nat) (source : Nat → α) {p : Nat}
    (hp : p < buffer.size) :
    (addBlock buffer start length source).getD p default
      = if start ≤ p ∧ p < start + length then buffer.getD p default + source (p - start)
        else buffer.getD p default := by
  induction length with
  | zero =>
    have hout : ¬ (start ≤ p ∧ p < start + 0) := by omega
    rw [if_neg hout]
    rfl
  | succ length ih =>
    have hstep : addBlock buffer start (length + 1) source
        = (addBlock buffer start length source).modify (start + length) (· + source length) := by
      rw [addBlock, List.range_succ, List.foldl_append]
      rfl
    have hlt : p < (addBlock buffer start length source).size := by rwa [size_addBlock]
    rw [hstep]
    by_cases hlast : start + length = p
    · -- The last element of the block is the one that was not reached before.
      have hbefore : ¬ (start ≤ p ∧ p < start + length) := by omega
      have hnow : start ≤ p ∧ p < start + (length + 1) := by omega
      have hoffset : p - start = length := by omega
      rw [if_neg hbefore] at ih
      rw [if_pos hnow, hoffset, ← ih]
      subst hlast
      simp [Array.getElem_modify, hlt]
    · have hiff : (start ≤ p ∧ p < start + (length + 1)) ↔ (start ≤ p ∧ p < start + length) := by
        omega
      simp only [hiff, ← ih]
      simp [hlt, Array.getElem_modify, hlast]

/-- Blocks added into a buffer, read at a place within a row. -/
theorem addBlocks_getD (length : Nat) (source : Nat → α) (rows : List Nat) (i : Nat)
    (buffer : Array α) {row j : Nat} (hj : j < length) (hp : row * length + j < buffer.size) :
    (addBlocks length source rows i buffer).getD (row * length + j) default
      = scatterSum row (fun k => source (k * length + j)) rows i
          (buffer.getD (row * length + j) default) := by
  induction rows generalizing i buffer with
  | nil => rfl
  | cons r rows ih =>
    rw [addBlocks, ih _ _ (by rwa [size_addBlock]), scatterSum, addBlock_getD _ _ _ _ hp]
    by_cases hr : r = row
    · subst hr
      have hin : r * length ≤ r * length + j ∧ r * length + j < r * length + length := by omega
      rw [if_pos hin, if_pos rfl, Nat.add_sub_cancel_left]
    · -- Blocks of different rows do not overlap.
      have hout : ¬ (r * length ≤ row * length + j ∧ row * length + j < r * length + length) := by
        intro hin
        rcases Nat.lt_or_gt_of_ne hr with hless | hless
        · have hle := Nat.mul_le_mul_right length (Nat.succ_le_of_lt hless)
          rw [Nat.succ_mul] at hle
          omega
        · have hle := Nat.mul_le_mul_right length (Nat.succ_le_of_lt hless)
          rw [Nat.succ_mul] at hle
          omega
      rw [if_neg hout, if_neg hr]

/-- Rows scattered, read at a place within a row. -/
theorem get_addRows (a : DenseArray α) {n : Nat} {tail : Shape} (h : a.shape = n :: tail)
    (rows : List (Fin n)) (source : DenseArray α) {row : Nat} (hrow : row < n) {j : Index}
    (hj : Shape.Within j tail) :
    (a.addRows h rows source).get (row :: j)
      = scatterSum row (fun k => source.item (k * tail.size + tail.ravel j)) (rows.map Fin.val) 0
          (a.get (row :: j)) := by
  have hwithin : Shape.Within (row :: j) (n :: tail) := ⟨hrow, hj⟩
  have hlt : row * tail.size + tail.ravel j < a.data.size := by
    rw [a.size_data, h]
    exact Shape.ravel_lt hwithin
  have hread := addBlocks_getD tail.size source.item (rows.map Fin.val) 0 a.data
    (Shape.ravel_lt hj) hlt
  simp only [get, addRows, h, Shape.ravel]
  exact hread

end DenseArray

/-- Whether a refusal is of a number that names no row. -/
def TensorError.isRowFault : TensorError → Bool
  | indexOutOfBounds .. => true
  | _ => false

namespace Tensor

variable {d : DType} {t : Tensor} {n : Nat} {s tail : Shape}

/-- The element at a row-major position, read at a kind. -/
def itemAt (t : Tensor) (d : DType) (k : Nat) : d.Elem :=
  if h : t.dtype = d then (h ▸ t.array : DenseArray d.Elem).item k else default

/-- The numbers that a tensor of integers holds, in row-major order. -/
def rowList (indices : Tensor) : List Nat :=
  ((indices.elements .int64).toOption.map fun a => a.toList.map fun i => i.toInt.toNat).getD []

/-- Every number that a tensor of integers holds names one of `n` rows. -/
def Names (indices : Tensor) (n : Nat) : Prop :=
  ∀ k, k < indices.count → 0 ≤ (indices.itemAt .int64 k).toInt ∧
    (indices.itemAt .int64 k).toInt.toNat < n

@[simp] theorem itemAt_mk (a : DenseArray d.Elem) (room) (k : Nat) :
    (⟨d, a, room⟩ : Tensor).itemAt d k = a.item k := by
  simp [itemAt]

/-- Under another shape every element keeps its row-major position. -/
theorem itemAt_reshape {r : Tensor} (h : t.reshape s = .ok r) (k : Nat) :
    r.itemAt d k = t.itemAt d k := by
  rcases t with ⟨d', a, room⟩
  rcases reshape_eq_ok_iff.mp h with ⟨hsize, hspan, rfl⟩
  by_cases hkind : d' = d
  · subst hkind
    rw [itemAt_mk]
    exact itemAt_mk (a.withShape s _) _ k
  · rw [itemAt, itemAt, dif_neg hkind, dif_neg hkind]

theorem entry_eq_itemAt (ht : t.Matches d s) (idx : Index) :
    t.entry d idx = t.itemAt d (s.ravel idx) := by
  rcases ht.exists_array with ⟨a, room, rfl, rfl⟩
  rw [entry_mk, itemAt_mk]
  rfl

theorem mapM_rowNumber_spec {numbers : List Int64} {rows : List (Fin n)}
    (h : numbers.mapM (rowNumber n) = .ok rows) :
    rows.map Fin.val = numbers.map fun i => i.toInt.toNat := by
  induction numbers generalizing rows with
  | nil =>
    cases h
    rfl
  | cons i numbers ih =>
    rw [List.mapM_cons] at h
    by_cases hi : 0 ≤ i.toInt ∧ i.toInt.toNat < n
    · have hnumber : rowNumber n i = .ok ⟨i.toInt.toNat, hi.2⟩ := dif_pos hi
      rw [hnumber] at h
      cases hrest : numbers.mapM (rowNumber n) with
      | error e =>
        rw [hrest] at h
        cases h
      | ok rest =>
        rw [hrest] at h
        cases h
        rw [List.map_cons, List.map_cons, ih hrest]
    · -- A number that names no row ends the list with a refusal.
      have hnumber : rowNumber n i = .error (.indexOutOfBounds i.toInt 0 n) := dif_neg hi
      rw [hnumber] at h
      cases h

theorem mapM_rowNumber_ok {numbers : List Int64}
    (h : ∀ i ∈ numbers, 0 ≤ i.toInt ∧ i.toInt.toNat < n) :
    ∃ rows, numbers.mapM (rowNumber n) = .ok rows := by
  induction numbers with
  | nil => exact ⟨[], rfl⟩
  | cons i numbers ih =>
    rcases ih fun i' hi' => h i' (List.mem_cons_of_mem _ hi') with ⟨rest, hrest⟩
    have hnumber : rowNumber n i = .ok ⟨i.toInt.toNat, (h i List.mem_cons_self).2⟩ :=
      dif_pos (h i List.mem_cons_self)
    rw [List.mapM_cons, hnumber, hrest]
    exact ⟨_, rfl⟩

/-- Row numbers that were accepted are the ones of the list. -/
theorem rowNumbers_spec {indices : Tensor} {rows : List (Fin n)}
    (h : indices.rowNumbers n = .ok rows) : rows.map Fin.val = indices.rowList := by
  unfold rowNumbers at h
  cases hread : indices.elements .int64 with
  | error e =>
    rw [hread] at h
    cases h
  | ok a =>
    rw [hread] at h
    have hrows : a.toList.mapM (rowNumber n) = .ok rows := h
    rw [mapM_rowNumber_spec hrows, rowList, hread]
    rfl

/-- Numbers that all name rows are accepted. -/
theorem rowNumbers_ok {indices : Tensor} (hkind : indices.dtype = .int64) (h : indices.Names n) :
    ∃ rows, indices.rowNumbers n = .ok rows := by
  rcases (⟨hkind, rfl⟩ : indices.Matches .int64 indices.shape).exists_array with ⟨a, room, rfl, -⟩
  rw [rowNumbers, elements_mk]
  refine mapM_rowNumber_ok fun i hi => ?_
  -- A number of the list stands at some place, and the number there names a row.
  rcases List.getElem_of_mem hi with ⟨k, hk, rfl⟩
  have hlt : k < a.data.size := by simpa [DenseArray.toList] using hk
  have hnamed := h k (by rw [count, shape, ← a.size_data]; exact hlt)
  simpa [DenseArray.item, hlt, DenseArray.toList] using hnamed

/-- Where all numbers name rows, they are refused for their kind at most. -/
theorem rowNumbers_error {indices : Tensor} {e : TensorError} (hnames : indices.Names n)
    (h : indices.rowNumbers n = .error e) : e.isRowFault = false := by
  by_cases hkind : indices.dtype = .int64
  · rcases rowNumbers_ok hkind hnames with ⟨rows, hrows⟩
    rw [hrows] at h
    cases h
  · rw [rowNumbers, elements_error hkind] at h
    cases h
    rfl

theorem length_rowList {indices : Tensor} (hi : indices.Matches .int64 s) :
    indices.rowList.length = s.size := by
  rcases hi.exists_array with ⟨a, room, rfl, rfl⟩
  rw [rowList, elements_mk]
  simp [Except.toOption, DenseArray.toList, a.size_data]

theorem rowList_getElem? {indices : Tensor} (hi : indices.Matches .int64 s) {k : Nat}
    (hk : k < s.size) : indices.rowList[k]? = some (indices.itemAt .int64 k).toInt.toNat := by
  rcases hi.exists_array with ⟨a, room, rfl, rfl⟩
  have hlt : k < a.data.size := by rwa [a.size_data]
  rw [rowList, elements_mk, itemAt_mk]
  simp [Except.toOption, DenseArray.toList, DenseArray.item, hlt]

/-- There is a row number for each element. -/
theorem length_rowNumbers {indices : Tensor} {rows : List (Fin n)} (hi : indices.Matches .int64 s)
    (h : indices.rowNumbers n = .ok rows) : rows.length = s.size := by
  rw [← List.length_map Fin.val, rowNumbers_spec h, length_rowList hi]

/-! ### Rows gathered -/

section Gathering

variable {indices : Tensor}

/-- Rows under the shape of the numbers need no less room than one after another. -/
theorem Matches.allocatable_rows (ht : t.Matches d (n :: tail))
    (room : Shape.Allocatable d.width (s ++ tail)) : Shape.Allocatable d.width (s.size :: tail) :=
  Shape.allocatable_flatten s (Nat.lt_of_succ_le ht.room.1.2) room

/-- A row for each number, under the shape of the numbers. -/
theorem indexSelect_ok (ht : t.Matches d (n :: tail)) (hi : indices.Matches .int64 s)
    (hnames : indices.Names n) (room : Shape.Allocatable d.width (s ++ tail)) :
    ∃ r, t.indexSelect indices = .ok r ∧ r.Matches d (s ++ tail) ∧
      ∀ p j, Shape.Within p s → Shape.Within j tail →
        r.entry d (p ++ j) = t.entry d ((indices.entry .int64 p).toInt.toNat :: j) := by
  have hflat := ht.allocatable_rows room
  rcases ht.exists_array with ⟨⟨shape, data, hdata⟩, ra, rfl, hshape⟩
  obtain rfl : shape = n :: tail := hshape
  rcases rowNumbers_ok hi.dtype hnames with ⟨rows, hrows⟩
  have hlength : rows.length = s.size := length_rowNumbers hi hrows
  rw [← hlength] at hflat
  let a : DenseArray d.Elem := ⟨n :: tail, data, hdata⟩
  have hsize : Shape.size (s ++ tail) = Shape.size (rows.length :: tail) := by
    rw [Shape.size_append, Shape.size_cons, hlength]
  rcases reshape_ok (t := ⟨d, a.selectRows rfl rows, hflat⟩) (s ++ tail) ⟨rfl, rfl⟩ hsize room.1
    with ⟨r, hr, hmatch, hentry⟩
  refine ⟨r, ?_, hmatch, fun p j hp hj => ?_⟩
  · simp only [indexSelect, hrows, bind, Except.bind, hi.shape]
    rw [ensureAllocatable_ok hflat]
    exact hr
  · -- The number of a row is looked up in the list of all numbers.
    have hplace : s.ravel p < rows.length := hlength ▸ Shape.ravel_lt hp
    have hnumber : (rows.map Fin.val).getD (s.ravel p) 0
        = (indices.entry .int64 p).toInt.toNat := by
      rw [rowNumbers_spec hrows, List.getD, rowList_getElem? hi (Shape.ravel_lt hp),
        entry_eq_itemAt hi]
      rfl
    have hread := DenseArray.get_selectRows a rfl rows hplace hj
    rw [hnumber] at hread
    have hravel : Shape.ravel (s ++ tail) (p ++ j)
        = Shape.ravel (rows.length :: tail) (s.ravel p :: j) :=
      Shape.ravel_append s tail p j (Shape.within_length hp)
    rw [hentry (p ++ j) (s.ravel p :: j) hravel, entry_mk]
    exact (entry_mk (a.selectRows rfl rows) hflat (s.ravel p :: j)).trans hread

/-- Without room for the rows they are not gathered. -/
theorem indexSelect_roomless (ht : t.Matches d (n :: tail)) (hi : indices.Matches .int64 s)
    (hnames : indices.Names n) (hroom : ¬ Shape.Allocatable d.width (s.size :: tail)) :
    t.indexSelect indices = .error (.unaddressable (s.size :: tail)) := by
  rcases ht.exists_array with ⟨⟨shape, data, hdata⟩, ra, rfl, hshape⟩
  obtain rfl : shape = n :: tail := hshape
  rcases rowNumbers_ok hi.dtype hnames with ⟨rows, hrows⟩
  rw [← length_rowNumbers hi hrows] at hroom ⊢
  simp only [indexSelect, hrows, bind, Except.bind, ensureAllocatable_error hroom]

/-- Rows that were gathered may still not be laid out like the numbers. -/
theorem indexSelect_incompatible (ht : t.Matches d (n :: tail)) (hi : indices.Matches .int64 s)
    (hnames : indices.Names n) (room : Shape.Allocatable d.width (s.size :: tail))
    (hspan : ¬ Shape.Addressable (s ++ tail)) :
    t.indexSelect indices = .error (.invalidOperation .spanIncompatible) := by
  rcases ht.exists_array with ⟨⟨shape, data, hdata⟩, ra, rfl, hshape⟩
  obtain rfl : shape = n :: tail := hshape
  rcases rowNumbers_ok hi.dtype hnames with ⟨rows, hrows⟩
  have hlength : rows.length = s.size := length_rowNumbers hi hrows
  rw [← hlength] at room
  have hsize : Shape.size (s ++ tail) = Shape.size (rows.length :: tail) := by
    rw [Shape.size_append, Shape.size_cons, hlength]
  simp only [indexSelect, hrows, bind, Except.bind, hi.shape]
  rw [ensureAllocatable_ok room]
  exact reshape_incompatible ⟨rfl, rfl⟩ hsize hspan

end Gathering

/-! ### Rows scattered -/

/-- Why rows of a kind and a shape are not added: they are of another kind, a number
    names no row, there are not as many elements as the numbers are counted to need, or
    the arrangement or the kind is not served. The elements have no part in it. -/
inductive ScatterFault (indices : Tensor) (d : DType) (n : Nat) (tail : Shape) (d' : DType)
    (s' : Shape) : TensorError → Prop
  | kind (h : d' ≠ d) : ScatterFault indices d n tail d' s' (.typeMismatch d d')
  | numbers {e : TensorError} (hkind : d' = d) (h : indices.rowNumbers n = .error e) :
    ScatterFault indices d n tail d' s' e
  | count {rows : List (Fin n)} (hkind : d' = d) (hrows : indices.rowNumbers n = .ok rows)
    (h : Shape.numel (rows.length :: tail) ≠ s'.size) :
    ScatterFault indices d n tail d' s' (.shapeMismatch (rows.length :: tail) s')
  | span {rows : List (Fin n)} (hkind : d' = d) (hrows : indices.rowNumbers n = .ok rows)
    (hcount : Shape.numel (rows.length :: tail) = s'.size)
    (h : ¬ (Shape.size (rows.length :: tail) = s'.size ∧
      Shape.Addressable (rows.length :: tail))) :
    ScatterFault indices d n tail d' s' (.invalidOperation .spanIncompatible)
  | byte {rows : List (Fin n)} (hkind : d' = d) (hrows : indices.rowNumbers n = .ok rows)
    (hsize : Shape.size (rows.length :: tail) = s'.size)
    (hspan : Shape.Addressable (rows.length :: tail)) (h : d = .uint8) :
    ScatterFault indices d n tail d' s' (.invalidOperation .indexAddKind)

section Scattering

variable {indices source : Tensor} {d' : DType} {s' : Shape}

/-- Numbers that all name rows are not what rows are refused for. -/
theorem ScatterFault.isRowFault {e : TensorError} (h : ScatterFault indices d n tail d' s' e)
    (hnames : indices.Names n) : e.isRowFault = false := by
  cases h with
  | numbers _ h => exact rowNumbers_error hnames h
  | kind _ => rfl
  | count _ _ _ => rfl
  | span _ _ _ _ => rfl
  | byte _ _ _ _ _ => rfl

theorem indexAdd_error {e : TensorError} (ht : t.Matches d (n :: tail))
    (hsource : source.Matches d' s') (h : ScatterFault indices d n tail d' s' e) :
    t.indexAdd indices source = .error e := by
  rcases ht.exists_array with ⟨⟨shape, data, hdata⟩, ra, rfl, hshape⟩
  obtain rfl : shape = n :: tail := hshape
  -- Each check is reached once those before it have passed.
  cases h with
  | kind h => simp only [indexAdd, ensureKind, hsource.dtype, if_neg h, bind, Except.bind]
  | numbers hkind h =>
    simp only [indexAdd, ensureKind, hsource.dtype, if_pos hkind, h, bind, Except.bind]
  | count hkind hrows h =>
    simp only [indexAdd, ensureKind, Tensor.count, hsource.dtype, hsource.shape, if_pos hkind,
      hrows, if_pos h, bind, Except.bind]
    rfl
  | span hkind hrows hcount h =>
    have hs : source.count = s'.size := by rw [Tensor.count, hsource.shape]
    rw [← hs] at hcount h
    simp only [indexAdd, ensureKind, hsource.dtype, if_pos hkind, hrows,
      if_neg (not_not.mpr hcount), reshape_refused hcount h, bind, Except.bind]
  | byte hkind hrows hsize hspan h =>
    subst hkind
    have hcount := (Shape.numel_of_addressable hspan).trans hsize
    rcases reshape_ok _ hsource hsize hspan with ⟨r, hr, hmatch, -⟩
    rcases hmatch.exists_array with ⟨b, rb, rfl, -⟩
    simp only [indexAdd, ensureKind, Tensor.count, hsource.dtype, hsource.shape, hrows,
      if_neg (not_not.mpr hcount), hr, elements_mk, if_true, bind, Except.bind]
    rw [if_pos h]
    rfl

/-- Rows that are added, where nothing stands against it. -/
theorem indexAdd_ok {rows : List (Fin n)} (ht : t.Matches d (n :: tail))
    (hsource : source.Matches d s') (hrows : indices.rowNumbers n = .ok rows)
    (hsize : Shape.size (rows.length :: tail) = s'.size)
    (hspan : Shape.Addressable (rows.length :: tail)) (hbyte : d ≠ .uint8) :
    ∃ r, t.indexAdd indices source = .ok r ∧ r.Matches d (n :: tail) ∧
      ∀ row j, row < n → Shape.Within j tail →
        r.entry d (row :: j)
          = scatterSum row (fun k => source.itemAt d (k * tail.size + tail.ravel j))
              indices.rowList 0 (t.entry d (row :: j)) := by
  rcases ht.exists_array with ⟨⟨shape, data, hdata⟩, ra, rfl, hshape⟩
  obtain rfl : shape = n :: tail := hshape
  rcases reshape_ok _ hsource hsize hspan with ⟨r, hr, hmatch, -⟩
  -- The source is read by position, which its arrangement does not change.
  have hitem : ∀ k, r.itemAt d k = source.itemAt d k := itemAt_reshape hr
  rcases hmatch.exists_array with ⟨b, rb, rfl, -⟩
  let a : DenseArray d.Elem := ⟨n :: tail, data, hdata⟩
  refine ⟨⟨d, a.addRows rfl rows b, ra⟩, ?_, ⟨rfl, rfl⟩, fun row j hrow hj => ?_⟩
  · have hcount := (Shape.numel_of_addressable hspan).trans hsize
    simp only [indexAdd, ensureKind, count, hsource.dtype, hsource.shape, hrows,
      if_neg (not_not.mpr hcount), hr, elements_mk, if_true, bind, Except.bind]
    rw [if_neg hbyte]
    rfl
  · refine (entry_mk (a.addRows rfl rows b) ra (row :: j)).trans ?_
    rw [DenseArray.get_addRows a rfl rows b hrow hj, rowNumbers_spec hrows, entry_mk]
    simp only [← hitem, itemAt_mk]
    rfl

/-- Whether rows are refused is decided by the checks in their order, and none of them
    looks at an element of the source. -/
theorem scatterFault_or_admitted (indices : Tensor) (d : DType) (n : Nat) (tail : Shape)
    (d' : DType) (s' : Shape) :
    (∃ e, ScatterFault indices d n tail d' s' e) ∨
    (d' = d ∧ ∃ rows : List (Fin n), indices.rowNumbers n = .ok rows ∧
      Shape.size (rows.length :: tail) = s'.size ∧ Shape.Addressable (rows.length :: tail) ∧
      d ≠ .uint8) := by
  by_cases hkind : d' = d
  · cases hrows : indices.rowNumbers n with
    | error e => exact .inl ⟨e, .numbers hkind hrows⟩
    | ok rows =>
      by_cases hcount : Shape.numel (rows.length :: tail) = s'.size
      · by_cases hfits : Shape.size (rows.length :: tail) = s'.size ∧
          Shape.Addressable (rows.length :: tail)
        · by_cases hbyte : d = .uint8
          · exact .inl ⟨_, .byte hkind hrows hfits.1 hfits.2 hbyte⟩
          · exact .inr ⟨hkind, rows, rfl, hfits.1, hfits.2, hbyte⟩
        · exact .inl ⟨_, .span hkind hrows hcount hfits⟩
      · exact .inl ⟨_, .count hkind hrows hcount⟩
  · exact .inl ⟨_, .kind hkind⟩

/-- Rows of a kind and a shape are all refused for one reason, or all of them are
    added. -/
theorem indexAdd_cases (ht : t.Matches d (n :: tail)) (indices : Tensor) (d' : DType)
    (s' : Shape) :
    (∃ e, ScatterFault indices d n tail d' s' e) ∨
    (d' = d ∧ ∀ source : Tensor, source.Matches d s' →
      ∃ r, t.indexAdd indices source = .ok r ∧ r.Matches d (n :: tail) ∧
        ∀ row j, row < n → Shape.Within j tail →
          r.entry d (row :: j)
            = scatterSum row (fun k => source.itemAt d (k * tail.size + tail.ravel j))
                indices.rowList 0 (t.entry d (row :: j))) := by
  rcases scatterFault_or_admitted indices d n tail d' s' with
    hfault | ⟨hkind, rows, hrows, hsize, hspan, hbyte⟩
  · exact .inl hfault
  · exact .inr ⟨hkind, fun source hsource => indexAdd_ok ht hsource hrows hsize hspan hbyte⟩

end Scattering

end Tensor

end GraphAttention
