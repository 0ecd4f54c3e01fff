import GraphAttention.Proofs.Selecting

/-!
# Scatters Whole and in Parts

Which scatters succeed, what they leave in each row, and that they may be cut into two.

A scatter adds one row of the source after another, and a row of the result has what was
there before and then, in their order, the rows of the source with its number. No sum is
rearranged on the way, so all of this holds of floating numbers as it does of integers.
It is also why numbers and rows that come in two parts may be added part by part. The
second part takes up the sums where the first left them.

The source is looked at by row-major position only, and how it is arranged does not
matter. It has to be laid out as one row for each number, however, and this is refused
where the rows have no elements but axes of a length that no buffer has. In a whole
that can happen where it does not happen in the parts.

## Main definitions

* `Tensor.items`: The elements in row-major order.
* `Tensor.Appends`: A tensor with the elements of two others.
* `Tensor.Admits`: What it takes to add rows.

## Theorems

* `scatterSum_rowList`: What a row receives, by the places with its number.
* `addressable_of_pos`: Rows that have elements can be laid out.
* `indexAdd_ok_iff`, `Admits.added`, `indexAdd_entries`: When rows are added, and what comes
  of it.
* `admits_append`, `scatterSum_appends`, `indexAdd_append`: Rows added in two parts.
* `indexAdd_accumulates`: Scatters of any source into any tensor.
* `not_forall_indexAdd_ok`: Rows without elements may be refused.
-/

namespace GraphAttention

namespace Tensor

variable {d : DType} {t u r indices source : Tensor} {n : Nat} {s tail : Shape}

/-! ### Elements in order -/

/-- The elements in row-major order, read at a kind. -/
def items (t : Tensor) (d : DType) : List d.Elem := (List.range t.count).map (t.itemAt d)

@[simp] theorem length_items (t : Tensor) (d : DType) : (t.items d).length = t.count := by
  simp [items]

theorem items_getElem? {k : Nat} (hk : k < t.count) : (t.items d)[k]? = some (t.itemAt d k) := by
  simp [items, hk]

/-- A tensor that has the elements of one tensor and after them those of another, in
    row-major order and under any shape. All three are of one kind. -/
structure Appends (first second whole : Tensor) : Prop where
  kind_second : second.dtype = first.dtype
  kind_whole : whole.dtype = first.dtype
  elements : whole.items first.dtype = first.items first.dtype ++ second.items first.dtype

namespace Appends

variable {first second whole : Tensor}

theorem count (h : Appends first second whole) : whole.count = first.count + second.count := by
  have hlength := congrArg List.length h.elements
  simpa using hlength

theorem itemAt_first (h : Appends first second whole) (hd : first.dtype = d) {k : Nat}
    (hk : k < first.count) : whole.itemAt d k = first.itemAt d k := by
  subst hd
  have hwhole : k < whole.count := by
    rw [h.count]
    omega
  have hread := items_getElem? (d := first.dtype) hwhole
  rw [h.elements, List.getElem?_append_left (by rwa [length_items]), items_getElem? hk] at hread
  exact (Option.some.inj hread).symm

theorem itemAt_second (h : Appends first second whole) (hd : first.dtype = d) {k : Nat}
    (hk : k < second.count) : whole.itemAt d (first.count + k) = second.itemAt d k := by
  subst hd
  have hwhole : first.count + k < whole.count := by
    rw [h.count]
    omega
  have hread := items_getElem? (d := first.dtype) hwhole
  rw [h.elements, List.getElem?_append_right (by rw [length_items]; omega), length_items,
    Nat.add_sub_cancel_left, items_getElem? hk] at hread
  exact (Option.some.inj hread).symm

/-- All numbers of two lists name rows when those of each do. -/
theorem names_iff (h : Appends first second whole) (hd : first.dtype = .int64) :
    whole.Names n ↔ first.Names n ∧ second.Names n := by
  constructor
  · intro hnames
    refine ⟨fun k hk => ?_, fun k hk => ?_⟩
    · have hk' := hnames k (by rw [h.count]; omega)
      rwa [h.itemAt_first hd hk] at hk'
    · have hk' := hnames (first.count + k) (by rw [h.count]; omega)
      rwa [h.itemAt_second hd hk] at hk'
  · rintro ⟨hfirst, hsecond⟩ k hk
    rw [h.count] at hk
    rcases Nat.lt_or_ge k first.count with hlt | hge
    · rw [h.itemAt_first hd hlt]
      exact hfirst k hlt
    · obtain ⟨i, rfl⟩ := Nat.exists_eq_add_of_le hge
      have hi : i < second.count := by omega
      rw [h.itemAt_second hd hi]
      exact hsecond i hi

end Appends

/-! ### What a row receives -/

/-- The numbers by the places where they stand. -/
theorem rowList_eq_map (hi : indices.dtype = .int64) :
    indices.rowList
      = (List.range indices.count).map fun k => (indices.itemAt .int64 k).toInt.toNat := by
  have hM : indices.Matches .int64 indices.shape := ⟨hi, rfl⟩
  refine List.ext_getElem? fun k => ?_
  by_cases hk : k < indices.count
  · rw [rowList_getElem? hM hk]
    simp [hk]
  · have hlength : indices.rowList.length ≤ k := by
      rw [length_rowList hM]
      exact Nat.le_of_not_lt hk
    rw [List.getElem?_eq_none hlength, List.getElem?_eq_none (by simpa using hk)]

/-- The numbers of two tensors one after another. -/
theorem Appends.rowList {first second whole : Tensor} (h : Appends first second whole)
    (hd : first.dtype = .int64) : whole.rowList = first.rowList ++ second.rowList := by
  have hmap := congrArg (List.map fun i : Int64 => i.toInt.toNat) (hd ▸ h.elements)
  rw [List.map_append] at hmap
  simpa only [items, List.map_map, Function.comp_def, ← rowList_eq_map hd,
    ← rowList_eq_map (h.kind_second.trans hd), ← rowList_eq_map (h.kind_whole.trans hd)] using hmap

/-- What a row receives is a sum over the places with its number, in their order. -/
theorem scatterSum_rowList {α : Type} [Add α] (hi : indices.dtype = .int64)
    (hnames : indices.Names n) (row : Nat) (f : Nat → α) (acc : α) :
    scatterSum row f indices.rowList 0 acc
      = ((List.range indices.count).filter fun k => (indices.itemAt .int64 k).toInt = row).foldl
          (fun sum k => sum + f k) acc := by
  have hplaces : (List.range indices.count).map id
      = List.range' 0 (List.range indices.count).length := by
    rw [List.map_id, List.length_range, List.range_eq_range']
  -- A number that names a row is not negative, so nothing is lost in counting from zero.
  have hkey : ∀ k ∈ List.range indices.count,
      decide ((indices.itemAt .int64 k).toInt.toNat = row)
        = decide ((indices.itemAt .int64 k).toInt = row) := by
    intro k hk
    have hnamed := (hnames k (List.mem_range.mp hk)).1
    refine decide_eq_decide.mpr ?_
    omega
  rw [rowList_eq_map hi, scatterSum_map _ id f _ acc hplaces, List.filter_congr hkey]
  rfl

/-! ### When rows are added -/

/-- What it takes to add the rows of a source to a tensor with `n` rows: one kind that can be
    added, integers that name rows, and elements for each of them that can be laid out as
    rows. -/
structure Admits (t indices source : Tensor) (n : Nat) (tail : Shape) : Prop where
  shape : t.shape = n :: tail
  kind : source.dtype = t.dtype
  numbers : indices.dtype = .int64
  names : indices.Names n
  count : source.count = indices.count * tail.size
  span : Shape.Addressable (indices.count :: tail)
  served : t.dtype ≠ .uint8

/-- Where there is something to add, the rows of a source can be laid out. -/
theorem addressable_of_pos (ht : t.shape = n :: tail) (hpos : 0 < tail.size)
    (hcount : source.count = indices.count * tail.size) :
    Shape.Addressable (indices.count :: tail) := by
  have hroom := t.room.1
  change Shape.Addressable t.shape at hroom
  rw [ht] at hroom
  refine Shape.addressable_rows hroom hpos ?_
  rw [← hcount]
  exact source.count_le

/-- Which rows are admitted depends on the tensor through its kind and its shape only. -/
theorem Admits.of_matches (h : t.Admits indices source n tail)
    (hr : r.Matches t.dtype (n :: tail)) :
    r.Admits indices source n tail :=
  ⟨hr.shape, h.kind.trans hr.dtype.symm, h.numbers, h.names, h.count, h.span, hr.dtype ▸ h.served⟩

/-- Rows that are admitted are added, in the order of their numbers. -/
theorem Admits.added (h : t.Admits indices source n tail) :
    ∃ r, t.indexAdd indices source = .ok r ∧ r.Matches t.dtype (n :: tail) ∧
      ∀ row j, row < n → Shape.Within j tail →
        r.entry t.dtype (row :: j)
          = scatterSum row (fun k => source.itemAt t.dtype (k * tail.size + tail.ravel j))
              indices.rowList 0 (t.entry t.dtype (row :: j)) := by
  rcases rowNumbers_ok h.numbers h.names with ⟨rows, hrows⟩
  have hlength : rows.length = indices.count := length_rowNumbers ⟨h.numbers, rfl⟩ hrows
  refine indexAdd_ok ⟨rfl, h.shape⟩ ⟨h.kind, rfl⟩ hrows ?_ ?_ h.served
  · rw [Shape.size_cons, hlength]
    exact h.count.symm
  · rw [hlength]
    exact h.span

/-- Rows are added if and only if they are admitted. -/
theorem indexAdd_ok_iff :
    (∃ r, t.indexAdd indices source = .ok r) ↔ ∃ n tail, t.Admits indices source n tail := by
  constructor
  · rintro ⟨r, hr⟩
    cases hshape : t.shape with
    | nil =>
      -- A tensor without axes has no rows.
      unfold indexAdd at hr
      split at hr
      · cases hr
      · rename_i n tail hrows
        rw [shape, hrows] at hshape
        cases hshape
    | cons n tail =>
      have ht : t.Matches t.dtype (n :: tail) := ⟨rfl, hshape⟩
      rcases scatterFault_or_admitted indices t.dtype n tail source.dtype source.shape with
        ⟨e, hfault⟩ | ⟨hkind, rows, hrows, hsize, hspan, hserved⟩
      · rw [indexAdd_error ht ⟨rfl, rfl⟩ hfault] at hr
        cases hr
      · rcases rowNumbers_ok_iff.mp ⟨rows, hrows⟩ with ⟨hnumbers, hnames⟩
        have hlength : rows.length = indices.count := length_rowNumbers ⟨hnumbers, rfl⟩ hrows
        rw [hlength] at hsize hspan
        exact ⟨n, tail, hshape, hkind, hnumbers, hnames, hsize.symm, hspan, hserved⟩
  · rintro ⟨n, tail, h⟩
    rcases h.added with ⟨r, hr, -⟩
    exact ⟨r, hr⟩

/-- The same for a tensor whose rows are known. -/
theorem admits_of_ok (ht : t.shape = n :: tail) (h : t.indexAdd indices source = .ok r) :
    t.Admits indices source n tail := by
  rcases indexAdd_ok_iff.mp ⟨r, h⟩ with ⟨n', tail', hadmits⟩
  obtain ⟨rfl, rfl⟩ := List.cons.inj (ht.symm.trans hadmits.shape)
  exact hadmits

/-- What is known of a scatter that has succeeded. -/
theorem indexAdd_entries (ht : t.shape = n :: tail) (h : t.indexAdd indices source = .ok r) :
    r.Matches t.dtype (n :: tail) ∧ ∀ row j, row < n → Shape.Within j tail →
      r.entry t.dtype (row :: j)
        = scatterSum row (fun k => source.itemAt t.dtype (k * tail.size + tail.ravel j))
            indices.rowList 0 (t.entry t.dtype (row :: j)) := by
  rcases (admits_of_ok ht h).added with ⟨r', hr', hresult⟩
  rw [h] at hr'
  cases hr'
  exact hresult

/-! ### Rows in two parts -/

section Parts

variable {i₁ i₂ s₁ s₂ : Tensor}

/-- A whole is admitted if it can be laid out and its parts are admitted. -/
theorem admits_append (hi : Appends i₁ i₂ indices) (hs : Appends s₁ s₂ source)
    (hcount : s₁.count = i₁.count * tail.size) :
    t.Admits indices source n tail ↔
      Shape.Addressable (indices.count :: tail) ∧ t.Admits i₁ s₁ n tail ∧
        t.Admits i₂ s₂ n tail := by
  have hleft : i₁.count ≤ indices.count := by
    rw [hi.count]
    omega
  have hright : i₂.count ≤ indices.count := by
    rw [hi.count]
    omega
  constructor
  · intro h
    have hkind : s₁.dtype = t.dtype := hs.kind_whole.symm.trans h.kind
    have hnumbers : i₁.dtype = .int64 := hi.kind_whole.symm.trans h.numbers
    rcases (hi.names_iff hnumbers).mp h.names with ⟨hnames₁, hnames₂⟩
    have hrest : s₂.count = i₂.count * tail.size := by
      have hsum := h.count
      rw [hs.count, hi.count, hcount, Nat.add_mul] at hsum
      exact Nat.add_left_cancel hsum
    exact ⟨h.span,
      ⟨h.shape, hkind, hnumbers, hnames₁, hcount, Shape.addressable_fewer hleft h.span, h.served⟩,
      ⟨h.shape, hs.kind_second.trans hkind, hi.kind_second.trans hnumbers, hnames₂, hrest,
        Shape.addressable_fewer hright h.span, h.served⟩⟩
  · rintro ⟨hspan, h₁, h₂⟩
    have hsum : source.count = indices.count * tail.size := by
      rw [hs.count, hi.count, h₁.count, h₂.count, Nat.add_mul]
    exact ⟨h₁.shape, hs.kind_whole.trans h₁.kind, hi.kind_whole.trans h₁.numbers,
      (hi.names_iff h₁.numbers).mpr ⟨h₁.names, h₂.names⟩, hsum, hspan, h₁.served⟩

/-- What a row receives from the whole is what it receives from the second part after the
    first. -/
theorem scatterSum_appends {row b : Nat} (hi : Appends i₁ i₂ indices) (hs : Appends s₁ s₂ source)
    (hnumbers : i₁.dtype = .int64) (hd : s₁.dtype = d) (hb : b < tail.size)
    (h₁ : s₁.count = i₁.count * tail.size) (h₂ : s₂.count = i₂.count * tail.size) (acc : d.Elem) :
    scatterSum row (fun k => source.itemAt d (k * tail.size + b)) indices.rowList 0 acc
      = scatterSum row (fun k => s₂.itemAt d (k * tail.size + b)) i₂.rowList 0
          (scatterSum row (fun k => s₁.itemAt d (k * tail.size + b)) i₁.rowList 0 acc) := by
  have hM₁ : i₁.Matches .int64 i₁.shape := ⟨hnumbers, rfl⟩
  have hM₂ : i₂.Matches .int64 i₂.shape := ⟨hi.kind_second.trans hnumbers, rfl⟩
  have hlength₁ : i₁.rowList.length = i₁.count := length_rowList hM₁
  have hlength₂ : i₂.rowList.length = i₂.count := length_rowList hM₂
  rw [hi.rowList hnumbers, scatterSum_append, hlength₁, Nat.add_comm 0, scatterSum_shift]
  -- Each place of the whole is a place of one of the parts.
  have hfirst : scatterSum row (fun k => source.itemAt d (k * tail.size + b)) i₁.rowList 0 acc
      = scatterSum row (fun k => s₁.itemAt d (k * tail.size + b)) i₁.rowList 0 acc := by
    refine scatterSum_congr _ _ fun k hk => ?_
    have hk : k < i₁.count := hlength₁ ▸ (List.getElem?_eq_some_iff.mp hk).1
    rw [Nat.zero_add]
    refine hs.itemAt_first hd ?_
    rw [h₁]
    exact Shape.fold_lt hk hb
  rw [hfirst]
  refine scatterSum_congr _ _ fun k hk => ?_
  have hk : k < i₂.count := hlength₂ ▸ (List.getElem?_eq_some_iff.mp hk).1
  have hplace : (i₁.count + (0 + k)) * tail.size + b = s₁.count + (k * tail.size + b) := by
    rw [h₁, Nat.zero_add, Nat.add_mul, Nat.add_assoc]
  rw [hplace, Nat.zero_add]
  refine hs.itemAt_second hd ?_
  rw [h₂]
  exact Shape.fold_lt hk hb

/-- The result for the whole is the result for the second part after the first. -/
theorem indexAdd_parts {r₁ r₂ : Tensor} (ht : t.shape = n :: tail) (hi : Appends i₁ i₂ indices)
    (hs : Appends s₁ s₂ source) (hr : t.indexAdd indices source = .ok r)
    (hr₁ : t.indexAdd i₁ s₁ = .ok r₁) (hr₂ : r₁.indexAdd i₂ s₂ = .ok r₂) : r = r₂ := by
  rcases indexAdd_entries ht hr with ⟨hM, hE⟩
  rcases indexAdd_entries ht hr₁ with ⟨hM₁, hE₁⟩
  rcases indexAdd_entries hM₁.shape hr₂ with ⟨hM₂, hE₂⟩
  have h₁ := admits_of_ok ht hr₁
  have h₂ := admits_of_ok hM₁.shape hr₂
  rw [hM₁.dtype] at hM₂ hE₂
  refine ext_entry hM hM₂ fun idx hidx => ?_
  rcases idx with _ | ⟨row, j⟩
  · exact hidx.elim
  · rw [hE row j hidx.1 hidx.2, hE₂ row j hidx.1 hidx.2, hE₁ row j hidx.1 hidx.2]
    exact scatterSum_appends hi hs h₁.numbers h₁.kind (Shape.ravel_lt hidx.2) h₁.count h₂.count _

/-- Rows that can be laid out as a whole may be added in two parts, one after the other. -/
theorem indexAdd_append (ht : t.shape = n :: tail) (hi : Appends i₁ i₂ indices)
    (hs : Appends s₁ s₂ source) (hcount : s₁.count = i₁.count * tail.size) :
    t.indexAdd indices source = .ok r ↔
      Shape.Addressable (indices.count :: tail) ∧
        ∃ r₁, t.indexAdd i₁ s₁ = .ok r₁ ∧ r₁.indexAdd i₂ s₂ = .ok r := by
  constructor
  · intro hr
    rcases (admits_append hi hs hcount).mp (admits_of_ok ht hr) with ⟨hspan, h₁, h₂⟩
    rcases h₁.added with ⟨r₁, hr₁, hM₁, -⟩
    rcases (h₂.of_matches hM₁).added with ⟨r₂, hr₂, -⟩
    obtain rfl := indexAdd_parts ht hi hs hr hr₁ hr₂
    exact ⟨hspan, r₁, hr₁, hr₂⟩
  · rintro ⟨hspan, r₁, hr₁, hr₂⟩
    -- What the first part left has the kind and the shape of the tensor.
    have hM₁ := (indexAdd_entries ht hr₁).1
    have h₂ := (admits_of_ok hM₁.shape hr₂).of_matches ⟨hM₁.dtype.symm, ht⟩
    have h := (admits_append hi hs hcount).mpr ⟨hspan, admits_of_ok ht hr₁, h₂⟩
    rcases h.added with ⟨r', hr', -⟩
    obtain rfl := indexAdd_parts ht hi hs hr' hr₁ hr₂
    exact hr'

end Parts

/-- Scatters of any source into any tensor. They succeed when rows are admitted; a row of the
    result has what it had, and then the rows of the source with its number in their order;
    and numbers and rows may come in two parts. -/
theorem indexAdd_accumulates (t indices source : Tensor) :
    ((∃ r, t.indexAdd indices source = .ok r) ↔ ∃ n tail, t.Admits indices source n tail) ∧
    ∀ (n : Nat) (tail : Shape), t.shape = n :: tail →
      (0 < tail.size → source.count = indices.count * tail.size →
        Shape.Addressable (indices.count :: tail)) ∧
      (∀ r, t.indexAdd indices source = .ok r →
        r.Matches t.dtype t.shape ∧
        ∀ row j, row < n → Shape.Within j tail →
          r.entry t.dtype (row :: j)
            = ((List.range indices.count).filter
                fun k => (indices.itemAt .int64 k).toInt = row).foldl
                (fun sum k => sum + source.itemAt t.dtype (k * tail.size + tail.ravel j))
                (t.entry t.dtype (row :: j)) ∧
          ((∀ k, k < indices.count → (indices.itemAt .int64 k).toInt ≠ row) →
            r.entry t.dtype (row :: j) = t.entry t.dtype (row :: j))) ∧
      ∀ i₁ i₂ s₁ s₂ : Tensor, Appends i₁ i₂ indices → Appends s₁ s₂ source →
        s₁.count = i₁.count * tail.size → ∀ r,
          t.indexAdd indices source = .ok r ↔
            Shape.Addressable (indices.count :: tail) ∧
              ∃ r₁, t.indexAdd i₁ s₁ = .ok r₁ ∧ r₁.indexAdd i₂ s₂ = .ok r := by
  refine ⟨indexAdd_ok_iff, fun n tail ht => ⟨addressable_of_pos ht, fun r hr => ?_, ?_⟩⟩
  · have h := admits_of_ok ht hr
    rcases indexAdd_entries ht hr with ⟨hM, hE⟩
    refine ⟨ht ▸ hM, fun row j hrow hj => ?_⟩
    have hsum := hE row j hrow hj
    rw [scatterSum_rowList h.numbers h.names] at hsum
    refine ⟨hsum, fun hnone => ?_⟩
    -- Without a place that has its number a row receives nothing.
    have hempty : ((List.range indices.count).filter
        fun k => (indices.itemAt .int64 k).toInt = row) = [] := by
      refine List.filter_eq_nil_iff.mpr fun k hk => ?_
      simpa using hnone k (List.mem_range.mp hk)
    rw [hsum, hempty]
    rfl
  · intro i₁ i₂ s₁ s₂ hi hs hcount r
    exact indexAdd_append ht hi hs hcount

/-- Three rows of floating numbers added to three others, two of them first and then the
    third, to a row that has received one already. -/
theorem indexAdd_accumulates_twoParts :
    ∃ t i₁ i₂ i s₁ s₂ s r₁ r : Tensor, Appends i₁ i₂ i ∧ Appends s₁ s₂ s ∧
      i.items .int64 = [2, 0, 2] ∧ t.indexAdd i s = .ok r ∧
      t.indexAdd i₁ s₁ = .ok r₁ ∧ r₁.indexAdd i₂ s₂ = .ok r ∧
      r.entry .float64 [1, 0] = t.entry .float64 [1, 0] := by
  let t : Tensor := ⟨.float64, .fill [3, 2] 1, by decide⟩
  let i₁ : Tensor := ⟨.int64, ⟨[2], #[2, 0], rfl⟩, by decide⟩
  let i₂ : Tensor := ⟨.int64, ⟨[1, 1], #[2], rfl⟩, by decide⟩
  let i : Tensor := ⟨.int64, ⟨[3], #[2, 0, 2], rfl⟩, by decide⟩
  let tenth : Binary64 := ⟨0x3fb999999999999a⟩
  let s₁ : Tensor := ⟨.float64, .fill [2, 2] 1, by decide⟩
  let s₂ : Tensor := ⟨.float64, .fill [2] tenth, by decide⟩
  let s : Tensor := ⟨.float64, .generate [3, 2] fun k => if k < 4 then 1 else tenth, by decide⟩
  have hi : Appends i₁ i₂ i := ⟨rfl, rfl, by decide +kernel⟩
  have hs : Appends s₁ s₂ s := ⟨rfl, rfl, by decide +kernel⟩
  rcases indexAdd_accumulates t i s with ⟨hok, hrows⟩
  rcases hrows 3 [2] rfl with ⟨hspan, hentries, hparts⟩
  have hadmits : t.Admits i s 3 [2] :=
    ⟨rfl, rfl, rfl, by decide +kernel, rfl, hspan (by decide) rfl, by decide⟩
  rcases hok.mpr ⟨3, [2], hadmits⟩ with ⟨r, hr⟩
  rcases ((hparts i₁ i₂ s₁ s₂ hi hs rfl r).mp hr).2 with ⟨r₁, hr₁, hr₂⟩
  refine ⟨t, i₁, i₂, i, s₁, s₂, s, r₁, r, hi, hs, by decide +kernel, hr, hr₁, hr₂, ?_⟩
  refine (((hentries r hr).2 1 [0] (by decide) (by decide)).2 ?_)
  decide +kernel

/-- Everything else is not enough where rows have no elements: they still have to be laid
    out. -/
theorem not_forall_indexAdd_ok :
    ¬ ∀ (t indices source : Tensor) (n : Nat) (tail : Shape), t.shape = n :: tail →
      source.dtype = t.dtype → indices.dtype = .int64 → indices.Names n →
      source.count = indices.count * tail.size → t.dtype ≠ .uint8 →
      ∃ r, t.indexAdd indices source = .ok r := by
  intro h
  let t : Tensor := ⟨.float64, .fill [1, 0, 4611686018427387904] 0, by decide⟩
  let indices : Tensor := ⟨.int64, .fill [4] 0, by decide⟩
  let source : Tensor := ⟨.float64, .fill [0] 0, by decide⟩
  have hnames : indices.Names 1 := by decide +kernel
  rcases h t indices source 1 [0, 4611686018427387904] rfl rfl rfl hnames rfl (by decide)
    with ⟨r, hr⟩
  -- Four such rows span more than one of them.
  have hroomless : ¬ Shape.Addressable [4, 0, 4611686018427387904] := by decide
  have hadmits : t.Admits indices source 1 [0, 4611686018427387904] := admits_of_ok rfl hr
  exact hroomless hadmits.span

end Tensor

end GraphAttention
