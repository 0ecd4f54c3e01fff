import GraphAttention.Layer.Embedding
import GraphAttention.Proofs.Drawing
import GraphAttention.Proofs.Number.Word

/-!
# Tables and Their Padding Row

A table that is built is of a floating kind and of the size that was asked for. Its
padding row is not overwritten with zeros but multiplied by zero, which makes it zero
where samples are finite. Were one of them infinite, the row would hold what is not a
number, and this is what becomes of a gradient in the same place. What masking does to
a row is therefore stated by itself, for elements of any sort.

Nothing later changes the size of a table. Its data can be replaced, and what is
zero in a row is a property of the data that is put there.

## Main definitions

* `Embedding.WellFormed`: A table as it is built, of any data.
* `Tensor.ZeroRow`: A row of a matrix that is zero, of either sign.
* `Embedding.maskedEntry`: What masking makes of an element.

## Theorems

* `sort_maskedEntry`: A masked element of the padding row is zero, or not a number.
* `maskPadding_ok`, `fits_of_maskPadding`: The mask applied to a matrix.
* `build_yields`, `build_zeroRow`, `build_ok`: Tables as they are built.
* `backward_keeps`: What a gradient keeps.
-/

namespace GraphAttention

open GraphAttention.Action

/-- A row of a matrix is zero, each element with one sign or the other. -/
def Tensor.ZeroRow (d : DType) (row dim : Nat) (t : Tensor) : Prop :=
  ∀ j, j < dim → d.sort (t.entry d [row, j]) = .zero

namespace Embedding

variable {G : Type} [NormalSource G] {d : DType} {e : Embedding} {numRows dim : Nat}
  {paddingRow : Option Nat} {t : Tensor}

/-- A table of a floating kind whose data has its size, and whose padding row is one
    of its rows. There is room for the mask. -/
structure WellFormed (d : DType) (e : Embedding) : Prop where
  isFloat : d.isFloat = true
  weight : e.weight.data.Matches d [e.numRows, e.dim]
  padding : ∀ row, e.paddingRow = some row → row < e.numRows ∧ Shape.Fits 8 [e.numRows]

/-- What masking makes of an element of a row. -/
def maskedEntry (d : DType) (paddingRow : Option Nat) (row : Nat) (x : d.Elem) : d.Elem :=
  match paddingRow with
  | none => x
  | some padding => x * Scalar.ofFloat (if row = padding then 0 else 1)

/-- A finite element of the padding row is masked to zero, and any other to what is
    not a number. -/
theorem sort_maskedEntry (hd : d.isFloat = true) (row : Nat) (x : d.Elem) :
    d.sort (maskedEntry d (some row) row x)
      = if (d.sort x).isFinite then .zero else .notANumber := by
  rw [maskedEntry, if_pos rfl]
  exact DType.sort_mul_zero hd x (DType.sort_ofFloat_zero hd)

/-- The mask as a column. -/
theorem ofFloats_column (f : Nat → Float) (hfits : Shape.Fits 8 [numRows]) (d : DType) :
    ∃ column, Tensor.ofFloats ((Array.range numRows).map f) [numRows, 1] d = .ok column ∧
      column.Matches d [numRows, 1] ∧
      ∀ row, row < numRows → column.entry d [row, 0] = Scalar.ofFloat (f row) := by
  have hsize : (((Array.range numRows).map f).map (Scalar.ofFloat (α := d.Elem))).size
      = Shape.size [numRows, 1] := by
    simp
  have hroom := Tensor.allocatable_width (d := d) (Shape.allocatable_column (by decide) hfits)
  refine ⟨_, Tensor.ofElements_ok hsize hroom, ⟨rfl, rfl⟩, fun row hrow => ?_⟩
  rw [Tensor.entry_ofElements (Tensor.ofElements_ok hsize hroom)]
  simp [Shape.ravel, hrow]

/-- The mask applied to a matrix. -/
theorem maskPadding_ok (hfits : ∀ row, paddingRow = some row → Shape.Fits 8 [numRows])
    (ht : t.Matches d [numRows, dim]) :
    ∃ r, maskPadding numRows paddingRow t = .ok r ∧ r.Matches d [numRows, dim] ∧
      ∀ i j, i < numRows → j < dim →
        r.entry d [i, j] = maskedEntry d paddingRow i (t.entry d [i, j]) := by
  cases paddingRow with
  | none => exact ⟨t, rfl, ht, fun _ _ _ _ => rfl⟩
  | some padding =>
    have hgather : Tensor.ensureGatherable numRows [numRows] = .ok () :=
      if_pos (hfits padding rfl)
    rcases ofFloats_column (fun row => if row = padding then (0 : Float) else 1)
      (hfits padding rfl) d with ⟨column, hcolumn, hcmatch, hcentry⟩
    rcases Tensor.combine_column_ok (fun _ x y => x * y) ht hcmatch with
      ⟨r, hr, hmatch, hentry⟩
    refine ⟨r, ?_, hmatch, fun i j hi hj => ?_⟩
    · rw [← ht.dtype] at hcolumn
      simp only [maskPadding, hgather, hcolumn, bind, Except.bind]
      exact hr
    · rw [hentry i j hi hj, hcentry i hi]
      rfl

/-- A mask that was applied had room. -/
theorem fits_of_maskPadding {r : Tensor} (h : maskPadding numRows paddingRow t = .ok r) :
    ∀ row, paddingRow = some row → Shape.Fits 8 [numRows] := by
  intro row hrow
  by_contra hfits
  have hgather : Tensor.ensureGatherable numRows [numRows]
      = .error (.unaddressable [numRows]) := if_neg hfits
  subst hrow
  simp only [maskPadding, hgather, bind, Except.bind] at h
  cases h

/-- A table is made of a tensor that was drawn and then masked. -/
theorem yields_build {P : Tensor → Prop}
    (hdraw : Yields (Tensor.randNormal [numRows, dim] d : Action G TensorError Tensor) P)
    {Q : Embedding → Prop}
    (h : (∀ row, paddingRow = some row → row < numRows) → ∀ drawn weight, P drawn →
      maskPadding numRows paddingRow drawn = .ok weight →
        Q ⟨numRows, dim, paddingRow, .trainable weight⟩) :
    Yields (build numRows dim paddingRow d : Action G ModuleError Embedding) Q := by
  -- What follows the check of the padding row does not depend on it, so it comes first.
  have htable : (∀ row, paddingRow = some row → row < numRows) → Yields (do
      let drawn ← mapError .tensor (Tensor.randNormal [numRows, dim] d)
      let weight ← attempt ((maskPadding numRows paddingRow drawn).mapError .tensor)
      return ⟨numRows, dim, paddingRow, .trainable weight⟩ : Action G ModuleError Embedding) Q := by
    intro hrow
    refine Yields.bind (hdraw.mapError _) fun drawn hdrawn => ?_
    refine Yields.bind (R := fun weight => maskPadding numRows paddingRow drawn = .ok weight)
      (yields_attempt fun weight hweight => ?_) fun weight hweight =>
        yields_pure (h hrow drawn weight hdrawn hweight)
    cases hmask : maskPadding numRows paddingRow drawn with
    | error x =>
      rw [hmask] at hweight
      cases hweight
    | ok r =>
      rw [hmask] at hweight
      cases hweight
      rfl
  unfold build
  cases paddingRow with
  | none => exact htable nofun
  | some row =>
    by_cases hrow : numRows ≤ row
    · -- The check fails, and nothing is handed back.
      intro g e g' hrun
      simp only [hrow, if_true, run_bind, run_throw] at hrun
      cases hrun
    · have hdrawn := htable fun _ h => by cases h; omega
      simp only [hrow, if_false]
      exact hdrawn

/-- A table that was built is well-formed, as large as was asked for, and learned from the
    start. -/
theorem build_yields (numRows dim : Nat) (paddingRow : Option Nat) (d : DType) :
    Yields (build numRows dim paddingRow d : Action G ModuleError Embedding) fun e =>
      ∃ weight, e = ⟨numRows, dim, paddingRow, .trainable weight⟩ ∧ e.WellFormed d := by
  refine yields_build (Tensor.randNormal_yields _ _) fun hrow drawn weight hdrawn hweight => ?_
  rcases hdrawn with ⟨hd, -, hmatch⟩
  have hfits := fits_of_maskPadding hweight
  rcases maskPadding_ok hfits hmatch with ⟨r, hr, hrmatch, -⟩
  rw [hweight] at hr
  cases hr
  exact ⟨weight, rfl, hd, hrmatch, fun row hpad => ⟨hrow row hpad, hfits row hpad⟩⟩

/-- Where samples are finite, the padding row of a table that was built is zero. -/
theorem build_zeroRow (hsamples : NormalSource.Finite G) (numRows dim : Nat)
    (paddingRow : Option Nat) (d : DType) :
    Yields (build numRows dim paddingRow d : Action G ModuleError Embedding) fun e =>
      ∀ row, paddingRow = some row → e.weight.data.ZeroRow d row dim := by
  have hdraw : Yields (Tensor.randNormal [numRows, dim] d : Action G TensorError Tensor)
      fun t => (d.isFloat = true ∧ t.Matches d [numRows, dim]) ∧
        ∀ idx, Shape.Within idx [numRows, dim] → Scalar.isFinite (t.entry d idx) = true := by
    intro g t g' hrun
    rcases Tensor.randNormal_yields _ _ g t g' hrun with ⟨hd, -, hmatch⟩
    exact ⟨⟨hd, hmatch⟩, Tensor.randNormal_finite hsamples _ _ g t g' hrun⟩
  refine yields_build hdraw fun hrow drawn weight hdrawn hweight row hpad j hj => ?_
  rcases hdrawn with ⟨⟨hd, hmatch⟩, hfinite⟩
  rcases maskPadding_ok (fits_of_maskPadding hweight) hmatch with ⟨r, hr, -, hentry⟩
  rw [hweight] at hr
  cases hr
  -- The samples are finite, so multiplying by zero leaves nothing of them.
  have hsample := hfinite [row, j] (by simp [hrow row hpad, hj])
  rw [DType.isFinite_eq_sort hd] at hsample
  have hzero := hentry row j (hrow row hpad) hj
  rw [hpad] at hzero
  exact (congrArg d.sort hzero).trans ((sort_maskedEntry hd row _).trans (if_pos hsample))

/-- A table of a floating kind is built where there is room for it. -/
theorem build_ok (hd : d.isFloat = true) (hrow : ∀ row, paddingRow = some row → row < numRows)
    (hfits : Shape.Fits 8 [numRows]) (hgather : Shape.Fits 8 [numRows, dim])
    (room : Shape.Allocatable d.width [numRows, dim]) (g : G) :
    ∃ e g', build numRows dim paddingRow d g = (.ok e, g') := by
  rcases Tensor.randNormal_ok hd hgather room g with ⟨drawn, g', hdrawn⟩
  have hmatch := (Tensor.randNormal_yields _ _ _ _ _ hdrawn).2.2
  have hmask : ∀ row, paddingRow = some row → Shape.Fits 8 [numRows] := fun _ _ => hfits
  rcases maskPadding_ok hmask hmatch with ⟨weight, hweight, -, -⟩
  cases paddingRow with
  | none =>
    refine ⟨⟨numRows, dim, none, .trainable weight⟩, g', ?_⟩
    simp only [build, run_bind, run_mapError, hdrawn, hweight, run_attempt, run_pure,
      Except.mapError]
  | some row =>
    have hlt : ¬ numRows ≤ row := Nat.not_le.mpr (hrow row rfl)
    refine ⟨⟨numRows, dim, some row, .trainable weight⟩, g', ?_⟩
    simp only [build, hlt, if_false, run_bind, run_mapError, hdrawn, hweight, run_attempt, run_pure,
      Except.mapError]

/-- A gradient changes the weight of a table and nothing else of it. -/
theorem backward_keeps {P : Embedding → Prop} {Q : Parameter → Prop}
    (hQ : ∀ g, Keeps (Parameter.accumulate g) fun t => Q t.value)
    (hread : ∀ e, P e → Q e.weight) (hwrite : ∀ e p, P e → Q p → P { e with weight := p })
    (indices g : Tensor) : Keeps (backward indices g) fun t => P t.value :=
  Keeps.get_bind fun _ _ => Keeps.bind (keeps_attempt _) fun gradient =>
    Keeps.zoom (hQ gradient) (fun t => hread t.value) fun t p => hwrite t.value p.value

end Embedding

end GraphAttention
