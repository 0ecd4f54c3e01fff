import GraphAttention.Proofs.Chains
import GraphAttention.Proofs.Projection

/-!
# Linear Layers on Any Input

A linear layer takes any number of leading axes and has no interest in them. With at
least one input it accepts every tensor of its kind whose last axis holds the inputs,
if there is room for the result, and it computes each row of the result from one row of
the input. How the rows are laid out along the leading axes changes where they stand
and nothing else, so it makes no difference whether axes are folded before or after
the layer.

A layer without inputs is another matter. Every row of its input is empty, and the
number of rows cannot be found by dividing the number of elements. The layer divides by
one in place of zero and finds no rows, whatever the leading axes are. That is right if
the result has no elements either, and in all other cases the layer is refused at the
last step, because its rows are missing.

Room is asked for twice, for the folded product and for the result. The result never
spans less than the product, so the second condition is the one that counts.

## Theorems

* `Tensor.reshape_reshape`: Of two reshapes in a row the second counts.
* `forward_result`, `forward_room`, `forward_entries`: What is known of a success.
* `forward_reshape`: Another arrangement of the rows.
* `forward_inputless`: A layer without inputs makes no rows.
* `forward_ok_iff`: When a layer that is whole succeeds.
* `forward_built`: When a layer as it was built succeeds, and what is wrong without
  inputs.
* `not_forall_forward_built`: The last axis and the kind are not enough.
* `forward_rowwise`: A layer row by row, and under another arrangement of the rows.
* `not_forall_forward_reshape`: Without room the arrangement makes a difference.
-/

namespace GraphAttention

/-- Of two reshapes in a row the second counts, in what it refuses as well. -/
theorem Tensor.reshape_reshape {t r : Tensor} {s : Shape} (h : t.reshape s = .ok r) (s' : Shape) :
    r.reshape s' = t.reshape s' := by
  rcases reshape_eq_ok_iff.mp h with ⟨hsize, hspan, rfl⟩
  have hcount : (t.array.withShape s hsize).shape.size = t.array.shape.size := hsize
  simp only [reshape, hcount, count, shape]
  rfl

namespace Linear

variable {d : DType} {l : Linear} {x y : Tensor}

/-- A layer that succeeds was given a tensor of its kind with its inputs on the last
    axis, and put its outputs in their place. Without inputs there are no elements. -/
theorem forward_result (hl : l.WellFormed d) (h : l.forward x = .ok y) :
    ∃ lead, x.Matches d (lead ++ [l.inFeatures]) ∧ y.Matches d (lead ++ [l.outFeatures]) ∧
      (l.inFeatures = 0 → Shape.size (lead ++ [l.outFeatures]) = 0) := by
  -- The last axis is checked before anything else.
  obtain ⟨lead, hshape⟩ : ∃ lead, x.shape = lead ++ [l.inFeatures] := by
    by_contra hlast
    have hne : x.shape.getLast? ≠ some l.inFeatures := fun heq =>
      hlast ⟨x.shape.dropLast, (List.dropLast_append_getLast? _ heq).symm⟩
    rw [forward_width hne] at h
    cases h
  rw [forward_eq lead hshape rfl] at h
  rcases bind_eq_ok.mp h with ⟨flat, hflat, h⟩
  rcases bind_eq_ok.mp h with ⟨product, hproduct, h⟩
  rcases bind_eq_ok.mp h with ⟨shifted, hshifted, hy⟩
  -- The product is of one kind and has a row for each row of the folded tensor.
  have hflatM := (Tensor.reshape_result hflat).2
  rcases Tensor.matmul_result hproduct with ⟨hkind, m, k, n, hrows, hcolumns, hproductM⟩
  obtain ⟨rfl, rfl⟩ : x.count / max l.inFeatures 1 = m ∧ l.inFeatures = k := by
    simpa using hflatM.shape.symm.trans hrows
  obtain rfl : l.outFeatures = n := by simpa using hl.weight.shape.symm.trans hcolumns
  have hxd : x.dtype = d := by rw [← hflatM.dtype, ← hkind, hl.weight.dtype]
  rw [hflatM.dtype, hxd] at hproductM
  rcases addBias_ok hl hproductM with ⟨shifted', hshifted', hshiftedM, -⟩
  rw [hshifted'] at hshifted
  cases hshifted
  rcases Tensor.reshape_result hy with ⟨hsize, hyM⟩
  refine ⟨lead, ⟨hxd, hshape⟩, ⟨hyM.dtype.trans hshiftedM.dtype, hyM.shape⟩, fun hin => ?_⟩
  rw [hsize, hshiftedM.shape, Tensor.count, hshape, hin]
  simp [Shape.size_append]

/-- There was room for the result of a layer that has succeeded. -/
theorem forward_room {lead : Shape} (hl : l.WellFormed d)
    (hx : x.Matches d (lead ++ [l.inFeatures])) (h : l.forward x = .ok y) :
    Shape.Allocatable d.width (lead ++ [l.outFeatures]) := by
  rcases forward_result hl h with ⟨lead', hx', hyM, -⟩
  obtain ⟨rfl, -⟩ := List.append_inj' (hx.shape.symm.trans hx'.shape) rfl
  exact hyM.room

/-- What stands in the result of a layer that has succeeded. -/
theorem forward_entries {lead : Shape} (hl : l.WellFormed d) (hd : d ≠ .uint8)
    (hin : 0 < l.inFeatures) (hx : x.Matches d (lead ++ [l.inFeatures]))
    (h : l.forward x = .ok y) : y.Matches d (lead ++ [l.outFeatures]) ∧
      ∀ p o, Shape.Within p lead → o < l.outFeatures →
        y.entry d (p ++ [o]) = l.apply d (fun k => x.entry d (p ++ [k])) o := by
  rcases forward_ok hl hd hin lead hx (forward_room hl hx h) with ⟨y', hy', hM, hE⟩
  rw [h] at hy'
  cases hy'
  exact ⟨hM, hE⟩

/-- The rows of a tensor are folded into the same matrix, however they are arranged, and
    what is made of it is unfolded at the end. -/
theorem forward_reshape {x' : Tensor} {lead lead' : Shape} (hin : 0 < l.inFeatures)
    (hx : x.shape = lead ++ [l.inFeatures]) (h : l.forward x = .ok y)
    (hx' : x.reshape (lead' ++ [l.inFeatures]) = .ok x') :
    l.forward x' = y.reshape (lead' ++ [l.outFeatures]) := by
  rcases Tensor.reshape_result hx' with ⟨hsize, hM'⟩
  have hrows : lead'.size = lead.size := by
    rw [hx, Shape.size_append, Shape.size_append, Shape.size_cons, Shape.size_nil] at hsize
    exact Nat.eq_of_mul_eq_mul_right hin (by simpa using hsize)
  rw [forward_eq lead hx (rows_eq hin hx)] at h
  rcases bind_eq_ok.mp h with ⟨flat, hflat, h⟩
  rcases bind_eq_ok.mp h with ⟨product, hproduct, h⟩
  rcases bind_eq_ok.mp h with ⟨shifted, hshifted, hy⟩
  rw [forward_eq lead' hM'.shape (rows_eq hin hM'.shape), hrows, Tensor.reshape_reshape hx',
    Tensor.reshape_reshape hy]
  simp only [hflat, hproduct, hshifted, bind, Except.bind]

/-- A layer without inputs finds no rows, and has only the shape of the result to
    give to what it makes of them. -/
theorem forward_inputless (hl : l.WellFormed d) (hd : d ≠ .uint8) (hin : l.inFeatures = 0)
    {lead : Shape} (hx : x.Matches d (lead ++ [0])) :
    ∃ empty : Tensor, empty.Matches d [0, l.outFeatures] ∧
      l.forward x = empty.reshape (lead ++ [l.outFeatures]) := by
  have hcount : x.count = 0 := by simp [Tensor.count, hx.shape, Shape.size_append]
  have hrows : x.count / max l.inFeatures 1 = 0 := by rw [hcount, Nat.zero_div]
  have hweight : l.weight.data.Matches d [0, l.outFeatures] := hin ▸ hl.weight
  rcases Tensor.reshape_ok [0, 0] hx (by simp [Shape.size_append]) (by decide) with
    ⟨flat, hflat, hflatM, -⟩
  rcases Tensor.matmul_ok hd hflatM hweight hweight.room with ⟨product, hproduct, hproductM, -⟩
  rcases addBias_ok hl hproductM with ⟨shifted, hshifted, hshiftedM, -⟩
  refine ⟨shifted, hshiftedM, ?_⟩
  rw [forward_eq lead (hin.symm ▸ hx.shape) hrows, hin]
  simp only [hflat, hproduct, hshifted, bind, Except.bind]

/-- A layer that is whole succeeds exactly on the tensors of its kind whose last axis
    holds its inputs, if there is room for the result, and without inputs only if the
    result has no elements. -/
theorem forward_ok_iff (hl : l.WellFormed d) (hd : d ≠ .uint8) :
    (∃ y, l.forward x = .ok y) ↔ ∃ lead, x.Matches d (lead ++ [l.inFeatures]) ∧
      Shape.Allocatable d.width (lead ++ [l.outFeatures]) ∧
      (l.inFeatures = 0 → Shape.size (lead ++ [l.outFeatures]) = 0) := by
  refine ⟨fun ⟨y, hy⟩ => ?_, fun ⟨lead, hx, room, hsize⟩ => ?_⟩
  · rcases forward_result hl hy with ⟨lead, hx, hyM, hsize⟩
    exact ⟨lead, hx, hyM.room, hsize⟩
  · rcases Nat.eq_zero_or_pos l.inFeatures with hin | hin
    · rw [hin] at hx
      rcases forward_inputless hl hd hin hx with ⟨empty, hempty, hforward⟩
      have hnone : Shape.size (lead ++ [l.outFeatures]) = Shape.size [0, l.outFeatures] := by
        rw [hsize hin]
        simp
      rcases Tensor.reshape_ok _ hempty hnone room.1 with ⟨y, hy, -⟩
      exact ⟨y, hforward.trans hy⟩
    · rcases forward_ok hl hd hin lead hx room with ⟨y, hy, -⟩
      exact ⟨y, hy⟩

/-- A layer as it was built succeeds exactly on the tensors of its kind whose last axis
    holds its inputs, if there is room for the result, and without inputs only if the
    result has no elements. The result has the outputs in place of the inputs. Without
    inputs, a result that should have elements, and not more than can be counted, is
    refused for its shape. -/
theorem forward_built {G : Type} [WordSource G] {inFeatures outFeatures : Nat} {bias : Bool}
    {g g' : G} (hbuild : build inFeatures outFeatures bias d g = (.ok l, g')) (x : Tensor) :
    ((∃ y, l.forward x = .ok y) ↔ ∃ lead, x.Matches d (lead ++ [inFeatures]) ∧
      Shape.Allocatable d.width (lead ++ [outFeatures]) ∧
      (inFeatures = 0 → Shape.size (lead ++ [outFeatures]) = 0)) ∧
    (∀ y, l.forward x = .ok y → y.Matches d (withLast x.shape outFeatures)) ∧
    ∀ lead, inFeatures = 0 → x.Matches d (lead ++ [0]) →
      Shape.size (lead ++ [outFeatures]) ≠ 0 → Shape.size (lead ++ [outFeatures]) < wordCount →
        l.forward x = .error (.shapeMismatch [0] (lead ++ [outFeatures])) := by
  rcases build_yields inFeatures outFeatures bias d g l g' hbuild with ⟨hl, rfl, rfl⟩
  have hfloat := build_isFloat l.inFeatures l.outFeatures bias d g l g' hbuild
  have hd : d ≠ .uint8 := by
    rintro rfl
    cases hfloat
  refine ⟨forward_ok_iff hl hd, fun y hy => ?_, fun lead hin hx hsize hword => ?_⟩
  · rcases forward_result hl hy with ⟨lead, hx, hyM, -⟩
    rwa [withLast, hx.shape, List.dropLast_concat]
  · rcases forward_inputless hl hd hin hx with ⟨empty, hempty, hforward⟩
    have hcount : empty.count = 0 := by rw [hempty.count_matrix, Nat.zero_mul]
    have hne : Shape.numel (lead ++ [l.outFeatures]) ≠ empty.count := by
      rwa [hcount, Shape.numel_eq, wrap_of_lt hword]
    rw [hforward, Tensor.reshape_mismatch hne, hcount]

/-- Layers without inputs can be built. -/
theorem exists_inputless :
    ∃ l g', build 0 2 true .float64 (⟨1⟩ : SplitMix) = (.ok l, g') := by
  have hbuilt : (build 0 2 true .float64 (⟨1⟩ : SplitMix)).1.toOption.isSome = true := by
    decide +kernel
  rcases hrun : build 0 2 true .float64 (⟨1⟩ : SplitMix) with ⟨e | l, g'⟩
  · rw [hrun] at hbuilt
    cases hbuilt
  · exact ⟨l, g', rfl⟩

/-- Three empty rows are not mapped to three rows of the bias. -/
theorem forward_built_inputless :
    ∃ (l : Linear) (x : Tensor) (g' : SplitMix),
      build 0 2 true .float64 (⟨1⟩ : SplitMix) = (.ok l, g') ∧ x.Matches .float64 [3, 0] ∧
        l.forward x = .error (.shapeMismatch [0] [3, 2]) := by
  rcases exists_inputless with ⟨l, g', hbuild⟩
  let x : Tensor := ⟨.float64, .fill [3, 0] 1, by decide⟩
  exact ⟨l, x, g', hbuild, ⟨rfl, rfl⟩,
    (forward_built hbuild x).2.2 [3] rfl ⟨rfl, rfl⟩ (by decide) (by decide)⟩

/-- For a layer as it was built to succeed it is not enough that the last axis holds the
    inputs and the kind is right: without inputs there is no row to put a bias in. -/
theorem not_forall_forward_built :
    ¬ ∀ (inFeatures outFeatures : Nat) (bias : Bool) (d : DType) (l : Linear) (g g' : SplitMix)
      (x : Tensor) (lead : Shape), build inFeatures outFeatures bias d g = (.ok l, g') →
      x.Matches d (lead ++ [inFeatures]) → ∃ y, l.forward x = .ok y := by
  intro hall
  rcases exists_inputless with ⟨l, g', hbuild⟩
  let x : Tensor := ⟨.float64, .fill [3, 0] 1, by decide⟩
  rcases build_yields 0 2 true .float64 _ l g' hbuild with ⟨hl, hin, hout⟩
  rcases hall 0 2 true .float64 l ⟨1⟩ g' x [3] hbuild ⟨rfl, rfl⟩ with ⟨y, hy⟩
  rcases forward_result hl hy with ⟨lead, hx, -, hsize⟩
  -- The result would have three rows of two elements.
  have hlead : lead ++ [l.inFeatures] = [3] ++ [0] := hx.shape.symm
  obtain ⟨rfl, -⟩ := List.append_inj' hlead rfl
  have hnone := hsize hin
  rw [hout] at hnone
  exact absurd hnone (by decide)

/-! ### Row by row -/

/-- A layer succeeds on every tensor of its kind whose last axis holds its inputs for
    whose result there is room. A row of the result is the layer applied to the row of
    the input in the same place, and no other row has a part in it. Under another
    arrangement of the rows the result is the same under that arrangement. -/
theorem forward_rowwise (l : Linear) (d : DType) (hl : l.WellFormed d) (hd : d ≠ .uint8)
    (hin : 0 < l.inFeatures) (lead : Shape) (x : Tensor)
    (hx : x.Matches d (lead ++ [l.inFeatures])) :
    ((∃ y, l.forward x = .ok y) ↔ Shape.Allocatable d.width (lead ++ [l.outFeatures])) ∧
    ∀ y, l.forward x = .ok y → y.Matches d (lead ++ [l.outFeatures]) ∧
      (∀ p o, Shape.Within p lead → o < l.outFeatures →
        y.entry d (p ++ [o]) = l.apply d (fun k => x.entry d (p ++ [k])) o) ∧
      (∀ lead' x' y', x'.Matches d (lead' ++ [l.inFeatures]) → l.forward x' = .ok y' →
        ∀ p p', Shape.Within p lead → Shape.Within p' lead' →
          (∀ k, k < l.inFeatures → x.entry d (p ++ [k]) = x'.entry d (p' ++ [k])) →
          ∀ o, o < l.outFeatures → y.entry d (p ++ [o]) = y'.entry d (p' ++ [o])) ∧
      ∀ lead' x', x.reshape (lead' ++ [l.inFeatures]) = .ok x' →
        l.forward x' = y.reshape (lead' ++ [l.outFeatures]) := by
  refine ⟨⟨fun ⟨y, hy⟩ => forward_room hl hx hy, fun room => ?_⟩, fun y hy => ?_⟩
  · rcases forward_ok hl hd hin lead hx room with ⟨y, hy, -⟩
    exact ⟨y, hy⟩
  · rcases forward_entries hl hd hin hx hy with ⟨hyM, hyE⟩
    refine ⟨hyM, hyE, fun lead' x' y' hx' hy' p p' hp hp' hrow o ho => ?_,
      fun lead' x' hx' => forward_reshape hin hx.shape hy hx'⟩
    rw [hyE p o hp ho, (forward_entries hl hd hin hx' hy').2 p' o hp' ho]
    exact apply_congr hrow o

/-- Six rows as two rows of three. -/
theorem forward_rowwise_twoAxes :
    ∃ (l : Linear) (x x' y : Tensor), 0 < l.inFeatures ∧ x.Matches .float64 [6, 2] ∧
      x.reshape [2, 3, 2] = .ok x' ∧ l.forward x = .ok y ∧ l.forward x' = y.reshape [2, 3, 2] := by
  let l : Linear := ⟨2, 2, .trainable ⟨.float64, .generate [2, 2] fun k => if k = 1 then 0 else 1,
    by decide⟩, none⟩
  have hl : l.WellFormed .float64 := ⟨⟨rfl, rfl⟩, fun b hb => by cases hb⟩
  let x : Tensor := ⟨.float64, .generate [6, 2] fun k => if k < 5 then 0 else 1, by decide⟩
  have hrows := forward_rowwise l .float64 hl (by decide) (by decide) [6] x ⟨rfl, rfl⟩
  rcases hrows.1.mpr (by decide) with ⟨y, hy⟩
  rcases Tensor.reshape_ok [2, 3, 2] (⟨rfl, rfl⟩ : x.Matches .float64 [6, 2]) (by decide)
    (by decide) with ⟨x', hx', -⟩
  exact ⟨l, x, x', y, by decide, ⟨rfl, rfl⟩, hx', hy, (hrows.2 y hy).2.2.2 [2, 3] x' hx'⟩

/-- Folding the leading axes first makes a difference if there is no room for the
    result otherwise: with `2 ^ 62` rows in each of no items, four outputs are too
    many, and with no rows at all they are not. -/
theorem not_forall_forward_reshape :
    ¬ ∀ (l : Linear) (d : DType) (lead lead' : Shape) (x x' : Tensor), l.WellFormed d →
      d.isFloat = true → 0 < l.inFeatures → x.Matches d (lead ++ [l.inFeatures]) →
      x.reshape (lead' ++ [l.inFeatures]) = .ok x' →
      l.forward x' = (l.forward x >>= fun y => y.reshape (lead' ++ [l.outFeatures])) := by
  intro hall
  let l : Linear := ⟨1, 4, .trainable ⟨.float64, .fill [1, 4] 1, by decide⟩, none⟩
  have hl : l.WellFormed .float64 := ⟨⟨rfl, rfl⟩, fun b hb => by cases hb⟩
  let x : Tensor := ⟨.float64, .fill [0, 4611686018427387904, 1] 1, by decide⟩
  have hx : x.Matches .float64 ([0, 4611686018427387904] ++ [1]) := ⟨rfl, rfl⟩
  rcases Tensor.reshape_ok [0, 1] hx (by decide) (by decide) with ⟨x', hx', hM, -⟩
  have hequal := hall l .float64 [0, 4611686018427387904] [0] x x' hl rfl (by decide) hx hx'
  rcases forward_ok hl (by decide) (by decide) [0] hM (by decide) with ⟨y', hy', -⟩
  rw [hy'] at hequal
  rcases bind_eq_ok.mp hequal.symm with ⟨y, hy, -⟩
  have room : Shape.Allocatable 8 ([0, 4611686018427387904] ++ [4]) := forward_room hl hx hy
  exact absurd room (by decide)

end Linear

end GraphAttention
