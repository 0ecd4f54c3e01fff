import GraphAttention.Layer.Linear
import GraphAttention.Proofs.Entries

/-!
# Linear Layers Row by Row

A linear layer folds the leading axes of its input into one, multiplies, adds
the bias and unfolds again. What it computes has nothing to do with the folding:
every row of the input is multiplied by the weight matrix on its own.

The layer has to be whole for this, its weight and bias of the sizes it says and
of one kind. That is not part of the type, since the parts can be set one by one,
and it is what building a layer establishes and loading one keeps.

## Main definitions

* `Linear.WellFormed`: Weight and bias of the right kind and shape.
* `Linear.apply`: The layer applied to one row.

## Theorems

* `Linear.forward_eq`, `Linear.forward_fold`: What a layer does, step by step.
* `Linear.forward_width`, `Linear.forward_kind`: What a layer refuses.
* `Linear.forward_ok`: The layer applied to every row of a tensor.
-/

namespace GraphAttention

namespace Linear

/-- The weight and the bias have the sizes of the layer and are of one kind. -/
structure WellFormed (l : Linear) (d : DType) : Prop where
  weight : l.weight.data.Matches d [l.inFeatures, l.outFeatures]
  bias : ∀ b, l.bias = some b → b.data.Matches d [l.outFeatures]

/-- One output of the layer for one row of inputs. -/
def apply (l : Linear) (d : DType) (row : Nat → d.Elem) (o : Nat) : d.Elem :=
  let product := sumRange l.inFeatures fun k => row k * l.weight.data.entry d [k, o]
  match l.bias with
  | none => product
  | some b => product + b.data.entry d [o]

variable {d : DType} {l : Linear} {x : Tensor}

/-- A layer looks only at as many inputs as it has. -/
theorem apply_congr {row row' : Nat → d.Elem} (h : ∀ k, k < l.inFeatures → row k = row' k)
    (o : Nat) : l.apply d row o = l.apply d row' o := by
  have hsum := sumRange_congr fun k hk =>
    congrArg (· * l.weight.data.entry d [k, o]) (h k hk)
  simp only [apply, hsum]

/-- The bias added to every row of a product. -/
theorem addBias_ok {rows : Nat} {product : Tensor} (hl : l.WellFormed d)
    (hp : product.Matches d [rows, l.outFeatures]) :
    ∃ y, l.addBias product = .ok y ∧ y.Matches d [rows, l.outFeatures] ∧
      ∀ r o, r < rows → o < l.outFeatures → y.entry d [r, o] = match l.bias with
        | none => product.entry d [r, o]
        | some b => product.entry d [r, o] + b.data.entry d [o] := by
  unfold addBias
  cases hb : l.bias with
  | none => exact ⟨product, rfl, hp, fun _ _ _ _ => rfl⟩
  | some b =>
    rcases Tensor.combine_ok (fun _ x y => x + y)
      [rows] hp (hl.bias b hb) with ⟨y, hy, hmatch, hentry⟩
    exact ⟨y, hy, hmatch, fun r o hr ho => hentry [r] [o] (by simp [hr]) (by simp [ho])⟩

/-- A tensor whose last axis does not hold the inputs is refused by its shape. -/
theorem forward_width (h : x.shape.getLast? ≠ some l.inFeatures) :
    l.forward x = .error (.shapeMismatch (withLast x.shape l.inFeatures) x.shape) := by
  rw [forward, if_pos h]
  rfl

/-- What a layer does to a tensor whose last axis holds its inputs. -/
theorem forward_eq {rows : Nat} (lead : Shape) (hx : x.shape = lead ++ [l.inFeatures])
    (hrows : x.count / max l.inFeatures 1 = rows) :
    l.forward x = (do
      let flat ← x.reshape [rows, l.inFeatures]
      let product ← flat.matmul l.weight.data
      let shifted ← l.addBias product
      shifted.reshape (lead ++ [l.outFeatures])) := by
  have hlast : x.shape.getLast? = some l.inFeatures := by simp [hx]
  have hwith : withLast x.shape l.outFeatures = lead ++ [l.outFeatures] := by
    rw [withLast, hx, List.dropLast_concat]
  simp only [forward, hlast, hrows, hwith, bind, Except.bind, ne_eq, not_true_eq_false, if_false]

/-- A layer with inputs makes one row of all leading axes. -/
theorem rows_eq (hin : 0 < l.inFeatures) {lead : Shape} (hx : x.shape = lead ++ [l.inFeatures]) :
    x.count / max l.inFeatures 1 = lead.size := by
  rw [Tensor.count, hx, Shape.size_append, Nat.max_eq_left hin, Shape.size_cons,
    Shape.size_nil, Nat.mul_one, Nat.mul_div_cancel _ hin]

/-- The leading axes of a tensor of any kind are folded into one, and the product
    is made of what results. -/
theorem forward_fold {k : DType} (hin : 0 < l.inFeatures) (lead : Shape)
    (hx : x.Matches k (lead ++ [l.inFeatures])) :
    ∃ flat : Tensor, flat.Matches k [lead.size, l.inFeatures] ∧
      (∀ idx src, Shape.ravel [lead.size, l.inFeatures] idx
          = (lead ++ [l.inFeatures]).ravel src → flat.entry k idx = x.entry k src) ∧
      l.forward x = (do
        let product ← flat.matmul l.weight.data
        let shifted ← l.addBias product
        shifted.reshape (lead ++ [l.outFeatures])) := by
  rcases Tensor.reshape_ok [lead.size, l.inFeatures] hx
    (by simp [Shape.size_append])
    (Shape.allocatable_flatten lead (by simp [Shape.maxSpan]) hx.room).1 with
    ⟨flat, hflat, hflatM, hflatE⟩
  refine ⟨flat, hflatM, hflatE, ?_⟩
  rw [forward_eq lead hx.shape (rows_eq hin hx.shape), hflat]
  rfl

/-- A tensor of another kind than the layer is refused by its kind, after its
    shape has been accepted. -/
theorem forward_kind (hl : l.WellFormed d) (hin : 0 < l.inFeatures) (lead : Shape)
    (hx : x.shape = lead ++ [l.inFeatures]) (h : x.dtype ≠ d) :
    l.forward x = .error (.typeMismatch x.dtype d) := by
  rcases forward_fold hin lead ⟨rfl, hx⟩ with ⟨flat, hflatM, -, hforward⟩
  have hkind : l.weight.data.dtype ≠ flat.dtype := by
    rw [hl.weight.dtype, hflatM.dtype]
    exact fun heq => h heq.symm
  rw [hforward, Tensor.matmul_kind hflatM.shape hl.weight.shape hkind, hflatM.dtype,
    hl.weight.dtype]
  rfl

/-- The layer succeeds on every tensor whose last axis holds its inputs, and
    its result is the layer applied to each row. -/
theorem forward_ok (hl : l.WellFormed d) (hd : d ≠ .uint8) (hin : 0 < l.inFeatures)
    (lead : Shape) (hx : x.Matches d (lead ++ [l.inFeatures]))
    (room : Shape.Allocatable d.width (lead ++ [l.outFeatures])) :
    ∃ y, l.forward x = .ok y ∧ y.Matches d (lead ++ [l.outFeatures]) ∧
      ∀ p o, Shape.Within p lead → o < l.outFeatures →
        y.entry d (p ++ [o]) = l.apply d (fun k => x.entry d (p ++ [k])) o := by
  -- Folding, the product, the bias and unfolding, each with its entries.
  rcases forward_fold hin lead hx with ⟨flat, hflatM, hflatE, hforward⟩
  rcases Tensor.matmul_ok hd hflatM hl.weight
    (Shape.allocatable_flatten lead (by simp [Shape.maxSpan]) room) with
    ⟨product, hproduct, hproductM, hproductE⟩
  rcases addBias_ok hl hproductM with ⟨shifted, hshifted, hshiftedM, hshiftedE⟩
  rcases Tensor.reshape_ok (lead ++ [l.outFeatures]) hshiftedM
    (by simp [Shape.size_append]) room.1 with ⟨y, hy, hyM, hyE⟩
  refine ⟨y, ?_, hyM, ?_⟩
  · simp only [hforward, hproduct, hshifted, hy, bind, Except.bind]
  · intro p o hp ho
    have hr : lead.ravel p < lead.size := Shape.ravel_lt hp
    -- A row of the folded array is numbered by the leading part of the index.
    have hposition : ∀ n k, (lead ++ [n]).ravel (p ++ [k])
        = Shape.ravel [lead.size, n] [lead.ravel p, k] := by
      intro n k
      rw [Shape.ravel_append _ _ _ _ (Shape.within_length hp)]
      rfl
    rw [hyE _ _ (hposition l.outFeatures o), hshiftedE _ _ hr ho, hproductE _ _ hr ho]
    simp only [fun k => hflatE _ _ (hposition l.inFeatures k).symm]
    rfl

end Linear

end GraphAttention
