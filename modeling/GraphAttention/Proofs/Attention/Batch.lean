import GraphAttention.Proofs.Attention.Locality
import Mathlib.Data.Option.Defs

/-!
# Items of a Batch

What an attention module outside training makes of an item does not depend on the
other items. Output and weights of one item of a batch are what the module makes
of that item alone, entry by entry and not only up to rounding, because an entry is
the same expression in both runs and its sums have one order.

The stages fold the batch into other axes, with the nodes for the projections and
with the heads for the products. That this keeps the items apart has been shown
where the stages are related to the reference; here it is only the reference that
is read at item `b` of one input and at item 0 of the other.

The batched run needs room for the scores of all items, and the item alone needs
no more than that. Without the room there is a refusal and nothing to compare.

## Main definitions

* `Tensor.IsItem`: A tensor is one item of another.

## Theorems

* `Shape.allocatable_item`: Room for a batch is room for an item.
* `Accepts.item`: An item of accepted inputs is accepted.
* `forwardWithWeights_item`: A module on a batch and on its items.
-/

namespace GraphAttention

open GraphAttention.Action

/-- Where there is room for a batch there is room for one item. -/
theorem Shape.allocatable_item {width batch : Nat} {s : Shape} (hbatch : 0 < batch)
    (room : Allocatable width (batch :: s)) : Allocatable width (1 :: s) := by
  rcases room with ⟨⟨hspan, hrank⟩, hfits⟩
  rw [span_cons] at hspan
  refine ⟨⟨?_, hrank⟩, ?_⟩
  · rw [span_cons]
    exact Nat.le_trans (Nat.mul_le_mul_right _ (by omega)) hspan
  · refine Nat.le_trans (Nat.mul_le_mul_right _ ?_) hfits
    rw [size_cons, size_cons]
    exact Nat.mul_le_mul_right _ hbatch

namespace Tensor

/-- A tensor is item `b` of another, as a batch of one. -/
structure IsItem (b : Nat) (t u : Tensor) : Prop where
  dtype : u.dtype = t.dtype
  shape : u.shape = 1 :: t.shape.tail
  entry : ∀ idx, Shape.Within idx t.shape.tail →
    u.entry t.dtype (0 :: idx) = t.entry t.dtype (b :: idx)

variable {d : DType} {t u : Tensor} {b batch : Nat} {s : Shape}

/-- An item of a tensor of known kind and shape. -/
theorem IsItem.matches_tail (h : IsItem b t u) (ht : t.Matches d (batch :: s)) :
    u.Matches d (1 :: s) := by
  refine ⟨h.dtype.trans ht.dtype, ?_⟩
  rw [h.shape, ht.shape, List.tail_cons]

theorem IsItem.entry_eq (h : IsItem b t u) (ht : t.Matches d (batch :: s)) {idx : Index}
    (hidx : Shape.Within idx s) : u.entry d (0 :: idx) = t.entry d (b :: idx) := by
  have hentry := h.entry idx (by rwa [ht.shape])
  rwa [ht.dtype] at hentry

/-- Entries of known tensors make one of them an item of the other. -/
theorem IsItem.of_entry (ht : t.Matches d (batch :: s)) (hu : u.Matches d (1 :: s))
    (h : ∀ idx, Shape.Within idx s → u.entry d (0 :: idx) = t.entry d (b :: idx)) :
    IsItem b t u := by
  refine ⟨hu.dtype.trans ht.dtype.symm, ?_, fun idx hidx => ?_⟩
  · rw [hu.shape, ht.shape, List.tail_cons]
  · rw [ht.shape] at hidx
    rw [ht.dtype]
    exact h idx hidx

end Tensor

namespace Attention

variable {G : Type} [WordSource G] {a : Attention} {batch n b : Nat} {x x' : Tensor}
  {bias bias' mask mask' : Option Tensor}

/-- The items of accepted inputs are accepted. -/
theorem Accepts.item (h : a.Accepts batch n x bias mask) (hx : Tensor.IsItem b x x')
    (hbias : Option.Rel (Tensor.IsItem b) bias bias')
    (hmask : Option.Rel (Tensor.IsItem b) mask mask') : a.Accepts 1 n x' bias' mask' := by
  refine ⟨hx.matches_tail h.features, fun t' ht' => ?_, fun m' hm' => ?_⟩
  · subst ht'
    cases hbias with
    | some hitem => exact hitem.matches_tail (h.bias _ rfl)
  · subst hm'
    cases hmask with
    | some hitem => rw [hitem.shape, h.mask _ rfl, List.tail_cons]

/-- The features of a node of an item are those of the node in the batch. -/
theorem sameRow_item (h : a.Accepts batch n x bias mask) (hx : Tensor.IsItem b x x') {i : Nat}
    (hi : i < n) : a.SameRow x' x 0 i b i :=
  fun _ hk => hx.entry_eq h.features ⟨hi, hk, trivial⟩

/-- The scores of an item are those of the item in the batch. -/
theorem scoreAt_item (ha : a.WellFormed) (h : a.Accepts batch n x bias mask)
    (hx : Tensor.IsItem b x x') (hbias : Option.Rel (Tensor.IsItem b) bias bias')
    (hmask : Option.Rel (Tensor.IsItem b) mask mask') {hd i j : Nat} (hh : hd < a.numHeads)
    (hi : i < n) (hj : j < n) :
    a.scoreAt x' bias' mask' 0 hd i j = a.scoreAt x bias mask b hd i j := by
  refine scoreAt_congr ha (sameRow_item h hx hi) (sameRow_item h hx hj) ?_ ?_
  · cases hbias with
    | none => rfl
    | @some t t' hitem =>
      exact congrArg some (hitem.entry_eq (h.bias t rfl) ⟨hi, hj, hh, trivial⟩)
  · cases hmask with
    | none => rfl
    | @some m m' hitem =>
      have hm : m.Matches m.dtype [batch, n, n] := ⟨rfl, h.mask m rfl⟩
      have hpair : Shape.Within [i, j] [n, n] := ⟨hi, hj, trivial⟩
      have hentry := hitem.entry_eq hm hpair
      change m'.nonzeroAt [0, i, j] = m.nonzeroAt [b, i, j]
      rw [Tensor.nonzeroAt_eq hitem.dtype, Tensor.nonzeroAt_eq rfl, hentry]

/-- Outside training a module treats the items of a batch one by one: wherever a
    batch is not refused for want of room, item `b` of the output and of the
    weights is what the module makes of item `b` of the inputs. -/
theorem forwardWithWeights_item (a : Attention) (ha : a.WellFormed) (heval : a.training = false)
    (batch n : Nat) (x : Tensor) (bias mask : Option Tensor)
    (h : a.Accepts batch n x bias mask) (g : G) :
    (Shape.Allocatable a.dtype.width [batch, a.numHeads, n, n] →
      ∃ out w, a.forwardWithWeights x bias mask g = (.ok (out, w), g) ∧
        out.Matches a.dtype [batch, n, a.featSize] ∧
        w.Matches a.dtype [batch, a.numHeads, n, n] ∧
        ∀ b x' bias' mask', b < batch → Tensor.IsItem b x x' →
          Option.Rel (Tensor.IsItem b) bias bias' → Option.Rel (Tensor.IsItem b) mask mask' →
          ∀ g' : G, ∃ out' w', a.forwardWithWeights x' bias' mask' g' = (.ok (out', w'), g') ∧
            Tensor.IsItem b out out' ∧ Tensor.IsItem b w w') ∧
    (¬ Shape.Allocatable a.dtype.width [batch, a.numHeads, n, n] →
      ∃ e, a.forwardWithWeights x bias mask g = (.error e, g)) := by
  refine ⟨fun room => ?_, fun hroom => ?_⟩
  · rcases forwardWithWeights_eval ha heval h room g with ⟨out, w, hrun, hout, hw, hwE, houtE⟩
    refine ⟨out, w, hrun, hout, hw, ?_⟩
    intro b x' bias' mask' hb hx hbias hmask g'
    have hroom : Shape.Allocatable a.dtype.width [1, a.numHeads, n, n] :=
      Shape.allocatable_item (Nat.lt_of_le_of_lt (Nat.zero_le b) hb) room
    rcases forwardWithWeights_eval ha heval (h.item hx hbias hmask) hroom g' with
      ⟨out', w', hrun', hout', hw', hwE', houtE'⟩
    have hweights : ∀ hd i j, hd < a.numHeads → i < n →
        a.weightAt x' bias' mask' n 0 hd i j = a.weightAt x bias mask n b hd i j :=
      fun hd i j hh hi => weightAt_congr
        (fun k hk => scoreAt_item ha h hx hbias hmask hh hi hk) j
    refine ⟨out', w', hrun', .of_entry hout hout' fun idx hidx => ?_,
      .of_entry hw hw' fun idx hidx => ?_⟩
    · match idx, hidx with
      | [i, o], ⟨hi, ho, _⟩ =>
        rw [houtE b i o hb hi ho, houtE' 0 i o Nat.zero_lt_one hi ho]
        exact outputAt_congr ha (fun j hj => sameRow_item h hx hj)
          (fun hd j hh _ => hweights hd i j hh hi) o
    · match idx, hidx with
      | [hd, i, j], ⟨hh, hi, hj, _⟩ =>
        rw [hwE b hd i j hb hh hi hj, hwE' 0 hd i j Nat.zero_lt_one hh hi hj,
          hweights hd i j hh hi]
  · rcases attend_roomless (G := G) ha h.features hroom with ⟨e, he⟩
    exact ⟨e, bind_error (he bias mask g)⟩

/-- The second of two items, which differ in features, bias and mask. -/
theorem forwardWithWeights_item_second :
    ∃ (x bias mask x' bias' mask' out w out' w' : Tensor),
      x.entry .float64 [0, 1, 1] ≠ x.entry .float64 [1, 1, 1] ∧ Tensor.IsItem 1 x x' ∧
      Tensor.IsItem 1 bias bias' ∧ Tensor.IsItem 1 mask mask' ∧
      twoHeads.forwardWithWeights x (some bias) (some mask) (⟨7⟩ : SplitMix)
        = (.ok (out, w), ⟨7⟩) ∧
      twoHeads.forwardWithWeights x' (some bias') (some mask') (⟨9⟩ : SplitMix)
        = (.ok (out', w'), ⟨9⟩) ∧
      Tensor.IsItem 1 out out' ∧ Tensor.IsItem 1 w w' := by
  let x : Tensor := ⟨.float64, .generate [2, 2, 2] fun k => if k < 6 then 1 else 0, by decide⟩
  let x' : Tensor := ⟨.float64, .generate [1, 2, 2] fun k => if k < 2 then 1 else 0, by decide⟩
  let bias : Tensor := ⟨.float64, .generate [2, 2, 2, 2] fun k => if k = 9 then 1 else 0,
    by decide⟩
  let bias' : Tensor := ⟨.float64, .generate [1, 2, 2, 2] fun k => if k = 1 then 1 else 0,
    by decide⟩
  let mask : Tensor := ⟨.uint8, .generate [2, 2, 2] fun k => if k = 5 then 1 else 0, by decide⟩
  let mask' : Tensor := ⟨.uint8, .generate [1, 2, 2] fun k => if k = 1 then 1 else 0, by decide⟩
  have hfeatures : ∀ i < 2, ∀ k < 2,
      x'.entry .float64 [0, i, k] = x.entry .float64 [1, i, k] := by decide
  have hbiases : ∀ i < 2, ∀ j < 2, ∀ h < 2,
      bias'.entry .float64 [0, i, j, h] = bias.entry .float64 [1, i, j, h] := by decide
  have hmasks : ∀ i < 2, ∀ j < 2,
      mask'.entry .uint8 [0, i, j] = mask.entry .uint8 [1, i, j] := by decide
  have hx : Tensor.IsItem 1 x x' :=
    .of_entry ⟨rfl, rfl⟩ ⟨rfl, rfl⟩ fun idx hidx => by
      match idx, hidx with
      | [i, k], ⟨hi, hk, _⟩ => exact hfeatures i hi k hk
  have hbias : Tensor.IsItem 1 bias bias' :=
    .of_entry ⟨rfl, rfl⟩ ⟨rfl, rfl⟩ fun idx hidx => by
      match idx, hidx with
      | [i, j, h], ⟨hi, hj, hh, _⟩ => exact hbiases i hi j hj h hh
  have hmask : Tensor.IsItem 1 mask mask' :=
    .of_entry ⟨rfl, rfl⟩ ⟨rfl, rfl⟩ fun idx hidx => by
      match idx, hidx with
      | [i, j], ⟨hi, hj, _⟩ => exact hmasks i hi j hj
  have haccept : twoHeads.Accepts 2 2 x (some bias) (some mask) :=
    ⟨⟨rfl, rfl⟩, fun t ht => by cases ht; exact ⟨rfl, rfl⟩, fun m hm => by cases hm; rfl⟩
  rcases (forwardWithWeights_item twoHeads twoHeads_wellFormed rfl 2 2 x (some bias) (some mask)
    haccept (⟨7⟩ : SplitMix)).1 (by decide) with ⟨out, w, hrun, -, -, hitems⟩
  rcases hitems 1 x' (some bias') (some mask') (by decide) hx (.some hbias) (.some hmask) ⟨9⟩ with
    ⟨out', w', hrun', hout, hw⟩
  exact ⟨x, bias, mask, x', bias', mask', out, w, out', w', by decide, hx, hbias, hmask, hrun,
    hrun', hout, hw⟩

end Attention

end GraphAttention
