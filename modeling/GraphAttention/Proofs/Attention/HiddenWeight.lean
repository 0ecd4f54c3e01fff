import GraphAttention.Proofs.Attention.Locality
import GraphAttention.Proofs.Number.Factor
import GraphAttention.Proofs.Number.Lane

/-!
# The Weight of a Hidden Pair

The score of a hidden pair is negative infinity, so its weight should be zero. It is,
for every pair of nodes and every head, in training and out of it, unless the scores
of the same query in the same head spoil their normalizer. This happens if one of
them is positive infinity, or if one is not a number and another is above negative
infinity. The weight is then not a number, and neither is any other weight
of that query in that head.

So a mask does not contain what it hides from. A feature or a bias that
overflows at a visible key makes the weights of the hidden keys something other than
zero, while a hidden bias may hold anything.

Nothing is asked of the inputs here but that the module succeeds on them. Success
gives the shapes, the room, and a probability below one where weights are
dropped.

## Main definitions

* `Attention.spoiledAt`: Whether the scores of a query in a head have no normalizer.

## Theorems

* `attend_entries`, `forwardWithWeights_entries`: The weights of a run that has
  succeeded, before or after dropout.
* `sort_weightAt_hidden`: The softmax at a hidden pair.
* `forwardWithWeights_hidden`: The weight that is returned for it.
* `not_forall_hidden_zero`: It is not always zero.
-/

namespace GraphAttention

open GraphAttention.Action

namespace Attention

variable {G : Type} [WordSource G] {a : Attention} {batch n : Nat} {x out w : Tensor}
  {bias mask : Option Tensor} {g g' : G}

/-- Whether the scores of a query in a head leave no number to normalize by. -/
def spoiledAt (a : Attention) (x : Tensor) (bias mask : Option Tensor) (n b h i : Nat) : Bool :=
  NumberSort.spoils ((List.range n).map fun j => a.dtype.sort (a.scoreAt x bias mask b h i j))

/-! ### Runs that succeed -/

/-- A weight as the softmax gives it, or after it was multiplied by a dropout
    factor. -/
def WeightOf (a : Attention) (weight : a.dtype.Elem) (result : a.dtype.Elem) : Prop :=
  result = weight ∨ Tensor.isProbability a.dropout.p = true ∧
    ∃ word, result = weight * Scalar.ofFloat (Dropout.keepFactor a.dropout.p word)

/-- What is known of a module's inputs and weights once it has succeeded. -/
theorem attend_entries (ha : a.WellFormed) (h : a.attend x bias mask g = (.ok (out, w), g')) :
    ∃ batch n, a.Accepts batch n x bias mask ∧
      Shape.Allocatable a.dtype.width [batch, a.numHeads, n, n] ∧
      w.Matches a.dtype [batch * a.numHeads, n, n] ∧
      ∀ b h i j, b < batch → h < a.numHeads → i < n → j < n →
        a.WeightOf (a.weightAt x bias mask n b h i j)
          (w.entry a.dtype [b * a.numHeads + h, i, j]) := by
  by_cases room : a.Roomy a.dtype.width x
  · rcases accepts_or_refuses a x bias mask with ⟨batch, n, haccept⟩ | ⟨e, hrefused⟩
    · -- The weights are those of the softmax, handed through a dropout that has succeeded.
      have hroom := room _ _ haccept.features
      rcases attend_ok (G := G) ha haccept.features haccept.bias haccept.mask hroom with
        ⟨w₀, v, hw₀, -, hw₀E, -, hattend⟩
      rw [hattend g] at h
      rcases bind_ok_iff.mp (mapError_ok_iff.mp h) with ⟨w₁, g₁, hdrop, hrest⟩
      rcases bind_ok_iff.mp hrest with ⟨out₁, g₂, -, hpair⟩
      cases hpair
      rcases Dropout.forward_entries ha.isFloat hw₀ hdrop with ⟨hw, hwE⟩
      refine ⟨batch, n, haccept, hroom, hw, fun b h i j hb hh hi hj => ?_⟩
      have hrow : b * a.numHeads + h < batch * a.numHeads := Shape.fold_lt hb hh
      rw [← hw₀E b h i j hb hh hi hj]
      exact hwE [b * a.numHeads + h, i, j] (by simp [hrow, hi, hj])
    · -- Inputs that are refused give no result.
      rw [attend_refused ha room hrefused g] at h
      cases h
  · simp only [Roomy, not_forall] at room
    rcases room with ⟨batch, n, hx, hroom⟩
    rcases attend_roomless (G := G) ha hx hroom with ⟨e, he⟩
    rw [he bias mask g] at h
    cases h

/-- The same for the weights that are returned. -/
theorem forwardWithWeights_entries (ha : a.WellFormed)
    (h : a.forwardWithWeights x bias mask g = (.ok (out, w), g')) :
    ∃ batch n, a.Accepts batch n x bias mask ∧
      w.Matches a.dtype [batch, a.numHeads, n, n] ∧
      ∀ b h i j, b < batch → h < a.numHeads → i < n → j < n →
        a.WeightOf (a.weightAt x bias mask n b h i j) (w.entry a.dtype [b, h, i, j]) := by
  have hrun := h
  rw [forwardWithWeights] at hrun
  rcases bind_ok_iff.mp hrun with ⟨⟨out₁, w₁⟩, g₁, hattend, -⟩
  rcases attend_entries ha hattend with ⟨batch, n, haccept, room, hw₁, hw₁E⟩
  rcases forward_of_attend ha.heads_pos room hw₁ hattend with ⟨-, r, hrun, hrM, hrE⟩
  rw [hrun] at h
  cases h
  refine ⟨batch, n, haccept, hrM, fun b h i j hb hh hi hj => ?_⟩
  rw [hrE]
  exact hw₁E b h i j hb hh hi hj

/-! ### Hidden pairs -/

/-- The softmax gives a hidden pair no weight, or none that is a number. -/
theorem sort_weightAt_hidden (ha : a.WellFormed) (x : Tensor) (bias : Option Tensor) (h : Nat)
    {b i j : Nat} (hj : j < n) (hhidden : hides mask [b, i, j] = true) :
    a.dtype.sort (a.weightAt x bias mask n b h i j)
      = if a.spoiledAt x bias mask n b h i then .notANumber else .zero := by
  have hscore : a.scoreAt x bias mask b h i j = a.dtype.negInf := if_pos hhidden
  have hlength : j < ((List.range n).map fun k => a.scoreAt x bias mask b h i k).length := by
    simpa using hj
  have hsort := DType.sort_softmaxLane ha.isFloat
    ((List.range n).map fun k => a.scoreAt x bias mask b h i k) hlength
    (by simp [hscore, DType.sort_negInf ha.isFloat])
  rwa [List.map_map] at hsort

/-- Dropping leaves such a weight as it is, since its factor is finite. -/
theorem WeightOf.sort_eq {weight result : a.dtype.Elem} (hd : a.dtype.isFloat = true)
    (h : a.WeightOf weight result)
    (hweight : a.dtype.sort weight = .zero ∨ a.dtype.sort weight = .notANumber) :
    a.dtype.sort result = a.dtype.sort weight := by
  rcases h with rfl | ⟨hp, word, rfl⟩
  · rfl
  · exact DType.sort_mul_of_isFinite hd hweight
      (DType.isFinite_ofFloat hd (Dropout.keepFactor_moderate hp word))

/-- Whenever a module succeeds, in training or not and whatever its inputs hold,
    the weight of a hidden pair is zero exactly if the scores of the query do
    not spoil their normalizer. If they do, the weight is not a number. -/
theorem forwardWithWeights_hidden (a : Attention) (ha : a.WellFormed) (x : Tensor)
    (bias mask : Option Tensor) (g g' : G) (out w : Tensor)
    (hrun : a.forwardWithWeights x bias mask g = (.ok (out, w), g')) :
    ∃ batch n, x.Matches a.dtype [batch, n, a.featSize] ∧
      w.Matches a.dtype [batch, a.numHeads, n, n] ∧
      ∀ b h i j, b < batch → h < a.numHeads → i < n → j < n → hides mask [b, i, j] = true →
        (Scalar.isNonzero (w.entry a.dtype [b, h, i, j]) = false ↔
          a.spoiledAt x bias mask n b h i = false) ∧
        (a.spoiledAt x bias mask n b h i = true →
          a.dtype.sort (w.entry a.dtype [b, h, i, j]) = .notANumber) := by
  rcases forwardWithWeights_entries ha hrun with ⟨batch, n, haccept, hw, hwE⟩
  refine ⟨batch, n, haccept.features, hw, fun b h i j hb hh hi hj hhidden => ?_⟩
  have hweight := sort_weightAt_hidden ha x bias h hj hhidden
  have hsort : a.dtype.sort (w.entry a.dtype [b, h, i, j])
      = if a.spoiledAt x bias mask n b h i then .notANumber else .zero := by
    refine ((hwE b h i j hb hh hi hj).sort_eq ha.isFloat ?_).trans hweight
    rw [hweight]
    split
    · exact .inr rfl
    · exact .inl rfl
  rw [DType.isNonzero_eq_false_iff, hsort]
  cases a.spoiledAt x bias mask n b h i <;> simp

/-- In training, with a bias of negative infinity at one key and one that is not a
    number at the hidden key, the hidden key has weight zero. -/
theorem forwardWithWeights_hidden_training :
    ∃ (a : Attention) (x bias mask out w : Tensor) (g' : SplitMix), a.training = true ∧
      bias.entry .float64 [0, 0, 1, 1] = ⟨0x7ff8000000000000⟩ ∧
      bias.entry .float64 [0, 0, 2, 1] = Binary64.negInf ∧
      a.forwardWithWeights x (some bias) (some mask) ⟨7⟩ = (.ok (out, w), g') ∧
      Scalar.isNonzero (w.entry .float64 [0, 1, 0, 1]) = false := by
  let a : Attention := { twoHeads with dropout := ⟨0.5, true⟩ }
  let x : Tensor := ⟨.float64, .fill [1, 3, 2] 1, by decide⟩
  let bias : Tensor := ⟨.float64, .generate [1, 3, 3, 2] fun k =>
    if k = 3 then ⟨0x7ff8000000000000⟩ else if k = 5 then Binary64.negInf else 1, by decide⟩
  let mask : Tensor := ⟨.uint8, .generate [1, 3, 3] fun k => if k = 1 then 1 else 0, by decide⟩
  have hunits := twoHeads_wellFormed
  have ha : a.WellFormed :=
    ⟨hunits.isFloat, hunits.heads_pos, hunits.headDim_pos, hunits.featSize_eq, hunits.projection⟩
  have haccept : a.Accepts 1 3 x (some bias) (some mask) :=
    ⟨⟨rfl, rfl⟩, fun t ht => by cases ht; exact ⟨rfl, rfl⟩, fun m hm => by cases hm; rfl⟩
  rcases attend_accepted ha (by decide +kernel) haccept (by decide) (⟨7⟩ : SplitMix) with
    ⟨out, w, g', hattend, -, hw⟩
  rcases forward_of_attend ha.heads_pos (by decide) hw hattend with ⟨-, r, hrun, -⟩
  rcases forwardWithWeights_hidden a ha x (some bias) (some mask) ⟨7⟩ g' out r hrun with
    ⟨batch, n, hx, -, hweights⟩
  obtain ⟨rfl, rfl⟩ : batch = 1 ∧ n = 3 := by
    have hsizes := hx.shape
    cases hsizes
    exact ⟨rfl, rfl⟩
  have hsound : a.spoiledAt x (some bias) (some mask) 3 0 1 0 = false := by decide +kernel
  exact ⟨a, x, bias, mask, out, r, g', rfl, by decide, by decide, hrun,
    (hweights 0 1 0 1 (by decide) (by decide) (by decide) (by decide) (by decide)).1.mpr hsound⟩

/-- The weight of a hidden pair is not always zero: with a bias of positive infinity
    at the visible key, the hidden key has a weight that is not a number. -/
theorem not_forall_hidden_zero :
    ¬ ∀ (a : Attention) (x out w : Tensor) (bias mask : Option Tensor) (g g' : SplitMix)
      (batch n b h i j : Nat), a.WellFormed →
      a.forwardWithWeights x bias mask g = (.ok (out, w), g') →
      x.Matches a.dtype [batch, n, a.featSize] → b < batch → h < a.numHeads → i < n → j < n →
      hides mask [b, i, j] = true → Scalar.isNonzero (w.entry a.dtype [b, h, i, j]) = false := by
  intro hall
  let x : Tensor := ⟨.float64, .fill [1, 2, 2] 1, by decide⟩
  let bias : Tensor := ⟨.float64, .generate [1, 2, 2, 2] fun k =>
    if k = 0 then ⟨0x7ff0000000000000⟩ else 0, by decide⟩
  let mask : Tensor := ⟨.uint8, .generate [1, 2, 2] fun k => if k = 1 then 1 else 0, by decide⟩
  have haccept : twoHeads.Accepts 1 2 x (some bias) (some mask) :=
    ⟨⟨rfl, rfl⟩, fun t ht => by cases ht; exact ⟨rfl, rfl⟩, fun m hm => by cases hm; rfl⟩
  rcases forwardWithWeights_eval twoHeads_wellFormed rfl haccept (by decide) (⟨7⟩ : SplitMix) with
    ⟨out, w, hrun, -, -, hwE, -⟩
  have hzero := hall twoHeads x out w (some bias) (some mask) ⟨7⟩ ⟨7⟩ 1 2 0 0 0 1
    twoHeads_wellFormed hrun ⟨rfl, rfl⟩ (by decide) (by decide) (by decide) (by decide) (by decide)
  have hspoiled : twoHeads.spoiledAt x (some bias) (some mask) 2 0 0 0 = true := by decide +kernel
  have hhidden : hides (some mask) [0, 0, 1] = true := by decide
  have hsort := sort_weightAt_hidden (n := 2) twoHeads_wellFormed x (some bias) 0 (by decide)
    hhidden
  rw [hwE 0 0 0 1 (by decide) (by decide) (by decide) (by decide), DType.isNonzero_eq_false_iff,
    hsort, hspoiled] at hzero
  cases hzero

end Attention

end GraphAttention
