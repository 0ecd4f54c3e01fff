import GraphAttention.Proofs.Attention.Stages
import GraphAttention.Proofs.Running

/-!
# The Whole of Attention

An attention module outside training computes the reference, entry by entry, and
draws nothing. `attend_ok` puts the stages together as far as the dropout of
weights and leaves the rest of the computation as it is written, so that it
serves in training as well; without training the dropout hands the weights on.

The module asks for room where the reference does not. The scores of all heads
are one array `[batch, heads, n, n]`, and the number of nodes enters it twice, so
features that fit may have scores that do not, even with no item in the batch.
The result is there exactly when they fit: `forwardWithWeights_eq_reference`
says both what it is then and that there is a refusal otherwise.

## Theorems

* `attend_ok`, `attend_roomless`, `attend_error`: The weights before dropout, or
  a refusal.
* `forwardWithWeights_eq_reference`: Output and weights are those of the
  reference wherever the scores have room.
* `not_forall_forwardWithWeights_ok`: Sizes alone do not make a module succeed.
-/

namespace GraphAttention

namespace Attention

variable {G : Type} [WordSource G] {a : Attention} {batch n : Nat} {x : Tensor}
  {bias mask : Option Tensor}

/-- The stages up to the dropout of weights. What follows is left as it is. -/
theorem attend_ok (ha : a.WellFormed) (hx : x.Matches a.dtype [batch, n, a.featSize])
    (hbias : ∀ t, bias = some t → t.Matches a.dtype [batch, n, n, a.numHeads])
    (hmask : ∀ m, mask = some m → m.shape = [batch, n, n])
    (room : Shape.Allocatable a.dtype.width [batch, a.numHeads, n, n]) :
    ∃ w v, w.Matches a.dtype [batch * a.numHeads, n, n] ∧
      v.Matches a.dtype [batch * a.numHeads, n, a.headDim] ∧
      (∀ b h i j, b < batch → h < a.numHeads → i < n → j < n →
        w.entry a.dtype [b * a.numHeads + h, i, j] = a.weightAt x bias mask n b h i j) ∧
      (∀ b h j c, b < batch → h < a.numHeads → j < n → c < a.headDim →
        v.entry a.dtype [b * a.numHeads + h, j, c] = a.valueAt x b j (h * a.headDim + c)) ∧
      ∀ g : G, a.attend x bias mask g
        = Action.mapError ModuleError.tensor (do
            let w ← a.dropout.forward w
            return (← Action.attempt (a.combine batch n w v), w)) g := by
  rcases project_ok ha hx with ⟨q, k, v, hproject, hq, hk, hv, hprojectE⟩
  rcases scores_ok ha.ne_uint8 room hq hk with ⟨s, hs, hsM, hsE⟩
  rcases withBias_ok hsM hbias with ⟨s', hs', hsM', hsE'⟩
  rcases withMask_ok ha.isFloat hsM' hmask with ⟨s'', hs'', hsM'', hsE''⟩
  rcases weights_ok ha.isFloat hsM'' with ⟨w, hw, hwM, hwE⟩
  refine ⟨w, v, hwM, hv, ?_, ?_, ?_⟩
  · -- A weight is the softmax of scores, so these have to be the reference's first.
    intro b h i j hb hh hi hj
    rw [hwE b h i j hb hh hi hj, weightAt]
    -- The lanes agree, key by key.
    have hlane : ∀ k ∈ List.range n, s''.entry a.dtype [b, i, k, h]
        = a.scoreAt x bias mask b h i k := by
      intro k hk
      have hk := List.mem_range.mp hk
      have hproduct : s.entry a.dtype [b, i, k, h] = a.productAt x b h i k := by
        rw [hsE b h i k hb hh hi hk]
        refine sumRange_congr fun c hc => ?_
        rw [(hprojectE b h i c hb hh hi hc).1, (hprojectE b h k c hb hh hk hc).2.1]
      rw [hsE'' b h i k hb hh hi hk, hsE' b h i k hb hh hi hk, hproduct, scoreAt]
    rw [List.map_congr_left hlane]
  · intro b h j c hb hh hj hc
    exact (hprojectE b h j c hb hh hj hc).2.2
  · intro g
    simp only [attend, hx.shape, Action.run_mapError, hproject, hs, hs', hs'', hw,
      Action.run_bind, Action.run_attempt]

/-- Without room for the scores the module refuses and draws nothing, and the
    refusal is the same for every bias and mask. -/
theorem attend_roomless (ha : a.WellFormed) (hx : x.Matches a.dtype [batch, n, a.featSize])
    (hroom : ¬ Shape.Allocatable a.dtype.width [batch, a.numHeads, n, n]) :
    ∃ e, ∀ (bias mask : Option Tensor) (g : G), a.attend x bias mask g = (.error e, g) := by
  rcases project_ok ha hx with ⟨q, k, v, hproject, hq, hk, -, -⟩
  rcases scores_error ha.ne_uint8 hroom hq hk with ⟨e, he⟩
  refine ⟨.tensor e, fun bias mask g => ?_⟩
  simp only [attend, hx.shape, Action.run_mapError, hproject, he, Action.run_bind,
    Action.run_attempt]
  rfl

theorem attend_error (bias mask : Option Tensor) (ha : a.WellFormed)
    (hx : x.Matches a.dtype [batch, n, a.featSize])
    (hroom : ¬ Shape.Allocatable a.dtype.width [batch, a.numHeads, n, n]) :
    ∃ e, ∀ g : G, a.attend x bias mask g = (.error e, g) := by
  rcases attend_roomless (G := G) ha hx hroom with ⟨e, he⟩
  exact ⟨e, he bias mask⟩

/-- Weights as `[batch, heads, n, n]` are the same weights. -/
theorem unfold_ok {w : Tensor} {d : DType}
    (room : Shape.Allocatable d.width [batch, a.numHeads, n, n])
    (hw : w.Matches d [batch * a.numHeads, n, n]) :
    ∃ r, w.reshape [batch, a.numHeads, n, n] = .ok r ∧
      r.Matches d [batch, a.numHeads, n, n] ∧
      ∀ b h i j, r.entry d [b, h, i, j] = w.entry d [b * a.numHeads + h, i, j] := by
  rcases Tensor.reshape_ok [batch, a.numHeads, n, n] hw
    (by simp [Nat.mul_assoc]) room.1 with ⟨r, hr, hM, hE⟩
  exact ⟨r, hr, hM, fun b h i j => hE _ _ (by simp [Shape.ravel]; ring)⟩

/-- The output of given weights is the reference for them. -/
theorem output_ok (ha : a.WellFormed) (hx : x.Matches a.dtype [batch, n, a.featSize])
    {w v : Tensor} {weights : Nat → Nat → Nat → Nat → a.dtype.Elem}
    (hw : w.Matches a.dtype [batch * a.numHeads, n, n])
    (hv : v.Matches a.dtype [batch * a.numHeads, n, a.headDim])
    (hwE : ∀ b h i j, b < batch → h < a.numHeads → i < n → j < n →
      w.entry a.dtype [b * a.numHeads + h, i, j] = weights b h i j)
    (hvE : ∀ b h j c, b < batch → h < a.numHeads → j < n → c < a.headDim →
      v.entry a.dtype [b * a.numHeads + h, j, c] = a.valueAt x b j (h * a.headDim + c)) :
    ∃ out, a.combine batch n w v = .ok out ∧ out.Matches a.dtype [batch, n, a.featSize] ∧
      ∀ b i o, b < batch → i < n → o < a.featSize →
        out.entry a.dtype [b, i, o] = a.outputAt x weights n b i o := by
  rcases combine_ok ha hx.room hw hv with ⟨out, hout, hM, hE⟩
  refine ⟨out, hout, hM, fun b i o hb hi ho => ?_⟩
  rw [hE b i o hb hi ho]
  -- Every feature of the merged heads is a component of one of them.
  refine Linear.apply_congr (fun k hk => ?_) o
  rw [(ha.projection a.output (by simp [projections])).2.1, ha.featSize_eq] at hk
  have hhead : k / a.headDim < a.numHeads := (Nat.div_lt_iff_lt_mul ha.headDim_pos).mpr hk
  have hcomp : k % a.headDim < a.headDim := Nat.mod_lt _ ha.headDim_pos
  refine sumRange_congr fun j hj => ?_
  rw [hwE b _ i j hb hhead hi hj, hvE b _ j _ hb hhead hj hcomp]

/-- Outside training a well-formed module computes the reference wherever there
    is room for the scores of all heads, and is refused everywhere else. In both
    cases nothing is drawn. -/
theorem forwardWithWeights_eq_reference (a : Attention) (ha : a.WellFormed)
    (heval : a.training = false) (batch n : Nat) (x : Tensor) (bias mask : Option Tensor)
    (hx : x.Matches a.dtype [batch, n, a.featSize])
    (hbias : ∀ t, bias = some t → t.Matches a.dtype [batch, n, n, a.numHeads])
    (hmask : ∀ m, mask = some m → m.shape = [batch, n, n]) (g : G) :
    (Shape.Allocatable a.dtype.width [batch, a.numHeads, n, n] →
      ∃ out w, a.forwardWithWeights x bias mask g = (.ok (out, w), g) ∧
        a.forward x bias mask g = (.ok out, g) ∧
        out.Matches a.dtype [batch, n, a.featSize] ∧
        w.Matches a.dtype [batch, a.numHeads, n, n] ∧
        (∀ b h i j, b < batch → h < a.numHeads → i < n → j < n →
          w.entry a.dtype [b, h, i, j] = a.weightAt x bias mask n b h i j) ∧
        ∀ b i o, b < batch → i < n → o < a.featSize →
          out.entry a.dtype [b, i, o] = a.outputAt x (a.weightAt x bias mask n) n b i o) ∧
    (¬ Shape.Allocatable a.dtype.width [batch, a.numHeads, n, n] →
      ∃ e, a.forwardWithWeights x bias mask g = (.error e, g) ∧
        a.forward x bias mask g = (.error e, g)) := by
  refine ⟨fun room => ?_, fun hroom => ?_⟩
  · rcases attend_ok (G := G) ha hx hbias hmask room with ⟨w, v, hw, hv, hwE, hvE, hattend⟩
    rcases output_ok ha hx hw hv hwE hvE with ⟨out, hout, houtM, houtE⟩
    rcases unfold_ok room hw with ⟨r, hr, hrM, hrE⟩
    -- Outside training the dropout hands the weights on and draws nothing.
    have hkeep : a.dropout.forward w g = (.ok w, g) := by
      have htraining : a.dropout.training = false := heval
      rw [Dropout.forward, htraining]
      rfl
    have hpair : a.attend x bias mask g = (.ok (out, w), g) := by
      rw [hattend g, Action.run_mapError, Action.bind_ok hkeep]
      simp only [hout, Action.run_bind, Action.run_attempt, Action.run_pure]
      rfl
    -- The sizes are read off the weights, where batch and heads are one axis.
    have hnodes : w.shape.getD 1 0 = n := by simp [hw.shape]
    have hitems : w.shape.getD 0 0 / a.numHeads = batch := by
      simp [hw.shape, Nat.mul_div_cancel _ ha.heads_pos]
    refine ⟨out, r, ?_, ?_, houtM, hrM, ?_, houtE⟩
    · rw [forwardWithWeights, Action.bind_ok hpair]
      simp only [hnodes, hitems, hr, Action.run_bind, Action.run_attempt]
      rfl
    · rw [forward, Action.bind_ok hpair]
      rfl
    · intro b h i j hb hh hi hj
      rw [hrE, hwE b h i j hb hh hi hj]
  · rcases attend_error (G := G) bias mask ha hx hroom with ⟨e, he⟩
    exact ⟨e, Action.bind_error (he g), Action.bind_error (he g)⟩

/-- Two items of three nodes with a bias, and a mask that hides every pair of
    the first item. -/
theorem forwardWithWeights_twoHeads :
    ∃ (x bias mask out w : Tensor), bias.Matches .float64 [2, 3, 3, 2] ∧
      hides (some mask) [0, 1, 2] = true ∧ hides (some mask) [1, 1, 2] = false ∧
      twoHeads.forwardWithWeights x (some bias) (some mask) (⟨7⟩ : SplitMix)
        = (.ok (out, w), ⟨7⟩) ∧
      w.entry .float64 [1, 1, 1, 2] = twoHeads.weightAt x (some bias) (some mask) 3 1 1 1 2 := by
  let x : Tensor := ⟨.float64, .fill [2, 3, 2] 1, by decide⟩
  let bias : Tensor := ⟨.float64, .fill [2, 3, 3, 2] 1, by decide⟩
  let mask : Tensor := ⟨.uint8, .generate [2, 3, 3] fun k => if k < 9 then 1 else 0, by decide⟩
  rcases (forwardWithWeights_eq_reference twoHeads
    twoHeads_wellFormed rfl 2 3 x (some bias) (some mask) ⟨rfl, rfl⟩
    (fun t ht => by cases ht; exact ⟨rfl, rfl⟩) (fun m hm => by cases hm; rfl)
    (⟨7⟩ : SplitMix)).1 (by decide) with ⟨out, w, hforward, -, -, -, hw, -⟩
  exact ⟨x, bias, mask, out, w, ⟨rfl, rfl⟩, by decide, by decide, hforward,
    hw 1 1 1 2 (by decide) (by decide) (by decide) (by decide)⟩

/-- Agreement of kinds and sizes is not enough: without any item, but with as
    many nodes as `2 ^ 31`, the scores of two heads have no room. -/
theorem not_forall_forwardWithWeights_ok :
    ¬ ∀ (a : Attention) (batch n : Nat) (x : Tensor) (g : SplitMix), a.WellFormed →
      a.training = false → x.Matches a.dtype [batch, n, a.featSize] →
      ∃ out w, a.forwardWithWeights x none none g = (.ok (out, w), g) := by
  intro hall
  let x : Tensor := ⟨.float64, .fill [0, 2147483648, 2] 1, by decide⟩
  have hx : x.Matches twoHeads.dtype [0, 2147483648, twoHeads.featSize] := ⟨rfl, rfl⟩
  rcases hall twoHeads 0 2147483648 x ⟨1⟩ twoHeads_wellFormed rfl hx with ⟨out, w, hforward⟩
  rcases attend_error (G := SplitMix) none none twoHeads_wellFormed hx (by decide) with ⟨e, herror⟩
  have hfail : twoHeads.forwardWithWeights x none none (⟨1⟩ : SplitMix) = (.error e, ⟨1⟩) :=
    Action.bind_error (herror ⟨1⟩)
  rw [hfail] at hforward
  cases hforward

end Attention

end GraphAttention
