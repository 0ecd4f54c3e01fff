import GraphAttention.Proofs.Attention.Forward

/-!
# What a Mask Hides

The bias of a hidden pair has no influence on anything an attention module
returns. This compares two runs: the module is applied twice, with biases that
differ under the mask in any way at all, numbers or not, and everything else is
the same.

The reason is the order of two stages. The bias goes into the scores first and
the mask overwrites them afterwards, so the scores are the same from there on,
and the rest of the module does not see the bias. Nothing has to be known about
the module for this, not that it is well-formed and not that it succeeds: where
one run is refused, so is the other, for the same reason and after as many draws.

## Theorems

* `shape_of_scores`: Scores always have the head last.
* `withMask_congr`: What a mask hides may be anything.
* `maskedScores_congr`: Scores after bias and mask agree.
* `forwardWithWeights_congr_hidden`: So do the results of the module.
-/

namespace GraphAttention

namespace Attention

variable {G : Type} [WordSource G] {a : Attention} {batch n : Nat} {mask : Option Tensor}

theorem shape_of_scores {q k s : Tensor} (h : a.scores batch n q k = .ok s) :
    s.shape = [batch, n, n, a.numHeads] := by
  unfold scores at h
  cases htranspose : k.transpose 1 2 with
  | error e => simp only [htranspose, bind, Except.bind] at h; cases h
  | ok kt =>
    cases hproducts : q.bmm kt with
    | error e => simp only [htranspose, hproducts, bind, Except.bind] at h; cases h
    | ok products =>
      cases hreshape : products.reshape [batch, a.numHeads, n, n] with
      | error e => simp only [htranspose, hproducts, hreshape, bind, Except.bind] at h; cases h
      | ok r =>
        simp only [htranspose, hproducts, hreshape, bind, Except.bind] at h
        rw [Tensor.shape_of_permute h, Tensor.shape_of_reshape hreshape]
        rfl

/-- A mask overwrites what it hides, so scores may differ there. -/
theorem withMask_congr {r r' : Tensor} {d : DType}
    (hr : r.Matches d [batch, n, n, a.numHeads]) (hr' : r'.Matches d [batch, n, n, a.numHeads])
    (hagree : ∀ b i j h, b < batch → i < n → j < n → h < a.numHeads →
      hides mask [b, i, j] = false → r.entry d [b, i, j, h] = r'.entry d [b, i, j, h]) :
    withMask batch n r mask = withMask batch n r' mask := by
  cases mask with
  | none =>
    -- Without a mask nothing is hidden, and the scores are the same tensor.
    have heq : r = r' := Tensor.ext_entry hr hr' fun idx hidx => by
      match idx, hidx with
      | [b, i, j, h], ⟨hb, hi, hj, hh, _⟩ => exact hagree b i j h hb hi hj hh rfl
    rw [heq]
  | some m =>
    by_cases hm : m.shape = [batch, n, n]
    · have hfill : r.maskedFill m (-1 / 0) = r'.maskedFill m (-1 / 0) := by
        refine Tensor.maskedFill_congr [batch, n, n] [a.numHeads] (-1 / 0)
          hr hr' hm ?_
        intro p q hp hq hflag
        match p, hp, q, hq with
        | [b, i, j], ⟨hb, hi, hj, _⟩, [h], ⟨hh, _⟩ => exact hagree b i j h hb hi hj hh hflag
      simp only [withMask, hfill]
    · -- A mask of another shape is refused before it is laid on anything.
      simp only [withMask, Tensor.ensureShape_error hm, bind, Except.bind]

/-- Two biases that agree outside the mask leave the same masked scores. -/
theorem maskedScores_congr {s u v : Tensor} {d : DType} {items nodes : Nat}
    (hs : s.shape = [items, nodes, nodes, a.numHeads])
    (hu : u.Matches d [batch, n, n, a.numHeads]) (hv : v.Matches d [batch, n, n, a.numHeads])
    (hagree : ∀ b i j h, b < batch → i < n → j < n → h < a.numHeads →
      hides mask [b, i, j] = false → u.entry d [b, i, j, h] = v.entry d [b, i, j, h]) :
    (do withMask items nodes (← a.withBias items nodes s (some u)) mask)
      = (do withMask items nodes (← a.withBias items nodes s (some v)) mask) := by
  by_cases hshape : ([batch, n, n, a.numHeads] : Shape) = [items, nodes, nodes, a.numHeads]
  · obtain ⟨rfl, rfl⟩ : batch = items ∧ n = nodes := by
      simp only [List.cons.injEq] at hshape
      exact ⟨hshape.1, hshape.2.1⟩
    -- Biases of one kind go in together or are refused together.
    by_cases hd : d = s.dtype
    · subst hd
      rcases withBias_some ⟨rfl, hs⟩ hu with ⟨r, hr, hrM, hrE⟩
      rcases withBias_some ⟨rfl, hs⟩ hv with ⟨r', hr', hrM', hrE'⟩
      rw [hr, hr']
      refine withMask_congr hrM hrM' fun b i j h hb hi hj hh hflag => ?_
      have hidx : Shape.Within [b, i, j, h] [batch, n, n, a.numHeads] := by
        simp [hb, hi, hj, hh]
      rw [hrE _ hidx, hrE' _ hidx, hagree b i j h hb hi hj hh hflag]
    · rw [withBias_kind hu.shape (hu.dtype.symm ▸ hd), withBias_kind hv.shape (hv.dtype.symm ▸ hd),
        hu.dtype, hv.dtype]
  · -- A bias of another shape is refused, whatever it holds.
    rw [withBias_shape (hu.shape.symm ▸ hshape), withBias_shape (hv.shape.symm ▸ hshape), hu.shape,
      hv.shape]

/-- The stages from the scores on see the bias only through the masked scores. -/
theorem attend_congr_hidden (x : Tensor) {u v : Tensor} {d : DType}
    (hu : u.Matches d [batch, n, n, a.numHeads]) (hv : v.Matches d [batch, n, n, a.numHeads])
    (hagree : ∀ b i j h, b < batch → i < n → j < n → h < a.numHeads →
      hides mask [b, i, j] = false → u.entry d [b, i, j, h] = v.entry d [b, i, j, h]) (g : G) :
    a.attend x (some u) mask g = a.attend x (some v) mask g := by
  rcases hshape : x.shape with _ | ⟨items, _ | ⟨nodes, _ | ⟨f, _ | ⟨e, rest⟩⟩⟩⟩
  case cons.cons.cons.nil =>
    -- Projections and scores are made without the bias, so they are common to both runs.
    simp only [attend, hshape]
    congr 2
    funext qkv
    rcases qkv with ⟨q, k, w⟩
    cases hscores : a.scores items nodes q k with
    | error e => rfl
    | ok s =>
      -- Bias and mask are taken as one step, and that step has one result in both runs.
      funext g'
      rw [Action.bind_ok (Action.run_attempt _ _), Action.bind_ok (Action.run_attempt _ _),
        Action.attempt_bind (a.withBias items nodes s (some u)),
        Action.attempt_bind (a.withBias items nodes s (some v)),
        maskedScores_congr (shape_of_scores hscores) hu hv hagree]
  all_goals simp only [attend, hshape]

/-- Biases that agree wherever the mask shows a pair give the same result, with
    the same draws, whether the module is training or not. -/
theorem forwardWithWeights_congr_hidden (a : Attention) (batch n : Nat) (x : Tensor)
    (mask : Option Tensor) (u v : Tensor)
    (hu : u.Matches a.dtype [batch, n, n, a.numHeads])
    (hv : v.Matches a.dtype [batch, n, n, a.numHeads])
    (hagree : ∀ b i j h, b < batch → i < n → j < n → h < a.numHeads →
      hides mask [b, i, j] = false →
      u.entry a.dtype [b, i, j, h] = v.entry a.dtype [b, i, j, h]) (g : G) :
    a.forwardWithWeights x (some u) mask g = a.forwardWithWeights x (some v) mask g ∧
      a.forward x (some u) mask g = a.forward x (some v) mask g := by
  have hattend : a.attend x (some u) mask = a.attend (G := G) x (some v) mask :=
    funext fun g => attend_congr_hidden x hu hv hagree g
  constructor
  · rw [forwardWithWeights, forwardWithWeights, hattend]
  · rw [forward, forward, hattend]

/-- In training, a bias that is not a number on a hidden pair does no more than
    a bias of one. -/
theorem forwardWithWeights_hidden_nan :
    ∃ (a : Attention) (x u v mask : Tensor), a.training = true ∧
      u.entry .float64 [0, 0, 1, 1] = 1 ∧
      v.entry .float64 [0, 0, 1, 1] = ⟨0x7ff8000000000000⟩ ∧
      a.forwardWithWeights x (some u) (some mask) (⟨7⟩ : SplitMix)
        = a.forwardWithWeights x (some v) (some mask) ⟨7⟩ := by
  let a : Attention := { twoHeads with dropout := ⟨0.5, true⟩ }
  let x : Tensor := ⟨.float64, .fill [1, 2, 2] 1, by decide⟩
  let u : Tensor := ⟨.float64, .fill [1, 2, 2, 2] 1, by decide⟩
  let v : Tensor := ⟨.float64, .generate [1, 2, 2, 2] fun k =>
    if k = 2 ∨ k = 3 then ⟨0x7ff8000000000000⟩ else 1, by decide⟩
  let mask : Tensor := ⟨.uint8, .generate [1, 2, 2] fun k => if k = 1 then 1 else 0, by decide⟩
  have hagree : ∀ b < 1, ∀ i < 2, ∀ j < 2, ∀ h < 2, hides (some mask) [b, i, j] = false →
      u.entry .float64 [b, i, j, h] = v.entry .float64 [b, i, j, h] := by decide
  refine ⟨a, x, u, v, mask, rfl, by decide, by decide, ?_⟩
  exact (forwardWithWeights_congr_hidden a 1 2 x (some mask) u v ⟨rfl, rfl⟩ ⟨rfl, rfl⟩
    (fun b i j h hb hi hj hh => hagree b hb i hi j hj h hh) (⟨7⟩ : SplitMix)).1

end Attention

end GraphAttention
