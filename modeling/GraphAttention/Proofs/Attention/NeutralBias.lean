import GraphAttention.Proofs.Attention.Masking
import GraphAttention.Proofs.Number.Neutral
import GraphAttention.Proofs.Products

/-!
# Neutral Biases

A bias of ones that is multiplied into the scores, or of zeros that is added to them,
gives what no bias gives, bit for bit. The reason is that every score is a sum over the
components of a head. A sum is rounded already and never negative zero, so neither a
factor of one nor a zero of either sign has an effect on it. The scores after the bias
are the same tensor as before it, and the mask, the softmax and the dropout that follow
are not looked at.

As in the comparison of two biases under a mask, nothing has to be known about the
module. What is known of the scores is known because they were computed: they are of
the kind of the projection of the queries, which is the kind of the module.

## Main definitions

* `Attention.Neutral`: A zero or a one, as the module combines biases.

## Theorems

* `Linear.forward_kind_of_ok`: The result of a layer is of its kind.
* `project_layout`: The kind and shape of queries and keys.
* `scores_sums`: Every score is a sum over a range.
* `withBias_neutral`: A neutral bias leaves the scores as they are.
* `forwardWithWeights_neutral`: And all that follows.
-/

namespace GraphAttention

/-- What a layer returns is of the kind of the layer. -/
theorem Linear.forward_kind_of_ok {l : Linear} {x y : Tensor} (h : l.forward x = .ok y) :
    y.dtype = l.dtype := by
  unfold Linear.forward at h
  split at h
  · cases h
  rcases bind_eq_ok.mp h with ⟨flat, -, h⟩
  rcases bind_eq_ok.mp h with ⟨product, hproduct, h⟩
  rcases bind_eq_ok.mp h with ⟨shifted, hshifted, h⟩
  rcases Tensor.matmul_result hproduct with ⟨hkind, m, k, n, -, -, hM⟩
  rw [(Tensor.reshape_result h).2.dtype]
  -- The bias is added to the product, which is of the kind of the weights.
  unfold addBias at hshifted
  cases hbias : l.bias with
  | none =>
    simp only [hbias] at hshifted
    cases hshifted
    exact hM.dtype.trans hkind.symm
  | some bias =>
    simp only [hbias] at hshifted
    rcases Tensor.combine_result hshifted with ⟨-, s, -, hsum⟩
    exact hsum.dtype.trans (hM.dtype.trans hkind.symm)

namespace Attention

variable {G : Type} [WordSource G] {a : Attention} {batch n : Nat} {mask : Option Tensor}

/-- What a bias may hold without any effect: a zero of either sign where it is added, and one
    where it is multiplied. -/
def Neutral (a : Attention) (v : a.dtype.Elem) : Prop :=
  match a.biasMode with
  | .add => Scalar.isNonzero v = false
  | .mul => v = 1

theorem splitHeads_result {t r : Tensor} (h : a.splitHeads batch n t = .ok r) :
    r.Matches t.dtype [batch * a.numHeads, n, a.headDim] := by
  rcases bind_eq_ok.mp h with ⟨u, hu, h⟩
  rcases bind_eq_ok.mp h with ⟨v, hv, h⟩
  have hM := (Tensor.reshape_result h).2
  refine ⟨?_, hM.shape⟩
  rw [hM.dtype, (Tensor.permute_result hv).2.dtype, (Tensor.reshape_result hu).2.dtype]

/-- Queries are of the kind of the module, and queries and keys are divided among the heads. -/
theorem project_layout {x q k v : Tensor} (h : a.project batch n x = .ok (q, k, v)) :
    q.Matches a.dtype [batch * a.numHeads, n, a.headDim] ∧
      k.shape = [batch * a.numHeads, n, a.headDim] := by
  rcases bind_eq_ok.mp h with ⟨y, hy, h⟩
  rcases bind_eq_ok.mp h with ⟨y', -, h⟩
  rcases bind_eq_ok.mp h with ⟨y'', -, h⟩
  rcases bind_eq_ok.mp h with ⟨q', hq, h⟩
  rcases bind_eq_ok.mp h with ⟨k', hk, h⟩
  rcases bind_eq_ok.mp h with ⟨v', -, h⟩
  cases h
  have hM := splitHeads_result hq
  have hkind : (y.scalarMul a.scaling).dtype = a.dtype :=
    (Tensor.scalarMul_matches ⟨rfl, rfl⟩ a.scaling).dtype.trans (Linear.forward_kind_of_ok hy)
  rw [hkind] at hM
  exact ⟨hM, (splitHeads_result hk).shape⟩

/-- Every score is a sum over the components of a head. -/
theorem scores_sums {d : DType} {q k s : Tensor}
    (hq : q.Matches d [batch * a.numHeads, n, a.headDim])
    (hk : k.shape = [batch * a.numHeads, n, a.headDim]) (h : a.scores batch n q k = .ok s) :
    s.Matches d [batch, n, n, a.numHeads] ∧
      ∀ idx, Shape.Within idx [batch, n, n, a.numHeads] →
        ∃ f, s.entry d idx = sumRange a.headDim f := by
  rw [scores_eq] at h
  rcases bind_eq_ok.mp h with ⟨kt, hkt, h⟩
  rcases bind_eq_ok.mp h with ⟨products, hproducts, h⟩
  have hktM := (Tensor.transpose_result hkt).2.2
  rw [hk, ← hktM.dtype, (Tensor.bmm_result hproducts).1, hq.dtype] at hktM
  rcases Tensor.bmm_entries hq hktM hproducts with ⟨hM, hE⟩
  rcases headsLast_divided ((headsLast_ok_iff hM).mp ⟨s, h⟩) hM with ⟨s', hs', hsM, hsE⟩
  obtain rfl : s' = s := Except.ok.inj (hs'.symm.trans h)
  refine ⟨hsM, fun idx hidx => ?_⟩
  match idx, hidx with
  | [b, i, j, c], ⟨hb, hi, hj, hc, _⟩ =>
    exact ⟨_, (hsE b c i j hb hc hi hj).trans (hE _ i j (Shape.fold_lt hb hc) hi hj)⟩

/-- A neutral bias leaves sums as they are. -/
theorem withBias_neutral {s bias : Tensor} (hs : s.Matches a.dtype [batch, n, n, a.numHeads])
    (hsums : ∀ idx, Shape.Within idx [batch, n, n, a.numHeads] →
      ∃ f, s.entry a.dtype idx = sumRange a.headDim f)
    (hbias : bias.Matches a.dtype [batch, n, n, a.numHeads])
    (hneutral : ∀ idx, Shape.Within idx [batch, n, n, a.numHeads] →
      a.Neutral (bias.entry a.dtype idx)) :
    a.withBias batch n s (some bias) = a.withBias batch n s none := by
  rcases withBias_some hs hbias with ⟨r, hr, hM, hE⟩
  rw [hr]
  refine congrArg Except.ok (Tensor.ext_entry hM hs fun idx hidx => ?_)
  rcases hsums idx hidx with ⟨f, hf⟩
  have hentry := hneutral idx hidx
  rw [hE idx hidx, hf]
  unfold Neutral at hentry
  -- The mode decides which of the two laws is asked for.
  cases hmode : a.biasMode with
  | add =>
    rw [hmode] at hentry
    exact DType.sumRange_add_zero _ _ hentry
  | mul =>
    rw [hmode] at hentry
    simp only [hentry]
    exact DType.sumRange_mul_one _ _

/-- No stage of attention tells a neutral bias from none. -/
theorem attend_neutral {x bias : Tensor}
    (hbias : ∀ batch n f, x.shape = [batch, n, f] →
      bias.Matches a.dtype [batch, n, n, a.numHeads])
    (hneutral : ∀ idx, Shape.Within idx bias.shape → a.Neutral (bias.entry a.dtype idx)) (g : G) :
    a.attend x (some bias) mask g = a.attend x none mask g := by
  rcases hshape : x.shape with _ | ⟨batch, _ | ⟨n, _ | ⟨f, _ | ⟨e, rest⟩⟩⟩⟩
  case cons.cons.cons.nil =>
    have hM := hbias batch n f hshape
    rw [hM.shape] at hneutral
    simp only [attend, hshape]
    refine congrArg (fun act => Action.mapError ModuleError.tensor act g) (funext fun g' => ?_)
    -- Where there are no projections or no scores, there is no bias to look at either.
    cases hproject : a.project batch n x with
    | error e => rfl
    | ok projected =>
      rcases projected with ⟨q, k, v⟩
      rcases project_layout hproject with ⟨hq, hk⟩
      cases hscores : a.scores batch n q k with
      | error e => simp only [Action.bind_ok (Action.run_attempt _ _), hscores]; rfl
      | ok s =>
        rcases scores_sums hq hk hscores with ⟨hs, hsums⟩
        simp only [Action.bind_ok (Action.run_attempt _ _), hscores,
          withBias_neutral hs hsums hM hneutral]
  all_goals simp only [attend, hshape]

/-- A neutral bias gives what no bias gives: the same result or the same error, the same
    weights and the same draws, for every input, mask and source, in both modes. -/
theorem forwardWithWeights_neutral (a : Attention) (x bias : Tensor) (mask : Option Tensor)
    (hbias : ∀ batch n f, x.shape = [batch, n, f] →
      bias.Matches a.dtype [batch, n, n, a.numHeads])
    (hneutral : ∀ idx, Shape.Within idx bias.shape → a.Neutral (bias.entry a.dtype idx)) (g : G) :
    a.forwardWithWeights x (some bias) mask g = a.forwardWithWeights x none mask g ∧
      a.forward x (some bias) mask g = a.forward x none mask g := by
  have hattend : a.attend x (some bias) mask = a.attend (G := G) x none mask :=
    funext fun g => attend_neutral hbias hneutral g
  constructor
  · rw [forwardWithWeights, forwardWithWeights, hattend]
  · rw [forward, forward, hattend]

/-- Ones in a module that multiplies, and zeros in one that adds, both in training and under a
    mask. -/
theorem forwardWithWeights_neutral_bothModes :
    ∃ x ones zeros mask : Tensor, Tensor.ones [1, 2, 2, 2] .float64 = .ok ones ∧
      Tensor.zeros [1, 2, 2, 2] .float64 = .ok zeros ∧ mask.nonzeroAt [0, 0, 1] = true ∧
      forwardWithWeights { twoHeads with biasMode := .mul, dropout := ⟨0.5, true⟩ } x (some ones)
          (some mask) (⟨7⟩ : SplitMix)
        = forwardWithWeights { twoHeads with biasMode := .mul, dropout := ⟨0.5, true⟩ } x none
          (some mask) ⟨7⟩ ∧
      forwardWithWeights { twoHeads with dropout := ⟨0.5, true⟩ } x (some zeros) (some mask)
          (⟨7⟩ : SplitMix)
        = forwardWithWeights { twoHeads with dropout := ⟨0.5, true⟩ } x none (some mask) ⟨7⟩ := by
  let multiplying : Attention := { twoHeads with biasMode := .mul, dropout := ⟨0.5, true⟩ }
  let adding : Attention := { twoHeads with dropout := ⟨0.5, true⟩ }
  let x : Tensor := ⟨.float64, .fill [1, 2, 2] 1, by decide⟩
  let mask : Tensor := ⟨.uint8, .generate [1, 2, 2] fun k => if k = 1 then 1 else 0, by decide⟩
  rcases Tensor.filled_ok (d := .float64) (s := [1, 2, 2, 2]) (by decide) 1 with
    ⟨ones, hones, honesM, honesE⟩
  rcases Tensor.filled_ok (d := .float64) (s := [1, 2, 2, 2]) (by decide) 0 with
    ⟨zeros, hzeros, hzerosM, hzerosE⟩
  refine ⟨x, ones, zeros, mask, hones, hzeros, by decide, ?_, ?_⟩
  · refine (forwardWithWeights_neutral multiplying x ones (some mask) (fun batch n f h => ?_)
      (fun idx hidx => honesE idx (honesM.shape ▸ hidx)) _).1
    cases h
    exact honesM
  · refine (forwardWithWeights_neutral adding x zeros (some mask) (fun batch n f h => ?_)
      (fun idx hidx => ?_) _).1
    · cases h
      exact hzerosM
    · change Scalar.isNonzero (zeros.entry .float64 idx) = false
      rw [hzerosE idx (hzerosM.shape ▸ hidx)]
      exact DType.isNonzero_eq_false_iff.mpr (DType.sort_zero .float64)

end Attention

end GraphAttention
