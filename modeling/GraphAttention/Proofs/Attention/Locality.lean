import GraphAttention.Proofs.Attention.Acceptance

/-!
# What an Entry Depends On

Every entry of the result of an attention module is an expression in a few entries
of the inputs, and two runs that agree on these agree on the entry, whatever else
is different between them. A score depends on two rows of features, one entry of
the bias and one of the mask. A weight depends on the scores of its query in its
head. A row of the output depends on the weights of its query in all heads and on
the features of all nodes of its item.

The two runs are allowed to read their inputs at different places. The same
statements then serve for one entry of one input that was changed and for an item
that stands alone in one run and among others in the other.

## Main definitions

* `Attention.SameRow`: Equal features at a place of each of two inputs.

## Theorems

* `productAt_congr`, `biasedAt_congr`, `scoreAt_congr`: Scores.
* `weightAt_congr`, `outputAt_congr`: Weights and rows of the output.
* `forward_weighted`: A module, given what dropout makes of its weights.
* `forwardWithWeights_eval`: Both results of a module outside training, entry by
  entry.
-/

namespace GraphAttention

open GraphAttention.Action

namespace Attention

variable {G : Type} [WordSource G] {a : Attention} {x x' : Tensor}
  {bias bias' mask mask' : Option Tensor} {batch n b b' i i' j j' h h' : Nat}

/-- The features of node `i` of item `b` of one input are those of node `i'` of
    item `b'` of another. -/
def SameRow (a : Attention) (x x' : Tensor) (b i b' i' : Nat) : Prop :=
  ∀ k, k < a.featSize → a.rowAt x b i k = a.rowAt x' b' i' k

theorem WellFormed.apply_congr (ha : a.WellFormed) {l : Linear} (hl : l ∈ a.projections)
    {row row' : Nat → a.dtype.Elem} (hrow : ∀ k, k < a.featSize → row k = row' k) (o : Nat) :
    l.apply a.dtype row o = l.apply a.dtype row' o := by
  refine Linear.apply_congr (fun k hk => hrow k ?_) o
  rwa [(ha.projection l hl).2.1] at hk

theorem productAt_congr (ha : a.WellFormed) (hi : a.SameRow x x' b i b' i')
    (hj : a.SameRow x x' b j b' j') (h : Nat) :
    a.productAt x b h i j = a.productAt x' b' h i' j' := by
  refine sumRange_congr fun c _ => ?_
  rw [queryAt, queryAt, keyAt, keyAt, ha.apply_congr (l := a.query) (by simp [projections]) hi,
    ha.apply_congr (l := a.key) (by simp [projections]) hj]

theorem biasedAt_congr
    (hbias : (bias.map fun t => t.entry a.dtype [b, i, j, h])
      = bias'.map fun t => t.entry a.dtype [b', i', j', h']) (score : a.dtype.Elem) :
    a.biasedAt bias b h i j score = a.biasedAt bias' b' h' i' j' score := by
  -- An entry of each or of neither, so both have a bias or none has.
  cases bias with
  | none =>
    cases bias' with
    | none => rfl
    | some t' => cases hbias
  | some t =>
    cases bias' with
    | none => cases hbias
    | some t' =>
      have hentry : t.entry a.dtype [b, i, j, h] = t'.entry a.dtype [b', i', j', h'] :=
        Option.some.inj hbias
      simp only [biasedAt, hentry]

/-- A score depends on the features of its two nodes and on its own entries of
    bias and mask. -/
theorem scoreAt_congr (ha : a.WellFormed) (hi : a.SameRow x x' b i b' i')
    (hj : a.SameRow x x' b j b' j')
    (hbias : (bias.map fun t => t.entry a.dtype [b, i, j, h])
      = bias'.map fun t => t.entry a.dtype [b', i', j', h])
    (hmask : hides mask [b, i, j] = hides mask' [b', i', j']) :
    a.scoreAt x bias mask b h i j = a.scoreAt x' bias' mask' b' h i' j' := by
  rw [scoreAt, scoreAt, hmask, productAt_congr ha hi hj, biasedAt_congr hbias]

/-- A weight depends on the scores of its query in its head. -/
theorem weightAt_congr
    (hscore : ∀ k, k < n → a.scoreAt x bias mask b h i k = a.scoreAt x' bias' mask' b' h' i' k)
    (j : Nat) : a.weightAt x bias mask n b h i j = a.weightAt x' bias' mask' n b' h' i' j := by
  have hlane : (List.range n).map (fun k => a.scoreAt x bias mask b h i k)
      = (List.range n).map fun k => a.scoreAt x' bias' mask' b' h' i' k :=
    List.map_congr_left fun k hk => hscore k (List.mem_range.mp hk)
  rw [weightAt, weightAt, hlane]

/-- A row of the output depends on the weights of its query in all heads and on
    the features of the nodes of its item. -/
theorem outputAt_congr (ha : a.WellFormed) {weights weights' : Nat → Nat → Nat → Nat → a.dtype.Elem}
    (hrows : ∀ j, j < n → a.SameRow x x' b j b' j)
    (hweights : ∀ h j, h < a.numHeads → j < n → weights b h i j = weights' b' h i' j) (o : Nat) :
    a.outputAt x weights n b i o = a.outputAt x' weights' n b' i' o := by
  refine ha.apply_congr (l := a.output) (by simp [projections]) (fun k hk => ?_) o
  -- Feature `k` of the merged heads belongs to one of them.
  rw [ha.featSize_eq] at hk
  have hhead : k / a.headDim < a.numHeads := (Nat.div_lt_iff_lt_mul ha.headDim_pos).mpr hk
  refine sumRange_congr fun j hj => ?_
  rw [hweights _ j hhead hj, valueAt, valueAt,
    ha.apply_congr (l := a.value) (by simp [projections]) (hrows j hj)]

/-- The weights before dropout do not depend on the source, and both ways of applying
    the module go on from whatever dropout makes of them. -/
theorem forward_weighted (ha : a.WellFormed) (haccept : a.Accepts batch n x bias mask)
    (room : Shape.Allocatable a.dtype.width [batch, a.numHeads, n, n]) :
    ∃ w, w.Matches a.dtype [batch * a.numHeads, n, n] ∧
      (∀ b h i j, b < batch → h < a.numHeads → i < n → j < n →
        w.entry a.dtype [b * a.numHeads + h, i, j] = a.weightAt x bias mask n b h i j) ∧
      (∀ w' : Tensor, w'.Matches a.dtype [batch * a.numHeads, n, n] →
        ∃ out r, out.Matches a.dtype [batch, n, a.featSize] ∧
          r.Matches a.dtype [batch, a.numHeads, n, n] ∧
          (∀ b h i j, r.entry a.dtype [b, h, i, j]
            = w'.entry a.dtype [b * a.numHeads + h, i, j]) ∧
          (∀ b i o, b < batch → i < n → o < a.featSize → out.entry a.dtype [b, i, o]
            = a.outputAt x (fun b h i j => r.entry a.dtype [b, h, i, j]) n b i o) ∧
          ∀ g g' : G, a.dropout.forward w g = (.ok w', g') →
            a.forwardWithWeights x bias mask g = (.ok (out, r), g') ∧
              a.forward x bias mask g = (.ok out, g')) ∧
      ∀ e, ∀ g g' : G, a.dropout.forward w g = (.error e, g') →
        a.forwardWithWeights x bias mask g = (.error (.tensor e), g') ∧
          a.forward x bias mask g = (.error (.tensor e), g') := by
  rcases attend_ok (G := G) ha haccept.features haccept.bias haccept.mask room with
    ⟨w, v, hw, hv, hwE, hvE, hattend⟩
  refine ⟨w, hw, hwE, fun w' hw' => ?_, fun e g g' hdropout => ?_⟩
  · rcases output_ok ha haccept.features hw' hv (fun _ _ _ _ _ _ _ _ => rfl) hvE with
      ⟨out, hout, houtM, houtE⟩
    rcases answer_of_attend (G := G) ha.heads_pos room hw' with ⟨r, hrM, hrE, hanswer⟩
    refine ⟨out, r, houtM, hrM, hrE, fun b i o hb hi ho => ?_, fun g g' hdropout => ?_⟩
    · simp only [houtE b i o hb hi ho, hrE]
    · have hpair : a.attend x bias mask g = (.ok (out, w'), g') := by
        rw [hattend g, run_mapError, bind_ok hdropout]
        simp only [hout, run_bind, run_attempt, run_pure]
        rfl
      exact (hanswer out g g' hpair).symm
  · have hfail : a.attend x bias mask g = (.error (.tensor e), g') := by
      rw [hattend g, run_mapError, bind_error hdropout]
      rfl
    exact ⟨bind_error hfail, bind_error hfail⟩

/-- Outside training, both results of a module are known entry by entry wherever
    there is room for the scores, and nothing is drawn. -/
theorem forwardWithWeights_eval (ha : a.WellFormed) (heval : a.training = false)
    (haccept : a.Accepts batch n x bias mask)
    (room : Shape.Allocatable a.dtype.width [batch, a.numHeads, n, n]) (g : G) :
    ∃ out w, a.forwardWithWeights x bias mask g = (.ok (out, w), g) ∧
      out.Matches a.dtype [batch, n, a.featSize] ∧ w.Matches a.dtype [batch, a.numHeads, n, n] ∧
      (∀ b h i j, b < batch → h < a.numHeads → i < n → j < n →
        w.entry a.dtype [b, h, i, j] = a.weightAt x bias mask n b h i j) ∧
      ∀ b i o, b < batch → i < n → o < a.featSize →
        out.entry a.dtype [b, i, o] = a.outputAt x (a.weightAt x bias mask n) n b i o := by
  rcases forward_weighted (G := G) ha haccept room with ⟨w, hw, hwE, hanswer, -⟩
  rcases hanswer w hw with ⟨out, r, houtM, hrM, hrE, houtE, hrun⟩
  -- Outside training the weights that are multiplied are those of the softmax.
  have hidle : a.dropout.idle = true := by
    rw [training] at heval
    simp [Dropout.idle, heval]
  have hweights : ∀ b h i j, b < batch → h < a.numHeads → i < n → j < n →
      r.entry a.dtype [b, h, i, j] = a.weightAt x bias mask n b h i j :=
    fun b h i j hb hh hi hj => (hrE b h i j).trans (hwE b h i j hb hh hi hj)
  refine ⟨out, r, (hrun g g (Dropout.forward_idle hidle w g)).1, houtM, hrM, hweights,
    fun b i o hb hi ho => (houtE b i o hb hi ho).trans ?_⟩
  exact outputAt_congr ha (fun _ _ _ _ => rfl)
    (fun h j hh hj => hweights b h i j hb hh hi hj) o

end Attention

end GraphAttention
