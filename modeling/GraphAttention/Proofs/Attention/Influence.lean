import GraphAttention.Proofs.Attention.Locality
import Mathlib.Data.Option.Defs

/-!
# The Reach of a Bias and a Mask Entry

The bias of one query in one head has an influence on the weights of that query in
that head, and on the row of the output that the query stands for, and on nothing
else. A mask entry belongs to all heads, so it has an influence on the weights of
its query in every head, and again on one row of the output. This compares two
runs of a module outside training whose biases differ in the entries of one query
in one head, for any keys, and whose masks differ in entries of the same query.

Whether a run succeeds is not a matter of entries. Both runs are refused, for the
same reason, or neither is, and this is settled before entries are looked at.

## Main definitions

* `Tensor.AgreeOutside`: Tensors that differ in some entries at most.

## Theorems

* `Accepts.of_layout`, `Refuses.of_layout`: What is accepted depends on kinds and
  shapes.
* `refused_or_accepted`: Two runs with inputs of the same kinds and shapes.
* `forwardWithWeights_influence`: What other entries of bias and mask leave alone.
-/

namespace GraphAttention

open GraphAttention.Action

namespace Tensor

variable {t u : Tensor} {differ : Index → Prop}

/-- Two tensors have one kind and one shape. -/
def SameLayout (t u : Tensor) : Prop := u.dtype = t.dtype ∧ u.shape = t.shape

/-- Two tensors of one kind and shape have the same entries outside a set of
    indices. -/
structure AgreeOutside (differ : Index → Prop) (t u : Tensor) : Prop where
  layout : SameLayout t u
  entry : ∀ idx, Shape.Within idx t.shape → ¬ differ idx →
    u.entry t.dtype idx = t.entry t.dtype idx

theorem AgreeOutside.refl (differ : Index → Prop) (t : Tensor) : AgreeOutside differ t t :=
  ⟨⟨rfl, rfl⟩, fun _ _ _ => rfl⟩

theorem AgreeOutside.nonzeroAt (h : AgreeOutside differ t u) {idx : Index}
    (hidx : Shape.Within idx t.shape) (hsame : ¬ differ idx) :
    u.nonzeroAt idx = t.nonzeroAt idx := by
  rw [nonzeroAt_eq h.layout.1, h.entry idx hidx hsame, nonzeroAt_eq rfl]

end Tensor

namespace Attention

variable {G : Type} [WordSource G] {a : Attention} {batch n : Nat} {x : Tensor}
  {bias bias' mask mask' : Option Tensor} {e : ModuleError}

/-- Inputs of the kinds and shapes of accepted ones are accepted. -/
theorem Accepts.of_layout (h : a.Accepts batch n x bias mask)
    (hbias : Option.Rel Tensor.SameLayout bias bias')
    (hmask : Option.Rel Tensor.SameLayout mask mask') : a.Accepts batch n x bias' mask' := by
  refine ⟨h.features, fun t' ht' => ?_, fun m' hm' => ?_⟩
  · subst ht'
    cases hbias with
    | some hlayout =>
      have ht := h.bias _ rfl
      exact ⟨hlayout.1.trans ht.dtype, hlayout.2.trans ht.shape⟩
  · subst hm'
    cases hmask with
    | some hlayout => exact hlayout.2.trans (h.mask _ rfl)

/-- Inputs of the kinds and shapes of refused ones are refused, for the same
    reason. -/
theorem Refuses.of_layout (h : a.Refuses x bias mask e)
    (hbias : Option.Rel Tensor.SameLayout bias bias')
    (hmask : Option.Rel Tensor.SameLayout mask mask') : a.Refuses x bias' mask' e := by
  cases h with
  | rank h => exact .rank h
  | width hx h => exact .width hx h
  | kind hx h => exact .kind hx h
  | biasShape hx ht h =>
    subst ht
    cases hbias with
    | some hlayout =>
      rw [← hlayout.2] at h ⊢
      exact .biasShape hx rfl h
  | biasKind hx ht hshape h =>
    subst ht
    cases hbias with
    | some hlayout =>
      rw [← hlayout.2] at hshape
      rw [← hlayout.1] at h ⊢
      exact .biasKind hx rfl hshape h
  | @maskShape batch n _ hx hfits hm h =>
    subst hm
    cases hmask with
    | some hlayout =>
      rw [← hlayout.2] at h ⊢
      refine .maskShape hx (fun t' ht' => ?_) rfl h
      subst ht'
      cases hbias with
      | some hlayout' =>
        have ht := hfits _ rfl
        exact ⟨hlayout'.1.trans ht.dtype, hlayout'.2.trans ht.shape⟩

/-- Two runs on the same features, with biases and masks of the same kinds and
    shapes, are refused alike, or the inputs of both are accepted. -/
theorem refused_or_accepted (ha : a.WellFormed) (x : Tensor)
    (hbias : Option.Rel Tensor.SameLayout bias bias')
    (hmask : Option.Rel Tensor.SameLayout mask mask') :
    (∃ e, ∀ g : G, a.attend x bias mask g = (.error e, g) ∧
      a.attend x bias' mask' g = (.error e, g)) ∨
    ∃ batch n, a.Accepts batch n x bias mask ∧ a.Accepts batch n x bias' mask' ∧
      Shape.Allocatable a.dtype.width [batch, a.numHeads, n, n] := by
  by_cases hroom : a.Roomy a.dtype.width x
  · rcases accepts_or_refuses a x bias mask with ⟨batch, n, h⟩ | ⟨e, h⟩
    · exact .inr ⟨batch, n, h, h.of_layout hbias hmask, hroom _ _ h.features⟩
    · exact .inl ⟨e, fun g => ⟨attend_refused ha hroom h g,
        attend_refused ha hroom (h.of_layout hbias hmask) g⟩⟩
  · -- Without room the refusal comes before bias and mask are looked at.
    simp only [Roomy, not_forall] at hroom
    rcases hroom with ⟨batch, n, hx, hroom⟩
    rcases attend_roomless (G := G) ha hx hroom with ⟨e, he⟩
    exact .inl ⟨e, fun g => ⟨he bias mask g, he bias' mask' g⟩⟩

theorem layout_of_agree {differ : Index → Prop} {t t' : Option Tensor}
    (h : Option.Rel (Tensor.AgreeOutside differ) t t') : Option.Rel Tensor.SameLayout t t' := by
  cases h with
  | some h => exact .some h.layout
  | none => exact .none

/-- The scores of a pair and head at which bias and mask agree. -/
theorem scoreAt_agree (ha : a.WellFormed) {differ differ' : Index → Prop}
    (hbias : Option.Rel (Tensor.AgreeOutside differ) bias bias')
    (hmask : Option.Rel (Tensor.AgreeOutside differ') mask mask')
    (h : a.Accepts batch n x bias mask) {b hd i j : Nat} (hb : b < batch) (hi : i < n)
    (hj : j < n) (hh : hd < a.numHeads) (hsame : ¬ differ [b, i, j, hd])
    (hsame' : ¬ differ' [b, i, j]) :
    a.scoreAt x bias' mask' b hd i j = a.scoreAt x bias mask b hd i j := by
  refine scoreAt_congr ha (fun _ _ => rfl) (fun _ _ => rfl) ?_ ?_
  · cases hbias with
    | none => rfl
    | @some t t' hagree =>
      have ht := h.bias t rfl
      have hentry := hagree.entry [b, i, j, hd] (by simp [ht.shape, hb, hi, hj, hh]) hsame
      rw [ht.dtype] at hentry
      exact congrArg some hentry
  · cases hmask with
    | none => rfl
    | @some m m' hagree =>
      exact hagree.nonzeroAt (by simp [h.mask m rfl, hb, hi, hj]) hsame'

/-- Two runs outside training whose biases differ in entries of one query in one
    head, and whose masks differ in entries of the same query, if at all. They
    are refused alike or both succeed. The weights of every other query are then
    the same, also those of this query in other heads if the masks are the same,
    and so are all other rows of the output. -/
theorem forwardWithWeights_influence (a : Attention) (ha : a.WellFormed)
    (heval : a.training = false) (x : Tensor) (bias bias' mask mask' : Option Tensor)
    (b₀ i₀ h₀ : Nat)
    (hbias : Option.Rel (Tensor.AgreeOutside fun idx => ∃ j, idx = [b₀, i₀, j, h₀]) bias bias')
    (hmask : Option.Rel (Tensor.AgreeOutside fun idx => ∃ j, idx = [b₀, i₀, j]) mask mask')
    (g : G) :
    (∃ e, a.forwardWithWeights x bias mask g = (.error e, g) ∧
      a.forwardWithWeights x bias' mask' g = (.error e, g)) ∨
    ∃ batch n out w out' w', x.Matches a.dtype [batch, n, a.featSize] ∧
      a.forwardWithWeights x bias mask g = (.ok (out, w), g) ∧
      a.forwardWithWeights x bias' mask' g = (.ok (out', w'), g) ∧
      (out.Matches a.dtype [batch, n, a.featSize] ∧ out'.Matches a.dtype [batch, n, a.featSize]) ∧
      (w.Matches a.dtype [batch, a.numHeads, n, n] ∧
        w'.Matches a.dtype [batch, a.numHeads, n, n]) ∧
      (mask' = mask → ∀ b h i j, b < batch → h < a.numHeads → i < n → j < n →
        (b, h, i) ≠ (b₀, h₀, i₀) →
        w'.entry a.dtype [b, h, i, j] = w.entry a.dtype [b, h, i, j]) ∧
      (∀ b h i j, b < batch → h < a.numHeads → i < n → j < n → (b, i) ≠ (b₀, i₀) →
        w'.entry a.dtype [b, h, i, j] = w.entry a.dtype [b, h, i, j]) ∧
      ∀ b i o, b < batch → i < n → o < a.featSize → (b, i) ≠ (b₀, i₀) →
        out'.entry a.dtype [b, i, o] = out.entry a.dtype [b, i, o] := by
  rcases refused_or_accepted (G := G) ha x (layout_of_agree hbias) (layout_of_agree hmask) with
    ⟨e, he⟩ | ⟨batch, n, haccept, haccept', room⟩
  · exact .inl ⟨e, bind_error (he g).1, bind_error (he g).2⟩
  · rcases forwardWithWeights_eval ha heval haccept room g with ⟨out, w, hrun, hout, hw, hwE, houtE⟩
    rcases forwardWithWeights_eval ha heval haccept' room g with
      ⟨out', w', hrun', hout', hw', hwE', houtE'⟩
    -- Another query has other entries of bias and mask, for every key.
    have hquery : ∀ b h i, b < batch → h < a.numHeads → i < n → (b, i) ≠ (b₀, i₀) → ∀ j,
        a.weightAt x bias' mask' n b h i j = a.weightAt x bias mask n b h i j := by
      intro b h i hb hh hi hne j
      refine weightAt_congr (fun k hk => scoreAt_agree ha hbias hmask haccept hb hi hk hh ?_ ?_) j
      · rintro ⟨j, heq⟩
        simp_all
      · rintro ⟨j, heq⟩
        simp_all
    refine .inr ⟨batch, n, out, w, out', w', haccept.features, hrun, hrun', ⟨hout, hout'⟩,
      ⟨hw, hw'⟩, ?_, ?_, ?_⟩
    · rintro rfl b h i j hb hh hi hj hne
      rw [hwE b h i j hb hh hi hj, hwE' b h i j hb hh hi hj]
      -- With one mask in both runs, another head of the same query is left alone too.
      have hsame : Option.Rel (Tensor.AgreeOutside fun _ => False) mask' mask' := by
        cases mask' with
        | none => exact .none
        | some m => exact .some (.refl _ m)
      refine weightAt_congr (fun k hk =>
        scoreAt_agree ha hbias hsame haccept hb hi hk hh ?_ not_false) j
      rintro ⟨j, heq⟩
      simp_all
    · intro b h i j hb hh hi hj hne
      rw [hwE b h i j hb hh hi hj, hwE' b h i j hb hh hi hj, hquery b h i hb hh hi hne j]
    · intro b i o hb hi ho hne
      rw [houtE b i o hb hi ho, houtE' b i o hb hi ho]
      exact outputAt_congr ha (fun _ _ _ _ => rfl)
        (fun h j hh _ => hquery b h i hb hh hi hne j) o

/-- A bias that is not a number and a pair that is newly hidden, both of query 0
    of item 1, leave the other query of this item and the other item alone. -/
theorem forwardWithWeights_influence_nan :
    ∃ (x bias bias' mask mask' out w out' w' : Tensor),
      bias'.entry .float64 [1, 0, 0, 1] = ⟨0x7ff8000000000000⟩ ∧
      hides (some mask) [1, 0, 1] = false ∧ hides (some mask') [1, 0, 1] = true ∧
      twoHeads.forwardWithWeights x (some bias) (some mask) (⟨7⟩ : SplitMix)
        = (.ok (out, w), ⟨7⟩) ∧
      twoHeads.forwardWithWeights x (some bias') (some mask') (⟨7⟩ : SplitMix)
        = (.ok (out', w'), ⟨7⟩) ∧
      w'.entry .float64 [1, 1, 1, 0] = w.entry .float64 [1, 1, 1, 0] ∧
      out'.entry .float64 [0, 0, 1] = out.entry .float64 [0, 0, 1] := by
  let x : Tensor := ⟨.float64, .fill [2, 2, 2] 1, by decide⟩
  let bias : Tensor := ⟨.float64, .fill [2, 2, 2, 2] 1, by decide⟩
  let bias' : Tensor := ⟨.float64, .generate [2, 2, 2, 2] fun k =>
    if k = 9 ∨ k = 11 then ⟨0x7ff8000000000000⟩ else 1, by decide⟩
  let mask : Tensor := ⟨.uint8, .fill [2, 2, 2] 0, by decide⟩
  let mask' : Tensor := ⟨.uint8, .generate [2, 2, 2] fun k => if k = 5 then 1 else 0, by decide⟩
  have hbiases : ∀ b < 2, ∀ i < 2, ∀ j < 2, ∀ h < 2,
      (b == 1 && i == 0 && h == 1) = false →
      bias'.entry .float64 [b, i, j, h] = bias.entry .float64 [b, i, j, h] := by decide
  have hmasks : ∀ b < 2, ∀ i < 2, ∀ j < 2, (b == 1 && i == 0) = false →
      mask'.entry .uint8 [b, i, j] = mask.entry .uint8 [b, i, j] := by decide
  have hbias : Tensor.AgreeOutside (fun idx => ∃ j, idx = [1, 0, j, 1]) bias bias' := by
    refine ⟨⟨rfl, rfl⟩, fun idx hidx hne => ?_⟩
    match idx, hidx with
    | [b, i, j, h], ⟨hb, hi, hj, hh, _⟩ =>
      refine hbiases b hb i hi j hj h hh (Bool.eq_false_iff.mpr fun hsame => hne ?_)
      simp only [Bool.and_eq_true, beq_iff_eq] at hsame
      rcases hsame with ⟨⟨rfl, rfl⟩, rfl⟩
      exact ⟨j, rfl⟩
  have hmask : Tensor.AgreeOutside (fun idx => ∃ j, idx = [1, 0, j]) mask mask' := by
    refine ⟨⟨rfl, rfl⟩, fun idx hidx hne => ?_⟩
    match idx, hidx with
    | [b, i, j], ⟨hb, hi, hj, _⟩ =>
      refine hmasks b hb i hi j hj (Bool.eq_false_iff.mpr fun hsame => hne ?_)
      simp only [Bool.and_eq_true, beq_iff_eq] at hsame
      rcases hsame with ⟨rfl, rfl⟩
      exact ⟨j, rfl⟩
  have haccept : twoHeads.Accepts 2 2 x (some bias) (some mask) :=
    ⟨⟨rfl, rfl⟩, fun t ht => by cases ht; exact ⟨rfl, rfl⟩, fun m hm => by cases hm; rfl⟩
  rcases forwardWithWeights_eval twoHeads_wellFormed rfl haccept (by decide) (⟨7⟩ : SplitMix) with
    ⟨_, _, hsucceeds, -⟩
  rcases forwardWithWeights_influence twoHeads twoHeads_wellFormed rfl x (some bias) (some bias')
    (some mask) (some mask') 1 0 1 (.some hbias) (.some hmask) (⟨7⟩ : SplitMix) with
    ⟨e, hfails, -⟩ | ⟨batch, n, out, w, out', w', hx, hrun, hrun', -, -, -, hweights, hrows⟩
  · rw [hsucceeds] at hfails
    cases hfails
  · obtain ⟨rfl, rfl⟩ : batch = 2 ∧ n = 2 := by
      have hsizes := hx.shape
      cases hsizes
      exact ⟨rfl, rfl⟩
    exact ⟨x, bias, bias', mask, mask', out, w, out', w', by decide, by decide, by decide, hrun,
      hrun', hweights 1 1 1 0 (by decide) (by decide) (by decide) (by decide) (by decide),
      hrows 0 0 1 (by decide) (by decide) (by decide) (by decide)⟩

end Attention

end GraphAttention
