import GraphAttention.Proofs.Attention.Reference
import GraphAttention.Proofs.Drawing

/-!
# Modules as They Are Built

A module that is built from settings is well-formed and not in training, and
drawing its projections anew leaves it so. This is where well-formedness comes
from: nothing that is proved of well-formed modules has to be checked again for
one that was built.

Building draws every projection twice, once when the layer is made and once with
the gain that belongs to it. The second round works on a module that is complete
and keeps what is true of it, so `Follows` is stated for any module and not only
for a new one.

## Main definitions

* `Attention.Follows`: A module has the sizes, modes and kinds of its settings.

## Theorems

* `AttentionConfig.validate_ok`: What accepted settings satisfy.
* `Follows.wellFormed`: A module that follows accepted settings is well-formed.
* `resetParameters_keeps`: Drawing anew keeps a module following its settings.
* `build_yields`, `build_wellFormed`: Modules as they are built.
-/

namespace GraphAttention

open GraphAttention.Action

/-- Accepted settings divide the features evenly, among at least one head, and
    are of a floating kind. -/
theorem AttentionConfig.validate_ok {c : AttentionConfig} (h : c.validate = .ok ()) :
    0 < c.featSize ∧ 0 < c.numHeads ∧ c.featSize % c.numHeads = 0 ∧
      Tensor.isProbability c.attnDrop = true ∧ c.dtype.isFloat = true := by
  unfold AttentionConfig.validate at h
  by_cases hsizes : c.featSize = 0 ∨ c.numHeads = 0
  · rw [if_pos hsizes] at h
    cases h
  · rw [if_neg hsizes] at h
    by_cases hdivides : c.featSize % c.numHeads ≠ 0
    · rw [if_pos hdivides] at h
      cases h
    · rw [if_neg hdivides] at h
      by_cases hchance : ¬ Tensor.isProbability c.attnDrop
      · rw [if_pos hchance] at h
        cases h
      · rw [if_neg hchance] at h
        by_cases hfloat : c.dtype.isFloat
        · exact ⟨by omega, by omega, by omega, by simpa using hchance, hfloat⟩
        · rw [requireFloatParameters, if_neg hfloat] at h
          cases h

namespace Attention

variable {G : Type} [WordSource G] {c : AttentionConfig} {on : Bool} {a : Attention}

/-- A projection of the kind and the sizes of some settings. -/
def Suits (c : AttentionConfig) (l : Linear) : Prop :=
  l.WellFormed c.dtype ∧ l.inFeatures = c.featSize ∧ l.outFeatures = c.featSize

/-- A module has the sizes, modes and kinds of its settings, and is in training
    or not. -/
structure Follows (c : AttentionConfig) (on : Bool) (a : Attention) : Prop where
  featSize : a.featSize = c.featSize
  numHeads : a.numHeads = c.numHeads
  headDim : a.headDim = c.headDim
  biasMode : a.biasMode = c.biasMode
  dropout : a.dropout = ⟨c.attnDrop, on⟩
  projection : ∀ l ∈ a.projections, Suits c l

theorem Follows.dtype (h : Follows c on a) : a.dtype = c.dtype :=
  (h.projection a.query (by simp [projections])).1.weight.dtype

/-- A module that follows accepted settings is well-formed. -/
theorem Follows.wellFormed (h : Follows c on a) (hc : c.validate = .ok ()) : a.WellFormed := by
  rcases AttentionConfig.validate_ok hc with ⟨hfeatures, hheads, hdivides, -, hfloat⟩
  have hdim : c.headDim = c.featSize / c.numHeads := by
    rw [AttentionConfig.headDim, if_neg (by omega)]
  -- Dividing evenly is what makes the heads cover all features.
  have hproduct : c.featSize = c.numHeads * c.headDim := by
    rw [hdim, Nat.mul_div_cancel' (Nat.dvd_of_mod_eq_zero hdivides)]
  refine ⟨?_, ?_, ?_, ?_, ?_⟩
  · rw [h.dtype]
    exact hfloat
  · rw [h.numHeads]
    exact hheads
  · rw [h.headDim]
    exact Nat.pos_of_mul_pos_left (hproduct ▸ hfeatures)
  · rw [h.featSize, h.numHeads, h.headDim]
    exact hproduct
  · rw [h.dtype, h.featSize]
    exact h.projection

theorem forall_projections {P : Linear → Prop} :
    (∀ l ∈ a.projections, P l) ↔ P a.query ∧ P a.key ∧ P a.value ∧ P a.output := by
  simp [projections]

theorem resetProjection_keeps {read : Attention → Linear} {write : Linear → Attention → Attention}
    (gain : Float) (hread : ∀ a, Follows c on a → Suits c (read a))
    (hwrite : ∀ a l, Follows c on a → Suits c l → Follows c on (write l a)) :
    Keeps (resetProjection read write gain : Action (Attention × G) ModuleError Unit)
      fun s => Follows c on s.1 :=
  Keeps.mapError _ (Keeps.zoom (R := fun s => Suits c s.1)
    (Linear.resetXavier_keeps gain c.dtype c.featSize c.featSize)
    (fun s hs => hread s.1 hs) fun s part hs hpart => hwrite s.1 part.1 hs hpart)

/-- Drawing anew keeps a module following its settings, also where it fails. -/
theorem resetParameters_keeps :
    Keeps (resetParameters : Action (Attention × G) ModuleError Unit) fun s => Follows c on s.1 := by
  -- One projection is drawn at a time, the other three stay as they are.
  refine Keeps.bind ?_ fun _ => Keeps.bind ?_ fun _ => Keeps.bind ?_ fun _ => ?_
  · refine resetProjection_keeps _ (fun a ha => (forall_projections.mp ha.projection).1) ?_
    intro a l ha hl
    rcases forall_projections.mp ha.projection with ⟨-, hk, hv, ho⟩
    exact { ha with projection := forall_projections.mpr ⟨hl, hk, hv, ho⟩ }
  · refine resetProjection_keeps _ (fun a ha => (forall_projections.mp ha.projection).2.1) ?_
    intro a l ha hl
    rcases forall_projections.mp ha.projection with ⟨hq, -, hv, ho⟩
    exact { ha with projection := forall_projections.mpr ⟨hq, hl, hv, ho⟩ }
  · refine resetProjection_keeps _ (fun a ha => (forall_projections.mp ha.projection).2.2.1) ?_
    intro a l ha hl
    rcases forall_projections.mp ha.projection with ⟨hq, hk, -, ho⟩
    exact { ha with projection := forall_projections.mpr ⟨hq, hk, hl, ho⟩ }
  · refine resetProjection_keeps _ (fun a ha => (forall_projections.mp ha.projection).2.2.2) ?_
    intro a l ha hl
    rcases forall_projections.mp ha.projection with ⟨hq, hk, hv, -⟩
    exact { ha with projection := forall_projections.mpr ⟨hq, hk, hv, hl⟩ }

/-- A module whose projections are all drawn anew before it is handed on. What drawing
    anew keeps is true of it if it was true before. -/
theorem drawn_yields {P : Attention → Prop}
    (hP : Keeps (resetParameters : Action (Attention × G) ModuleError Unit) fun s => P s.1)
    (ha : P a) :
    Yields (fun g => let (result, built, g') := resetParameters (a, g)
      (result.map fun _ => built, g') : Action G ModuleError Attention) P := by
  intro g built g' hrun
  have hkeep := hP (a, g) ha
  -- Where drawing fails nothing is handed on, and otherwise what it left is.
  rcases hreset : resetParameters (a, g) with ⟨_ | _, built', g''⟩
  · simp only [hreset] at hrun
    cases hrun
  · rw [hreset] at hkeep
    simp only [hreset] at hrun
    cases hrun
    exact hkeep

/-- What is built follows its settings, and these were accepted. -/
theorem build_yields (c : AttentionConfig) :
    Yields (build c : Action G ModuleError Attention) fun a =>
      Follows c false a ∧ c.validate = .ok () := by
  have hlinear : Yields (mapError ModuleError.tensor
      (Linear.build c.featSize c.featSize c.bias c.dtype) : Action G ModuleError Linear)
      (Suits c) := (Linear.build_yields _ _ _ _).mapError _
  unfold build
  refine Yields.bind (R := fun _ => c.validate = .ok ()) (yields_attempt fun _ h => h) ?_
  intro _ hc
  refine Yields.bind hlinear fun query hquery => Yields.bind hlinear fun key hkey =>
    Yields.bind hlinear fun value hvalue => Yields.bind hlinear fun output houtput => ?_
  refine Yields.bind (R := fun l => l = ⟨c.attnDrop, false⟩) (yields_attempt fun l hl => ?_) ?_
  · unfold Dropout.build at hl
    split at hl <;> cases hl
    rfl
  intro dropout hdropout g a g' hrun
  let bare : Attention := {
    featSize := c.featSize, numHeads := c.numHeads, headDim := c.headDim
    biasMode := c.biasMode, scaling := 1 / Float.sqrt (Float.ofNat c.headDim)
    query, key, value, output, dropout }
  have hbare : Follows c false bare := ⟨rfl, rfl, rfl, rfl, hdropout,
    forall_projections.mpr ⟨hquery, hkey, hvalue, houtput⟩⟩
  exact ⟨drawn_yields resetParameters_keeps hbare g a g' hrun, hc⟩

/-- A module that was built is well-formed and not in training. -/
theorem build_wellFormed {g g' : G} (h : build c g = (.ok a, g')) :
    a.WellFormed ∧ a.training = false := by
  rcases build_yields c g a g' h with ⟨hfollows, hc⟩
  refine ⟨hfollows.wellFormed hc, ?_⟩
  rw [training, hfollows.dropout]

end Attention

end GraphAttention
