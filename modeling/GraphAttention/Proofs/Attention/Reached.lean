import GraphAttention.Proofs.Attention.Building
import GraphAttention.Proofs.Operations

/-!
# Modules as They Are Used

Between being built and being applied a module is trained, loaded, frozen and
drawn anew, in any order and with failures in between. It remains a module of its
settings throughout: nothing that can be done to it changes a size, the way a
bias enters or the chance of dropping a weight, and every projection keeps the
shape it was made with. A module that was reached in this way is therefore as good
as a new one for every statement that asks for well-formedness.

Following settings is stable, which is nearly all there is to show. Parameters
that are put back are divided among the projections, and what each of them gets
has the kinds and the shapes of what it had.

## Main definitions

* `Attention.Reached`: A module was built from settings and then worked on.

## Theorems

* `Linear.WellFormed.withParameters`: A layer with other data is well-formed.
* `follows_stable`: Other data does not stop a module following its settings.
* `perform_keeps`: Nor does any operation of its own.
* `Reached.follows`, `Reached.wellFormed`, `Reached.isProbability`: What is true
  of a module after any amount of work.
-/

namespace GraphAttention

open GraphAttention.Action

/-- A layer whose parameters are replaced by others of their kinds and shapes is
    well-formed. -/
theorem Linear.WellFormed.withParameters {l : Linear} {d : DType} {ps : List Parameter}
    (hl : l.WellFormed d) (h : Module.Compatible ps (Module.parameters l)) :
    (Module.withParameters ps l).WellFormed d ∧
      (Module.withParameters ps l).inFeatures = l.inFeatures ∧
      (Module.withParameters ps l).outFeatures = l.outFeatures := by
  -- As many parameters as the layer has: one, or two with a bias.
  rcases l with ⟨m, n, weight, _ | bias⟩
  · rcases h with _ | ⟨hweight, _ | _⟩
    refine ⟨⟨⟨hweight.1.trans hl.weight.dtype, hweight.2.trans hl.weight.shape⟩, ?_⟩, rfl, rfl⟩
    intro b hb
    cases hb
  · rcases h with _ | ⟨hweight, _ | ⟨hbias, _ | _⟩⟩
    have hold := hl.bias bias rfl
    refine ⟨⟨⟨hweight.1.trans hl.weight.dtype, hweight.2.trans hl.weight.shape⟩, ?_⟩, rfl, rfl⟩
    intro b hb
    cases hb
    exact ⟨hbias.1.trans hold.dtype, hbias.2.trans hold.shape⟩

namespace Attention

variable {G : Type} [WordSource G] {c : AttentionConfig} {on : Bool} {a : Attention}

/-- Parameters divided among projections leave each of them suited to the
    settings, if they have the kinds and shapes of those they replace. -/
theorem distribute_suits {ls : List Linear} {ps : List Parameter} (hls : ∀ l ∈ ls, Suits c l)
    (h : Module.Compatible ps (ls.flatMap Module.parameters)) :
    ∀ l ∈ distribute ls ps, Suits c l := by
  induction ls generalizing ps with
  | nil =>
    intro l hl
    cases hl
  | cons l ls ih =>
    rw [List.flatMap_cons] at h
    -- The first projection takes the parameters that belong to it, the rest gets the others.
    have htake : Module.Compatible (ps.take (Module.parameters l).length) (Module.parameters l) :=
      List.forall₂_take_append _ _ _ h
    have hdrop : Module.Compatible (ps.drop (Module.parameters l).length)
        (ls.flatMap Module.parameters) := List.forall₂_drop_append _ _ _ h
    intro l' hl'
    rcases List.mem_cons.mp hl' with rfl | hl'
    · rcases hls l (by simp) with ⟨hwell, hin, hout⟩
      rcases hwell.withParameters htake with ⟨hwell', hin', hout'⟩
      exact ⟨hwell', hin'.trans hin, hout'.trans hout⟩
    · exact ih (fun l hl => hls l (List.mem_cons_of_mem _ hl)) hdrop l' hl'

/-- Neither other data nor a change of the mode of training stops a module from
    following its settings. -/
theorem follows_stable (c : AttentionConfig) :
    Module.Stable fun a : Attention => ∃ on, Follows c on a where
  withParameters := by
    rintro ps a ⟨on, h⟩ hps
    have hprojections := distribute_suits h.projection hps
    exact ⟨on, { h with projection := hprojections }⟩
  setTraining := by
    rintro on a ⟨on', h⟩
    -- The mode is the dropout's own, and its probability is left alone.
    have hdropout : (Module.setTraining on a).dropout = ⟨c.attnDrop, on⟩ := by
      change ({ a.dropout with training := on } : Dropout) = _
      rw [h.dropout]
    exact ⟨on, { h with dropout := hdropout }⟩

/-- An operation of the module's own keeps it following its settings. -/
theorem perform_keeps (op : Op G) :
    Keeps (perform op) fun t => ∃ on, Follows c on t.value := by
  cases op with
  | info => exact keeps_get _
  | forward x bias mask source => exact keeps_computed _ _
  | forwardWithWeights x bias mask source => exact keeps_computed _ _
  | resetParameters source =>
    refine Keeps.bind (Tracked.onValue_keeps (P := fun a => ∃ on, Follows c on a) ?_) fun _ =>
      keeps_pure _
    -- The projections are drawn from the source of the operation, which is then gone.
    rintro a ⟨on, ha⟩
    exact ⟨on, resetParameters_keeps (a, source) ha⟩

/-- A module was built from settings and then worked on by some steps, of which
    any may have failed. -/
def Reached (G : Type) [WordSource G] (c : AttentionConfig) (a : Attention) : Prop :=
  ∃ (g g' : G) (new : Attention) (steps : List (Script ModuleError (ModuleOp (Op G)))),
    build c g = (.ok new, g') ∧
      a = (Script.runAll ModuleError.isFatal (ModuleOp.perform perform) steps
        (Tracked.start new)).2.value

/-- A new module is one that was reached, by no steps. -/
theorem Reached.of_build {g g' : G} (h : build c g = (.ok a, g')) : Reached G c a :=
  ⟨g, g', a, [], h, rfl⟩

/-- Work on a module leaves it following its settings, and these were accepted. -/
theorem Reached.follows (h : Reached G c a) : c.validate = .ok () ∧ ∃ on, Follows c on a := by
  rcases h with ⟨g, g', new, steps, hbuild, rfl⟩
  rcases build_yields c g new g' hbuild with ⟨hnew, hc⟩
  have hstart : ∃ on, Follows c on (Tracked.start new).value := ⟨false, hnew⟩
  have hkept := ModuleOp.perform_keeps (follows_stable c) (perform_keeps (G := G))
  exact ⟨hc, Script.runAll_keeps (P := fun a => ∃ on, Follows c on a) _ steps
    (fun op _ => hkept op) _ hstart⟩

theorem Reached.wellFormed (h : Reached G c a) : a.WellFormed := by
  rcases h.follows with ⟨hc, on, hfollows⟩
  exact hfollows.wellFormed hc

/-- The chance of dropping a weight is one, also after any amount of work. -/
theorem Reached.isProbability (h : Reached G c a) : Tensor.isProbability a.dropout.p = true := by
  rcases h.follows with ⟨hc, on, hfollows⟩
  rw [hfollows.dropout]
  exact (AttentionConfig.validate_ok hc).2.2.2.1

end Attention

end GraphAttention
