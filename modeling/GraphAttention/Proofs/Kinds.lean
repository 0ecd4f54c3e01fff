import GraphAttention.Proofs.Accumulation
import GraphAttention.Proofs.DegreeEncoder.BothTables
import GraphAttention.Proofs.Redrawing

/-!
# Modules of Every Kind

A module of any kind is built from settings and then worked on by scripts. The kinds differ
in how they are built and in the operations of their own, and what was proved for each of
them is put together here, in one statement about modules of all kinds that were built and
used in any way: an operation that fails has no effect at all.

What has to be known of a module for this differs as well. A table has the kind and the size
that were asked for, an encoder follows its settings, an attention module can draw its
projections. All of it is true when a module is built and kept by everything that is done to
it, and so is what has to be known of parameters, that their buffers fit.

## Main definitions

* `ModuleKind.Own`, `ModuleKind.Answer`, `ModuleKind.perform`: The operations of a kind.
* `ModuleKind.Built`, `ModuleKind.Reached`: Modules as they are built and as they are used.
* `Parameter.Reached`: The same for a parameter by itself.

## Theorems

* `Linear.after_wellFormed`, `Embedding.after_wellFormed`: Layers and tables that are used.
* `ModuleKind.Built.grad_eq_none`: What is built has gathered nothing.
* `ModuleKind.Reached.buffersFit`: Buffers fit the data of their parameters.
* `ModuleKind.own_atomicAt`: An operation of a kind leaves no trace where it fails.
* `ModuleKind.failure_without_trace`: Nor does any operation of a parameter or a module.
-/

namespace GraphAttention

open GraphAttention.Action

/-! ### Layers and tables in use -/

section Layers

variable {G : Type} [WordSource G] {d : DType}

/-- An operation of a layer leaves its kind and its sizes alone. -/
theorem Linear.perform_keeps (d : DType) (m n : Nat) (op : Linear.Op G) :
    Keeps (Linear.perform op) fun s =>
      s.value.WellFormed d ∧ s.value.inFeatures = m ∧ s.value.outFeatures = n := by
  cases op with
  | forward x => exact keeps_computed _ _
  | resetXavier gain source =>
    refine Keeps.bind (Tracked.onValue_keeps (P := fun l : Linear => l.WellFormed d ∧
      l.inFeatures = m ∧ l.outFeatures = n) (Keeps.mapError _ fun l h => ?_)) fun _ => keeps_pure _
    exact Linear.resetXavier_keeps gain d m n (l, source) h

/-- Whatever is done to a layer, its weight and bias keep their kind and shapes. -/
theorem Linear.after_wellFormed {l : Linear} (hl : l.WellFormed d)
    (steps : List (Script ModuleError (ModuleOp (Linear.Op G)))) :
    (ModuleOp.after Linear.perform steps l).WellFormed d := by
  let P : Linear → Prop := fun l' =>
    l'.WellFormed d ∧ l'.inFeatures = l.inFeatures ∧ l'.outFeatures = l.outFeatures
  have hstable : Module.Stable P := by
    refine ⟨fun ps l' h hps => ?_, fun _ _ h => h⟩
    rcases h.1.withParameters hps with ⟨hwell, hin, hout⟩
    exact ⟨hwell, hin.trans h.2.1, hout.trans h.2.2⟩
  have hown := Linear.perform_keeps (G := G) d l.inFeatures l.outFeatures
  exact (Script.runAll_keeps _ steps (fun op _ => ModuleOp.perform_keeps hstable hown op)
    (Tracked.start l) ⟨hl, rfl, rfl⟩).1

/-- Tables keep their size and their kind. -/
theorem Embedding.wellFormed_stable (d : DType) : Module.Stable (Embedding.WellFormed d) where
  withParameters := by
    intro ps e h hps
    rcases hps with _ | ⟨hp, _ | _⟩
    exact { h with weight := ⟨hp.1.trans h.weight.dtype, hp.2.trans h.weight.shape⟩ }
  setTraining := fun _ _ h => h

/-- What gradients for its weight keep, every operation of a table keeps. -/
theorem Embedding.perform_keeps {P : Embedding → Prop}
    (h : ∀ indices g, Keeps (Embedding.backward indices g) fun s => P s.value) (op : Op) :
    Keeps (Embedding.perform op) fun s => P s.value := by
  cases op with
  | forward indices => exact keeps_computed _ _
  | forwardShape indices => exact keeps_computed _ _
  | backward indices g =>
    exact Keeps.bind (Keeps.mapError _ (h indices g)) fun _ => keeps_get _

/-- A gradient leaves the size of a table alone, so its data can be held against it. -/
theorem Embedding.backward_settings (d : DType) (s : Settings) (indices g : Tensor) :
    Keeps (Embedding.backward indices g) fun t => t.value.WellFormed d ∧ t.value.settings = s := by
  let Q : Parameter → Prop := fun p => p.data.dtype = d ∧ p.shape = [s.numRows, s.dim]
  refine Embedding.backward_keeps (P := fun e => e.WellFormed d ∧ e.settings = s) (Q := Q)
    (fun gradient => Parameter.accumulate_keeps gradient d [s.numRows, s.dim]) ?_ ?_ indices g
  · rintro e ⟨he, rfl⟩
    exact ⟨he.weight.dtype, he.weight.shape⟩
  · rintro e p ⟨he, rfl⟩ hp
    exact ⟨{ he with weight := ⟨hp.1, hp.2⟩ }, rfl⟩

/-- Whatever is done to a table, its weight keeps its kind and shape. -/
theorem Embedding.after_wellFormed {e : Embedding} (he : e.WellFormed d)
    (steps : List (Script ModuleError (ModuleOp Op))) :
    (ModuleOp.after Embedding.perform steps e).WellFormed d := by
  have hbackward : ∀ indices g, Keeps (Embedding.backward indices g) fun s =>
      s.value.WellFormed d := fun indices g t ht =>
    (Embedding.backward_settings d t.value.settings indices g t ⟨ht, rfl⟩).1
  exact Script.runAll_keeps _ steps (fun op _ => ModuleOp.perform_keeps
    (Embedding.wellFormed_stable d) (Embedding.perform_keeps hbackward) op) (Tracked.start e) he

/-- A dropout layer changes only where it does not fail. -/
theorem Dropout.perform_atomicAt {s : Tracked Dropout} (op : Dropout.Op G) :
    AtomicAt (Dropout.perform op) s := by
  cases op with
  | forward x source => exact atomicAt_computed _ _ s
  | setP p => exact SucceedsAt.atomicAt ⟨_, _, rfl⟩
  | training => exact (succeedsAt_get _ s).atomicAt

end Layers

/-! ### What is built has gathered nothing -/

section Fresh

variable {G : Type} [WordSource G]

/-- Other data for a parameter is not a gradient. -/
theorem Parameter.setData_keeps_grad (t : Tensor) :
    Keeps (Parameter.setData t) fun p => p.grad = none := by
  intro p hp
  rcases fits_or_misfit p t with hfit | ⟨e, hmisfit⟩
  · rw [setData_ok hfit]
    exact hp
  · rw [setData_misfit hmisfit]
    exact hp

theorem Linear.build_fresh (inFeatures outFeatures : Nat) (bias : Bool) (d : DType) :
    Yields (build inFeatures outFeatures bias d : Action G TensorError Linear)
      (Module.Each fun p => p.grad = none) := by
  unfold build
  refine Yields.after fun weight => ?_
  cases bias with
  | true =>
    refine Yields.after fun zeros => yields_pure (each_iff.mpr ⟨rfl, fun b hb => ?_⟩)
    cases hb
    rfl
  | false => exact yields_pure (each_iff.mpr ⟨rfl, fun b hb => by cases hb⟩)

theorem Attention.build_fresh (c : AttentionConfig) :
    Yields (build c : Action G ModuleError Attention) (Module.Each fun p => p.grad = none) := by
  have hlinear := (Linear.build_fresh (G := G) c.featSize c.featSize c.bias c.dtype).mapError
    ModuleError.tensor
  have hkept : Keeps (resetParameters : Action (Attention × G) ModuleError Unit)
      fun s => Module.Each (fun p => p.grad = none) s.1 := fun s hs =>
    each_iff.mpr (resetParameters_keeps_each
      (Linear.resetXavier_keeps_each Parameter.setData_keeps_grad) s (each_iff.mp hs))
  unfold build
  refine Yields.after fun _ => Yields.bind hlinear fun query hquery =>
    Yields.bind hlinear fun key hkey => Yields.bind hlinear fun value hvalue =>
      Yields.bind hlinear fun output houtput => Yields.after fun dropout => ?_
  refine drawn_yields hkept (each_iff.mpr (forall_projections.mpr ?_))
  exact ⟨hquery, hkey, hvalue, houtput⟩

end Fresh

/-! ### Kinds of module in use -/

namespace ModuleKind

variable {G : Type} [NormalSource G]

/-- The operations of a kind's own. -/
@[reducible] def Own (G : Type) : ModuleKind → Type
  | linear => Linear.Op G
  | embedding => Embedding.Op
  | dropout => Dropout.Op G
  | degreeEncoder => DegreeEncoder.Op
  | attention => Attention.Op G

/-- What they answer. -/
@[reducible] def Answer : ModuleKind → Type
  | linear => Option Tensor
  | embedding => Embedding.Answer
  | dropout => Dropout.Answer
  | degreeEncoder => DegreeEncoder.Answer
  | attention => Attention.Answer

/-- Carries out an operation of a kind's own. -/
def perform : (k : ModuleKind) → k.Own G → Action (Tracked k.State) ModuleError k.Answer
  | linear => Linear.perform
  | embedding => Embedding.perform
  | dropout => Dropout.perform
  | degreeEncoder => DegreeEncoder.perform
  | attention => Attention.perform

/-- A module was built, from some settings and some source. -/
inductive Built (G : Type) [NormalSource G] : (k : ModuleKind) → k.State → Prop
  | linear {inFeatures outFeatures : Nat} {bias : Bool} {d : DType} {g g' : G} {l : Linear}
    (h : Linear.build inFeatures outFeatures bias d g = (.ok l, g')) : Built G .linear l
  | embedding {numRows dim : Nat} {paddingRow : Option Nat} {d : DType} {g g' : G}
    {e : Embedding} (h : Embedding.build numRows dim paddingRow d g = (.ok e, g')) :
    Built G .embedding e
  | dropout {p : Float} {l : Dropout} (h : Dropout.build p = .ok l) : Built G .dropout l
  | dropoutDefault : Built G .dropout (default : Dropout)
  | degreeEncoder {c : DegreeConfig} {g g' : G} {e : DegreeEncoder}
    (h : DegreeEncoder.build c g = (.ok e, g')) : Built G .degreeEncoder e
  | attention {c : AttentionConfig} {g g' : G} {a : Attention}
    (h : Attention.build c g = (.ok a, g')) : Built G .attention a

/-- A module was built and then worked on by some steps, of which any may have failed. -/
def Reached (G : Type) [NormalSource G] (k : ModuleKind) (m : k.State) : Prop :=
  ∃ (new : k.State) (steps : List (Script ModuleError (ModuleOp (k.Own G)))),
    Built G k new ∧ m = ModuleOp.after k.perform steps new

/-- The mode of training is not a matter of parameters. -/
theorem parameters_setTraining (k : ModuleKind) (on : Bool) (m : k.State) :
    Module.parameters (Module.setTraining on m) = Module.parameters m := by
  cases k <;> rfl

/-- What every operation on parameters keeps, the operations of a kind's own keep. -/
theorem perform_keeps_each {Q : Parameter → Prop} (hQ : Parameter.Steady Q fun _ => True)
    (k : ModuleKind) (op : k.Own G) :
    Keeps (k.perform op) fun s => Module.Each Q s.value := by
  have hset : ∀ t, Keeps (Parameter.setData t) Q := fun _ => hQ.setData trivial
  cases k with
  | linear => exact Linear.perform_keeps_each hset op
  | embedding =>
    have hread : ∀ e : Embedding, Module.Each Q e → Q e.weight := fun e h =>
      h e.weight List.mem_cons_self
    have hwrite : ∀ (e : Embedding) (p : Parameter), Module.Each Q e → Q p →
        Module.Each Q { e with weight := p } := by
      intro e p _ hp q hq
      obtain rfl := List.mem_singleton.mp hq
      exact hp
    exact Embedding.perform_keeps (fun indices g =>
      Embedding.backward_keeps hQ.accumulate hread hwrite indices g) op
  | dropout => exact fun s hs p hp => absurd hp List.not_mem_nil
  | degreeEncoder => exact DegreeEncoder.perform_keeps_each hQ op
  | attention => exact Attention.perform_keeps_each hset op

/-- A module that was built has not gathered anything. -/
theorem Built.grad_eq_none {k : ModuleKind} {m : k.State} (h : Built G k m) :
    Module.Each (fun p => p.grad = none) m := by
  cases h with
  | linear h => exact Linear.build_fresh _ _ _ _ _ _ _ h
  | embedding h =>
    rcases Embedding.build_yields _ _ _ _ _ _ _ h with ⟨weight, rfl, -⟩
    intro p hp
    obtain rfl := List.mem_singleton.mp hp
    rfl
  | dropout h => exact fun p hp => absurd hp List.not_mem_nil
  | dropoutDefault => exact fun p hp => absurd hp List.not_mem_nil
  | degreeEncoder h =>
    exact DegreeEncoder.each_iff.mpr fun side t ht =>
      (DegreeEncoder.build_yields _ _ _ _ h).2.2 side t ht
  | attention h => exact Attention.build_fresh _ _ _ _ h

theorem Built.buffersFit {k : ModuleKind} {m : k.State} (h : Built G k m) :
    Module.Each Parameter.BufferFits m := by
  intro p hp buffer hbuffer
  rw [h.grad_eq_none p hp] at hbuffer
  cases hbuffer

/-- No operation leaves a buffer that does not fit. -/
theorem perform_keeps_buffersFit (k : ModuleKind) (op : ModuleOp (k.Own G)) :
    Keeps (ModuleOp.perform k.perform op) fun s => Module.Each Parameter.BufferFits s.value :=
  ModuleOp.perform_keeps_each Parameter.bufferFits_steady (parameters_setTraining k)
    (perform_keeps_each Parameter.bufferFits_steady k) op fun _ _ => trivial

/-- Buffers fit the data of their parameters, whatever was done to a module. -/
theorem Reached.buffersFit {k : ModuleKind} {m : k.State} (h : Reached G k m) :
    Module.Each Parameter.BufferFits m := by
  rcases h with ⟨new, steps, hbuilt, rfl⟩
  exact Script.runAll_keeps _ steps (fun op _ => perform_keeps_buffersFit k op)
    (Tracked.start new) hbuilt.buffersFit

/-- An operation of a kind's own leaves no trace where it fails. -/
theorem own_atomicAt {k : ModuleKind} {m : k.State} (h : Reached G k m) (enabled : Bool)
    (op : k.Own G) : AtomicAt (k.perform op) ⟨enabled, m⟩ := by
  have hbuffers := h.buffersFit
  rcases h with ⟨new, steps, hbuilt, hm⟩
  cases hbuilt with
  | linear hbuild =>
    have hwell := (Linear.build_yields _ _ _ _ _ _ _ hbuild).1
    have hkept := Linear.after_wellFormed hwell steps
    exact Linear.perform_atomicAt (s := ⟨enabled, m⟩) (hm ▸ hkept) op
  | embedding hbuild =>
    rcases Embedding.build_yields _ _ _ _ _ _ _ hbuild with ⟨weight, -, hwell⟩
    have hkept := Embedding.after_wellFormed hwell steps
    exact Embedding.perform_atomicAt (s := ⟨enabled, m⟩) (hm ▸ hkept)
      (hbuffers _ List.mem_cons_self) op
  | dropout hbuild => exact Dropout.perform_atomicAt op
  | dropoutDefault => exact Dropout.perform_atomicAt op
  | degreeEncoder hbuild =>
    have hreached : DegreeEncoder.Reached G _ m := ⟨_, _, _, steps, hbuild, hm⟩
    exact DegreeEncoder.perform_atomicAt hreached.follows.2 hbuffers op
  | attention hbuild =>
    have hreached : Attention.Reached G _ m := ⟨_, _, _, steps, hbuild, hm⟩
    rcases hreached.follows.2 with ⟨on, hfollows⟩
    exact Attention.perform_atomicAt (Attention.build_draws _ _ _ _ hbuild) hfollows.projection op

end ModuleKind

/-- A parameter was made, to be learned or not, and then worked on by some steps. -/
def Parameter.Reached (p : Parameter) : Prop :=
  ∃ (data : Tensor) (learned : Bool) (steps : List (Script TensorError Op)),
    p = (Script.runAll TensorError.isFatal perform steps (.start ⟨data, learned, none⟩)).2.value

theorem Parameter.Reached.bufferFits {p : Parameter} (h : p.Reached) : p.BufferFits := by
  rcases h with ⟨data, learned, steps, rfl⟩
  have hnew : BufferFits ⟨data, learned, none⟩ := fun buffer hbuffer => nomatch hbuffer
  exact Script.runAll_keeps _ steps (fun op _ => bufferFits_steady.perform_keeps op) _ hnew

/-- An operation that fails has no effect: of a parameter or of a module of any kind, whatever
    was done to it since it was made, its data, its buffers, what is learned of it, its
    settings and the mode are exactly what they were. -/
theorem ModuleKind.failure_without_trace {G : Type} [NormalSource G] :
    (∀ p : Parameter, p.Reached → ∀ enabled op e s,
      Parameter.perform op ⟨enabled, p⟩ = (.error e, s) → s = ⟨enabled, p⟩) ∧
    ∀ (k : ModuleKind) (m : k.State), Reached G k m →
      ∀ (enabled : Bool) (op : ModuleOp (k.Own G)) (e : ModuleError) (s : Tracked k.State),
        ModuleOp.perform k.perform op ⟨enabled, m⟩ = (.error e, s) → s = ⟨enabled, m⟩ := by
  refine ⟨fun p hp enabled op e s hfail => ?_, fun k m hm enabled op e s hfail => ?_⟩
  · exact Parameter.perform_atomicAt (s := ⟨enabled, p⟩) hp.bufferFits op e s hfail
  · exact ModuleOp.perform_atomicAt (s := ⟨enabled, m⟩) hm.buffersFit
      (own_atomicAt hm enabled) op e s hfail

/-- A gradient of another kind is refused by an encoder that has a table for the ends of
    edges. -/
theorem DegreeEncoder.backward_kind {c : DegreeConfig} {e : DegreeEncoder} {t : Embedding}
    (h : Follows c e) (ht : e.tables.at? .target = some t) (graph : TypedGraph) {g : Tensor}
    (hkind : g.dtype ≠ c.dtype) (enabled : Bool) :
    ∃ x s, ModuleOp.perform perform (.own (.backward graph g)) ⟨enabled, e⟩ = (.error x, s) := by
  have hfails : ∃ x s, backward graph g ⟨enabled, e⟩ = (.error x, s) := by
    rw [backward, bind_ok (run_get _)]
    cases e.clampedDegrees graph with
    | error x => exact ⟨x, _, bind_error (run_attempt _ _)⟩
    | ok degrees =>
      -- The kind is what rows are refused for first.
      have hfault : Tensor.ScatterFault degrees.1 c.dtype t.numRows [t.dim] g.dtype g.shape
          (.typeMismatch c.dtype g.dtype) := .kind hkind
      have hrefused := Embedding.tableGradient_error (h.table .target t ht).wellFormed
        ⟨rfl, rfl⟩ hfault
      have hside : onSide .target (Embedding.backward degrees.1 g) ⟨enabled, e⟩
          = (.error (.tensor (.typeMismatch c.dtype g.dtype)),
            ⟨enabled, { e with tables := e.tables.withAt .target t }⟩) := by
        rw [onSide_some ht, Embedding.backward_error hrefused]
        rfl
      rw [bind_ok (run_attempt _ _)]
      exact ⟨_, _, bind_error hside⟩
  rcases hfails with ⟨x, s, hrun⟩
  exact ⟨x, s, bind_error (bind_error hrun)⟩

/-- A parameter with a buffer and an encoder with two tables are given gradients of another
    kind. Both are refused. -/
theorem ModuleKind.failure_without_trace_kind :
    (∃ p : Parameter, p.Reached ∧ p.grad = some (Parameter.number 2) ∧ ∃ e,
      Parameter.perform (.accumulate ⟨.uint8, .fill [1] 0, by decide⟩) ⟨true, p⟩
        = (.error e, ⟨true, p⟩)) ∧
    ∃ e : DegreeEncoder, Reached SplitMix .degreeEncoder e ∧ e.tables.direction = .both ∧
      ∃ x, ModuleOp.perform DegreeEncoder.perform
        (.own (.backward ⟨[("a", 1)], []⟩ (Parameter.number 1))) ⟨true, e⟩
          = (.error x, ⟨true, e⟩) := by
  rcases failure_without_trace (G := SplitMix) with ⟨hparameter, hmodule⟩
  constructor
  · let p : Parameter := ⟨Parameter.number 0, true, some (Parameter.number 2)⟩
    have hreached : p.Reached :=
      ⟨Parameter.number 0, true, [.act (.accumulate (Parameter.number 2))], rfl⟩
    rcases hrun : Parameter.perform (.accumulate ⟨.uint8, .fill [1] 0, by decide⟩) ⟨true, p⟩ with
      ⟨e | _, s⟩
    · rw [hparameter p hreached true _ e s hrun] at hrun
      exact ⟨p, hreached, rfl, e, hrun⟩
    · cases hrun
  · let c : DegreeConfig := ⟨1, 1, .both, .float64⟩
    rcases DegreeEncoder.build_ok (c := c) rfl (by decide) (by decide) (by decide)
      (SplitMix.mk 0) with ⟨e, g', hbuild⟩
    have hreached : Reached SplitMix .degreeEncoder e := ⟨e, [], .degreeEncoder hbuild, rfl⟩
    have hfollows := (DegreeEncoder.build_yields c _ _ _ hbuild).2.1
    have hdirection := hfollows.direction
    rcases e with ⟨m, n, t | t | ⟨t, u⟩⟩
    · cases hdirection
    · cases hdirection
    · rcases DegreeEncoder.backward_kind hfollows rfl ⟨[("a", 1)], []⟩
        (g := Parameter.number 1) (by decide) true with ⟨x, s, hrun⟩
      rw [hmodule .degreeEncoder _ hreached true _ x s hrun] at hrun
      exact ⟨_, hreached, rfl, x, hrun⟩

end GraphAttention
