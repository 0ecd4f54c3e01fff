import GraphAttention.Proofs.Events
import GraphAttention.Proofs.Kinds

/-!
# Parameters in Their Places

A module lists its parameters, and files, gradients and replaced data all find a parameter
by its place in that list. The list has a layout, the kinds and shapes in order, which is
a matter of what the module was built from: a matrix and perhaps a bias, one table or two
of them, four projections in a row. Nothing that is done to a module afterwards changes
it, so what was true of the places when the module was built is true of them whenever an
operation looks at them, within scopes and after failures as well.

For this each kind of module keeps more than its layout. A layer keeps its sizes and
whether it has a bias, a table its size, an encoder and an attention module the settings
they follow, and the layout can be read off from these.

## Main definitions

* `ModulePlan`: What a module with parameters is built from.
* `ModulePlan.layout`, `ModulePlan.count`: The parameters it has, and their elements.
* `ModulePlan.Holds`: A module is as it was planned, whatever its data.
* `ModulePlan.InPlace`: The parameters of a module are where they belong.
* `ModuleOp.Passes`: A module while some steps are carried out.

## Theorems

* `ModuleOp.Passes.keeps`: What operations keep is true all the while.
* `ModulePlan.build_holds`, `ModulePlan.holds_stable`, `ModulePlan.perform_holds`: A module
  is as it was planned when it is built, and stays so.
* `ModulePlan.Holds.layout`, `ModulePlan.Holds.count`: What is read off from the plan.
* `ModulePlan.parameters_in_place`: Parameters stay in their places throughout.
-/

namespace GraphAttention

open GraphAttention.Action

/-! ### Modules along the way -/

/-- A module as an operation finds it while steps are carried out, or as they leave it. -/
def ModuleOp.Passes {M Own R : Type} [Module M] (own : Own → Action (Tracked M) ModuleError R)
    (steps : List (Script ModuleError (ModuleOp Own))) (new m : M) : Prop :=
  m = ModuleOp.after own steps new ∨
    ∃ event ∈ Script.allEvents ModuleError.isFatal (ModuleOp.perform own) steps
      (Tracked.start new), m = event.found.value

/-- What operations keep is true of a module all the while. -/
theorem ModuleOp.Passes.keeps {M Own R : Type} [Module M]
    {own : Own → Action (Tracked M) ModuleError R} {P : M → Prop}
    (hkeeps : ∀ op, Keeps (ModuleOp.perform own op) fun s => P s.value)
    {steps : List (Script ModuleError (ModuleOp Own))} {new m : M}
    (h : ModuleOp.Passes own steps new m) (hnew : P new) : P m := by
  rcases h with rfl | ⟨event, hevent, rfl⟩
  · exact Script.runAll_keeps _ steps (fun op _ => hkeeps op) (Tracked.start new) hnew
  · exact Script.allEvents_keep hkeeps steps (Tracked.start new) hnew event hevent

/-- The kinds and shapes of the parameters of a module, in order. -/
def Module.layout {M : Type} [Module M] (m : M) : List (DType × Shape) :=
  (Module.parameters m).map fun q => (q.data.dtype, q.shape)

/-- The elements of all parameters are counted by their shapes. -/
theorem Module.numParameters_eq {M : Type} [Module M] (m : M) :
    Module.numParameters m = (Module.layout m).foldl (fun n f => n + f.2.size) 0 := by
  rw [Module.layout, List.foldl_map]
  rfl

/-! ### Layers and their settings -/

namespace Linear

variable {G : Type} [WordSource G]

/-- The kinds and shapes of the parameters of a layer: a matrix, and perhaps a bias. -/
def layoutOf (inFeatures outFeatures : Nat) (bias : Bool) (d : DType) : List (DType × Shape) :=
  (d, [inFeatures, outFeatures]) :: if bias then [(d, [outFeatures])] else []

theorem build_settings (inFeatures outFeatures : Nat) (bias : Bool) (d : DType) :
    Yields (build inFeatures outFeatures bias d : Action G TensorError Linear) fun l =>
      l.settings = ⟨inFeatures, outFeatures, bias⟩ := by
  unfold build
  refine Yields.after fun weight => ?_
  cases bias with
  | true => exact Yields.after fun zeros => yields_pure rfl
  | false => exact yields_pure rfl

/-- A layer that is drawn anew has a bias if it had one. -/
theorem resetXavier_settings (gain : Float) (s : Settings) :
    Keeps (resetXavier gain : Action (Linear × G) TensorError Unit) fun t => t.1.settings = s := by
  refine Keeps.get_bind fun (l, g) hl => Keeps.bind ?_ fun weight => Keeps.bind ?_ fun _ => ?_
  · exact Keeps.zoom (R := fun _ => True) (fun _ _ => trivial) (fun _ _ => trivial)
      fun _ _ hs _ => hs
  · exact Keeps.zoom (R := fun _ => True) (fun _ _ => trivial) (fun _ _ => trivial)
      fun _ _ hs _ => hs
  · split
    · exact keeps_pure _
    · rename_i bias hbias
      refine Keeps.bind (keeps_attempt _) fun zeros => ?_
      refine Keeps.zoom (R := fun _ => True) (fun _ _ => trivial) (fun _ _ => trivial) ?_
      rintro t p ht -
      -- The bias that is written takes the place of the one that was read.
      have hsome : s.hasBias = true := by
        rw [← hl]
        exact congrArg Option.isSome hbias
      rw [← ht] at hsome ⊢
      exact congrArg (Settings.mk t.1.inFeatures t.1.outFeatures) hsome.symm

theorem perform_settings (s : Settings) (op : Op G) :
    Keeps (perform op) fun t => t.value.settings = s := by
  cases op with
  | forward x => exact keeps_computed _ _
  | resetXavier gain source =>
    refine Keeps.bind (Tracked.onValue_keeps (P := fun l : Linear => l.settings = s)
      (Keeps.mapError _ fun l hl => ?_)) fun _ => keeps_pure _
    exact resetXavier_settings gain s (l, source) hl

/-- A layer has a matrix and perhaps a bias, each of a kind and a shape that follow from its
    settings. -/
theorem WellFormed.layout {l : Linear} {d : DType} {inFeatures outFeatures : Nat} {bias : Bool}
    (hl : l.WellFormed d) (hs : l.settings = ⟨inFeatures, outFeatures, bias⟩) :
    Module.layout l = layoutOf inFeatures outFeatures bias d := by
  rcases l with ⟨m, n, weight, _ | b⟩
  · cases hs
    have hweight : (weight.data.dtype, weight.shape) = (d, [m, n]) :=
      Prod.ext hl.weight.dtype hl.weight.shape
    exact congrArg (fun x => [x]) hweight
  · cases hs
    have hweight : (weight.data.dtype, weight.shape) = (d, [m, n]) :=
      Prod.ext hl.weight.dtype hl.weight.shape
    have hbias : (b.data.dtype, b.shape) = (d, [n]) :=
      Prod.ext (hl.bias b rfl).dtype (hl.bias b rfl).shape
    exact congrArg₂ (fun x y => [x, y]) hweight hbias

end Linear

namespace Attention

variable {G : Type} [WordSource G]

/-- All projections of a module that is built have a bias, or none has. -/
theorem build_settings (c : AttentionConfig) :
    Yields (build c : Action G ModuleError Attention) fun a =>
      ∀ l ∈ a.projections, l.settings = ⟨c.featSize, c.featSize, c.bias⟩ := by
  have hlinear := (Linear.build_settings (G := G) c.featSize c.featSize c.bias c.dtype).mapError
    ModuleError.tensor
  unfold build
  refine Yields.after fun _ => Yields.bind hlinear fun query hquery =>
    Yields.bind hlinear fun key hkey => Yields.bind hlinear fun value hvalue =>
      Yields.bind hlinear fun output houtput => Yields.after fun dropout => ?_
  refine drawn_yields (resetParameters_keeps_each fun gain => Linear.resetXavier_settings gain _) ?_
  exact forall_projections.mpr ⟨hquery, hkey, hvalue, houtput⟩

theorem perform_settings (s : Linear.Settings) (op : Op G) :
    Keeps (perform op) fun t => ∀ l ∈ t.value.projections, l.settings = s := by
  cases op with
  | info => exact keeps_get _
  | forward x bias mask source => exact keeps_computed _ _
  | forwardWithWeights x bias mask source => exact keeps_computed _ _
  | resetParameters source =>
    refine Keeps.bind (Tracked.onValue_keeps (P := fun a : Attention =>
      ∀ l ∈ a.projections, l.settings = s) fun a ha => ?_) fun _ => keeps_pure _
    exact resetParameters_keeps_each (fun gain => Linear.resetXavier_settings gain s) (a, source) ha

/-- Parameters that are put back leave the settings of the projections alone. -/
theorem settings_stable (s : Linear.Settings) :
    Module.Stable fun a : Attention => ∀ l ∈ a.projections, l.settings = s where
  withParameters := by
    intro ps a h _ l hl
    have hkept : (Module.withParameters ps a).projections.map Linear.settings
        = a.projections.map Linear.settings :=
      congrArg Settings.projections (Module.Lawful.settings_withParameters ps a)
    have hmem : l.settings ∈ a.projections.map Linear.settings :=
      hkept ▸ List.mem_map_of_mem hl
    rcases List.mem_map.mp hmem with ⟨l', hl', hsame⟩
    exact hsame.symm.trans (h l' hl')
  setTraining := fun _ _ h => h

end Attention

/-! ### Plans -/

/-- What a module with parameters is built from. -/
inductive ModulePlan where
  | linear (inFeatures outFeatures : Nat) (bias : Bool) (d : DType)
  | embedding (numRows dim : Nat) (paddingRow : Option Nat) (d : DType)
  | degreeEncoder (c : DegreeConfig)
  | attention (c : AttentionConfig)

/-- The number of tables for the degrees of a direction. -/
def Direction.tables : Direction → Nat
  | incoming | outgoing => 1
  | both => 2

namespace ModulePlan

variable {G : Type} [NormalSource G]

/-- The kind of module that is built. -/
@[reducible] def kind : ModulePlan → ModuleKind
  | linear .. => .linear
  | embedding .. => .embedding
  | degreeEncoder _ => .degreeEncoder
  | attention _ => .attention

/-- The module is built. -/
def build : (p : ModulePlan) → Action G ModuleError p.kind.State
  | linear inFeatures outFeatures bias d =>
    Action.mapError .tensor (Linear.build inFeatures outFeatures bias d)
  | embedding numRows dim paddingRow d => Embedding.build numRows dim paddingRow d
  | degreeEncoder c => DegreeEncoder.build c
  | attention c => Attention.build c

/-- The kinds and shapes of the parameters, in order. -/
def layout : ModulePlan → List (DType × Shape)
  | linear inFeatures outFeatures bias d => Linear.layoutOf inFeatures outFeatures bias d
  | embedding numRows dim _ d => [(d, [numRows, dim])]
  | degreeEncoder c =>
    List.replicate c.direction.tables (c.dtype, [c.maxDegree + 1, c.embeddingDim])
  | attention c =>
    (List.replicate 4 (Linear.layoutOf c.featSize c.featSize c.bias c.dtype)).flatten

/-- The number of elements of all parameters. -/
def count : ModulePlan → Nat
  | linear inFeatures outFeatures bias _ =>
    inFeatures * outFeatures + if bias then outFeatures else 0
  | embedding numRows dim _ _ => numRows * dim
  | degreeEncoder c => (c.maxDegree + 1) * c.embeddingDim * c.direction.tables
  | attention c => 4 * c.featSize * c.featSize + if c.bias then 4 * c.featSize else 0

/-- The parameters by the parts of the module that they belong to. -/
def parts : (p : ModulePlan) → p.kind.State → List Parameter
  | linear .., (l : Linear) => l.weight :: l.bias.toList
  | embedding .., (e : Embedding) => [e.weight]
  | degreeEncoder _, (e : DegreeEncoder) =>
    (e.tables.incoming?.toList ++ e.tables.outgoing?.toList).map Embedding.weight
  | attention _, (a : Attention) =>
    (a.query.weight :: a.query.bias.toList) ++ (a.key.weight :: a.key.bias.toList) ++
      (a.value.weight :: a.value.bias.toList) ++ (a.output.weight :: a.output.bias.toList)

/-- A module is as it was planned, whatever its data and its mode of training. -/
def Holds : (p : ModulePlan) → p.kind.State → Prop
  | linear inFeatures outFeatures bias d, (l : Linear) =>
    l.WellFormed d ∧ l.settings = ⟨inFeatures, outFeatures, bias⟩
  | embedding numRows dim paddingRow d, (e : Embedding) =>
    e.WellFormed d ∧ e.settings = ⟨numRows, dim, paddingRow⟩
  | degreeEncoder c, (e : DegreeEncoder) => e.Follows c
  | attention c, (a : Attention) =>
    (∃ on, a.Follows c on) ∧
      ∀ l ∈ a.projections, l.settings = ⟨c.featSize, c.featSize, c.bias⟩

/-- The parameters of a module are where they belong, and are replaced where they are. -/
structure InPlace (p : ModulePlan) (m : p.kind.State) : Prop where
  layout : Module.layout m = p.layout
  parts : Module.parameters m = p.parts m
  replaced : ∀ ps : List Parameter, ps.length = p.layout.length →
    Module.parameters (Module.withParameters ps m) = ps
  settings : ∀ ps : List Parameter,
    Module.Lawful.settings (Module.withParameters ps m) = Module.Lawful.settings m
  own : Module.withParameters (Module.parameters m) m = m
  buffers : ∀ q ∈ Module.parameters m, ∀ buffer, q.grad = some buffer →
    buffer.dtype = q.data.dtype ∧ buffer.shape = q.shape
  count : Module.numParameters m = p.count

variable {p : ModulePlan} {m : p.kind.State}

/-! ### What is built and what is kept -/

/-- What is built is as it was planned. -/
theorem build_holds (p : ModulePlan) :
    Yields (p.build : Action G ModuleError p.kind.State) p.Holds := by
  cases p with
  | linear inFeatures outFeatures bias d =>
    refine Yields.mapError _ fun g l g' hrun => ?_
    exact ⟨(Linear.build_yields _ _ _ _ g l g' hrun).1, Linear.build_settings _ _ _ _ g l g' hrun⟩
  | embedding numRows dim paddingRow d =>
    intro g e g' hrun
    rcases Embedding.build_yields _ _ _ _ g e g' hrun with ⟨weight, rfl, hwell⟩
    exact ⟨hwell, rfl⟩
  | degreeEncoder c =>
    intro g e g' hrun
    exact (DegreeEncoder.build_yields c g e g' hrun).2.1
  | attention c =>
    intro g a g' hrun
    have hfollows := (Attention.build_yields c g a g' hrun).1
    exact ⟨⟨false, hfollows⟩, Attention.build_settings c g a g' hrun⟩

/-- Other data of the same kinds and shapes leaves a module as it was planned. -/
theorem holds_stable (p : ModulePlan) : Module.Stable p.Holds := by
  cases p with
  | linear inFeatures outFeatures bias d =>
    refine ⟨fun ps l h hps => ⟨(h.1.withParameters hps).1, ?_⟩, fun _ _ h => h⟩
    exact (Module.Lawful.settings_withParameters ps (l : Linear)).trans h.2
  | embedding numRows dim paddingRow d =>
    refine ⟨fun ps e h hps => ⟨?_, ?_⟩, fun _ _ h => h⟩
    · exact (Embedding.wellFormed_stable d).withParameters ps e h.1 hps
    · exact (Module.Lawful.settings_withParameters ps (e : Embedding)).trans h.2
  | degreeEncoder c => exact DegreeEncoder.follows_stable c
  | attention c => exact (Attention.follows_stable c).and (Attention.settings_stable _)

/-- So does every operation of its own. -/
theorem perform_holds (p : ModulePlan) (op : p.kind.Own G) :
    Keeps (p.kind.perform op) fun s => p.Holds s.value := by
  cases p with
  | linear inFeatures outFeatures bias d =>
    rintro t ⟨hwell, hsettings⟩
    have hsizes := congrArg (fun s => (s.inFeatures, s.outFeatures)) hsettings
    have hkept := Linear.perform_keeps d inFeatures outFeatures op t
      ⟨hwell, congrArg Prod.fst hsizes, congrArg Prod.snd hsizes⟩
    exact ⟨hkept.1, Linear.perform_settings _ op t hsettings⟩
  | embedding numRows dim paddingRow d =>
    exact Embedding.perform_keeps (P := fun e : Embedding =>
      e.WellFormed d ∧ e.settings = ⟨numRows, dim, paddingRow⟩) (Embedding.backward_settings d _) op
  | degreeEncoder c => exact DegreeEncoder.perform_follows op
  | attention c => exact Keeps.and (Attention.perform_keeps op) (Attention.perform_settings _ op)

/-- The kinds and shapes of parameters can be read off from the plan. -/
theorem Holds.layout (h : p.Holds m) : Module.layout m = p.layout := by
  cases p with
  | linear inFeatures outFeatures bias d => exact h.1.layout h.2
  | embedding numRows dim paddingRow d =>
    rcases m with ⟨n, k, row, weight⟩
    rcases h with ⟨hwell, hs⟩
    cases hs
    exact congrArg (fun x => [x]) (Prod.ext hwell.weight.dtype hwell.weight.shape)
  | degreeEncoder c =>
    have hformat : ∀ side t, m.tables.at? side = some t →
        (t.weight.data.dtype, t.weight.shape) = (c.dtype, [c.maxDegree + 1, c.embeddingDim]) :=
      fun side t ht => Prod.ext (h.table side t ht).weight.dtype (h.table side t ht).weight.shape
    rw [ModulePlan.layout, ← h.direction]
    rcases m with ⟨n, k, t | t | ⟨t, u⟩⟩
    · exact congrArg (fun x => [x]) (hformat .target t rfl)
    · exact congrArg (fun x => [x]) (hformat .source t rfl)
    · exact congrArg₂ (fun x y => [x, y]) (hformat .target t rfl) (hformat .source u rfl)
  | attention c =>
    rcases h with ⟨⟨on, hfollows⟩, hsettings⟩
    have hlayout : ∀ l ∈ m.projections,
        Module.layout l = Linear.layoutOf c.featSize c.featSize c.bias c.dtype := fun l hl =>
      (hfollows.projection l hl).1.layout (hsettings l hl)
    have hmap : m.projections.map Module.layout
        = List.replicate 4 (Linear.layoutOf c.featSize c.featSize c.bias c.dtype) := by
      rw [List.map_congr_left hlayout, List.map_const']
      rfl
    change (m.projections.flatMap Module.parameters).map _ = (List.replicate 4 _).flatten
    rw [List.map_flatMap]
    exact congrArg List.flatten hmap

/-- So can the number of their elements. -/
theorem Holds.count (h : p.Holds m) : Module.numParameters m = p.count := by
  rw [Module.numParameters_eq, h.layout]
  cases p with
  | linear inFeatures outFeatures bias d =>
    cases bias <;> simp [ModulePlan.layout, Linear.layoutOf, ModulePlan.count, Shape.size]
  | embedding numRows dim paddingRow d => simp [ModulePlan.layout, ModulePlan.count, Shape.size]
  | degreeEncoder c =>
    rw [ModulePlan.layout, ModulePlan.count]
    cases c.direction <;> simp [Direction.tables, Shape.size, Nat.mul_two]
  | attention c =>
    rw [ModulePlan.layout, ModulePlan.count]
    cases c.bias <;> simp [Linear.layoutOf, Shape.size, Nat.mul_assoc] <;> omega

/-- The parts that the parameters belong to. -/
theorem parameters_eq_parts (p : ModulePlan) (m : p.kind.State) :
    Module.parameters m = p.parts m := by
  cases p with
  | linear inFeatures outFeatures bias d => rfl
  | embedding numRows dim paddingRow d => rfl
  | degreeEncoder c => rcases m with ⟨n, k, t | t | ⟨t, u⟩⟩ <;> rfl
  | attention c =>
    change m.projections.flatMap Module.parameters = _
    simp [Attention.projections, parts, Module.parameters]

/-- Parameters of a module that is as it was planned, and whose buffers fit, are where they
    belong. -/
theorem Holds.inPlace (h : p.Holds m) (hbuffers : Module.Each Parameter.BufferFits m) :
    p.InPlace m where
  layout := h.layout
  parts := parameters_eq_parts p m
  replaced ps hps := by
    rw [← h.layout, Module.layout, List.length_map] at hps
    exact Module.Lawful.parameters_withParameters ps m hps
  settings ps := Module.Lawful.settings_withParameters ps m
  own := Module.withParameters_parameters m
  buffers q hq buffer hbuffer :=
    ⟨(hbuffers q hq buffer hbuffer).dtype, (hbuffers q hq buffer hbuffer).shape⟩
  count := h.count

theorem build_built (p : ModulePlan) : Yields (p.build : Action G ModuleError p.kind.State)
    (ModuleKind.Built G p.kind) := by
  cases p with
  | linear inFeatures outFeatures bias d =>
    exact Yields.mapError _ fun g l g' hrun => .linear hrun
  | embedding numRows dim paddingRow d => exact fun g e g' hrun => .embedding hrun
  | degreeEncoder c => exact fun g e g' hrun => .degreeEncoder hrun
  | attention c => exact fun g a g' hrun => .attention hrun

/-- Whatever is done to a module that was built, its parameters are where they belong: their
    number, order, kinds and shapes are those of the plan, putting parameters back changes
    nothing else, and buffers have the kinds and shapes of their parameters. This is so at the
    end and wherever an operation begins, within scopes and after failures as well. -/
theorem parameters_in_place (p : ModulePlan) {g g' : G} {new : p.kind.State}
    (h : p.build g = (.ok new, g'))
    (steps : List (Script ModuleError (ModuleOp (p.kind.Own G)))) (m : p.kind.State)
    (hm : ModuleOp.Passes p.kind.perform steps new m) : p.InPlace m := by
  let P : p.kind.State → Prop := fun m => p.Holds m ∧ Module.Each Parameter.BufferFits m
  have hkeeps : ∀ op : ModuleOp (p.kind.Own G),
      Keeps (ModuleOp.perform p.kind.perform op) fun s => P s.value := fun op =>
    Keeps.and (ModuleOp.perform_keeps (holds_stable p) (perform_holds p) op)
      (ModuleKind.perform_keeps_buffersFit p.kind op)
  have hnew := (build_built p g new g' h).buffersFit
  rcases hm.keeps (P := P) hkeeps ⟨build_holds p g new g' h, hnew⟩ with ⟨hholds, hbuffers⟩
  exact hholds.inPlace hbuffers

/-- Steps of which some fail, and of which some are in a scope within a scope. -/
def nestedSteps : List (Script ModuleError (ModuleOp DegreeEncoder.Op)) :=
  [.act (.accumulate 0 (Parameter.number 1)),
   .noGrad [.act (.setParameter 7 (Parameter.number 1)),
     .noGrad [.act (.own (.backward ⟨[("a", 1)], []⟩ (Parameter.number 1))),
       .act (.freeze 1 true)]],
   .act .zeroGrad]

/-- An encoder with two tables after a gradient of another kind, a parameter that does not
    exist and work within scopes. -/
theorem parameters_in_place_nested :
    ∃ new g', (degreeEncoder ⟨1, 1, .both, .float64⟩).build (SplitMix.mk 0) = (.ok new, g') ∧
      Module.layout (ModuleOp.after DegreeEncoder.perform nestedSteps new)
        = [(.float64, [2, 1]), (.float64, [2, 1])] ∧
      Module.numParameters (ModuleOp.after DegreeEncoder.perform nestedSteps new) = 4 := by
  rcases DegreeEncoder.build_ok (c := ⟨1, 1, .both, .float64⟩) rfl (by decide) (by decide)
    (by decide) (SplitMix.mk 0) with ⟨new, g', hbuild⟩
  have hplace := parameters_in_place (degreeEncoder ⟨1, 1, .both, .float64⟩) hbuild nestedSteps _
    (.inl rfl)
  exact ⟨new, g', hbuild, hplace.layout, hplace.count⟩

end ModulePlan

end GraphAttention
