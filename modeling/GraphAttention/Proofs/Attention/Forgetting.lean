import GraphAttention.Proofs.Parameters

/-!
# Drawing Anew Forgets

An attention module that is drawn anew owes its data to the source alone. Four matrices are
drawn, for queries, keys and values and then for the output, and the biases become zeros.
None of this looks at the data that is there, at gradients, at the heads or at the mode, and
none of it changes anything but data. Two modules with projections of the same size and kind
are therefore refused together, or drawn alike, from one source, and leave the same source.

The reason is a simulation. The four draws can be made without a module, and each step of
drawing a module anew mirrors one of them: where the draw is refused the step is, for the
same reason, and otherwise the module is the old one with what was drawn in its place. Steps
that mirror draws can be put in a row, and so the whole mirrors all four draws.

A new module is drawn twice. Its four layers come with weights of their own, and then all of
it is drawn anew, so nothing is left of the first weights but the source after them. Any
other module of this size and kind, drawn anew from that source, has the same data.

## Main definitions

* `Module.data`, `Module.gradients`: The parameters of a module by their data and the rest.
* `Linear.Sized`, `Attention.Sized`: Square projections of one size and kind.
* `Attention.Weights`, `Attention.drawWeights`: Four matrices, drawn without a module.
* `Attention.redrawn`: A module with these matrices, and with zeros for biases.
* `Attention.Mirrors`: An action on a module does what a draw decides.
* `Attention.layers`: The layers that a module is made of before it is drawn.

## Theorems

* `data_redrawn`, `zeros_of_redrawn`: Modules with the same matrices have the same data.
* `only_data_redrawn`: A module before and after is the same but for data.
* `Mirrors.bind`, `mirrors_resetProjection`, `mirrors_resetParameters`: Steps in a row, one
  step, and all of them.
* `build_redraws`: What a new module is drawn from.
* `resetParameters_forgets`: All of this for any modules.
-/

namespace GraphAttention

open GraphAttention.Action

/-! ### Data and the rest -/

/-- The data of the parameters of a module, in order. -/
def Module.data {M : Type} [Module M] (m : M) : List Tensor :=
  (Module.parameters m).map Parameter.data

/-- Which parameters of a module are learned, and what they have gathered. -/
def Module.gradients {M : Type} [Module M] (m : M) : List (Bool × Option Tensor) :=
  (Module.parameters m).map fun p => (p.requiresGrad, p.grad)

namespace Linear

variable {l l' : Linear} {d : DType} {n : Nat} {bias : Bool} {weight : Tensor}

/-- A square matrix of some size and kind, with a bias or without one. -/
def Sized (n : Nat) (d : DType) (bias : Bool) (l : Linear) : Prop :=
  l.WellFormed d ∧ l.settings = ⟨n, n, bias⟩

/-- The zeros that replace a bias do not depend on the layer. -/
theorem Sized.zeros_bias (hl : l.Sized n d bias) {b : Parameter} (hb : l.bias = some b) :
    Tensor.zeros [n] d = .ok b.data.zeroed := by
  have hout : l.outFeatures = n := congrArg Settings.outFeatures hl.2
  rw [← hout]
  exact Tensor.zeros_eq_zeroed (hl.1.bias b hb)

theorem zeros_of_redrawn (hl : l.Sized n d bias) {b : Parameter}
    (hb : (l.redrawn weight).bias = some b) : Tensor.zeros [n] d = .ok b.data := by
  rcases Option.map_eq_some_iff.mp hb with ⟨old, hold, rfl⟩
  exact hl.zeros_bias hold

/-- Layers of one size and kind have the same data once the same matrix was drawn for them. -/
theorem data_redrawn (hl : l.Sized n d bias) (hl' : l'.Sized n d bias) (weight : Tensor) :
    Module.data (l.redrawn weight) = Module.data (l'.redrawn weight) := by
  have hflag : l.bias.isSome = l'.bias.isSome :=
    congrArg Settings.hasBias (hl.2.trans hl'.2.symm)
  have hdata : ∀ l : Linear, Module.data (l.redrawn weight)
      = weight :: ((l.redrawn weight).bias.map Parameter.data).toList := by
    rintro ⟨m, n, w, _ | b⟩ <;> rfl
  rw [hdata, hdata]
  cases hb : l.bias with
  | none =>
    have hnone : l'.bias = none := by simpa [hb] using hflag.symm
    simp only [redrawn, hb, hnone, Option.map_none]
  | some b =>
    obtain ⟨b', hb'⟩ : ∃ b', l'.bias = some b' := by
      rw [← Option.isSome_iff_exists, ← hflag, hb]
      rfl
    have hzeros := (hl.zeros_bias hb).symm.trans (hl'.zeros_bias hb')
    simp only [redrawn, hb, hb', Option.map_some]
    rw [Except.ok.inj hzeros]

theorem gradients_redrawn (weight : Tensor) (l : Linear) :
    Module.gradients (l.redrawn weight) = Module.gradients l := by
  rcases l with ⟨m, n, w, _ | b⟩ <;> rfl

theorem settings_redrawn (weight : Tensor) (l : Linear) :
    (l.redrawn weight).settings = l.settings := by
  rcases l with ⟨m, n, w, _ | b⟩ <;> rfl

end Linear

namespace Attention

variable {G : Type} {α β : Type} {a a' b : Attention} {n : Nat} {d : DType} {bias : Bool}

/-- All projections are of one size and kind, and either all of them have a bias or none. -/
def Sized (n : Nat) (d : DType) (bias : Bool) (a : Attention) : Prop :=
  ∀ l ∈ a.projections, l.Sized n d bias

/-- Matrices for the four projections. -/
structure Weights where
  query : Tensor
  key : Tensor
  value : Tensor
  output : Tensor

/-- The module with these matrices, and with zeros for biases. -/
def redrawn (w : Weights) (a : Attention) : Attention :=
  { a with
    query := a.query.redrawn w.query
    key := a.key.redrawn w.key
    value := a.value.redrawn w.value
    output := a.output.redrawn w.output }

theorem data_eq (a : Attention) : Module.data a = a.projections.flatMap Module.data :=
  List.map_flatMap

theorem gradients_eq (a : Attention) :
    Module.gradients a = a.projections.flatMap Module.gradients :=
  List.map_flatMap

/-- Modules of one size and kind have the same data once the same matrices were drawn for
    them. -/
theorem data_redrawn (ha : a.Sized n d bias) (ha' : a'.Sized n d bias) (w : Weights) :
    Module.data (a.redrawn w) = Module.data (a'.redrawn w) := by
  rcases forall_projections.mp ha with ⟨hquery, hkey, hvalue, houtput⟩
  rcases forall_projections.mp ha' with ⟨hquery', hkey', hvalue', houtput'⟩
  simp only [data_eq, projections, redrawn, List.flatMap_cons, List.flatMap_nil]
  rw [Linear.data_redrawn hquery hquery', Linear.data_redrawn hkey hkey',
    Linear.data_redrawn hvalue hvalue', Linear.data_redrawn houtput houtput']

/-- All biases are zeros afterwards. -/
theorem zeros_of_redrawn (ha : a.Sized n d bias) (w : Weights) :
    ∀ l ∈ (a.redrawn w).projections, ∀ b, l.bias = some b → Tensor.zeros [n] d = .ok b.data := by
  rcases forall_projections.mp ha with ⟨hquery, hkey, hvalue, houtput⟩
  exact forall_projections.mpr ⟨fun b => Linear.zeros_of_redrawn hquery,
    fun b => Linear.zeros_of_redrawn hkey, fun b => Linear.zeros_of_redrawn hvalue,
    fun b => Linear.zeros_of_redrawn houtput⟩

/-- Only data is different afterwards. -/
theorem only_data_redrawn (w : Weights) (a : Attention) :
    Module.gradients (a.redrawn w) = Module.gradients a ∧
      Module.Lawful.settings (a.redrawn w) = Module.Lawful.settings a := by
  constructor
  · simp only [gradients_eq, projections, redrawn, List.flatMap_cons, Linear.gradients_redrawn]
  · change settings (a.redrawn w) = settings a
    simp only [settings, projections, redrawn, List.map_cons, Linear.settings_redrawn]

/-! ### Draws without a module -/

/-- Run on a module, an action does what a draw decides: it ends with the module that belongs
    to what was drawn, or with the reason for which the draw was refused, and the source is
    the one that the draw leaves. -/
structure Mirrors (a : Attention) (act : Action (Attention × G) ModuleError Unit)
    (draw : Action G TensorError α) (result : α → Attention) : Prop where
  ok : ∀ g w g', draw g = (.ok w, g') → act (a, g) = (.ok (), (result w, g'))
  error : ∀ g e g', draw g = (.error e, g') → ∃ b, act (a, g) = (.error (.tensor e), (b, g'))

namespace Mirrors

variable {act act' : Action (Attention × G) ModuleError Unit} {draw : Action G TensorError α}
  {result : α → Attention}

/-- After a step that mirrors a draw, another one finds the module that belongs to what was
    drawn. -/
theorem bind {next : α → Action G TensorError β} {last : β → Attention}
    (h : Mirrors a act draw result) (hnext : ∀ w, Mirrors (result w) act' (next w) last) :
    Mirrors a (act >>= fun _ => act') (draw >>= next) last where
  ok := by
    intro g w g' hrun
    rcases bind_ok_iff.mp hrun with ⟨x, g₁, hdraw, hrest⟩
    rw [bind_ok (h.ok g x g₁ hdraw)]
    exact (hnext x).ok g₁ w g' hrest
  error := by
    intro g e g' hrun
    rcases bind_error_iff.mp hrun with hdraw | ⟨x, g₁, hdraw, hrest⟩
    · rcases h.error g e g' hdraw with ⟨b, hact⟩
      exact ⟨b, bind_error hact⟩
    · rw [bind_ok (h.ok g x g₁ hdraw)]
      exact (hnext x).error g₁ e g' hrest

/-- What is drawn last may be put together with what was drawn before. -/
theorem map {f : α → β} {last : β → Attention} (h : Mirrors a act draw fun w => last (f w)) :
    Mirrors a act (do return f (← draw)) last where
  ok := by
    intro g w g' hrun
    rcases bind_ok_iff.mp hrun with ⟨x, g₁, hdraw, hrest⟩
    cases hrest
    exact h.ok g x g' hdraw
  error := by
    intro g e g' hrun
    rcases bind_error_iff.mp hrun with hdraw | ⟨x, g₁, -, hrest⟩
    · exact h.error g e g' hdraw
    · cases hrest

/-- Two modules share the outcome and the source that is left, whatever they are. -/
theorem congr {result' : α → Attention} (h : Mirrors a act draw result)
    (h' : Mirrors a' act draw result') (g : G) :
    (act (a, g)).1 = (act (a', g)).1 ∧ (act (a, g)).2.2 = (act (a', g)).2.2 := by
  rcases hdraw : draw g with ⟨e | w, g'⟩
  · rcases h.error g e g' hdraw with ⟨b, hact⟩
    rcases h'.error g e g' hdraw with ⟨b', hact'⟩
    rw [hact, hact']
    exact ⟨rfl, rfl⟩
  · rw [h.ok g w g' hdraw, h'.ok g w g' hdraw]
    exact ⟨rfl, rfl⟩

/-- An action that has succeeded had something drawn for it. -/
theorem of_ok {g g' : G} (h : Mirrors a act draw result) (hact : act (a, g) = (.ok (), (b, g'))) :
    ∃ w, draw g = (.ok w, g') ∧ b = result w := by
  rcases hdraw : draw g with ⟨e | w, g₁⟩
  · rcases h.error g e g₁ hdraw with ⟨b', hact'⟩
    rw [hact] at hact'
    cases hact'
  · rw [h.ok g w g₁ hdraw] at hact
    cases hact
    exact ⟨w, rfl, rfl⟩

end Mirrors

variable [WordSource G]

/-- Four matrices, in the order in which a module takes them and with its gains. -/
def drawWeights (n : Nat) (d : DType) : Action G TensorError Weights := do
  let query ← Tensor.xavierUniform [n, n] innerGain d
  let key ← Tensor.xavierUniform [n, n] innerGain d
  let value ← Tensor.xavierUniform [n, n] innerGain d
  let output ← Tensor.xavierUniform [n, n] 1 d
  return ⟨query, key, value, output⟩

/-- Drawing a projection anew mirrors the draw of one matrix. -/
theorem mirrors_resetProjection {read : Attention → Linear}
    (write : Linear → Attention → Attention) (gain : Float) (hread : (read a).Sized n d bias) :
    Mirrors a (resetProjection read write gain)
      (Tensor.xavierUniform [n, n] gain d : Action G TensorError Tensor)
      fun w => write ((read a).redrawn w) a := by
  rcases hread with ⟨hwell, hsettings⟩
  have hin : (read a).inFeatures = n := congrArg Linear.Settings.inFeatures hsettings
  have hout : (read a).outFeatures = n := congrArg Linear.Settings.outFeatures hsettings
  have hdtype : (read a).dtype = d := hwell.weight.dtype
  constructor
  · intro g w g' hdraw
    rw [resetProjection, run_mapError, run_zoom,
      Linear.resetXavier_ok hwell (by rw [hin, hout, hdtype]; exact hdraw)]
    rfl
  · intro g e g' hdraw
    rw [resetProjection, run_mapError, run_zoom,
      Linear.resetXavier_undrawn (by rw [hin, hout, hdtype]; exact hdraw)]
    exact ⟨_, rfl⟩

/-- Drawing a module anew mirrors the draw of its four matrices. A projection is what it was
    when its turn comes, because only others have been drawn. -/
theorem mirrors_resetParameters (ha : a.Sized n d bias) :
    Mirrors a (resetParameters : Action (Attention × G) ModuleError Unit) (drawWeights n d)
      fun w => a.redrawn w := by
  rcases forall_projections.mp ha with ⟨hquery, hkey, hvalue, houtput⟩
  refine Mirrors.bind (mirrors_resetProjection _ innerGain hquery) fun query => ?_
  refine Mirrors.bind (mirrors_resetProjection _ innerGain hkey) fun key => ?_
  refine Mirrors.bind (mirrors_resetProjection _ innerGain hvalue) fun value => ?_
  exact Mirrors.map (f := fun output => Weights.mk query key value output)
    (mirrors_resetProjection _ 1 houtput)

/-! ### New modules -/

/-- The four layers that a module is made of before it is drawn. -/
def layers (c : AttentionConfig) : Action G TensorError (List Linear) := do
  let query ← Linear.build c.featSize c.featSize c.bias c.dtype
  let key ← Linear.build c.featSize c.featSize c.bias c.dtype
  let value ← Linear.build c.featSize c.featSize c.bias c.dtype
  let output ← Linear.build c.featSize c.featSize c.bias c.dtype
  return [query, key, value, output]

/-- A module that was planned has projections of one size and kind, however it was worked
    on. -/
theorem sized_of_holds {c : AttentionConfig} (h : (ModulePlan.attention c).Holds a) :
    a.Sized c.featSize c.dtype c.bias := by
  rcases h with ⟨⟨on, hfollows⟩, hsettings⟩
  exact fun l hl => ⟨(hfollows.projection l hl).1, hsettings l hl⟩

/-- The layers of a new module are drawn first, and then its four matrices, from the source
    that the layers leave. -/
theorem build_redraws {c : AttentionConfig} {g g' : G} (h : build c g = (.ok a, g')) :
    ∃ (bare : Attention) (g₁ : G) (w : Weights), layers c g = (.ok bare.projections, g₁) ∧
      bare.Sized c.featSize c.dtype c.bias ∧ drawWeights c.featSize c.dtype g₁ = (.ok w, g') ∧
      a = bare.redrawn w := by
  have hlinear : ∀ {g g' : G} {l : Linear},
      Linear.build c.featSize c.featSize c.bias c.dtype g = (.ok l, g') →
      l.Sized c.featSize c.dtype c.bias := fun {g g' l} hrun =>
    ⟨(Linear.build_yields _ _ _ _ g l g' hrun).1, Linear.build_settings _ _ _ _ g l g' hrun⟩
  unfold build at h
  -- The settings are looked at without a draw, and so is the dropout after the layers.
  rcases bind_ok_iff.mp h with ⟨_, g₀, hvalid, h⟩
  obtain rfl : g = g₀ := (Prod.mk.inj hvalid).2
  rcases bind_ok_iff.mp h with ⟨query, g₁, hquery, h⟩
  rcases bind_ok_iff.mp h with ⟨key, g₂, hkey, h⟩
  rcases bind_ok_iff.mp h with ⟨value, g₃, hvalue, h⟩
  rcases bind_ok_iff.mp h with ⟨output, g₄, houtput, h⟩
  rcases bind_ok_iff.mp h with ⟨dropout, g₅, hdropout, h⟩
  obtain rfl : g₄ = g₅ := (Prod.mk.inj hdropout).2
  rw [mapError_ok_iff] at hquery hkey hvalue houtput
  let bare : Attention := {
    featSize := c.featSize, numHeads := c.numHeads, headDim := c.headDim
    biasMode := c.biasMode, scaling := 1 / Float.sqrt (Float.ofNat c.headDim)
    query, key, value, output, dropout }
  have hbare : bare.Sized c.featSize c.dtype c.bias := forall_projections.mpr
    ⟨hlinear hquery, hlinear hkey, hlinear hvalue, hlinear houtput⟩
  have hlayers : layers c g = (.ok bare.projections, g₄) := by
    rw [layers, bind_ok hquery, bind_ok hkey, bind_ok hvalue, bind_ok houtput]
    rfl
  rcases hreset : resetParameters (bare, g₄) with ⟨_ | _, built, g''⟩
  · simp only [bare] at hreset
    simp only [hreset] at h
    cases h
  · rcases (mirrors_resetParameters hbare).of_ok hreset with ⟨w, hdraw, hbuilt⟩
    simp only [bare] at hreset
    simp only [hreset] at h
    cases h
    exact ⟨bare, g₄, w, hlayers, hbare, hdraw, hbuilt⟩

/-! ### Any modules -/

/-- Modules of one size and kind are drawn anew alike from one source, or refused alike. The
    same source is left. What was drawn is in the order of the projections, the biases are
    zeros, and nothing but data has changed. A new module has the data that any other module
    of its size and kind gets from the source that its layers leave. -/
theorem resetParameters_forgets :
    (∀ (n : Nat) (d : DType) (bias : Bool) (a a' : Attention) (g : G),
      a.Sized n d bias → a'.Sized n d bias →
      ((resetParameters (a, g)).1 = (resetParameters (a', g)).1 ∧
        (resetParameters (a, g)).2.2 = (resetParameters (a', g)).2.2) ∧
      ∀ b g', resetParameters (a, g) = (.ok (), (b, g')) →
        ∃ w, drawWeights n d g = (.ok w, g') ∧ b = a.redrawn w ∧
          resetParameters (a', g) = (.ok (), (a'.redrawn w, g')) ∧
          Module.data b = Module.data (a'.redrawn w) ∧
          (∀ l ∈ b.projections, ∀ p, l.bias = some p → Tensor.zeros [n] d = .ok p.data) ∧
          Module.gradients b = Module.gradients a ∧
          Module.Lawful.settings b = Module.Lawful.settings a) ∧
      ∀ (c : AttentionConfig) (g g' : G) (a : Attention), build c g = (.ok a, g') →
        ∃ ls g₁, layers c g = (.ok ls, g₁) ∧
          ∀ a' : Attention, a'.Sized c.featSize c.dtype c.bias →
            ∃ b, resetParameters (a', g₁) = (.ok (), (b, g')) ∧
              Module.data b = Module.data a := by
  constructor
  · intro n d bias a a' g ha ha'
    have hmirrors := mirrors_resetParameters (G := G) ha
    have hmirrors' := mirrors_resetParameters (G := G) ha'
    refine ⟨hmirrors.congr hmirrors' g, fun b g' hrun => ?_⟩
    rcases hmirrors.of_ok hrun with ⟨w, hdraw, rfl⟩
    rcases only_data_redrawn w a with ⟨hgradients, hsettings⟩
    exact ⟨w, hdraw, rfl, hmirrors'.ok g w g' hdraw, data_redrawn ha ha' w,
      zeros_of_redrawn ha w, hgradients, hsettings⟩
  · intro c g g' a h
    rcases build_redraws h with ⟨bare, g₁, w, hlayers, hbare, hdraw, rfl⟩
    exact ⟨bare.projections, g₁, hlayers, fun a' ha' =>
      ⟨a'.redrawn w, (mirrors_resetParameters ha').ok g₁ w g' hdraw, data_redrawn ha' hbare w⟩⟩

/-- A module with one head and another with two, which is in training and was drawn from
    another source, get the same data from the source that the layers of the first have left.
    It is the data that the first had when it was new. -/
theorem resetParameters_forgets_heads :
    ∃ (a a' b b' : Attention) (g₁ g' : SplitMix),
      build ⟨2, 1, true, .add, 0, .float64⟩ (SplitMix.mk 0) = (.ok a, g') ∧
      a'.numHeads = 2 ∧ a'.dropout.training = true ∧ b'.dropout.training = true ∧
      resetParameters (a, g₁) = (.ok (), (b, g')) ∧
      resetParameters (a', g₁) = (.ok (), (b', g')) ∧
      Module.data b = Module.data b' ∧ Module.data b = Module.data a := by
  have hbuilt : ∀ (c : AttentionConfig) (g : SplitMix),
      (build c g).1.toOption.isSome = true → ∃ a g', build c g = (.ok a, g') := by
    intro c g h
    rcases hrun : build c g with ⟨_ | a, g'⟩
    · rw [hrun] at h
      cases h
    · exact ⟨a, g', rfl⟩
  rcases hbuilt ⟨2, 1, true, .add, 0, .float64⟩ ⟨0⟩ (by decide +kernel) with ⟨a, g', ha⟩
  rcases hbuilt ⟨2, 2, true, .mul, 0.5, .float64⟩ ⟨7⟩ (by decide +kernel) with ⟨new, g'', hnew⟩
  have hsized := sized_of_holds (ModulePlan.build_holds (.attention _) _ a g' ha)
  have hholds := ModulePlan.build_holds (.attention _) _ new g'' hnew
  have hsized' := sized_of_holds
    ((ModulePlan.holds_stable (.attention _)).setTraining true new hholds)
  rcases resetParameters_forgets (G := SplitMix) with ⟨halike, hdrawn⟩
  rcases hdrawn _ _ g' a ha with ⟨ls, g₁, -, hany⟩
  rcases hany a hsized with ⟨b, hrun, hdata⟩
  rcases (halike 2 .float64 true a _ g₁ hsized hsized').2 b g' hrun with
    ⟨w, -, -, hrun', hsame, -⟩
  have hheads : new.numHeads = 2 := (build_yields _ _ new g'' hnew).1.numHeads
  exact ⟨a, Module.setTraining true new, b, _, g₁, g', ha, hheads, rfl, rfl, hrun, hrun', hsame,
    hdata⟩

end Attention

end GraphAttention
