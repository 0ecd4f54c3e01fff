import GraphAttention.Proofs.Atomicity
import GraphAttention.Proofs.Attention.Reached
import GraphAttention.Proofs.Dropout

/-!
# Layers Drawn Again

Drawing weights anew is done in steps that are checked one by one. New weights are drawn,
they replace the old ones, and then zeros replace the bias. The first step can be refused,
for the gain it is asked for, and nothing has changed then. The other two are not refused,
because what was drawn has the kind and the shape of what it replaces.

An attention module draws its four projections one after another, so here a refusal would
come too late for those before it. There is none. Whether weights can be drawn depends on
their shape, their kind and the gain, and not on the source, and when the module was built
all of its projections were drawn with the very gains that are used again.

## Main definitions

* `Tensor.zeroed`: Zeros in place of a tensor.
* `Linear.redrawn`: A layer with other weights and with zeros for a bias.
* `Attention.Places`: A projection is read and written at one place.
* `Attention.Draws`: Projections can be drawn with a gain.

## Theorems

* `Tensor.xavierUniform_decided`: Whether weights are drawn is not a matter of the source.
* `Linear.resetXavier_undrawn`, `Linear.resetXavier_ok`: A layer is as it was, or it is drawn
  anew.
* `Linear.resetXavier_keeps_each`: What replacing data keeps, drawing anew keeps.
* `Attention.resetParameters_succeeds`: Drawing a module anew does not fail.
* `Attention.build_draws`: Projections of a module that was built can be drawn.
* `Linear.perform_atomicAt`, `Attention.perform_atomicAt`: Failures leave no trace.
-/

namespace GraphAttention

open GraphAttention.Action

namespace Tensor

variable {G : Type} [WordSource G] {d : DType} {s : Shape} {t u : Tensor}

/-- Zeros of the kind and the shape of a tensor. -/
def zeroed (t : Tensor) : Tensor := ⟨t.dtype, .fill t.shape 0, t.room⟩

/-- There is room for zeros where there is room for a tensor. -/
theorem zeros_eq_zeroed (h : t.Matches d s) : zeros s d = .ok t.zeroed := by
  rcases h with ⟨rfl, rfl⟩
  have room : Shape.Allocatable t.dtype.width t.shape := t.room
  rw [zeros, filled, ensureAllocatable_ok room]
  rfl

/-- Samples are cast and stored where there is room for them, whichever they are. -/
theorem drawn_decided (f : UInt64 → Float) :
    Decided (do
      let words ← drawWords s.numel
      attempt (ofFloats (words.map f) s d) : Action G TensorError Tensor) := by
  have hdraw : ∀ g : G, (do
      let words ← drawWords s.numel
      attempt (ofFloats (words.map f) s d) : Action G TensorError Tensor) g
        = (ofFloats ((WordSource.take s.numel g).1.map f) s d, (WordSource.take s.numel g).2) :=
    fun g => bind_ok (x := (WordSource.take s.numel g).1) rfl
  rintro g g' ⟨t, g'', hrun⟩
  rw [hdraw] at hrun
  have hok := (Prod.mk.inj hrun).1
  have hroom := (ofElements_matches hok).room
  have hsize : ∀ g : G, (((WordSource.take s.numel g).1.map f).map
      (Scalar.ofFloat (α := d.Elem))).size = s.size := fun g => by
    rw [Array.size_map, Array.size_map, WordSource.take_size, Shape.numel_of_addressable hroom.1]
  exact ⟨_, _, (hdraw g').trans (congrArg (·, _) (ofElements_ok (hsize g') hroom))⟩

theorem randUniform_decided (low high : Float) :
    Decided (randUniform s low high d : Action G TensorError Tensor) := by
  unfold randUniform
  refine Decided.attempt_bind fun _ _ => ?_
  dsimp only
  cases UniformRange.ofBounds? low high with
  | none =>
    split
    · exact Decided.throw_bind _ _
    · exact decided_throw _
  | some range =>
    split
    · exact Decided.throw_bind _ _
    · exact Decided.attempt_bind fun _ _ => drawn_decided range.sample

/-- Whether there is a weight matrix depends on what is asked for, not on the source. -/
theorem xavierUniform_decided (gain : Float) :
    Decided (xavierUniform s gain d : Action G TensorError Tensor) := by
  unfold xavierUniform
  split
  · refine Decided.attempt_bind fun _ _ => ?_
    split
    · exact decided_attempt _
    · dsimp only
      split
      · exact decided_attempt _
      · exact randUniform_decided _ _
  · exact decided_throw _

end Tensor

namespace Linear

variable {G : Type} [WordSource G] {l : Linear} {d : DType} {gain : Float} {g : G}

/-- Where no weights are drawn, the layer is as it was. -/
theorem resetXavier_undrawn {e : TensorError} {g' : G}
    (h : Tensor.xavierUniform [l.inFeatures, l.outFeatures] gain l.dtype g = (.error e, g')) :
    resetXavier gain (l, g) = (.error e, (l, g')) := by
  rw [resetXavier, bind_ok (run_get _)]
  dsimp only
  rw [run_bind, run_zoom, h]

/-- The layer with other weights and with zeros for a bias. -/
def redrawn (weight : Tensor) (l : Linear) : Linear :=
  { l with
    weight := { l.weight with data := weight }
    bias := l.bias.map fun b => { b with data := b.data.zeroed } }

/-- Where weights are drawn, they replace the old ones, and zeros replace the bias. -/
theorem resetXavier_ok {weight : Tensor} {g' : G} (hl : l.WellFormed d)
    (h : Tensor.xavierUniform [l.inFeatures, l.outFeatures] gain l.dtype g = (.ok weight, g')) :
    resetXavier gain (l, g) = (.ok (), (l.redrawn weight, g')) := by
  have hweight := Tensor.xavierUniform_yields gain g weight g' h
  have hfits : l.weight.Fits weight := ⟨hweight.dtype, hweight.shape.trans hl.weight.shape.symm⟩
  rw [resetXavier, bind_ok (run_get _)]
  dsimp only
  rw [run_bind, run_zoom, h]
  dsimp only
  rw [run_bind, run_zoom, Parameter.setData_ok hfits, redrawn]
  cases hbias : l.bias with
  | none => rfl
  | some bias =>
    -- There is room for the zeros because there is room for what they replace.
    have hold := hl.bias bias hbias
    have hdtype : l.dtype = d := hl.weight.dtype
    have hfits : bias.Fits bias.data.zeroed := ⟨rfl, rfl⟩
    dsimp only
    rw [hdtype, Tensor.zeros_eq_zeroed hold, bind_ok (run_attempt _ _), run_zoom,
      Parameter.setData_ok hfits]
    rfl

theorem resetXavier_drawn (hl : l.WellFormed d)
    (h : SucceedsAt (Tensor.xavierUniform [l.inFeatures, l.outFeatures] gain l.dtype) g) :
    SucceedsAt (resetXavier gain) (l, g) := by
  rcases h with ⟨weight, g', hdraw⟩
  exact ⟨_, _, resetXavier_ok hl hdraw⟩

/-- A layer that was drawn anew had weights drawn for it. -/
theorem draws_of_resetXavier (h : SucceedsAt (resetXavier gain) (l, g)) :
    SucceedsAt (Tensor.xavierUniform [l.inFeatures, l.outFeatures] gain l.dtype) g := by
  rw [SucceedsAt, resetXavier, bind_ok (run_get _)] at h
  exact (SucceedsAt.of_bind h).of_zoom

/-- The parameters are the weight and the bias. -/
theorem each_iff {Q : Parameter → Prop} :
    Module.Each Q l ↔ Q l.weight ∧ ∀ b, l.bias = some b → Q b := by
  rcases l with ⟨m, n, weight, _ | bias⟩
  · simp [Module.Each, Module.parameters]
  · simp [Module.Each, Module.parameters]

/-- What replacing data keeps, drawing anew keeps, also where it fails. -/
theorem resetXavier_keeps_each {Q : Parameter → Prop} (hQ : ∀ t, Keeps (Parameter.setData t) Q)
    (gain : Float) :
    Keeps (resetXavier gain : Action (Linear × G) TensorError Unit)
      fun s => Module.Each Q s.1 := by
  refine Keeps.get_bind fun (l, g) hl => ?_
  rcases each_iff.mp hl with ⟨-, hbias⟩
  refine Keeps.bind ?_ fun weight => Keeps.bind ?_ fun _ => ?_
  · exact Keeps.zoom (R := fun _ => True) (fun _ _ => trivial) (fun _ _ => trivial)
      fun s _ hs _ => hs
  · refine Keeps.zoom (hQ weight) (fun s hs => (each_iff.mp hs).1) fun s p hs hp => ?_
    exact each_iff.mpr ⟨hp, (each_iff.mp hs).2⟩
  · split
    · exact keeps_pure _
    · rename_i bias hbias'
      refine Keeps.bind (keeps_attempt _) fun zeros => ?_
      refine Keeps.zoom (hQ zeros) (fun _ _ => hbias bias hbias') fun s p hs hp => ?_
      refine each_iff.mpr ⟨(each_iff.mp hs).1, fun b hb => ?_⟩
      cases hb
      exact hp

/-- An operation of a layer leaves no trace where it fails. -/
theorem perform_atomicAt {s : Tracked Linear} (hs : s.value.WellFormed d) (op : Op G) :
    AtomicAt (perform op) s := by
  cases op with
  | forward x => exact atomicAt_computed _ _ s
  | resetXavier gain source =>
    refine AtomicAt.bind (AtomicAt.zoom rfl (AtomicAt.mapError _ ?_)) fun _ s' _ =>
      succeedsAt_pure _ s'
    rcases hdraw : Tensor.xavierUniform [s.value.inFeatures, s.value.outFeatures] gain
      s.value.dtype source with ⟨e | weight, source'⟩
    · refine AtomicAt.of_error (e := e) ?_
      rw [resetXavier_undrawn hdraw]
    · rcases resetXavier_drawn hs ⟨weight, source', hdraw⟩ with ⟨x, s', hrun⟩
      refine SucceedsAt.atomicAt ⟨x, s'.1, ?_⟩
      dsimp only
      rw [hrun]

/-- What replacing data keeps, every operation of a layer keeps. -/
theorem perform_keeps_each {Q : Parameter → Prop} (hQ : ∀ t, Keeps (Parameter.setData t) Q)
    (op : Op G) : Keeps (perform op) fun s => Module.Each Q s.value := by
  cases op with
  | forward x => exact keeps_computed _ _
  | resetXavier gain source =>
    refine Keeps.bind (Tracked.onValue_keeps (Keeps.mapError _ fun l hl => ?_)) fun _ =>
      keeps_pure _
    exact resetXavier_keeps_each hQ gain (l, source) hl

end Linear

namespace Attention

variable {G : Type} [WordSource G] {c : AttentionConfig} {on : Bool} {a : Attention}
  {read : Attention → Linear} {write : Linear → Attention → Attention}

/-- One of the projections is read and written, and the others are left alone. -/
structure Places (read : Attention → Linear) (write : Linear → Attention → Attention) :
    Prop where
  mem : ∀ a, read a ∈ a.projections
  only : ∀ l a, ∀ l' ∈ (write l a).projections, l' = l ∨ l' ∈ a.projections

/-- A projection is replaced where it stands among all of them. -/
theorem Places.of_split (before after : Attention → List Linear)
    (hread : ∀ a, a.projections = before a ++ read a :: after a)
    (hwrite : ∀ l a, (write l a).projections = before a ++ l :: after a) : Places read write where
  mem a := by simp [hread a]
  only l a l' h := by
    rw [hwrite] at h
    rw [hread]
    rcases List.mem_append.mp h with h | h
    · exact .inr (List.mem_append_left _ h)
    · rcases List.mem_cons.mp h with rfl | h
      · exact .inl rfl
      · exact .inr (List.mem_append_right _ (List.mem_cons_of_mem _ h))

theorem places_query : Places Attention.query fun l a => { a with query := l } :=
  .of_split (fun _ => []) (fun a => [a.key, a.value, a.output]) (fun _ => rfl) fun _ _ => rfl

theorem places_key : Places Attention.key fun l a => { a with key := l } :=
  .of_split (fun a => [a.query]) (fun a => [a.value, a.output]) (fun _ => rfl) fun _ _ => rfl

theorem places_value : Places Attention.value fun l a => { a with value := l } :=
  .of_split (fun a => [a.query, a.key]) (fun a => [a.output]) (fun _ => rfl) fun _ _ => rfl

theorem places_output : Places Attention.output fun l a => { a with output := l } :=
  .of_split (fun a => [a.query, a.key, a.value]) (fun _ => []) (fun _ => rfl) fun _ _ => rfl

/-- What drawing anew keeps of a layer, it keeps of all projections. -/
theorem Places.keeps (h : Places read write) {P : Linear → Prop} {gain : Float}
    (hP : Keeps (Linear.resetXavier gain : Action (Linear × G) TensorError Unit) fun s => P s.1) :
    Keeps (resetProjection read write gain : Action (Attention × G) ModuleError Unit)
      fun s => ∀ l ∈ s.1.projections, P l := by
  refine Keeps.mapError _ (Keeps.zoom hP (fun s hs => hs _ (h.mem s.1)) fun s part hs hpart => ?_)
  intro l hl
  rcases h.only part.1 s.1 l hl with rfl | hl
  · exact hpart
  · exact hs l hl

theorem resetParameters_keeps_each {P : Linear → Prop}
    (hP : ∀ gain, Keeps (Linear.resetXavier gain : Action (Linear × G) TensorError Unit)
      fun s => P s.1) :
    Keeps (resetParameters : Action (Attention × G) ModuleError Unit)
      fun s => ∀ l ∈ s.1.projections, P l :=
  Keeps.bind (places_query.keeps (hP _)) fun _ => Keeps.bind (places_key.keeps (hP _)) fun _ =>
    Keeps.bind (places_value.keeps (hP _)) fun _ => places_output.keeps (hP _)

/-- Projections of some settings are drawn from any source with a gain. -/
def Draws (G : Type) [WordSource G] (c : AttentionConfig) (gain : Float) : Prop :=
  ∀ g : G, SucceedsAt (Tensor.xavierUniform [c.featSize, c.featSize] gain c.dtype) g

/-- A projection that can be drawn is drawn, and all projections suit the settings again. -/
theorem Places.succeeds (h : Places read write) {gain : Float} (hdraws : Draws G c gain) :
    Succeeds (resetProjection read write gain : Action (Attention × G) ModuleError Unit)
      fun s => ∀ l ∈ s.1.projections, Suits c l := by
  refine (h.keeps (Linear.resetXavier_keeps gain c.dtype c.featSize c.featSize)).succeeds ?_
  rintro ⟨a, g⟩ hs
  rcases hs (read a) (h.mem a) with ⟨hwell, hin, hout⟩
  have hdtype : (read a).dtype = c.dtype := hwell.weight.dtype
  have hdraw : SucceedsAt (Tensor.xavierUniform [(read a).inFeatures, (read a).outFeatures] gain
      (read a).dtype) g := by
    rw [hin, hout, hdtype]
    exact hdraws g
  exact SucceedsAt.mapError _ (SucceedsAt.zoom (Linear.resetXavier_drawn hwell hdraw))

/-- With gains that projections can be drawn with, drawing all of them anew does not
    fail. -/
theorem resetParameters_succeeds (hinner : Draws G c innerGain) (hone : Draws G c 1) :
    Succeeds (resetParameters : Action (Attention × G) ModuleError Unit)
      fun s => ∀ l ∈ s.1.projections, Suits c l :=
  (places_query.succeeds hinner).bind fun _ => (places_key.succeeds hinner).bind fun _ =>
    (places_value.succeeds hinner).bind fun _ => places_output.succeeds hone

/-- The projections of a module that was built were drawn, with both gains. -/
theorem build_draws (c : AttentionConfig) :
    Yields (build c : Action G ModuleError Attention)
      fun _ => Draws G c innerGain ∧ Draws G c 1 := by
  -- When a layer is made, it is drawn with gain one.
  have hlinear : Yields (mapError ModuleError.tensor
      (Linear.build c.featSize c.featSize c.bias c.dtype) : Action G ModuleError Linear)
      fun l => Suits c l ∧ Draws G c 1 := by
    refine Yields.mapError _ fun g l g' hrun => ⟨Linear.build_yields _ _ _ _ g l g' hrun, ?_⟩
    have hdrawn : SucceedsAt (Linear.build c.featSize c.featSize c.bias c.dtype) g :=
      ⟨l, g', hrun⟩
    exact fun g'' => Tensor.xavierUniform_decided 1 g g'' hdrawn.of_bind
  unfold build
  refine Yields.after fun _ => Yields.bind hlinear fun query hquery => Yields.after fun key =>
    Yields.after fun value => Yields.after fun output => Yields.after fun dropout => ?_
  intro g a g' hrun
  let bare : Attention := {
    featSize := c.featSize, numHeads := c.numHeads, headDim := c.headDim
    biasMode := c.biasMode, scaling := 1 / Float.sqrt (Float.ofNat c.headDim)
    query, key, value, output, dropout }
  -- When the module is complete, its queries are the first to be drawn with the other gain.
  have hreset : SucceedsAt (resetParameters : Action (Attention × G) ModuleError Unit)
      (bare, g) := by
    rcases hbare : resetParameters (bare, g) with ⟨e | _, s⟩
    · simp only [bare] at hbare
      simp only [hbare] at hrun
      cases hrun
    · exact ⟨_, s, hbare⟩
  have hdraw := Linear.draws_of_resetXavier hreset.of_bind.of_mapError.of_zoom
  rcases hquery with ⟨⟨hwell, hin, hout⟩, hone⟩
  have hdtype : query.dtype = c.dtype := hwell.weight.dtype
  rw [hin, hout, hdtype] at hdraw
  exact ⟨fun g'' => Tensor.xavierUniform_decided innerGain g g'' hdraw, hone⟩

/-- Drawing the projections of a module anew does not fail, and nothing else that it does
    changes it. -/
theorem perform_atomicAt {s : Tracked Attention} (hdraws : Draws G c innerGain ∧ Draws G c 1)
    (hs : ∀ l ∈ s.value.projections, Suits c l) (op : Op G) : AtomicAt (perform op) s := by
  cases op with
  | info => exact (succeedsAt_get _ s).atomicAt
  | forward x bias mask source => exact atomicAt_computed _ _ s
  | forwardWithWeights x bias mask source => exact atomicAt_computed _ _ s
  | resetParameters source =>
    refine AtomicAt.bind (AtomicAt.zoom rfl ?_) fun _ s' _ => succeedsAt_pure _ s'
    rcases resetParameters_succeeds hdraws.1 hdraws.2 (s.value, source) hs with
      ⟨x, s', hrun, -⟩
    refine SucceedsAt.atomicAt ⟨x, s'.1, ?_⟩
    dsimp only
    rw [hrun]

/-- The parameters are those of the projections. -/
theorem each_iff {Q : Parameter → Prop} :
    Module.Each Q a ↔ ∀ l ∈ a.projections, Module.Each Q l := by
  constructor
  · exact fun h l hl p hp => h p (List.mem_flatMap.mpr ⟨l, hl, hp⟩)
  · intro h p hp
    rcases List.mem_flatMap.mp hp with ⟨l, hl, hp⟩
    exact h l hl p hp

/-- What replacing data keeps, every operation of a module keeps. -/
theorem perform_keeps_each {Q : Parameter → Prop} (hQ : ∀ t, Keeps (Parameter.setData t) Q)
    (op : Op G) : Keeps (perform op) fun s => Module.Each Q s.value := by
  cases op with
  | info => exact keeps_get _
  | forward x bias mask source => exact keeps_computed _ _
  | forwardWithWeights x bias mask source => exact keeps_computed _ _
  | resetParameters source =>
    refine Keeps.bind (Tracked.onValue_keeps fun a ha => ?_) fun _ => keeps_pure _
    exact each_iff.mpr (resetParameters_keeps_each (Linear.resetXavier_keeps_each hQ) (a, source)
      (each_iff.mp ha))

end Attention

end GraphAttention
