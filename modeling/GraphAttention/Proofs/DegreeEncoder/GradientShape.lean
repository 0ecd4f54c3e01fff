import GraphAttention.Proofs.Embedding.GradientShape
import GraphAttention.Proofs.Kinds

/-!
# Which Gradients an Encoder Takes

The gradient of the vectors of an encoder should have a row for every node. The tables look
at the number of its elements, as they do by themselves, so an encoder takes any gradient
that has as many as the vectors. Both tables are given one row for each node, and then what
one of them takes the other takes as well.

That a gradient of another shape is refused is therefore not quite so. It is refused where
the number of elements differs. Where only the axes differ, each element counts for the node
and the column that its row-major position belongs to in a matrix of the right shape, and
nothing is said.

## Main definitions

* `DegreeTables.mapSides`: All tables replaced, each in its way.

## Theorems

* `DegreeTables.exists_each`: What can be made of each table.
* `backward_run`, `backward_refused`: Tables that take a gradient, and tables that refuse it.
* `backward_succeeds_iff`, `backward_miscounted`, `backward_reshape`: Which gradients an
  encoder takes.
* `gradients_counted`: The same for tables and encoders in use.
* `not_forall_shape_checked`: A gradient of a wrong shape that is taken.
-/

namespace GraphAttention

open GraphAttention.Action

/-- A table in use has the kind of its weight. -/
theorem Embedding.wellFormed_of_reached {G : Type} [NormalSource G] {t : Embedding}
    (h : ModuleKind.Reached G .embedding t) : t.WellFormed t.weight.data.dtype := by
  rcases h with ⟨new, steps, hbuilt, rfl⟩
  cases hbuilt with
  | embedding hbuild =>
    rcases Embedding.build_yields _ _ _ _ _ _ _ hbuild with ⟨weight, -, hwell⟩
    have hkept := Embedding.after_wellFormed hwell steps
    exact hkept.weight.dtype ▸ hkept

namespace DegreeTables

/-- All tables replaced, each by what is made of it at its end. -/
def mapSides (f : EdgeEnd → Embedding → Embedding) : DegreeTables → DegreeTables
  | incoming t => incoming (f .target t)
  | outgoing t => outgoing (f .source t)
  | both t u => both (f .target t) (f .source u)

@[simp] theorem at?_mapSides (f : EdgeEnd → Embedding → Embedding) (tables : DegreeTables)
    (side : EdgeEnd) : (tables.mapSides f).at? side = (tables.at? side).map (f side) := by
  cases side <;> cases tables <;> rfl

/-- What can be made of each table can be made of all of them. -/
theorem exists_each {tables : DegreeTables} {R : EdgeEnd → Embedding → Embedding → Prop}
    (h : ∀ side t, tables.at? side = some t → ∃ t', R side t t') :
    ∃ f : EdgeEnd → Embedding → Embedding, ∀ side t, tables.at? side = some t →
      R side t (f side t) := by
  have hmade : ∀ side t, ∃ t', tables.at? side = some t → R side t t' := by
    intro side t
    by_cases ht : tables.at? side = some t
    · exact (h side t ht).imp fun _ ht' _ => ht'
    · exact ⟨t, fun ht' => absurd ht' ht⟩
  choose f hf using hmade
  exact ⟨f, hf⟩

end DegreeTables

namespace DegreeEncoder

variable {c : DegreeConfig} {e : DegreeEncoder} {graph : TypedGraph} {side : EdgeEnd}
  {entering leaving indices g g' : Tensor} {s : Shape} {enabled : Bool} {t : Embedding}

/-! ### Both tables at once -/

/-- Without degrees a gradient is refused. -/
theorem backward_degrees {x : ModuleError} (h : e.clampedDegrees graph = .error x) :
    backward graph g ⟨enabled, e⟩ = (.error x, ⟨enabled, e⟩) := by
  rw [backward, bind_ok (run_get _), h]
  exact bind_error (run_attempt _ _)

/-- With them it is handed to one end after the other. -/
theorem backward_sides (h : e.clampedDegrees graph = .ok (entering, leaving)) :
    backward graph g ⟨enabled, e⟩ = (onSide .target (Embedding.backward entering g) >>= fun _ =>
      onSide .source (Embedding.backward leaving g)) ⟨enabled, e⟩ := by
  rw [backward, bind_ok (run_get _), h, bind_ok (run_attempt _ _)]
  rfl

/-- Where every table takes a gradient, the encoder takes it. -/
theorem backward_run {f : EdgeEnd → Embedding → Embedding}
    (hdegrees : e.clampedDegrees graph = .ok (entering, leaving))
    (h : ∀ side t, e.tables.at? side = some t →
      Embedding.backward (side.pick leaving entering) g ⟨enabled, t⟩
        = (.ok (), ⟨enabled, f side t⟩)) :
    backward graph g ⟨enabled, e⟩
      = (.ok (), ⟨enabled, { e with tables := e.tables.mapSides f }⟩) := by
  have hside : ∀ side t (e' : DegreeEncoder), e.tables.at? side = some t →
      e'.tables.at? side = some t →
      onSide side (Embedding.backward (side.pick leaving entering) g) ⟨enabled, e'⟩
        = (.ok (), ⟨enabled, { e' with tables := e'.tables.withAt side (f side t) }⟩) := by
    intro side t e' ht ht'
    rw [onSide_some ht', h side t ht]
    rfl
  rw [backward_sides hdegrees]
  rcases e with ⟨m, n, t | t | ⟨t, u⟩⟩
  · exact (bind_ok (hside .target t _ rfl rfl)).trans (onSide_none rfl)
  · exact (bind_ok (onSide_none rfl)).trans (hside .source t _ rfl rfl)
  · exact (bind_ok (hside .target t _ rfl rfl)).trans (hside .source u _ rfl rfl)

/-- Where every table refuses a gradient for one reason, the encoder refuses it. -/
theorem backward_refused {x : TensorError}
    (hdegrees : e.clampedDegrees graph = .ok (entering, leaving))
    (h : ∀ side t, e.tables.at? side = some t →
      Embedding.backward (side.pick leaving entering) g ⟨enabled, t⟩
        = (.error x, ⟨enabled, t⟩)) :
    backward graph g ⟨enabled, e⟩ = (.error (.tensor x), ⟨enabled, e⟩) := by
  have hside : ∀ side t, e.tables.at? side = some t →
      onSide side (Embedding.backward (side.pick leaving entering) g) ⟨enabled, e⟩
        = (.error (.tensor x), ⟨enabled, e⟩) := by
    intro side t ht
    rw [onSide_some ht, h side t ht]
    dsimp only
    rw [DegreeTables.withAt_self ht]
    rfl
  rw [backward_sides hdegrees]
  -- The first table that there is comes before the other.
  cases ht : e.tables.at? .target with
  | some t => exact bind_error (hside .target t ht)
  | none =>
    rw [bind_ok (onSide_none ht)]
    rcases e with ⟨m, n, t | t | ⟨t, u⟩⟩
    · cases ht
    · exact hside .source t rfl
    · cases ht

/-! ### What is taken -/

theorem RowsOf.count {largest : Nat} (h : RowsOf side graph largest indices) :
    indices.count = graph.numNodes := by
  rw [Tensor.count, h.layout.shape]
  exact Nat.mul_one _

/-- Rows for the nodes are rows of the tables. -/
theorem Suits.names (ht : Suits c t) (hlargest : c.maxDegree < 2 ^ 63)
    (hrows : RowsOf side graph c.maxDegree indices) : indices.Names t.numRows := by
  rw [ht.numRows]
  exact hrows.names hlargest

/-- A table needs as many elements as the vectors have. -/
theorem Suits.needed (ht : Suits c t) (hrows : RowsOf side graph c.maxDegree indices) :
    indices.count * t.dim = graph.numNodes * c.embeddingDim := by
  rw [hrows.count, ht.dim]

/-- The rows of all nodes for either end, or why there are none. -/
theorem Follows.rows_outcome (h : Follows c e) (graph : TypedGraph) :
    (Countable .target graph ∧ Countable .source graph ∧ ∃ entering leaving,
      e.clampedDegrees graph = .ok (entering, leaving) ∧
        ∀ side : EdgeEnd, RowsOf side graph c.maxDegree (side.pick leaving entering)) ∨
    ∃ x, DegreeFault graph x ∧ e.clampedDegrees graph = .error (.graph (.tensor x)) := by
  have hlargest := h.maxDegree_lt
  rw [← h.maxDegree] at hlargest ⊢
  rcases clampedDegrees_outcome graph hlargest with
    ⟨hin, hout, entering, leaving, hdegrees, hrows, hrows'⟩ | hfail
  · refine .inl ⟨hin, hout, entering, leaving, hdegrees, fun side => ?_⟩
    cases side with
    | source => exact hrows'
    | target => exact hrows
  · exact .inr hfail

/-- A gradient with as many elements as the vectors is taken by every table. -/
theorem exists_taken (h : Follows c e) (hbuffers : Module.Each Parameter.BufferFits e)
    (hrows : ∀ side : EdgeEnd, RowsOf side graph c.maxDegree (side.pick leaving entering))
    (hg : g.dtype = c.dtype) (hcount : g.count = graph.numNodes * c.embeddingDim)
    (enabled : Bool) :
    ∃ f : EdgeEnd → Embedding → Embedding, ∀ side t, e.tables.at? side = some t →
      Embedding.backward (side.pick leaving entering) g ⟨enabled, t⟩
        = (.ok (), ⟨enabled, f side t⟩) := by
  refine DegreeTables.exists_each (R := fun side t t' =>
    Embedding.backward (side.pick leaving entering) g ⟨enabled, t⟩ = (.ok (), ⟨enabled, t'⟩))
    fun side t ht => ?_
  have hsuits := h.table side t ht
  rcases Embedding.backward_counted hsuits.wellFormed (each_iff.mp hbuffers side t ht)
    (hrows side).layout.dtype (hsuits.names h.maxDegree_lt (hrows side)) hg
    (hcount.trans (hsuits.needed (hrows side)).symm) enabled with ⟨p, hrun⟩
  exact ⟨_, hrun⟩

/-- Any other number of elements is refused by every table for the same reason. -/
theorem backward_miscounted (h : Follows c e) (hin : Countable .target graph)
    (hout : Countable .source graph) (hg : g.dtype = c.dtype)
    (hcount : g.count ≠ graph.numNodes * c.embeddingDim) (enabled : Bool) :
    backward graph g ⟨enabled, e⟩
      = (.error (.tensor (Embedding.miscount graph.numNodes c.embeddingDim g)),
        ⟨enabled, e⟩) := by
  rcases h.rows_outcome graph with ⟨-, -, entering, leaving, hdegrees, hrows⟩ | ⟨x, hx, -⟩
  · refine backward_refused hdegrees fun side t ht => Embedding.backward_error ?_
    have hsuits := h.table side t ht
    have hrefused := Embedding.tableGradient_miscounted hsuits.wellFormed
      (hrows side).layout.dtype (hsuits.names h.maxDegree_lt (hrows side)) hg
      (hsuits.needed (hrows side) ▸ hcount)
    rwa [(hrows side).count, hsuits.dim] at hrefused
  · exact absurd ⟨hin, hout⟩ hx.not_countable

/-- An encoder takes a gradient exactly when the degrees of the graph can be counted and the
    gradient is of the right kind and has as many elements as the vectors. -/
theorem backward_succeeds_iff (h : Follows c e) (hbuffers : Module.Each Parameter.BufferFits e) :
    SucceedsAt (backward graph g) ⟨enabled, e⟩ ↔
      Countable .target graph ∧ Countable .source graph ∧
        g.dtype = c.dtype ∧ g.count = graph.numNodes * c.embeddingDim := by
  have hrefused : ∀ x, backward graph g ⟨enabled, e⟩ = (.error x, ⟨enabled, e⟩) →
      ¬ SucceedsAt (backward graph g) ⟨enabled, e⟩ := by
    rintro x hx ⟨_, _, hrun⟩
    rw [hx] at hrun
    cases hrun
  rcases h.rows_outcome graph with ⟨hin, hout, entering, leaving, hdegrees, hrows⟩ | ⟨x, hx, hfail⟩
  · by_cases hg : g.dtype = c.dtype
    · by_cases hcount : g.count = graph.numNodes * c.embeddingDim
      · rcases exists_taken h hbuffers hrows hg hcount enabled with ⟨f, hf⟩
        exact iff_of_true ⟨(), _, backward_run hdegrees hf⟩ ⟨hin, hout, hg, hcount⟩
      · have hx := backward_miscounted h hin hout hg hcount enabled
        exact iff_of_false (hrefused _ hx) fun hall => hcount hall.2.2.2
    · have hx : backward graph g ⟨enabled, e⟩
          = (.error (.tensor (.typeMismatch c.dtype g.dtype)), ⟨enabled, e⟩) :=
        backward_refused hdegrees fun side t ht => Embedding.backward_error
          (Embedding.tableGradient_kind (h.table side t ht).wellFormed hg)
      exact iff_of_false (hrefused _ hx) fun hall => hg hall.2.2.1
  · refine iff_of_false (hrefused _ (backward_degrees hfail)) fun hall => ?_
    exact hx.not_countable ⟨hall.1, hall.2.1⟩

/-- Elements that are taken in one arrangement are taken in any other, to the same effect. -/
theorem backward_reshape (h : Follows c e) (hbuffers : Module.Each Parameter.BufferFits e)
    (hg : g.dtype = c.dtype) (hcount : g.count = graph.numNodes * c.embeddingDim)
    (hreshape : g.reshape s = .ok g') (enabled : Bool) :
    backward graph g' ⟨enabled, e⟩ = backward graph g ⟨enabled, e⟩ := by
  rcases h.rows_outcome graph with ⟨-, -, entering, leaving, hdegrees, hrows⟩ | ⟨x, -, hfail⟩
  · rcases exists_taken h hbuffers hrows hg hcount enabled with ⟨f, hf⟩
    refine (backward_run hdegrees fun side t ht => ?_).trans (backward_run hdegrees hf).symm
    have hsuits := h.table side t ht
    rw [← hf side t ht]
    exact Embedding.backward_reshape hsuits.wellFormed (hrows side).layout.dtype
      (hsuits.names h.maxDegree_lt (hrows side)) hg
      (hcount.trans (hsuits.needed (hrows side)).symm) hreshape enabled
  · rw [backward_degrees hfail, backward_degrees hfail]

/-- Buffers fit in an encoder in use. -/
theorem Reached.buffersFit {G : Type} [NormalSource G] (h : Reached G c e) :
    Module.Each Parameter.BufferFits e := by
  rcases h with ⟨_, _, new, steps, hbuild, he⟩
  exact ModuleKind.Reached.buffersFit (k := .degreeEncoder) ⟨new, steps, .degreeEncoder hbuild, he⟩

/-- What decides whether a gradient is taken is its kind and the number of its elements. A
    table takes it for row numbers that exist if it has a row of elements for each of them,
    and an encoder takes it for a graph whose degrees can be counted if it has one for each
    node, as long as a machine word can hold the number of nodes. Whatever is refused changes
    nothing, and a wrong number of elements is refused with the shape that was given and the
    one that was needed, unless more are needed than a word can hold. The shape of what is
    taken makes no difference: the same elements in another arrangement have the same
    effect. -/
theorem gradients_counted {G : Type} [NormalSource G] (ht : ModuleKind.Reached G .embedding t)
    (he : Reached G c e) (enabled : Bool) (g : Tensor) :
    (∀ indices : Tensor, indices.dtype = .int64 → indices.Names t.numRows →
      (SucceedsAt (Embedding.backward indices g) ⟨enabled, t⟩ ↔
        g.dtype = t.weight.data.dtype ∧ g.count = indices.count * t.dim) ∧
      AtomicAt (Embedding.backward indices g) ⟨enabled, t⟩ ∧
      (g.dtype = t.weight.data.dtype → indices.count * t.dim < wordCount →
        g.count ≠ indices.count * t.dim →
          (Embedding.backward indices g ⟨enabled, t⟩).1
            = .error (.shapeMismatch [indices.count, t.dim] g.shape)) ∧
      (g.dtype = t.weight.data.dtype → g.count = indices.count * t.dim →
        ∀ s g', g.reshape s = .ok g' → Embedding.backward indices g' ⟨enabled, t⟩
          = Embedding.backward indices g ⟨enabled, t⟩)) ∧
    (∀ graph : TypedGraph, AtomicAt (backward graph g) ⟨enabled, e⟩) ∧
    ∀ graph : TypedGraph, graph.total < wordCount →
      (SucceedsAt (backward graph g) ⟨enabled, e⟩ ↔
        Countable .target graph ∧ Countable .source graph ∧
          g.dtype = c.dtype ∧ g.count = graph.total * c.embeddingDim) ∧
      (Countable .target graph → Countable .source graph → g.dtype = c.dtype →
        graph.total * c.embeddingDim < wordCount → g.count ≠ graph.total * c.embeddingDim →
          (backward graph g ⟨enabled, e⟩).1
            = .error (.tensor (.shapeMismatch [graph.total, c.embeddingDim] g.shape))) ∧
      (g.dtype = c.dtype → g.count = graph.total * c.embeddingDim →
        ∀ s g', g.reshape s = .ok g' →
          backward graph g' ⟨enabled, e⟩ = backward graph g ⟨enabled, e⟩) := by
  have hwell := Embedding.wellFormed_of_reached ht
  have hbuffer : t.weight.BufferFits := ht.buffersFit t.weight List.mem_cons_self
  rcases he.follows with ⟨-, hfollows⟩
  have hbuffers := he.buffersFit
  refine ⟨fun indices hi hnames => ⟨?_, ?_, ?_, ?_⟩, fun graph => ?_, fun graph htotal => ?_⟩
  · exact Embedding.backward_succeeds_iff hwell hbuffer hi hnames
  · exact Embedding.backward_atomicAt (s := ⟨enabled, t⟩) hwell hbuffer indices g
  · intro hg hword hcount
    rw [Embedding.backward_error (Embedding.tableGradient_miscounted hwell hi hnames hg hcount),
      Embedding.miscount_eq hword hcount]
  · exact fun hg hcount s g' h => Embedding.backward_reshape hwell hi hnames hg hcount h enabled
  · exact backward_atomicAt (s := ⟨enabled, e⟩) hfollows hbuffers graph g
  · rw [← TypedGraph.numNodes_of_total htotal]
    refine ⟨backward_succeeds_iff hfollows hbuffers, fun hin hout hg hword hcount => ?_,
      fun hg hcount s g' h => backward_reshape hfollows hbuffers hg hcount h enabled⟩
    rw [backward_miscounted hfollows hin hout hg hcount, Embedding.miscount_eq hword hcount]

/-- The numbers of three rows. -/
def threeNumbers : Tensor := ⟨.int64, ⟨[3], #[0, 1, 2], rfl⟩, by decide⟩

/-- Six elements for three rows of two, with the axes exchanged. -/
def exchanged : Tensor where
  dtype := .float64
  array := ⟨[2, 3], #[1, 2, 3, 4, 5, 6].map Binary64.ofInt, by simp⟩
  room := (by decide : Shape.Allocatable 8 [2, 3])

theorem threeNumbers_names : threeNumbers.Names 3 := by
  unfold Tensor.Names
  decide +kernel

/-- A table of three rows of two numbers. -/
theorem exists_threeRows : ∃ t : Embedding, ModuleKind.Reached SplitMix .embedding t ∧
    t.numRows = 3 ∧ t.dim = 2 ∧ t.weight.data.dtype = .float64 := by
  have hnone : ∀ row, (none : Option Nat) = some row → row < 3 := nofun
  have hbuilt : ∃ t g', Embedding.build 3 2 none .float64 (SplitMix.mk 1) = (.ok t, g') :=
    Embedding.build_ok rfl hnone (by decide) (by decide) (by decide) _
  rcases hbuilt with ⟨t, g', hbuild⟩
  rcases Embedding.build_yields _ _ _ _ _ _ _ hbuild with ⟨weight, rfl, hwell⟩
  exact ⟨_, ⟨_, [], .embedding hbuild, rfl⟩, rfl, rfl, hwell.weight.dtype⟩

/-- A gradient with its axes exchanged is taken by a table and by an encoder, and one with
    five elements is refused by both. -/
theorem gradients_counted_exchanged :
    ∃ (t : Embedding) (e : DegreeEncoder), ModuleKind.Reached SplitMix .embedding t ∧
      Reached SplitMix ⟨1, 2, .both, .float64⟩ e ∧
      SucceedsAt (Embedding.backward threeNumbers exchanged) ⟨true, t⟩ ∧
      SucceedsAt (backward ⟨[("a", 3)], []⟩ exchanged) ⟨true, e⟩ ∧
      (Embedding.backward threeNumbers ⟨.float64, .fill [5] 1, by decide⟩ ⟨true, t⟩).1
        = .error (.shapeMismatch [3, 2] [5]) ∧
      (backward ⟨[("a", 3)], []⟩ ⟨.float64, .fill [5] 1, by decide⟩ ⟨true, e⟩).1
        = .error (.tensor (.shapeMismatch [3, 2] [5])) := by
  let graph : TypedGraph := ⟨[("a", 3)], []⟩
  let five : Tensor := ⟨.float64, .fill [5] 1, by decide⟩
  rcases exists_threeRows with ⟨t, ht, hrows, hdim, hkind⟩
  rcases build_ok (c := ⟨1, 2, .both, .float64⟩) rfl (by decide) (by decide) (by decide)
    (SplitMix.mk 1) with ⟨e, g', hbuild⟩
  have he : Reached SplitMix ⟨1, 2, .both, .float64⟩ e := .of_build hbuild
  have hnames : threeNumbers.Names t.numRows := hrows ▸ threeNumbers_names
  have hmade : TypedGraph.ofTypes [("a", 3)] = .ok graph := rfl
  have hcountable : ∀ side, Countable side graph := fun side =>
    (TypedGraph.countsFit_iff (TypedGraph.Reachable.ofTypes (by decide) hmade).sound side).mpr
      ⟨by decide, by decide⟩
  rcases gradients_counted ht he true exchanged with ⟨htable, -, hencoder⟩
  rcases gradients_counted ht he true five with ⟨htable', -, hencoder'⟩
  rcases htable' threeNumbers rfl hnames with ⟨-, -, hrefused, -⟩
  rcases hencoder' graph (by decide) with ⟨-, hrefused', -⟩
  rw [hdim] at hrefused
  refine ⟨t, e, ht, he, ?_, ?_, ?_, ?_⟩
  · exact (htable threeNumbers rfl hnames).1.mpr ⟨hkind.symm, by rw [hdim]; rfl⟩
  · exact (hencoder graph (by decide)).1.mpr ⟨hcountable .target, hcountable .source, rfl, rfl⟩
  · exact hrefused hkind.symm (by decide) (by decide)
  · exact hrefused' (hcountable .target) (hcountable .source) rfl (by decide) (by decide)

/-- A table takes a gradient whose shape is not that of what was looked up. -/
theorem not_forall_shape_checked :
    ¬ ∀ (t : Embedding) (indices g : Tensor), ModuleKind.Reached SplitMix .embedding t →
      indices.dtype = .int64 → indices.Names t.numRows → g.dtype = t.weight.data.dtype →
      g.shape ≠ indices.shape ++ [t.dim] →
      ∃ x, Embedding.backward indices g ⟨true, t⟩ = (.error x, ⟨true, t⟩) := by
  intro hall
  rcases exists_threeRows with ⟨t, ht, hrows, hdim, hkind⟩
  have hnames : threeNumbers.Names t.numRows := hrows ▸ threeNumbers_names
  have hshape : exchanged.shape ≠ threeNumbers.shape ++ [t.dim] := by
    rw [hdim]
    decide
  have hcount : exchanged.count = threeNumbers.count * t.dim := by
    rw [hdim]
    rfl
  rcases hall t threeNumbers exchanged ht rfl hnames hkind.symm hshape with ⟨x, hfail⟩
  rcases Embedding.backward_counted (Embedding.wellFormed_of_reached ht)
    (ht.buffersFit t.weight List.mem_cons_self) rfl hnames hkind.symm hcount true with ⟨p, hrun⟩
  rw [hrun] at hfail
  cases hfail

end DegreeEncoder

end GraphAttention
