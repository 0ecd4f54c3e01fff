import GraphAttention.Proofs.DegreeEncoder.GradientShape
import GraphAttention.Proofs.DegreeEncoder.PaddingGradient
import GraphAttention.Proofs.Graph.Merging
import GraphAttention.Proofs.Number.Unit

/-!
# Gradients by Degree

The vector of a node is looked up by its degrees, so its gradient goes to the row of its
degree, and what a row receives is a sum over the nodes of that degree. Floating sums have
an order, and here it is the order of the nodes, type by type, which is the order of their
rows in the gradient. Nodes whose degrees are too large are looked up alike and count as
nodes of the largest degree.

The sum is multiplied by one before it is gathered, because the padding row is masked in the
same step, and this changes nothing of it. It is then added to the buffer of the table, or
becomes the buffer. Nothing else about the table changes.

What can stand against any of this is room to count the degrees, for as many numbers as the
graph has edges and as many as it has nodes.

## Main definitions

* `Parameter.Gains`: A gradient was added to a buffer, or became the buffer.
* `DegreeEncoder.degreeSum`: What the nodes of a degree hand back in a column.
* `DegreeEncoder.GainsByDegree`: A table gathered these sums.

## Theorems

* `Parameter.accumulate_gains`: A gradient that is gathered.
* `maskedEntry_received`: The mask changes nothing outside the padding row.
* `nodeRows_eq`, `received_nodeRows`: What a row receives from the nodes of a graph.
* `backward_gains`: A gradient for one table.
* `backward_scatters`: A gradient for an encoder in use.
-/

namespace GraphAttention

open GraphAttention.Action

namespace Parameter

variable {p q : Parameter} {g : Tensor}

/-- A gradient was added to the buffer, or became the buffer if there was none. Data and
    whether it is learned are what they were. -/
inductive Gains (g : Tensor) (p : Parameter) : Parameter → Prop
  | first (h : p.grad = none) : Gains g p { p with grad := some g }
  | again {buffer sum : Tensor} (h : p.grad = some buffer) (hsum : buffer.add g = .ok sum) :
    Gains g p { p with grad := some sum }

/-- A gradient that fits is gathered by a parameter that is learned. -/
theorem accumulate_gains (hp : p.BufferFits) (hfits : p.Fits g) (hlearned : p.requiresGrad = true) :
    ∃ q, Gains g p q ∧ accumulate g ⟨true, p⟩ = (.ok (), ⟨true, q⟩) := by
  have hmode : (p.requiresGrad && true) = true := by rw [hlearned]; rfl
  cases hgrad : p.grad with
  | none => exact ⟨_, .first hgrad, accumulate_first hfits hmode hgrad⟩
  | some buffer =>
    rcases accumulate_again hfits hmode hgrad (hp buffer hgrad) with ⟨sum, hsum, hrun⟩
    exact ⟨_, .again hgrad hsum, hrun⟩

/-- What a parameter without a buffer gains is the buffer. -/
theorem Gains.grad_eq (h : Gains g p q) (hgrad : p.grad = none) : q.grad = some g := by
  cases h with
  | first _ => rfl
  | again hbuffer _ =>
    rw [hgrad] at hbuffer
    cases hbuffer

end Parameter

/-- The mask changes nothing of what a row other than the padding row receives. -/
theorem Embedding.maskedEntry_received {d : DType} (hd : d.isFloat = true) {p row : Nat}
    (hrow : row ≠ p) (dim : Nat) (rows : List Nat) (g : Tensor) (j : Nat) :
    maskedEntry d (some p) row (received d dim rows g row j) = received d dim rows g row j := by
  rw [maskedEntry, if_neg hrow]
  exact scatterSum_of_add (P := fun x : d.Elem => x * Scalar.ofFloat 1 = x)
    (DType.sum_mul_one hd) rows 0 (DType.zero_mul_one hd)

namespace DegreeEncoder

open GraphAttention.Embedding (maskedEntry received)

variable {c : DegreeConfig} {e : DegreeEncoder} {graph : TypedGraph} {side : EdgeEnd}
  {indices g : Tensor} {t t' : Embedding}

/-- The rows of the nodes are their degrees, held below the largest one. -/
theorem nodeRows_eq (hgraph : graph.Numbered) (side : EdgeEnd) (largest : Nat) :
    nodeRows side graph largest
      = graph.nodes.map fun node => min (graph.degree side node) largest := by
  rw [nodeRows, ← TypedGraph.map_position_nodes hgraph.toSound hgraph.counted, List.map_map]
  exact List.map_congr_left fun node hnode =>
    rowOf_position hgraph side largest (TypedGraph.hasNode_of_mem_nodes hgraph.toSound hnode)

/-- The sum of what is handed back in a column for the nodes of a degree, held below the
    largest one, in the order of the nodes. -/
def degreeSum (c : DegreeConfig) (side : EdgeEnd) (graph : TypedGraph) (g : Tensor)
    (degree j : Nat) : c.dtype.Elem :=
  (graph.nodes.filter fun node => min (graph.degree side node) c.maxDegree = degree).foldl
    (fun sum node => sum + g.entry c.dtype [graph.position node, j]) 0

/-- Without a node of the degree there is nothing to add. -/
theorem degreeSum_of_none {degree : Nat} (j : Nat)
    (h : ∀ node ∈ graph.nodes, min (graph.degree side node) c.maxDegree ≠ degree) :
    degreeSum c side graph g degree j = 0 := by
  have hnone : (graph.nodes.filter fun node =>
      min (graph.degree side node) c.maxDegree = degree) = [] :=
    List.filter_eq_nil_iff.mpr fun node hnode => by simpa using h node hnode
  rw [degreeSum, hnone]
  rfl

/-- A row receives what the nodes of its degree hand back. -/
theorem received_nodeRows (hgraph : graph.Numbered)
    (hg : g.Matches c.dtype [graph.numNodes, c.embeddingDim]) (row j : Nat) :
    received c.dtype c.embeddingDim (nodeRows side graph c.maxDegree) g row j
      = degreeSum c side graph g row j := by
  have hnumbers := TypedGraph.map_position_nodes hgraph.toSound hgraph.counted
  have hlength : graph.nodes.length = graph.numNodes := by
    rw [← List.length_map graph.position, hnumbers, List.length_range]
  rw [List.range_eq_range', ← hlength] at hnumbers
  rw [received, nodeRows_eq hgraph, scatterSum_map _ graph.position _ _ _ hnumbers, degreeSum]
  have hplace : ∀ v, g.itemAt c.dtype (v * c.embeddingDim + j) = g.entry c.dtype [v, j] := by
    intro v
    rw [Tensor.entry_eq_itemAt hg]
    simp [Shape.ravel]
  simp only [hplace]

/-- A table gathered a gradient and is otherwise as it was. The gradient is zero or the sum of
    what is handed back for the nodes of a degree, in the row of that degree, except that
    nothing is said of the padding row. -/
def GainsByDegree (c : DegreeConfig) (graph : TypedGraph) (g : Tensor) (side : EdgeEnd)
    (t t' : Embedding) : Prop :=
  ∃ (gradient : Tensor) (p : Parameter),
    gradient.Matches c.dtype [c.maxDegree + 1, c.embeddingDim] ∧
    (∀ row j, row ≠ 0 → row ≤ c.maxDegree → j < c.embeddingDim →
      gradient.entry c.dtype [row, j] = degreeSum c side graph g row j) ∧
    Parameter.Gains gradient t.weight p ∧ t' = { t with weight := p }

/-- A table that is learned gathers what its rows receive. -/
theorem backward_gains (ht : Suits c t) (hlargest : c.maxDegree < 2 ^ 63)
    (hbuffer : t.weight.BufferFits) (hlearned : t.weight.requiresGrad = true)
    (hgraph : graph.Numbered) (hrows : RowsOf side graph c.maxDegree indices)
    (hg : g.Matches c.dtype [graph.numNodes, c.embeddingDim]) :
    ∃ t', Embedding.backward indices g ⟨true, t⟩ = (.ok (), ⟨true, t'⟩) ∧
      GainsByDegree c graph g side t t' := by
  rcases Embedding.tableGradient_counted ht.wellFormed hrows.layout.dtype
    (ht.names hlargest hrows) hg.dtype (hg.count_matrix.trans (ht.needed hrows).symm) with
    ⟨r, hr, hmatch, hentry⟩
  have hfits := ht.wellFormed.fits_of_matches hmatch
  rcases Parameter.accumulate_gains hbuffer hfits hlearned with ⟨p, hgains, hrun⟩
  rw [ht.numRows, ht.dim] at hmatch hentry
  refine ⟨{ t with weight := p }, ?_, r, p, hmatch, fun row j hrow hle hj => ?_, hgains, rfl⟩
  · rw [Embedding.backward_of_gradient hr, hrun]
  · rw [hentry row j (Nat.lt_succ_of_le hle) hj, ht.paddingRow,
      Embedding.maskedEntry_received ht.wellFormed.isFloat hrow, hrows.rowList_eq hlargest,
      received_nodeRows hgraph hg]

/-- What an encoder in use, with all its tables learned and gradients on, does with a
    gradient of the vectors of a graph that was built. It takes it exactly when there is room
    to count the degrees. Each table then gains a gradient and is otherwise as it was. In
    this gradient the row of a degree is the sum, in the order of the nodes, of what was
    handed back for the nodes whose degree, at the end of the edges that the table is for and
    held below the largest degree, is that degree; it is zero where there is no such node.
    The order of the nodes is that of their rows in what was handed back. -/
theorem backward_scatters {G : Type} [NormalSource G] (he : Reached G c e)
    (hlearned : e.tables.All fun t => t.weight.requiresGrad = true) (hgraph : graph.Reachable)
    (hg : g.Matches c.dtype [graph.total, c.embeddingDim]) :
    graph.nodes.map graph.position = List.range graph.total ∧
    (SucceedsAt (backward graph g) ⟨true, e⟩ ↔
      Shape.Fits 8 [graph.numEdges] ∧ Shape.Fits 8 [graph.total]) ∧
    (∀ s, backward graph g ⟨true, e⟩ = (.ok (), s) → ∃ tables,
      s = ⟨true, { e with tables := tables }⟩ ∧
      ∀ side, Option.Rel (GainsByDegree c graph g side) (e.tables.at? side) (tables.at? side)) ∧
    ∀ side degree j, (∀ node ∈ graph.nodes, min (graph.degree side node) c.maxDegree ≠ degree) →
      degreeSum c side graph g degree j = 0 := by
  rcases he.follows with ⟨-, h⟩
  have hbuffers := he.buffersFit
  -- A gradient with a row for every node shows that a machine word can hold their number.
  have htotal : graph.total < wordCount :=
    Nat.lt_of_le_of_lt (Nat.le_trans (Shape.le_span (by simp)) hg.room.1.1) (by decide)
  have hnumbered := hgraph.numbered htotal
  rw [← TypedGraph.numNodes_of_total htotal] at hg ⊢
  refine ⟨TypedGraph.map_position_nodes hgraph.sound htotal, ?_, fun s hrun => ?_,
    fun side degree j hnone => degreeSum_of_none j hnone⟩
  · have hcountable : ∀ side, Countable side graph ↔
        Shape.Fits 8 [graph.numEdges] ∧ Shape.Fits 8 [graph.numNodes] :=
      TypedGraph.countsFit_iff hgraph.sound
    rw [backward_succeeds_iff h hbuffers, hcountable, hcountable]
    exact ⟨fun hall => hall.1, fun hfits => ⟨hfits, hfits, hg.dtype, hg.count_matrix⟩⟩
  · rcases h.rows_outcome graph with ⟨-, -, entering, leaving, hdegrees, hrows⟩ | ⟨x, -, hfail⟩
    · -- Each table gains what its own rows receive, and the encoder is made of the tables.
      have heach : ∀ side t, e.tables.at? side = some t → ∃ t',
          Embedding.backward (side.pick leaving entering) g ⟨true, t⟩ = (.ok (), ⟨true, t'⟩) ∧
            GainsByDegree c graph g side t t' := fun side t ht =>
        backward_gains (h.table side t ht) h.maxDegree_lt (each_iff.mp hbuffers side t ht)
          (hlearned side t ht) hnumbered (hrows side) hg
      rcases DegreeTables.exists_each heach with ⟨f, hf⟩
      rw [backward_run hdegrees fun side t ht => (hf side t ht).1] at hrun
      refine ⟨e.tables.mapSides f, (Prod.mk.inj hrun).2.symm, fun side => ?_⟩
      rw [DegreeTables.at?_mapSides]
      cases ht : e.tables.at? side with
      | none => exact .none
      | some t => exact .some (hf side t ht).2
    · rw [backward_degrees hfail] at hrun
      cases hrun

/-- Four nodes and five edges. Two edges enter the second node and three the third, two leave
    the first and two the last. -/
def fiveEdges : TypedGraph :=
  ⟨[("a", 4)], [(⟨"a", "to", "a"⟩, ⟨4, 4, [0, 3, 0, 1, 3], [1, 1, 2, 2, 2]⟩)]⟩

/-- One number for each of four nodes. -/
def fourNumbers : Tensor where
  dtype := .float64
  array := ⟨[4, 1], #[1, 10, 100, 1000].map Binary64.ofInt, by simp⟩
  room := (by decide : Shape.Allocatable 8 [4, 1])

/-- With two as the largest degree, the second and the third node share a row in the table
    for incoming edges, and the first and the last in the table for outgoing edges. -/
theorem backward_scatters_fiveEdges :
    ∃ (e : DegreeEncoder) (s : Tracked DegreeEncoder) (t u : Embedding) (b b' : Tensor),
      Reached SplitMix ⟨2, 1, .both, .float64⟩ e ∧
      backward fiveEdges fourNumbers ⟨true, e⟩ = (.ok (), s) ∧
      s.value.tables.at? .target = some t ∧ s.value.tables.at? .source = some u ∧
      t.weight.grad = some b ∧ b.entry .float64 [2, 0] = Binary64.ofInt 110 ∧
      u.weight.grad = some b' ∧ b'.entry .float64 [2, 0] = Binary64.ofInt 1001 := by
  let c : DegreeConfig := ⟨2, 1, .both, .float64⟩
  let types : TypedGraph := ⟨[("a", 4)], []⟩
  have hmade : TypedGraph.ofTypes [("a", 4)] = .ok types := rfl
  have hgraph : fiveEdges.Reachable :=
    .addEdges ⟨"a", "to", "a"⟩ [0, 3, 0, 1, 3] [1, 1, 2, 2, 2] (.ofTypes (by decide) hmade)
  have htable : Yields (Embedding.build 3 1 (some 0) .float64 :
      Action SplitMix ModuleError Embedding)
      fun t => t.weight.requiresGrad = true ∧ t.weight.grad = none := by
    intro g t g' hrun
    rcases Embedding.build_yields _ _ _ _ g t g' hrun with ⟨weight, rfl, -⟩
    exact ⟨rfl, rfl⟩
  rcases build_ok (c := c) rfl (by decide) (by decide) (by decide) (SplitMix.mk 0) with
    ⟨e, g', hbuild⟩
  rcases build_tables c htable _ _ _ hbuild with ⟨-, -, -, hdirection, hall⟩
  have hscatter := backward_scatters (Reached.of_build hbuild) (fun side t ht => (hall side t ht).1)
    hgraph (g := fourNumbers) ⟨rfl, rfl⟩
  rcases hscatter.2.1.mpr ⟨by decide, by decide⟩ with ⟨_, s, hrun⟩
  rcases hscatter.2.2.1 s hrun with ⟨tables, rfl, hgains⟩
  have hread : ∀ side, ∃ t' b, tables.at? side = some t' ∧ t'.weight.grad = some b ∧
      b.entry .float64 [2, 0] = degreeSum c side fiveEdges fourNumbers 2 0 := by
    intro side
    have hsome : (e.tables.at? side).isSome = true := by
      rcases e with ⟨m, n, t | t | ⟨t, u⟩⟩
      · cases hdirection
      · cases hdirection
      · cases side <;> rfl
    rcases exists_of_rel (hgains side) hsome with ⟨t, t', ht, ht', b, p, -, hentry, hp, rfl⟩
    exact ⟨_, b, ht', hp.grad_eq (hall side t ht).2,
      hentry 2 0 (by decide) (by decide) (by decide)⟩
  rcases hread .target with ⟨t, b, ht, hb, hin⟩
  rcases hread .source with ⟨u, b', hu, hb', hout⟩
  refine ⟨e, _, t, u, b, b', .of_build hbuild, hrun, ht, hu, hb, hin.trans ?_, hb', hout.trans ?_⟩
  · decide +kernel
  · decide +kernel

end DegreeEncoder

end GraphAttention
