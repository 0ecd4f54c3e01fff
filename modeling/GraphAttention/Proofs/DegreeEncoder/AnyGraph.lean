import GraphAttention.Proofs.DegreeEncoder.Lookup
import GraphAttention.Proofs.Embedding.Gradient
import GraphAttention.Random.Source

/-!
# Encoders on Any Graph

A graph that was read from a file was not checked. Its relations may name types that
do not exist, its edges may run between nodes that do not exist, its two lists may
differ in length, and it may say anything about how many nodes there are. An encoder
takes such a graph all the same.

Numbers that are too large are passed over when degrees are counted, and degrees are
held below the largest one, so the rows that are looked up exist. The one thing
that is noticed is a wrong number of nodes, and only where a graph is counted as it
stands, that is, where there is one relation and at most one type. Merging replaces
the number by the right one.

## Main definitions

* `TypedGraph.CountingRoom`: There is room for everything that is counted.
* `TypedGraph.AsItStands`: A graph with a relation is counted without being merged.
* `ModuleError.isRowFault`: Whether a refusal is of a number that names no row.

## Theorems

* `AsItStands.counters`, `counters_of_not_asItStands`: How many counters there are.
* `uncountable_iff`, `degreeFault_iff`: The one way in which nodes cannot be counted, given
  room.
* `clampedDegrees_error_iff`: Why degrees are refused, given room.
* `forward_isRowFault`, `backward_isRowFault`: What vectors and gradients are not refused
  for.
* `degrees_of_any_graph`: Degrees, vectors and gradients for any graph.
-/

namespace GraphAttention

open GraphAttention.Action

/-- Whether a refusal is of a number that names no row. -/
def ModuleError.isRowFault : ModuleError → Bool
  | tensor x => x.isRowFault
  | graph (.tensor x) => x.isRowFault
  | _ => false

/-- What nodes cannot be counted for is not a row. -/
theorem CountFault.isRowFault {ids : List Nat} {m n : Nat} {x : TensorError}
    (h : CountFault ids m n x) : x.isRowFault = false := by
  cases h <;> rfl

namespace TypedGraph

variable {g : TypedGraph}

/-- There is room for as many numbers as there are nodes, ends of edges, and nodes that
    a relation says there are. -/
structure CountingRoom (g : TypedGraph) : Prop where
  nodes : Shape.Fits 8 [g.numNodes]
  ends : ∀ side : EdgeEnd, Shape.Fits 8 [(side.ids g.mergedEdges).length]
  bounds : ∀ side : EdgeEnd, ∀ r ∈ g.relations, Shape.Fits 8 [side.bound r.2]

/-- A graph has at most one type and its only relation has the given edges, so that it is
    counted as it stands. -/
def AsItStands (g : TypedGraph) (edges : EdgeList) : Prop :=
  g.nodeTypes.length ≤ 1 ∧ ∃ r, g.relations = [(r, edges)]

/-- What is counted as it stands has as many counters as its relation says there are
    nodes. -/
theorem AsItStands.counters {edges : EdgeList} (h : g.AsItStands edges) (side : EdgeEnd) :
    g.collapsed.counters side = side.bound edges := by
  rcases g with ⟨types, relations⟩
  rcases h with ⟨htypes, r, hr⟩
  dsimp only at htypes hr
  subst hr
  have hhomogeneous : isHomogeneous ⟨types, [(r, edges)]⟩ = true := by
    simp [isHomogeneous, htypes]
  rw [collapsed, if_pos hhomogeneous]
  rfl

/-- Any other graph has as many counters as nodes. -/
theorem counters_of_not_asItStands (h : ∀ edges, ¬ g.AsItStands edges) (side : EdgeEnd) :
    g.collapsed.counters side = g.numNodes := by
  by_cases hhomogeneous : g.isHomogeneous = true
  · rw [collapsed, if_pos hhomogeneous]
    rcases g with ⟨types, _ | ⟨⟨r, edges⟩, _ | _⟩⟩
    · rfl
    · simp only [isHomogeneous, Bool.and_eq_true, decide_eq_true_eq] at hhomogeneous
      exact absurd ⟨hhomogeneous.1, r, rfl⟩ (h edges)
    · simp [isHomogeneous] at hhomogeneous
  · rw [collapsed, if_neg hhomogeneous]
    exact bound_mergedEdges side g

theorem fits_counted (hroom : g.CountingRoom) (side : EdgeEnd) :
    Shape.Fits 8 [(g.counted side).length] := by
  rw [length_counted]
  exact hroom.ends side

theorem fits_counters (hroom : g.CountingRoom) (side : EdgeEnd) :
    Shape.Fits 8 [g.collapsed.counters side] := by
  by_cases h : ∃ edges, g.AsItStands edges
  · rcases h with ⟨edges, hstands⟩
    rw [hstands.counters]
    rcases hstands with ⟨-, r, hr⟩
    exact hroom.bounds side (r, edges) (by simp [hr])
  · rw [counters_of_not_asItStands fun edges hstands => h ⟨edges, hstands⟩]
    exact hroom.nodes

end TypedGraph

namespace DegreeEncoder

variable {c : DegreeConfig} {e : DegreeEncoder} {g : TypedGraph} {side : EdgeEnd}

theorem countable_iff (hroom : g.CountingRoom) :
    Countable side g ↔ g.collapsed.counters side = g.numNodes :=
  ⟨fun h => h.nodes, fun h => ⟨TypedGraph.fits_counted hroom side,
    TypedGraph.fits_counters hroom side, h⟩⟩

/-- With room there is one way in which nodes cannot be counted. -/
theorem uncountable_iff (hroom : g.CountingRoom) (x : TensorError) :
    Uncountable side g x ↔ g.collapsed.counters side ≠ g.numNodes ∧
      x = .shapeMismatch [g.numNodes] [g.collapsed.counters side] := by
  constructor
  · intro h
    cases h with
    | longList h => exact absurd (TypedGraph.fits_counted hroom side) h
    | manyCounters h => exact absurd (TypedGraph.fits_counters hroom side) h
    | otherCount h => exact ⟨h, rfl⟩
  · rintro ⟨h, rfl⟩
    exact .otherCount h

/-- With room degrees are refused for a wrong number of nodes, first where edges enter. -/
theorem degreeFault_iff (hroom : g.CountingRoom) (x : TensorError) :
    DegreeFault g x ↔
      (g.collapsed.counters .target ≠ g.numNodes ∧
        x = .shapeMismatch [g.numNodes] [g.collapsed.counters .target]) ∨
      (g.collapsed.counters .target = g.numNodes ∧ g.collapsed.counters .source ≠ g.numNodes ∧
        x = .shapeMismatch [g.numNodes] [g.collapsed.counters .source]) := by
  constructor
  · intro h
    cases h with
    | entering h => exact .inl ((uncountable_iff hroom x).mp h)
    | leaving hentering h =>
      exact .inr ⟨(countable_iff hroom).mp hentering, (uncountable_iff hroom x).mp h⟩
  · rintro (h | ⟨hentering, h⟩)
    · exact .entering ((uncountable_iff hroom x).mpr h)
    · exact .leaving ((countable_iff hroom).mpr hentering) ((uncountable_iff hroom x).mpr h)

/-- With room there is one reason at most for which degrees are refused. -/
theorem DegreeFault.unique (hroom : g.CountingRoom) {x y : TensorError} (hx : DegreeFault g x)
    (hy : DegreeFault g y) : x = y := by
  rcases (degreeFault_iff hroom x).mp hx with ⟨hne, rfl⟩ | ⟨heq, -, rfl⟩
  · rcases (degreeFault_iff hroom y).mp hy with ⟨-, rfl⟩ | ⟨heq, -⟩
    · rfl
    · exact absurd heq hne
  · rcases (degreeFault_iff hroom y).mp hy with ⟨hne, -⟩ | ⟨-, -, rfl⟩
    · exact absurd heq hne
    · rfl

/-- With room, degrees are refused for the reason that there is, if there is one. -/
theorem clampedDegrees_error_iff_fault (h : Follows c e) (hroom : g.CountingRoom)
    (x : ModuleError) :
    e.clampedDegrees g = .error x ↔ ∃ y, DegreeFault g y ∧ x = .graph (.tensor y) := by
  have hlargest : e.maxDegree < 2 ^ 63 := by
    rw [h.maxDegree]
    exact h.maxDegree_lt
  rcases clampedDegrees_outcome g hlargest with ⟨hin, hout, _, _, hok, -⟩ | ⟨y, hy, hfail⟩
  · rw [hok]
    refine iff_of_false nofun ?_
    rintro ⟨y, hy, -⟩
    exact hy.not_countable ⟨hin, hout⟩
  · rw [hfail]
    constructor
    · intro hx
      cases hx
      exact ⟨y, hy, rfl⟩
    · rintro ⟨y', hy', rfl⟩
      rw [hy.unique hroom hy']

/-- A graph that is not counted as it stands has no reason to be refused. -/
theorem DegreeFault.exists_asItStands (hroom : g.CountingRoom) {x : TensorError}
    (h : DegreeFault g x) : ∃ edges, g.AsItStands edges := by
  by_contra hnone
  have hnodes := TypedGraph.counters_of_not_asItStands fun edges hstands =>
    hnone ⟨edges, hstands⟩
  rcases (degreeFault_iff hroom x).mp h with ⟨hne, -⟩ | ⟨-, hne, -⟩
  · exact hne (hnodes .target)
  · exact hne (hnodes .source)

/-- With room, degrees are refused exactly where a graph is counted as it stands and its
    relation is wrong about the number of nodes, first about the targets. -/
theorem clampedDegrees_error_iff (h : Follows c e) (hroom : g.CountingRoom) (x : ModuleError) :
    e.clampedDegrees g = .error x ↔ ∃ edges, g.AsItStands edges ∧
      ((edges.numTargets ≠ g.numNodes ∧
        x = .graph (.tensor (.shapeMismatch [g.numNodes] [edges.numTargets]))) ∨
      (edges.numTargets = g.numNodes ∧ edges.numSources ≠ g.numNodes ∧
        x = .graph (.tensor (.shapeMismatch [g.numNodes] [edges.numSources])))) := by
  -- A graph that is counted as it stands has the counters of its relation.
  have hbounds : ∀ edges, g.AsItStands edges →
      edges.numTargets = g.collapsed.counters .target ∧
        edges.numSources = g.collapsed.counters .source :=
    fun edges hstands => ⟨(hstands.counters .target).symm, (hstands.counters .source).symm⟩
  rw [clampedDegrees_error_iff_fault h hroom]
  constructor
  · rintro ⟨y, hy, rfl⟩
    rcases hy.exists_asItStands hroom with ⟨edges, hstands⟩
    refine ⟨edges, hstands, ?_⟩
    rw [(hbounds edges hstands).1, (hbounds edges hstands).2]
    rcases (degreeFault_iff hroom y).mp hy with ⟨hne, rfl⟩ | ⟨heq, hne, rfl⟩
    · exact .inl ⟨hne, rfl⟩
    · exact .inr ⟨heq, hne, rfl⟩
  · rintro ⟨edges, hstands, hwrong⟩
    rw [(hbounds edges hstands).1, (hbounds edges hstands).2] at hwrong
    rcases hwrong with ⟨hne, rfl⟩ | ⟨heq, hne, rfl⟩
    · exact ⟨_, (degreeFault_iff hroom _).mpr (.inl ⟨hne, rfl⟩), rfl⟩
    · exact ⟨_, (degreeFault_iff hroom _).mpr (.inr ⟨heq, hne, rfl⟩), rfl⟩

/-! ### No row is out of bounds -/

theorem DegreeFault.isRowFault {x : TensorError} (h : DegreeFault g x) : x.isRowFault = false := by
  cases h with
  | entering h => exact CountFault.isRowFault h
  | leaving _ h => exact CountFault.isRowFault h

/-- Vectors are not refused for a row. -/
theorem forward_isRowFault (h : Follows c e) {x : ModuleError} (hfail : e.forward g = .error x) :
    x.isRowFault = false := by
  rcases forward_cases h g with ⟨y, hy, hrun⟩ | ⟨-, -, ⟨-, hrun⟩ | ⟨-, out, hrun, -⟩⟩
  · rw [hrun] at hfail
    cases hfail
    exact hy.isRowFault
  · rw [hrun] at hfail
    cases hfail
    rfl
  · rw [hrun] at hfail
    cases hfail

theorem onSide_isRowFault {s : Tracked DegreeEncoder} {indices gradient : Tensor} {x : ModuleError}
    (h : Follows c s.value) (hnames : indices.Names (c.maxDegree + 1))
    (hfail : (onSide side (Embedding.backward indices gradient) s).1 = .error x) :
    x.isRowFault = false := by
  cases ht : s.value.tables.at? side with
  | none =>
    rw [onSide_none ht] at hfail
    cases hfail
  | some t =>
    have hsuits := h.table side t ht
    rw [onSide_some ht] at hfail
    rcases hrun : Embedding.backward indices gradient ⟨s.gradEnabled, t⟩ with ⟨y | _, s'⟩
    · simp only [hrun] at hfail
      cases hfail
      rw [← hsuits.numRows] at hnames
      have hrow := Embedding.backward_isRowFault hsuits.wellFormed hnames (congrArg Prod.fst hrun)
      exact hrow
    · simp only [hrun] at hfail
      cases hfail

/-- Nor is a gradient of the vectors. -/
theorem backward_isRowFault (h : Follows c e) (enabled : Bool) (gradient : Tensor)
    {x : ModuleError} (hfail : (backward g gradient ⟨enabled, e⟩).1 = .error x) :
    x.isRowFault = false := by
  have hlargest : e.maxDegree < 2 ^ 63 := by
    rw [h.maxDegree]
    exact h.maxDegree_lt
  rw [backward, bind_ok (run_get _)] at hfail
  rcases clampedDegrees_outcome g hlargest with
    ⟨-, -, entering, leaving, hdegrees, hin, hout⟩ | ⟨y, hy, hdegrees⟩
  · have hnames : entering.Names (c.maxDegree + 1) ∧ leaving.Names (c.maxDegree + 1) := by
      rw [← h.maxDegree]
      exact ⟨hin.names hlargest, hout.names hlargest⟩
    rw [hdegrees, bind_ok (run_attempt _ _)] at hfail
    change ((onSide .target (Embedding.backward entering gradient) >>= fun _ =>
      onSide .source (Embedding.backward leaving gradient)) ⟨enabled, e⟩).1 = _ at hfail
    -- The first table leaves an encoder that still follows its settings to the second.
    have hkept := onSide_follows (c := c) .target entering gradient ⟨enabled, e⟩ h
    rcases hfirst : onSide .target (Embedding.backward entering gradient) ⟨enabled, e⟩ with
      ⟨y | _, s⟩
    · rw [bind_error hfirst] at hfail
      cases hfail
      exact onSide_isRowFault (s := ⟨enabled, e⟩) h hnames.1 (congrArg Prod.fst hfirst)
    · rw [hfirst] at hkept
      rw [bind_ok hfirst] at hfail
      exact onSide_isRowFault hkept hnames.2 hfail
  · rw [hdegrees, bind_error (run_attempt _ _)] at hfail
    cases hfail
    exact hy.isRowFault

/-- For every graph, whatever it holds, and every encoder, whatever was done to it since
    it was built: degrees are one for each node and within the range of the tables, and
    neither vectors nor gradients are refused for a row. Where there is room, degrees are
    refused in one case only. -/
theorem degrees_of_any_graph {G : Type} [NormalSource G] (he : Reached G c e) (g : TypedGraph) :
    (∀ entering leaving, e.clampedDegrees g = .ok (entering, leaving) →
      ∀ t ∈ [entering, leaving], t.Matches .int64 [g.numNodes] ∧ ∀ v, v < g.numNodes →
        0 ≤ (t.entry .int64 [v]).toInt ∧ (t.entry .int64 [v]).toInt ≤ c.maxDegree) ∧
    (∀ x, e.forward g = .error x → x.isRowFault = false) ∧
    (∀ enabled gradient x, (backward g gradient ⟨enabled, e⟩).1 = .error x →
      x.isRowFault = false) ∧
    (g.CountingRoom → ∀ x, e.clampedDegrees g = .error x ↔
      ∃ edges, g.AsItStands edges ∧
        ((edges.numTargets ≠ g.numNodes ∧
          x = .graph (.tensor (.shapeMismatch [g.numNodes] [edges.numTargets]))) ∨
        (edges.numTargets = g.numNodes ∧ edges.numSources ≠ g.numNodes ∧
          x = .graph (.tensor (.shapeMismatch [g.numNodes] [edges.numSources]))))) := by
  rcases he.follows with ⟨-, h⟩
  refine ⟨fun entering leaving hok => ?_, fun x hfail => forward_isRowFault h hfail,
    fun enabled gradient x hfail => backward_isRowFault h enabled gradient hfail,
    fun hroom x => clampedDegrees_error_iff h hroom x⟩
  have hlargest := h.maxDegree_lt
  rw [← h.maxDegree] at hlargest ⊢
  rcases clampedDegrees_rows hlargest hok with ⟨hin, hout⟩
  have hrange : ∀ {side t}, RowsOf side g e.maxDegree t → t.Matches .int64 [g.numNodes] ∧
      ∀ v, v < g.numNodes → 0 ≤ (t.entry .int64 [v]).toInt ∧
        (t.entry .int64 [v]).toInt ≤ e.maxDegree := by
    intro side t ht
    refine ⟨ht.layout, fun v hv => ?_⟩
    have hle := rowOf_le side g e.maxDegree v
    rw [ht.toInt_entry hlargest hv]
    omega
  intro t ht
  simp only [List.mem_cons, List.not_mem_nil, or_false] at ht
  rcases ht with rfl | rfl
  · exact hrange hin
  · exact hrange hout

/-- A relation between types that do not exist, between nodes that do not exist, which says
    the right number of targets and a wrong number of sources. -/
theorem degrees_of_any_graph_stale :
    ∃ e : DegreeEncoder, Reached SplitMix ⟨3, 1, .both, .float64⟩ e ∧
      e.clampedDegrees ⟨[("a", 2)], [(⟨"b", "to", "c"⟩, ⟨5, 2, [7, 8], [9]⟩)]⟩
        = .error (.graph (.tensor (.shapeMismatch [2] [5]))) := by
  rcases build_ok (c := ⟨3, 1, .both, .float64⟩) rfl (by decide) (by decide) (by decide)
    (SplitMix.mk 0) with ⟨e, g', hbuild⟩
  let g : TypedGraph := ⟨[("a", 2)], [(⟨"b", "to", "c"⟩, ⟨5, 2, [7, 8], [9]⟩)]⟩
  have hroom : g.CountingRoom := by
    refine ⟨by decide, fun side => ?_, fun side r hr => ?_⟩
    · cases side <;> decide
    · obtain rfl := List.mem_singleton.mp hr
      cases side <;> decide
  have hany := degrees_of_any_graph (Reached.of_build hbuild) g
  refine ⟨e, .of_build hbuild, (hany.2.2.2 hroom _).mpr ⟨⟨5, 2, [7, 8], [9]⟩, ?_, ?_⟩⟩
  · exact ⟨by decide, _, rfl⟩
  · exact .inr ⟨rfl, by decide, rfl⟩

end DegreeEncoder

end GraphAttention
