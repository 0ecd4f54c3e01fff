import GraphAttention.Proofs.DegreeEncoder.Lookup
import GraphAttention.Proofs.Graph.Merging
import GraphAttention.Random.Source

/-!
# Vectors of Nodes

The vector of a node is decided by its degrees. In a graph that was built they are the
numbers of edges that enter and leave the node, over all relations that its type has a
part in, and the node is found where its type begins, its number further on. Neither
how edges are stored nor how nodes are renumbered is left in the statement.

A graph of the types alone may have many nodes, because nothing is stored for one. Its
vectors are stored, so the one thing that can stand against them is room, and how much
is needed is known beforehand. Only the number of nodes has to be right for that. If a
machine word cannot hold it, then there may be vectors, and too few of them.

## Theorems

* `forward_ok_iff`: There are vectors exactly when there is room.
* `forward_vectors`: The vector of a node, by its degrees.
* `not_forall_forward_ok`: A graph with too many nodes for vectors, and one with too many
  for a machine word.
-/

namespace GraphAttention

namespace DegreeEncoder

variable {c : DegreeConfig} {e : DegreeEncoder} {g : TypedGraph}

/-- There are vectors for the nodes of a graph that was built exactly when there is room
    for as many numbers as it has edges, as many as it has nodes, and for the vectors
    themselves. -/
theorem forward_ok_iff (hc : c.validate = .ok ()) (h : Follows c e) (hg : g.Sound) :
    (∃ out, e.forward g = .ok out) ↔
      Shape.Fits 8 [g.numEdges] ∧ Shape.Fits 8 [g.numNodes] ∧
        Shape.Fits c.dtype.width [g.numNodes, c.embeddingDim] := by
  have hcountable : ∀ side, Countable side g ↔
      Shape.Fits 8 [g.numEdges] ∧ Shape.Fits 8 [g.numNodes] := TypedGraph.countsFit_iff hg
  have hroom : Shape.Allocatable c.dtype.width [g.numNodes, c.embeddingDim] ↔
      Shape.Fits c.dtype.width [g.numNodes, c.embeddingDim] :=
    Shape.allocatable_matrix_iff (Tensor.width_pos c.dtype) (DegreeConfig.validate_ok hc).1
      h.dim_le
  rcases forward_cases h g with
    ⟨x, hx, hfail⟩ | ⟨htarget, -, ⟨hnone, hfail⟩ | ⟨hsome, out, hout, -⟩⟩
  · refine iff_of_false ?_ ?_
    · rintro ⟨out, hout⟩
      rw [hfail] at hout
      cases hout
    · intro hfits
      have hboth : ∀ side, Countable side g := fun side =>
        (hcountable side).mpr ⟨hfits.1, hfits.2.1⟩
      exact hx.not_countable ⟨hboth .target, hboth .source⟩
  · refine iff_of_false ?_ fun hfits => hnone (hroom.mpr hfits.2.2)
    rintro ⟨out, hout⟩
    rw [hfail] at hout
    cases hout
  · have hfits := (hcountable .target).mp htarget
    exact iff_of_true ⟨out, hout⟩ ⟨hfits.1, hfits.2, hroom.mp hsome⟩

/-- A node looks up the rows of its degrees. -/
theorem rowOf_position (hg : g.Numbered) (side : EdgeEnd) (largest : Nat) {node : String × Nat}
    (hnode : g.HasNode node) :
    rowOf side g largest (g.position node) = min (g.degree side node) largest := by
  rw [rowOf, TypedGraph.counted_eq hg.toSound, TypedGraph.count_position hg side hnode]

/-- An encoder, whatever was done to it since it was built, has vectors for the nodes of a
    graph that was built exactly when there is room for them and for counting, as long as a
    machine word can hold the number of nodes. The vectors are then a matrix with a row for
    every node. A node has its row where the nodes of its type begin, and the row holds what
    the tables of the directions that count hold for its degrees, each held below the largest
    degree. -/
theorem forward_vectors {G : Type} [NormalSource G] (he : Reached G c e) (hg : g.Reachable)
    (htotal : g.total < wordCount) :
    ((∃ out, e.forward g = .ok out) ↔
      Shape.Fits 8 [g.numEdges] ∧ Shape.Fits 8 [g.total] ∧
        Shape.Fits c.dtype.width [g.total, c.embeddingDim]) ∧
    ∀ out, e.forward g = .ok out →
      out.Matches c.dtype [g.total, c.embeddingDim] ∧ e.tables.direction = c.direction ∧
      ∀ before name count after v j, g.nodeTypes = before ++ (name, count) :: after →
        v < count → j < c.embeddingDim →
        out.entry c.dtype [(before.map Prod.snd).sum + v, j]
          = e.tables.vectorAt c.dtype (min (g.degree .target (name, v)) c.maxDegree)
              (min (g.degree .source (name, v)) c.maxDegree) j := by
  rcases he.follows with ⟨hc, h⟩
  have hnumbered := hg.numbered htotal
  rw [← TypedGraph.numNodes_of_total htotal]
  refine ⟨forward_ok_iff hc h hg.sound, fun out hout => ?_⟩
  rcases forward_rows h hout with ⟨hmatch, hentry⟩
  refine ⟨hmatch, h.direction, fun before name count after v j hsplit hv hj => ?_⟩
  -- The type stands there for the first time, because no name stands for two types.
  have hnew := hg.sound.new_of_split hsplit
  have hnode : g.HasNode (name, v) := ⟨count, TypedGraph.typeCount?_of_split hsplit hnew, hv⟩
  rw [← TypedGraph.position_eq_add hsplit hnew htotal hv,
    hentry _ j (TypedGraph.position_lt htotal hnode) hj, rowOf_position hnumbered .target _ hnode,
    rowOf_position hnumbered .source _ hnode]

/-- An edge from the only node of one type to the second node of another. The second
    node is the last of three, and one edge enters it. -/
theorem forward_vectors_twoTypes :
    ∃ (e : DegreeEncoder) (out : Tensor), Reached SplitMix ⟨3, 1, .both, .float64⟩ e ∧
      e.forward ⟨[("a", 1), ("b", 2)], [(⟨"a", "to", "b"⟩, ⟨1, 2, [0], [1]⟩)]⟩ = .ok out ∧
      out.entry .float64 [2, 0] = e.tables.vectorAt .float64 1 0 0 := by
  let c : DegreeConfig := ⟨3, 1, .both, .float64⟩
  let types : TypedGraph := ⟨[("a", 1), ("b", 2)], []⟩
  have hmade : TypedGraph.ofTypes [("a", 1), ("b", 2)] = .ok types := rfl
  rcases build_ok (c := c) rfl (by decide) (by decide) (by decide) (SplitMix.mk 0) with
    ⟨e, g', hbuild⟩
  have hvectors := forward_vectors (Reached.of_build hbuild)
    (.addEdges ⟨"a", "to", "b"⟩ [0] [1] (.ofTypes (by decide) hmade)) (by decide)
  rcases hvectors.1.mpr ⟨by decide, by decide, by decide⟩ with ⟨out, hout⟩
  have hentry := (hvectors.2 out hout).2.2 [("a", 1)] "b" 2 [] 1 0 rfl (by decide) (by decide)
  exact ⟨e, out, .of_build hbuild, hout, hentry⟩

/-- A type may have more nodes than there can be vectors. Two types may have so many nodes
    that there are vectors, but none for any of them. -/
theorem not_forall_forward_ok :
    (¬ ∀ (c : DegreeConfig) (e : DegreeEncoder) (g : TypedGraph), Reached SplitMix c e →
      g.Reachable → ∃ out, e.forward g = .ok out) ∧
    (¬ ∀ (c : DegreeConfig) (e : DegreeEncoder) (g : TypedGraph) (out : Tensor),
      Reached SplitMix c e → g.Reachable → e.forward g = .ok out →
      out.Matches c.dtype [g.total, c.embeddingDim]) := by
  let c : DegreeConfig := ⟨1, 1, .incoming, .float64⟩
  rcases build_ok (c := c) rfl (by decide) (by decide) (by decide) (SplitMix.mk 0) with
    ⟨e, g', hbuild⟩
  have he : Reached SplitMix c e := .of_build hbuild
  rcases he.follows with ⟨hc, hfollows⟩
  constructor
  · intro hall
    let g : TypedGraph := ⟨[("a", 1152921504606846976)], []⟩
    have hmade : TypedGraph.ofTypes [("a", 1152921504606846976)] = .ok g := rfl
    have hg : g.Reachable := .ofTypes (by decide) hmade
    have hfits := (forward_ok_iff hc hfollows hg.sound).mp (hall c e g he hg)
    exact absurd hfits.2.1 (by decide)
  · intro hall
    have hg := TypedGraph.reachable_twoHalves
    rcases (forward_ok_iff hc hfollows hg.sound).mpr ⟨by decide, by decide, by decide⟩ with
      ⟨out, hout⟩
    have hshape := (hall c e _ out he hg hout).shape
    rw [(forward_rows hfollows hout).1.shape] at hshape
    exact absurd hshape (by decide)

end DegreeEncoder

end GraphAttention
