import GraphAttention.Proofs.DegreeEncoder.Vectors
import GraphAttention.Proofs.Graph.Alike
import GraphAttention.Proofs.Graph.Insertion

/-!
# Encoders on Graphs That Are Counted Alike

An encoder sees a graph through the degrees of its nodes and in no other way. Two graphs
with the same degrees have the same vectors, hand the same rows to the tables when a
gradient comes back, and are refused alike. So whatever the degrees do not depend on, an
encoder does not depend on either.

Merging a graph beforehand is such a thing. A graph with one type and one relation is
counted as it stands, any other is merged for counting, and a graph that was merged by
hand is counted as it stands once more. All of these count the same numbers with the same
number of counters.

The history of a graph is another. Edges may come in any order and in any batches, and
under any kinds of edge. The graphs that come of it may have different numbers of
relations, so that one of them is merged before it is counted and the other is not.

## Theorems

* `rowsAt_eq_of_perm`, `clampedDegrees_eq_of_perm`: The same rows for two graphs.
* `forward_eq_of_degrees`, `backward_eq_of_degrees`: What rests on degrees only.
* `agrees_on_merged`: A graph and its merged form.
* `history_irrelevant`: Two ways of adding the same edges.
-/

namespace GraphAttention

open GraphAttention.Action

namespace DegreeEncoder

variable {e : DegreeEncoder} {g g' : TypedGraph} {side side' : EdgeEnd}

theorem rowsAt_eq_of_perm (hg : g.Sound) (hg' : g'.Sound)
    (hnodes : g.numNodes = g'.numNodes)
    (hends : (side.ids g.mergedEdges).Perm (side'.ids g'.mergedEdges)) (largest : Nat) :
    rowsAt side g largest = rowsAt side' g' largest := by
  unfold rowsAt
  rw [TypedGraph.degreesAt_eq_of_perm hg hg' hnodes hends]

/-- With as many nodes, and the same numbers at either end of the edges, two graphs have
    the same degrees. -/
theorem clampedDegrees_eq_of_perm (hg : g.Sound) (hg' : g'.Sound)
    (hnodes : g.numNodes = g'.numNodes)
    (hends : ∀ side : EdgeEnd, (side.ids g.mergedEdges).Perm (side.ids g'.mergedEdges))
    (e : DegreeEncoder) : e.clampedDegrees g = e.clampedDegrees g' := by
  rw [clampedDegrees_eq, clampedDegrees_eq, rowsAt_eq_of_perm hg hg' hnodes (hends .target),
    rowsAt_eq_of_perm hg hg' hnodes (hends .source)]

theorem forward_eq_of_degrees (h : e.clampedDegrees g = e.clampedDegrees g') :
    e.forward g = e.forward g' := by
  unfold forward
  rw [h]

theorem backward_eq_of_degrees {s : Tracked DegreeEncoder}
    (h : s.value.clampedDegrees g = s.value.clampedDegrees g') (gradient : Tensor) :
    backward g gradient s = backward g' gradient s := by
  unfold backward
  rw [bind_ok (run_get s), bind_ok (run_get s), h]

/-! ### Merging -/

/-- A graph that was built and the graph that it is merged into have the same degrees. -/
theorem clampedDegrees_merged (hg : g.Sound) (e : DegreeEncoder) :
    e.clampedDegrees g.merged = e.clampedDegrees g := by
  refine clampedDegrees_eq_of_perm (TypedGraph.sound_merged hg) hg
    (TypedGraph.numNodes_merged g) (fun side => ?_) e
  rw [TypedGraph.mergedEdges_merged]

/-- On a graph that was built and on its merged form, degrees, vectors and gradients are
    the same, in success and in failure, for every encoder and every state that one can be
    in. Merging a graph that was merged changes nothing, whatever graph it was. -/
theorem agrees_on_merged :
    (∀ g : TypedGraph, g.Reachable →
      (∀ e : DegreeEncoder, e.clampedDegrees g.merged = e.clampedDegrees g ∧
        e.forward g.merged = e.forward g) ∧
      ∀ (gradient : Tensor) (s : Tracked DegreeEncoder),
        backward g.merged gradient s = backward g gradient s) ∧
    ∀ g : TypedGraph, g.merged.merged = g.merged := by
  refine ⟨fun g hg => ?_, TypedGraph.merged_merged⟩
  have hdegrees := clampedDegrees_merged hg.sound
  constructor
  · intro e
    exact ⟨hdegrees e, forward_eq_of_degrees (hdegrees e)⟩
  · intro gradient s
    exact backward_eq_of_degrees (hdegrees s.value) gradient

/-- Some encoder has vectors for a graph that was built and is not too large. -/
theorem exists_vectors (hg : g.Sound) (hedges : Shape.Fits 8 [g.numEdges])
    (hnodes : Shape.Fits 8 [g.numNodes]) :
    ∃ (e : DegreeEncoder) (out : Tensor), Reached SplitMix ⟨3, 1, .both, .float64⟩ e ∧
      e.forward g = .ok out := by
  rcases build_ok (c := ⟨3, 1, .both, .float64⟩) rfl (by decide) (by decide) (by decide)
    (SplitMix.mk 0) with ⟨e, source, hbuild⟩
  have he : Reached SplitMix ⟨3, 1, .both, .float64⟩ e := .of_build hbuild
  rcases he.follows with ⟨hc, h⟩
  have hvectors : Shape.Fits 8 [g.numNodes, 1] := (Shape.fits_congr (by simp)).mp hnodes
  rcases (forward_ok_iff hc h hg).mpr ⟨hedges, hnodes, hvectors⟩ with ⟨out, hout⟩
  exact ⟨e, out, he, hout⟩

/-- A graph of one type with one relation is counted as it stands, and has the vectors of
    the graph that it is merged into. -/
theorem agrees_on_merged_threeNodes :
    TypedGraph.threeNodes.isHomogeneous = true ∧
      TypedGraph.threeNodes.merged ≠ TypedGraph.threeNodes ∧
      ∃ (e : DegreeEncoder) (out : Tensor), Reached SplitMix ⟨3, 1, .both, .float64⟩ e ∧
        e.forward TypedGraph.threeNodes = .ok out ∧
        e.forward TypedGraph.threeNodes.merged = .ok out := by
  have hmade : TypedGraph.ofTypes [("a", 3)] = .ok ⟨[("a", 3)], []⟩ := rfl
  have hreached : TypedGraph.threeNodes.Reachable :=
    .addEdges ⟨"a", "r", "a"⟩ [0, 0, 2] [1, 2, 2] (.ofTypes (by decide) hmade)
  rcases exists_vectors hreached.sound (by decide) (by decide) with ⟨e, out, he, hout⟩
  have hmerged := ((agrees_on_merged.1 _ hreached).1 e).2
  exact ⟨rfl, by decide, e, out, he, hout, hmerged.trans hout⟩

/-! ### Histories -/

/-- Edges are added to two graphs with the same types, in batches that are all accepted. If
    the edges from before and those of the batches are the same for both, in any order, then
    the graphs have as many edges, and every encoder has the same degrees and the same
    vectors for them. -/
theorem history_irrelevant {start start' g g' : TypedGraph} {batches batches' : List EdgeBatch}
    (hstart : start.Reachable) (hstart' : start'.Reachable)
    (htypes : start.nodeTypes = start'.nodeTypes)
    (hadded : TypedGraph.addBatches batches start = (.ok (), g))
    (hadded' : TypedGraph.addBatches batches' start' = (.ok (), g'))
    (hedges : (start.edges ++ batches.flatMap EdgeBatch.edges).Perm
      (start'.edges ++ batches'.flatMap EdgeBatch.edges)) :
    g.numEdges = g'.numEdges ∧ ∀ e : DegreeEncoder,
      e.clampedDegrees g = e.clampedDegrees g' ∧ e.forward g = e.forward g' := by
  rcases TypedGraph.edges_addBatches hstart.sound hadded with ⟨hg, hkept, hperm⟩
  rcases TypedGraph.edges_addBatches hstart'.sound hadded' with ⟨hg', hkept', hperm'⟩
  have hsame : g.nodeTypes = g'.nodeTypes := hkept.trans (htypes.trans hkept'.symm)
  have hall : g.edges.Perm g'.edges := hperm.trans (hedges.trans hperm'.symm)
  constructor
  · rw [TypedGraph.numEdges_eq_length hg, TypedGraph.numEdges_eq_length hg', hall.length_eq]
  · intro e
    have hdegrees := clampedDegrees_eq_of_perm hg hg' (TypedGraph.numNodes_eq_of_types hsame)
      (TypedGraph.ends_perm hg hg' hsame hall) e
    exact ⟨hdegrees, forward_eq_of_degrees hdegrees⟩

/-- Two nodes of one type, without edges. -/
def twoNodes : TypedGraph := ⟨[("a", 2)], []⟩

/-- Two edges in one batch. -/
def together : List EdgeBatch := [⟨⟨"a", "r", "a"⟩, [0, 1], [1, 1]⟩]

/-- The same edges one by one in the other order, each in a relation of its own, and a batch
    without edges between them. -/
def apart : List EdgeBatch :=
  [⟨⟨"a", "s", "a"⟩, [1], [1]⟩, ⟨⟨"a", "r", "a"⟩, [], []⟩, ⟨⟨"a", "t", "a"⟩, [0], [1]⟩]

/-- Edges that came together are counted as they stand. Those that came apart are in three
    relations and are merged before they are counted. -/
theorem history_irrelevant_apart :
    ∃ g g' : TypedGraph, TypedGraph.addBatches together twoNodes = (.ok (), g) ∧
      TypedGraph.addBatches apart twoNodes = (.ok (), g') ∧
      g.isHomogeneous = true ∧ g'.isHomogeneous = false ∧ g.numEdges = g'.numEdges ∧
      ∃ (e : DegreeEncoder) (out : Tensor), Reached SplitMix ⟨3, 1, .both, .float64⟩ e ∧
        e.forward g = .ok out ∧ e.forward g' = .ok out := by
  have hmade : TypedGraph.ofTypes [("a", 2)] = .ok twoNodes := rfl
  have hstart : twoNodes.Reachable := .ofTypes (by decide) hmade
  have hedges : (twoNodes.edges ++ together.flatMap EdgeBatch.edges).Perm
      (twoNodes.edges ++ apart.flatMap EdgeBatch.edges) := .swap _ _ _
  rcases history_irrelevant hstart hstart rfl rfl rfl hedges with ⟨hcount, hsame⟩
  have hadded : TypedGraph.addBatches together twoNodes = (.ok (), _) := rfl
  have hg := (TypedGraph.edges_addBatches hstart.sound hadded).1
  rcases exists_vectors hg (by decide) (by decide) with ⟨e, out, he, hout⟩
  exact ⟨_, _, rfl, rfl, rfl, rfl, hcount, e, out, he, hout, (hsame e).2.symm.trans hout⟩

end DegreeEncoder

end GraphAttention
