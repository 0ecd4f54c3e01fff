import GraphAttention.Proofs.Graph.Merging

/-!
# Graphs That Are Counted Alike

What counting makes of a graph that was built depends on little. It takes the number of
nodes, because there is a counter for each, and it takes the numbers at one end of the
edges, in any order. Neither the relations nor the types can be told from the result, nor
whether the graph was merged before it was counted or has been counted as it stands.

This holds of refusals as well. A graph that was built is refused for want of room only,
first for the list of the ends and then for the counters, so what is reported depends on
the number of edges and the number of nodes.

The ends of two graphs are compared here, or the two ends of one graph. For that the end
that is counted may differ from one side of an equation to the other.

## Main definitions

* `oversized`: What there is no room for.

## Theorems

* `countOccurrences_perm`: Counting does not see the order of a list.
* `degreesAt_eq_of_perm`: Degrees that are the same in two graphs.
* `degreesAt_roomless`: What is reported where there is no room for counting.
* `mergedEdges_merged`, `merged_merged`: A graph that is merged again stays as it is.
-/

namespace GraphAttention

/-- Of a list of a given length and some counters, what there is no room for. -/
def oversized (length counters : Nat) : Shape :=
  if Shape.Fits 8 [length] then [counters] else [length]

theorem occurrences_perm {ids ids' : List Nat} (h : ids.Perm ids') (n : Nat) :
    occurrences ids n = occurrences ids' n := by
  apply Array.ext
  · rw [size_occurrences, size_occurrences]
  · intro v hv hv'
    have hlt : v < n := by rwa [size_occurrences] at hv
    have hcount := occurrences_getD ids hlt
    have hcount' := occurrences_getD ids' hlt
    rw [← h.count_eq] at hcount'
    simpa [hv, hv'] using hcount.trans hcount'.symm

/-- Counting does not see in which order numbers come. -/
theorem countOccurrences_perm {ids ids' : List Nat} (h : ids.Perm ids') (n : Nat) :
    countOccurrences ids n = countOccurrences ids' n := by
  unfold countOccurrences
  rw [h.length_eq, occurrences_perm h]

theorem countOccurrences_roomless {ids : List Nat} {n : Nat}
    (h : ¬ (Shape.Fits 8 [ids.length] ∧ Shape.Fits 8 [n])) :
    countOccurrences ids n = .error (.unaddressable (oversized ids.length n)) := by
  unfold countOccurrences oversized
  by_cases hlist : Shape.Fits 8 [ids.length]
  · have hcounters : ¬ Shape.Fits 8 [n] := fun hfits => h ⟨hlist, hfits⟩
    rw [if_neg (not_not.mpr hlist), if_neg hcounters, if_pos hlist]
  · rw [if_pos hlist, if_neg hlist]

/-- The two ends of the edges make up a list of them. -/
theorem EdgeList.ext_ends {e e' : EdgeList}
    (hbound : ∀ side : EdgeEnd, side.bound e = side.bound e')
    (hids : ∀ side : EdgeEnd, side.ids e = side.ids e') : e = e' := by
  rcases e with ⟨m, n, sources, targets⟩
  rcases e' with ⟨m', n', sources', targets'⟩
  obtain rfl : m = m' := hbound .source
  obtain rfl : n = n' := hbound .target
  obtain rfl : sources = sources' := hids .source
  obtain rfl : targets = targets' := hids .target
  rfl

namespace TypedGraph

variable {g g' : TypedGraph} {side side' : EdgeEnd}

/-- The degrees of a graph that was built are counted in the list of its merged ends, with
    a counter for each node. -/
theorem degreesAt_of_sound (hg : g.Sound) (side : EdgeEnd) :
    g.collapsed.degreesAt side = Except.mapError .tensor (do
      let numbers ← countOccurrences (side.ids g.mergedEdges) g.numNodes
      Tensor.ofElements .int64 (numbers.map Int64.ofNat) [g.numNodes]) := by
  rw [degreesAt_collapsed, counted_eq hg, counters_collapsed hg]

/-- With as many nodes, and the same numbers at an end of the edges, degrees are the same. -/
theorem degreesAt_eq_of_perm (hg : g.Sound) (hg' : g'.Sound)
    (hnodes : g.numNodes = g'.numNodes)
    (hends : (side.ids g.mergedEdges).Perm (side'.ids g'.mergedEdges)) :
    g.collapsed.degreesAt side = g'.collapsed.degreesAt side' := by
  rw [degreesAt_of_sound hg, degreesAt_of_sound hg', hnodes, countOccurrences_perm hends]

/-- Without room for counting, what is reported speaks of two sizes only. -/
theorem degreesAt_roomless {m n : Nat} (hlist : (g.counted side).length = m)
    (hcounters : g.collapsed.counters side = n)
    (h : ¬ (Shape.Fits 8 [m] ∧ Shape.Fits 8 [n])) :
    g.collapsed.degreesAt side = .error (.tensor (.unaddressable (oversized m n))) := by
  rw [← hlist] at h ⊢
  rw [degreesAt_collapsed, hcounters, countOccurrences_roomless h]
  rfl

/-! ### Merging twice -/

/-- With one type there is nothing to renumber. -/
theorem mergedEdges_merged (g : TypedGraph) : g.merged.mergedEdges = g.mergedEdges := by
  apply EdgeList.ext_ends
  · intro side
    rw [bound_mergedEdges, bound_mergedEdges, numNodes_merged]
  · intro side
    exact ids_mergedEdges_of_isHomogeneous (isHomogeneous_merged g) side fun r hr => by
      rw [List.mem_singleton.mp hr]
      exact word_of_mem_mergedEdges side g

/-- Merging is done once and for all, also for a graph that was not built. -/
theorem merged_merged (g : TypedGraph) : g.merged.merged = g.merged := by
  rw [merged, numNodes_merged, mergedEdges_merged]
  rfl

end TypedGraph

end GraphAttention
