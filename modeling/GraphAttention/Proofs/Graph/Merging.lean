import GraphAttention.Proofs.Graph.DegreeSum
import Mathlib.Data.Set.Function

/-!
# What Merging Preserves

Merging lays the types of a graph end to end. A node moves up by the nodes of the types
before its own, and nothing else about the graph changes: every edge runs between the
numbers of the nodes that it ran between, in the place where it stood.

The nodes of all types take up the numbers below the number of nodes, each number once, as
long as a machine word can hold the number of nodes. No check looks for that. With more
nodes the numbers start again from zero, and so does the number of nodes itself, so that
some node is always left outside. Both directions need that no name stands for two types,
because a node is found by the name of its type. A type without nodes takes up no number
and moves nothing.

Where all nodes can be counted, degrees are what they were. In the graph as it was given,
the degree of a node is spread over the relations that have its type at that end.

## Main definitions

* `TypedGraph.moved`: An edge between the numbers of its nodes.
* `TypedGraph.nodes`: The nodes in their order.

## Theorems

* `map_position`, `map_position_nodes`: The nodes in their order are numbered from zero on.
* `position_bijOn_iff`: When every number below the number of nodes is the number of one
  node.
* `edges_merged`, `numEdges_merged`: The edges of the merged graph.
* `degree_eq_sum`, `degree_merged`: Degrees, relation by relation and after merging.
* `entry_degreesAt_merged`: Degrees that were counted after merging.
* `merged_preserves`: All of it, for a graph that was built.
* `not_forall_position_bijOn`: Two types of which each fits into a machine word.
-/

namespace GraphAttention

namespace TypedGraph

variable {g : TypedGraph} {side : EdgeEnd} {name : String} {count n v : Nat}

/-- An edge between the numbers that its nodes have after merging. -/
def moved (g : TypedGraph) (edge : (String × Nat) × (String × Nat)) :
    (String × Nat) × (String × Nat) :=
  ((homogeneousType, g.position edge.1), (homogeneousType, g.position edge.2))

/-! ### Numbers of nodes -/

/-- No type before one of the same name. -/
theorem Sound.new_of_split (hg : g.Sound) {before after : List (String × Nat)}
    (h : g.nodeTypes = before ++ (name, count) :: after) : name ∉ before.map Prod.fst := by
  have hnodup := hg.types
  rw [h, List.map_append, List.nodup_append] at hnodup
  exact fun hmem => hnodup.2.2 name hmem name (by simp) rfl

/-- The nodes, type by type. -/
def nodes (g : TypedGraph) : List (String × Nat) :=
  g.nodeTypes.flatMap fun type => (List.range type.2).map fun v => (type.1, v)

theorem hasNode_of_mem_nodes (hg : g.Sound) {node : String × Nat} (h : node ∈ g.nodes) :
    g.HasNode node := by
  rcases List.mem_flatMap.mp h with ⟨⟨name, count⟩, htype, hmem⟩
  rcases List.mem_map.mp hmem with ⟨v, hv, rfl⟩
  rcases List.append_of_mem htype with ⟨before, after, hsplit⟩
  exact ⟨count, typeCount?_of_split hsplit (hg.new_of_split hsplit), List.mem_range.mp hv⟩

/-- The nodes in their order are numbered from zero on, and from zero again where a machine
    word ends. -/
theorem map_position (hg : g.Sound) :
    g.nodes.map g.position = (List.range g.total).map wrap := by
  -- The types that are left are numbered from where those before them end.
  have hrest : ∀ after before, g.nodeTypes = before ++ after →
      (after.flatMap fun type => (List.range type.2).map fun v => (type.1, v)).map g.position
        = (List.range' (before.map Prod.snd).sum (after.map Prod.snd).sum).map wrap := by
    intro after
    induction after with
    | nil => exact fun _ _ => rfl
    | cons type after ih =>
      rcases type with ⟨name, count⟩
      intro before hsplit
      have hfirst : ((List.range count).map fun v => (name, v)).map g.position
          = (List.range' (before.map Prod.snd).sum count).map wrap := by
        rw [List.map_map, List.range'_eq_map_range, List.map_map]
        exact List.map_congr_left fun v _ => position_of_split hsplit (hg.new_of_split hsplit) v
      have hnext := ih (before ++ [(name, count)]) (by simpa using hsplit)
      rw [List.flatMap_cons, List.map_append, hfirst, hnext, List.map_append, List.sum_append,
        List.map_cons, List.sum_cons, ← List.map_append]
      simp [List.range'_append_1]
  rw [nodes, hrest g.nodeTypes [] rfl, total, List.range_eq_range']
  rfl

/-- Nodes that can all be counted are numbered from zero on. -/
theorem map_position_nodes (hg : g.Sound) (htotal : g.total < wordCount) :
    g.nodes.map g.position = List.range g.numNodes := by
  rw [map_position hg, numNodes_of_total htotal]
  have hkept : ∀ n ∈ List.range g.total, wrap n = n := fun n hn =>
    wrap_of_lt (Nat.lt_trans (List.mem_range.mp hn) htotal)
  rw [List.map_congr_left hkept, List.map_id']

/-- A number below the number of all nodes is given to a node, if a machine word can hold
    it. -/
theorem exists_position (hg : g.Sound) (h : n < g.total) (hword : n < wordCount) :
    ∃ node, g.HasNode node ∧ g.position node = n := by
  have hmem : wrap n ∈ g.nodes.map g.position := by
    rw [map_position hg]
    exact List.mem_map_of_mem (List.mem_range.mpr h)
  rcases List.mem_map.mp hmem with ⟨node, hnode, hposition⟩
  exact ⟨node, hasNode_of_mem_nodes hg hnode, hposition.trans (wrap_of_lt hword)⟩

/-- The numbers below the number of nodes are those of the nodes, each of one node, exactly
    when a machine word can hold the number of all nodes. -/
theorem position_bijOn_iff (hg : g.Sound) :
    Set.BijOn g.position {node | g.HasNode node} (Set.Iio g.numNodes) ↔
      g.total < wordCount := by
  constructor
  · intro h
    by_contra hmany
    -- The number of nodes has wrapped, and is now the number of some node.
    have hless : g.numNodes < g.total := Nat.lt_of_lt_of_le g.numNodes_lt (Nat.not_lt.mp hmany)
    rcases exists_position hg hless g.numNodes_lt with ⟨node, hnode, hposition⟩
    have hbelow : g.position node < g.numNodes := h.mapsTo hnode
    omega
  · intro htotal
    refine ⟨fun _ hnode => position_lt htotal hnode,
      fun _ ha _ hb hsame => position_injective htotal ha hb hsame, fun n hn => ?_⟩
    exact exists_position hg (Nat.lt_of_lt_of_eq hn (numNodes_of_total htotal))
      (Nat.lt_trans hn g.numNodes_lt)

/-! ### Edges -/

/-- The edges of the merged graph are the edges of the graph, moved, in the same order. -/
theorem edges_merged (hg : g.Sound) : g.merged.edges = g.edges.map g.moved := by
  have hsources : g.mergedEdges.sources = g.edges.map fun edge => g.position edge.1 := by
    have hids := ids_mergedEdges_eq hg .source
    rw [List.map_map] at hids
    exact hids
  have htargets : g.mergedEdges.targets = g.edges.map fun edge => g.position edge.2 := by
    have hids := ids_mergedEdges_eq hg .target
    rw [List.map_map] at hids
    exact hids
  change [(Relation.homogeneous, g.mergedEdges)].flatMap _ = _
  rw [List.flatMap_singleton, hsources, htargets, List.zipWith_map, List.zipWith_self]
  rfl

theorem numEdges_merged (hg : g.Sound) : g.merged.numEdges = g.numEdges := by
  rw [← length_ids_mergedEdges hg .source]
  exact Nat.zero_add _

/-! ### Degrees -/

/-- The degree of a node is the sum of its occurrences in the relations that have its type
    at that end. -/
theorem degree_eq_sum (hg : g.Sound) (side : EdgeEnd) (name : String) (v : Nat) :
    g.degree side (name, v)
      = ((g.relations.filter fun r => side.typeName r.1 = name).map
          fun r => (side.ids r.2).count v).sum := by
  have hends : g.degree side (name, v)
      = (g.edges.map fun edge => side.pick edge.1 edge.2).count (name, v) := by
    rw [degree, List.count, List.countP_map]
    exact List.countP_congr fun edge _ => by simp
  rw [hends, map_pick_edges hg]
  generalize g.relations = relations
  induction relations with
  | nil => rfl
  | cons r relations ih =>
    rw [List.flatMap_cons, List.count_append, ih]
    by_cases hname : side.typeName r.1 = name
    · have hcount : ((side.ids r.2).map fun v => (side.typeName r.1, v)).count (name, v)
          = (side.ids r.2).count v := by
        rw [hname]
        exact List.count_map_of_injective _ _ (fun _ _ h => (Prod.mk.inj h).2) v
      rw [List.filter_cons_of_pos (by simpa using hname), List.map_cons, List.sum_cons, hcount]
    · -- A relation of another type has no end at the node.
      have hcount : ((side.ids r.2).map fun v => (side.typeName r.1, v)).count (name, v) = 0 :=
        List.count_eq_zero_of_not_mem fun hmem => by
          rcases List.mem_map.mp hmem with ⟨w, -, heq⟩
          exact hname (Prod.mk.inj heq).1
      rw [List.filter_cons_of_neg (by simpa using hname), hcount, Nat.zero_add]

/-- A node has the degree that it had. -/
theorem degree_merged (hg : g.Numbered) (side : EdgeEnd) {node : String × Nat}
    (hnode : g.HasNode node) :
    g.merged.degree side (homogeneousType, g.position node) = g.degree side node := by
  rw [← count_position hg side hnode, ids_mergedEdges_eq hg.toSound, degree,
    edges_merged hg.toSound, List.count, List.countP_map, List.countP_map, List.countP_map]
  refine List.countP_congr fun edge _ => ?_
  cases side <;> simp [moved, EdgeEnd.pick]

/-- Degrees that were counted after merging are those of the nodes before. -/
theorem entry_degreesAt_merged (hg : g.Numbered) {t : Tensor}
    (ht : g.merged.degreesAt side = .ok t) {node : String × Nat} (hnode : g.HasNode node) :
    (t.entry .int64 [g.position node]).toInt = g.degree side node := by
  have hsame : g.merged.collapsed = g.merged := if_pos (isHomogeneous_merged g)
  have hcounted : g.merged.counted side = side.ids g.mergedEdges := by
    rw [counted, hsame]
    rfl
  rcases degreesAt_outcome side g.merged with ⟨hfit, u, hu, -, hentry⟩ | ⟨e, -, he⟩
  · rw [hsame, ht] at hu
    cases hu
    rw [hcounted, numNodes_merged] at hentry
    rw [hcounted] at hfit
    rw [hentry _ (position_lt hg.counted hnode), Int64.toInt_ofNat_of_lt (hfit.count_lt _),
      count_position hg side hnode]
  · rw [hsame, ht] at he
    cases he

/-- What merging does to a graph that was built. The edges are those of the graph between the
    numbers of their nodes, relation by relation and in order. There are as many edges as
    before, and as many nodes are counted, and degrees can be counted unless there is no room
    for them.

    The numbers below the number of nodes are those of the nodes, each of one node, exactly
    when a machine word can hold the number of all nodes. Then no node is lost from the count,
    and the number of a node counts the nodes of the types before its own and the nodes before
    it there. The degree of a node, at either end, is the number of its occurrences in all
    relations that have its type there, and this is what counting gives for its number. -/
theorem merged_preserves (hg : g.Reachable) :
    g.merged.relations = [(.homogeneous, g.mergedEdges)] ∧
    (∀ side : EdgeEnd, side.ids g.mergedEdges = g.relations.flatMap fun r =>
      (side.ids r.2).map fun v => g.position (side.typeName r.1, v)) ∧
    g.merged.edges = g.edges.map g.moved ∧
    g.merged.numNodes = g.numNodes ∧ g.merged.numEdges = g.numEdges ∧
    (∀ side : EdgeEnd, (∃ t, g.merged.degreesAt side = .ok t) ↔
      Shape.Fits 8 [g.numEdges] ∧ Shape.Fits 8 [g.numNodes]) ∧
    (Set.BijOn g.position {node | g.HasNode node} (Set.Iio g.numNodes) ↔
      g.total < wordCount) ∧
    (g.total < wordCount → g.numNodes = g.total ∧
      (∀ before name count after, g.nodeTypes = before ++ (name, count) :: after →
        ∀ v, v < count → g.position (name, v) = (before.map Prod.snd).sum + v) ∧
      ∀ side name v, g.HasNode (name, v) →
        let occurring := ((g.relations.filter fun r => side.typeName r.1 = name).map
          fun r => (side.ids r.2).count v).sum
        g.merged.degree side (homogeneousType, g.position (name, v)) = occurring ∧
          ∀ t, g.merged.degreesAt side = .ok t →
            (t.entry .int64 [g.position (name, v)]).toInt = occurring) := by
  have hsound := hg.sound
  refine ⟨rfl, fun side => ?_, edges_merged hsound, numNodes_merged g, numEdges_merged hsound,
    fun side => ?_, position_bijOn_iff hsound, fun htotal => ⟨numNodes_of_total htotal, ?_, ?_⟩⟩
  · rw [ids_mergedEdges_eq hsound, map_pick_edges hsound, List.map_flatMap]
    simp only [List.map_map, Function.comp_def]
  · rw [degreesAt_ok_iff (sound_merged hsound) (isHomogeneous_merged g),
      numEdges_merged hsound, numNodes_merged]
  · exact fun before name count after h v hv =>
      position_eq_add h (hsound.new_of_split h) htotal hv
  · intro side name v hnode
    have hnumbered := hg.numbered htotal
    dsimp only
    rw [← degree_eq_sum hsound]
    exact ⟨degree_merged hnumbered side hnode,
      fun t ht => entry_degreesAt_merged hnumbered ht hnode⟩

/-- Three types, one of them without nodes, and relations between them and within one. -/
def threeTypes : TypedGraph :=
  ⟨[("a", 2), ("none", 0), ("b", 3)],
    [(⟨"a", "r", "b"⟩, ⟨2, 3, [0, 1], [2, 2]⟩), (⟨"b", "s", "b"⟩, ⟨3, 3, [2], [2]⟩),
      (⟨"b", "t", "a"⟩, ⟨3, 2, [2], [0]⟩)]⟩

/-- The last node of the last type has number four, and is entered by two edges of one
    relation and one of another. -/
theorem merged_preserves_threeTypes :
    threeTypes.Reachable ∧ threeTypes.total < wordCount ∧ threeTypes.position ("b", 2) = 4 ∧
      threeTypes.merged.relations = [(.homogeneous, ⟨5, 5, [0, 1, 4, 4], [4, 4, 4, 0]⟩)] ∧
      threeTypes.merged.degree .target (homogeneousType, 4) = 3 ∧
      ∃ t, threeTypes.merged.inDegrees = .ok t ∧ (t.entry .int64 [4]).toInt = 3 := by
  have hmade : ofTypes [("a", 2), ("none", 0), ("b", 3)] =
      .ok ⟨[("a", 2), ("none", 0), ("b", 3)], []⟩ := by decide
  have hreached : threeTypes.Reachable :=
    .addEdges ⟨"b", "t", "a"⟩ [2] [0] (.addEdges ⟨"b", "s", "b"⟩ [2] [2]
      (.addEdges ⟨"a", "r", "b"⟩ [0, 1] [2, 2] (.ofTypes (by decide) hmade)))
  have htotal : threeTypes.total < wordCount := by decide
  rcases merged_preserves hreached with ⟨hrelations, -, -, -, -, hok, -, hnumbers⟩
  rcases hnumbers htotal with ⟨-, hposition, hdegrees⟩
  have hfour : threeTypes.position ("b", 2) = 4 :=
    hposition [("a", 2), ("none", 0)] "b" 3 [] rfl 2 (by decide)
  rcases (hok .target).mpr ⟨by decide, by decide⟩ with ⟨t, ht⟩
  rcases hdegrees .target "b" 2 ⟨3, rfl, by decide⟩ with ⟨hcount, hentry⟩
  rw [hfour] at hcount hentry
  exact ⟨hreached, htotal, hfour, hrelations, hcount, t, ht, hentry t ht⟩

/-- Merging two types may leave no nodes, and an edge all the same. -/
theorem not_forall_position_bijOn :
    ¬ ∀ g : TypedGraph, g.Reachable →
      Set.BijOn g.position {node | g.HasNode node} (Set.Iio g.numNodes) ∧
        g.merged.numNodes = g.total ∧ g.merged.InRange := by
  intro hall
  rcases hall twoHalves reachable_twoHalves with ⟨hbij, -, -⟩
  have hnode : twoHalves.HasNode ("a", 5) := ⟨_, rfl, by decide⟩
  exact absurd (hbij.mapsTo hnode) (by decide)

end TypedGraph

end GraphAttention
