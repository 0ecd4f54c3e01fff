import GraphAttention.Proofs.Graph.Degrees

/-!
# Edges Added in Batches

A graph is filled by calls, and each call adds a batch of edges to one relation. The same
edges can come in many ways: in another order, in larger or smaller batches, under other
kinds of edge, so that they end up in other relations. What a graph keeps of all this is
the place at which an edge is stored. Which edges there are, each with its two nodes and
their types, depends only on which edges were added.

A call that succeeds adds exactly the edges of its batch, wherever the relation stands
that takes them. The edges of a graph after any number of calls are then a rearrangement
of those from before and those of all batches. Nothing better than a rearrangement holds,
because edges of one relation stay together.

## Main definitions

* `Relation.pairs`: Edges of a relation as pairs of nodes with their types.
* `EdgeBatch`, `TypedGraph.addBatches`: Calls that add edges, one after another.

## Theorems

* `perm_extendRelation`: The edges of all relations after one was extended.
* `addEdges_ok`: When a call succeeds.
* `edges_addEdges`, `edges_addBatches`: The edges after one call, and after some.
* `numEdges_eq_length`: Edges are counted right.
* `ends_perm`: The merged ends of graphs with the same types and edges.
-/

namespace GraphAttention

/-- Edges of a relation between nodes that are given by their numbers. -/
def Relation.pairs (r : Relation) (sources targets : List Nat) :
    List ((String × Nat) × (String × Nat)) :=
  List.zipWith (fun v w => ((r.sourceType, v), (r.targetType, w))) sources targets

/-- Edges for one relation, as one call takes them. -/
structure EdgeBatch where
  relation : Relation
  sources : List Nat
  targets : List Nat
deriving DecidableEq, Repr

/-- The edges of a batch. The kind of edge is not part of them. -/
def EdgeBatch.edges (b : EdgeBatch) : List ((String × Nat) × (String × Nat)) :=
  b.relation.pairs b.sources b.targets

theorem Relation.pairs_append (r : Relation) {sources targets : List Nat}
    (h : sources.length = targets.length) (sources' targets' : List Nat) :
    r.pairs (sources ++ sources') (targets ++ targets')
      = r.pairs sources targets ++ r.pairs sources' targets' :=
  List.zipWith_append h

namespace TypedGraph

/-- Adds batches of edges one after another. The first refusal ends it. -/
def addBatches : List EdgeBatch → Action TypedGraph GraphError Unit
  | [] => pure ()
  | b :: batches => do
    addEdges b.relation b.sources b.targets
    addBatches batches

variable {g g' : TypedGraph} {r : Relation} {sources targets : List Nat}

theorem numEdges_eq_length (hg : g.Sound) : g.numEdges = g.edges.length := by
  rw [← length_ids_mergedEdges hg .source, ids_mergedEdges_eq hg, List.length_map,
    List.length_map]

/-- Extending one relation adds the edges to those of all relations. -/
theorem perm_extendRelation (m n : Nat) {relations : List (Relation × EdgeList)}
    (hpaired : ∀ x ∈ relations, x.2.sources.length = x.2.targets.length) :
    ((extendRelation r (.empty m n) sources targets relations).flatMap
        fun x => x.1.pairs x.2.sources x.2.targets).Perm
      ((relations.flatMap fun x => x.1.pairs x.2.sources x.2.targets)
        ++ r.pairs sources targets) := by
  -- The relation is found somewhere on the way, or the end is reached without it.
  induction relations with
  | nil => simp [extendRelation, EdgeList.empty, EdgeList.append]
  | cons head relations ih =>
    rcases head with ⟨other, edges⟩
    have hhead := hpaired (other, edges) List.mem_cons_self
    by_cases hother : other = r
    · subst hother
      rw [extendRelation, if_pos rfl, List.flatMap_cons, List.flatMap_cons]
      simp only [EdgeList.append]
      rw [Relation.pairs_append other hhead, List.append_assoc, List.append_assoc]
      -- The edges of the later relations follow the new ones instead of preceding them.
      exact List.perm_append_comm.append_left _
    · rw [extendRelation, if_neg hother, List.flatMap_cons, List.flatMap_cons,
        List.append_assoc]
      exact (ih fun x hx => hpaired x (List.mem_cons_of_mem _ hx)).append_left _

theorem checkNodes_eq_ok {name : String} {count : Nat} {ids : List Nat}
    (hcount : g.typeCount? name = some count) (hids : ∀ id ∈ ids, id < count) :
    g.checkNodes name ids = .ok count := by
  have hnone : (ids.find? fun id => count ≤ id) = none := by
    rw [List.find?_eq_none]
    intro id hid
    have hlt := hids id hid
    simpa using hlt
  unfold checkNodes
  simp only [hcount, hnone]

/-- A call succeeds when its two lists are as long as each other and all nodes are there. -/
theorem addEdges_ok {m n : Nat} (hlength : sources.length = targets.length)
    (hm : g.checkNodes r.sourceType sources = .ok m)
    (hn : g.checkNodes r.targetType targets = .ok n) :
    addEdges r sources targets g = (.ok (), { g with
      relations := extendRelation r (.empty m n) sources targets g.relations }) := by
  unfold addEdges
  rw [Action.bind_ok (Action.run_get g), if_neg (not_not.mpr hlength), hm, hn]
  rfl

/-- A call that succeeds adds the edges that it was given, and leaves the types alone. -/
theorem edges_addEdges (hg : g.Sound)
    (h : addEdges r sources targets g = (.ok (), g')) :
    g'.nodeTypes = g.nodeTypes ∧ g'.edges.Perm (g.edges ++ r.pairs sources targets) := by
  rcases addEdges_cases r sources targets g with ⟨e, hrun⟩ | ⟨m, n, -, -, -, hrun⟩
  · rw [hrun] at h
    cases h
  · rw [hrun] at h
    obtain rfl := (Prod.mk.inj h).2
    exact ⟨rfl, perm_extendRelation m n fun x hx => (hg.edges x hx).paired⟩

/-- After some calls that succeed, the edges are those from before and those of all
    batches, in some order. The types are the same, and the graph is still sound. -/
theorem edges_addBatches (hg : g.Sound) {batches : List EdgeBatch}
    (h : addBatches batches g = (.ok (), g')) :
    g'.Sound ∧ g'.nodeTypes = g.nodeTypes ∧
      g'.edges.Perm (g.edges ++ batches.flatMap EdgeBatch.edges) := by
  -- Each call starts from what the calls before it have left.
  induction batches generalizing g with
  | nil =>
    obtain rfl := (Prod.mk.inj h).2
    exact ⟨hg, rfl, by simp⟩
  | cons b batches ih =>
    unfold addBatches at h
    rcases Action.bind_ok_iff.mp h with ⟨_, next, hfirst, hrest⟩
    have hnext : next.Sound := by
      have hkept := sound_addEdges hg b.relation b.sources b.targets
      rwa [hfirst] at hkept
    rcases edges_addEdges hg hfirst with ⟨htypes, hedges⟩
    rcases ih hnext hrest with ⟨hwell, htypes', hedges'⟩
    refine ⟨hwell, htypes'.trans htypes, ?_⟩
    rw [List.flatMap_cons, ← List.append_assoc]
    exact hedges'.trans (hedges.append_right _)

/-! ### What the edges decide -/

theorem position_eq_of_types (h : g.nodeTypes = g'.nodeTypes) : g.position = g'.position := by
  funext node
  unfold position typeOffset
  rw [h]

theorem numNodes_eq_of_types (h : g.nodeTypes = g'.nodeTypes) : g.numNodes = g'.numNodes := by
  unfold numNodes
  rw [h]

/-- With the same types and the same edges, in any order and in any relations, two graphs
    have the same numbers at either end of the merged edges. -/
theorem ends_perm (hg : g.Sound) (hg' : g'.Sound) (htypes : g.nodeTypes = g'.nodeTypes)
    (hedges : g.edges.Perm g'.edges) (side : EdgeEnd) :
    (side.ids g.mergedEdges).Perm (side.ids g'.mergedEdges) := by
  rw [ids_mergedEdges_eq hg, ids_mergedEdges_eq hg', position_eq_of_types htypes]
  exact (hedges.map _).map _

end TypedGraph

end GraphAttention
