import GraphAttention.Proofs.Graph.Degrees
import Mathlib.Algebra.BigOperators.Ring.Finset

/-!
# Degrees Add Up

Each edge enters one node and leaves one, so the degrees of all nodes add up to the
number of edges, whichever end is counted. For what the program counts this takes two
things. There are as many counters as nodes, which is true of a graph that was built, and
no number is passed over, because all ends of edges are nodes that there are. The second
is true if the types that the graph was built from have no more nodes together than a
machine word can hold. Otherwise merging may leave an edge without nodes to run between.

What a graph that was built does not promise is room. Its types may have any number of
nodes, and a counter for each of them takes eight bytes. Counting is refused for want of
room and for nothing else.

## Theorems

* `sum_count_range`: Occurrences of all numbers below a bound.
* `degreesAt_ok_iff`: When degrees are counted.
* `sum_degreesAt`: Degrees as a tensor add up to the number of edges.
* `conditions_and_degrees`: What is true of a graph that was built, and of its degrees.
* `not_forall_conditions_and_degrees`: A graph that was merged with too many nodes, and one
  with more nodes than there can be counters.
-/

namespace GraphAttention

namespace TypedGraph

variable {g : TypedGraph} {side : EdgeEnd} {t : Tensor}

/-- The numbers below a bound occur as often, taken together, as a list is long that holds
    no other numbers. -/
theorem sum_count_range {ids : List Nat} {n : Nat} (h : ∀ id ∈ ids, id < n) :
    ∑ v ∈ Finset.range n, ids.count v = ids.length := by
  have hmem : ∀ id ∈ (ids : Multiset Nat), id ∈ Finset.range n := fun id hid =>
    Finset.mem_range.mpr (h id hid)
  have hsum := Multiset.sum_count_eq_card hmem
  simpa only [Multiset.coe_count, Multiset.coe_card] using hsum

/-- The degrees of a graph that is counted without merging can be had exactly when there is
    room for the counters and for the ends of the edges. -/
theorem degreesAt_ok_iff (hg : g.Sound) (h : g.isHomogeneous = true) (side : EdgeEnd) :
    (∃ t, g.degreesAt side = .ok t) ↔ Shape.Fits 8 [g.numEdges] ∧ Shape.Fits 8 [g.numNodes] := by
  have hsame : g.collapsed = g := if_pos h
  rw [← countsFit_iff hg side]
  rcases degreesAt_outcome side g with ⟨hfit, t, ht, -⟩ | ⟨e, hfault, he⟩
  · rw [hsame] at ht
    exact ⟨fun _ => hfit, fun _ => ⟨t, ht⟩⟩
  · rw [hsame] at he
    refine ⟨fun hok => ?_, fun hfit => absurd hfit hfault.not_countsFit⟩
    rcases hok with ⟨t, ht⟩
    rw [he] at ht
    cases ht

/-- Degrees that were counted are one for each node. If edges run between nodes that there
    are, then they add up to the number of edges. -/
theorem sum_degreesAt (hg : g.Sound) (h : g.isHomogeneous = true)
    (ht : g.degreesAt side = .ok t) :
    t.Matches .int64 [g.numNodes] ∧ ((∀ id ∈ side.ids g.mergedEdges, id < g.numNodes) →
      ∑ v ∈ Finset.range g.numNodes, (t.entry .int64 [v]).toInt = g.numEdges) := by
  have hsame : g.collapsed = g := if_pos h
  rcases degreesAt_outcome side g with ⟨hfit, u, hu, hmatch, hentry⟩ | ⟨e, -, he⟩
  · rw [hsame, ht] at hu
    cases hu
    refine ⟨hmatch, fun hrange => ?_⟩
    rw [counted_eq hg] at hfit hentry
    -- No count is too large for an element, so adding elements is adding counts.
    have hcount : ∀ v ∈ Finset.range g.numNodes,
        (t.entry .int64 [v]).toInt = (((side.ids g.mergedEdges).count v : Nat) : Int) := by
      intro v hv
      rw [hentry v (Finset.mem_range.mp hv)]
      exact Int64.toInt_ofNat_of_lt (hfit.count_lt v)
    rw [Finset.sum_congr rfl hcount, ← Nat.cast_sum, sum_count_range hrange,
      length_ids_mergedEdges hg]
  · rw [hsame, ht] at he
    cases he

/-- Of every graph that was built from types whose nodes can each be counted in a machine
    word, whatever was done to it and whatever was refused: no name stands for two types, no
    relation appears twice, and the edges of every relation are pairs, whose types are there
    with as many nodes as the relation says. If it has one type and one relation at most, then
    its degrees at either end are counted exactly when there is room for a number for each
    edge and for each node, and they are one for each node. If the nodes of all types that it
    was built from can be counted in a machine word, then every edge runs between nodes that
    there are, and degrees add up to the number of edges. -/
theorem conditions_and_degrees {types : List (String × Nat)} (hg : g.BuiltFrom types)
    (hwords : ∀ type ∈ types, type.2 < wordCount) :
    g.Sound ∧
    (g.isHomogeneous = true → ∀ side : EdgeEnd,
      ((∃ t, g.degreesAt side = .ok t) ↔
        Shape.Fits 8 [g.numEdges] ∧ Shape.Fits 8 [g.numNodes]) ∧
      ∀ t, g.degreesAt side = .ok t → t.Matches .int64 [g.numNodes]) ∧
    ((types.map Prod.snd).sum < wordCount → g.InRange ∧
      (g.isHomogeneous = true → ∀ side : EdgeEnd, ∀ t, g.degreesAt side = .ok t →
        ∑ v ∈ Finset.range g.numNodes, (t.entry .int64 [v]).toInt = g.numEdges)) := by
  have hsound := hg.sound hwords
  refine ⟨hsound, fun h side => ⟨degreesAt_ok_iff hsound h side, fun t ht => ?_⟩, fun hsum => ?_⟩
  · exact (sum_degreesAt hsound h ht).1
  · rcases hg.inRange hsum with ⟨hrange, htotal⟩
    refine ⟨hrange, fun h side t ht => (sum_degreesAt hsound h ht).2 ?_⟩
    exact lt_of_mem_mergedEdges hsound hrange (htotal.trans_lt hsum) side

/-- Three nodes of one type, with a loop. -/
def threeNodes : TypedGraph :=
  ⟨[("a", 3)], [(⟨"a", "r", "a"⟩, ⟨3, 3, [0, 0, 2], [1, 2, 2]⟩)]⟩

theorem builtFrom_threeNodes : threeNodes.BuiltFrom [("a", 3)] :=
  have hmade : ofTypes [("a", 3)] = .ok ⟨[("a", 3)], []⟩ := rfl
  .addEdges ⟨"a", "r", "a"⟩ [0, 0, 2] [1, 2, 2] (.ofTypes hmade)

/-- An edge to a node that is not there is refused, and the degrees of the nodes that are
    there add up to the three edges from before. -/
theorem conditions_and_degrees_refused :
    addEdges ⟨"a", "r", "a"⟩ [0] [3] threeNodes = (.error (.nodeOutOfRange "a" 3 3), threeNodes) ∧
      threeNodes.Sound ∧ threeNodes.InRange ∧
      ∃ t, threeNodes.inDegrees = .ok t ∧ t.Matches .int64 [3] ∧
        ∑ v ∈ Finset.range 3, (t.entry .int64 [v]).toInt = 3 := by
  have hbuilt : threeNodes.BuiltFrom [("a", 3)] :=
    .addEdges ⟨"a", "r", "a"⟩ [0] [3] builtFrom_threeNodes
  rcases conditions_and_degrees hbuilt (by decide) with ⟨hsound, hdegrees, hcounted⟩
  rcases hcounted (by decide) with ⟨hrange, hsum⟩
  rcases hdegrees rfl .target with ⟨hok, hmatch⟩
  rcases hok.mpr ⟨by decide, by decide⟩ with ⟨t, ht⟩
  exact ⟨rfl, hsound, hrange, t, ht, hmatch t ht, hsum rfl .target t ht⟩

/-- Two types with half as many nodes each as there are machine words, and an edge from one
    to the other. -/
def twoHalves : TypedGraph :=
  ⟨[("a", 0x8000000000000000), ("b", 0x8000000000000000)],
    [(⟨"a", "to", "b"⟩, ⟨0x8000000000000000, 0x8000000000000000, [5], [7]⟩)]⟩

theorem reachable_twoHalves : twoHalves.Reachable := by
  have hmade : ofTypes twoHalves.nodeTypes = .ok ⟨twoHalves.nodeTypes, []⟩ := by decide
  exact .addEdges ⟨"a", "to", "b"⟩ [5] [7] (.ofTypes (by decide) hmade)

/-- Merged, two types of which each fits into a machine word may have no nodes left for their
    edges, and then no degree is counted. And a type may have more nodes than there can be
    counters. -/
theorem not_forall_conditions_and_degrees :
    (¬ ∀ g : TypedGraph, g.Reachable → g.InRange) ∧
    (¬ ∀ g : TypedGraph, g.Reachable → g.isHomogeneous = true → ∀ side : EdgeEnd,
      ∃ t, g.degreesAt side = .ok t) := by
  constructor
  · intro hall
    have hrange := hall twoHalves.merged reachable_twoHalves.merged _ List.mem_cons_self .source 5
    exact absurd (hrange (by decide)) (by decide)
  · intro hall
    let g : TypedGraph := ⟨[("a", 1152921504606846976)], []⟩
    have hmade : ofTypes [("a", 1152921504606846976)] = .ok g := rfl
    have hg : g.Reachable := .ofTypes (by decide) hmade
    rcases hall g hg rfl .target with ⟨t, ht⟩
    exact absurd ((degreesAt_ok_iff hg.sound rfl .target).mp ⟨t, ht⟩).2 (by decide)

end TypedGraph

end GraphAttention
