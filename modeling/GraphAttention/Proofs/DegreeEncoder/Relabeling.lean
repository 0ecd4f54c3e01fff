import GraphAttention.Proofs.DegreeEncoder.Alike
import Mathlib.Data.Set.Function

/-!
# Other Numbers for Nodes

The nodes of a graph with a single type are numbers, and which number a node has does not
matter to its degrees. If the numbers of all nodes are changed, each into another one and
no two into the same, a node takes its degrees along, and with them its vector. So the
vectors for the changed graph are those for the graph from before with the rows moved.

Turning every edge around exchanges the two ends, and the degrees that go with them. Both
facts are about counting a list, where the first changes the numbers in it and the second
changes which list is counted.

A refusal depends on neither. Graphs that have as many edges and as many nodes need the
same room, for counting as well as for the vectors.

## Main definitions

* `TypedGraph.single`: The graph with one type and one relation with given edges.
* `TypedGraph.PairsBelow`: These are edges between nodes that there are.
* `shortage?`: What refuses vectors for so many edges and nodes.

## Theorems

* `homogeneous_ok`, `counted_single`: Such a graph is built, and what is counted in it.
* `PairsBelow.turned`, `PairsBelow.relabeled`: So are the two graphs made of it.
* `count_map_of_injOn`: Counting under other numbers.
* `clampedDegrees_roomless`, `clampedDegrees_refused`, `forward_error_iff`: Refusals, by the
  size of a graph only.
* `forward_single_error_iff`, `forward_single_ok_iff`, `forward_single_rows`: Vectors for the
  nodes of a single type.
* `clampedDegrees_swapped`, `clampedDegrees_turned`: Edges turned around.
* `rowOf_relabeled`, `forward_relabeled`: Degrees and vectors under other numbers.
-/

namespace GraphAttention

namespace TypedGraph

variable {n : Nat} {sources targets : List Nat}

/-- The graph with nodes of one type and edges of one relation. -/
def single (n : Nat) (sources targets : List Nat) : TypedGraph :=
  ⟨[(homogeneousType, n)], [(.homogeneous, ⟨n, n, sources, targets⟩)]⟩

/-- As many sources as targets, and all of them among so many nodes. -/
structure PairsBelow (n : Nat) (sources targets : List Nat) : Prop where
  paired : sources.length = targets.length
  source : ∀ id ∈ sources, id < n
  target : ∀ id ∈ targets, id < n

theorem PairsBelow.turned (h : PairsBelow n sources targets) : PairsBelow n targets sources :=
  ⟨h.paired.symm, h.target, h.source⟩

theorem PairsBelow.relabeled (h : PairsBelow n sources targets) {π : Nat → Nat}
    (hπ : Set.MapsTo π (Set.Iio n) (Set.Iio n)) :
    PairsBelow n (sources.map π) (targets.map π) := by
  have hmoved : ∀ {ids : List Nat}, (∀ id ∈ ids, id < n) → ∀ id ∈ ids.map π, id < n := by
    intro ids hids id hid
    rcases List.mem_map.mp hid with ⟨v, hv, rfl⟩
    exact hπ (hids v hv)
  exact ⟨by simpa using h.paired, hmoved h.source, hmoved h.target⟩

/-- Edges between nodes that there are make a graph. -/
theorem homogeneous_ok (h : PairsBelow n sources targets) :
    homogeneous n sources targets = .ok (single n sources targets) := by
  have hcount : typeCount? ⟨[(homogeneousType, n)], [(.homogeneous, .empty n n)]⟩ homogeneousType
      = some n := rfl
  have hadded := addEdges_ok (r := .homogeneous) h.paired (checkNodes_eq_ok hcount h.source)
    (checkNodes_eq_ok hcount h.target)
  unfold homogeneous
  simp only [hadded]
  rfl

theorem PairsBelow.sound (h : PairsBelow n sources targets) (hn : n < wordCount) :
    (single n sources targets).Sound :=
  sound_homogeneous hn (homogeneous_ok h)

/-- The edges are counted as they were given, with as many counters as nodes. -/
@[simp] theorem counted_single (side : EdgeEnd) :
    (single n sources targets).counted side = side.pick sources targets := rfl

@[simp] theorem counters_single (side : EdgeEnd) :
    (single n sources targets).collapsed.counters side = n := by
  cases side <;> rfl

theorem numNodes_single (hn : n < wordCount) : (single n sources targets).numNodes = n := by
  rw [numNodes_eq, total, single, List.map_singleton, List.sum_singleton, wrap_of_lt hn]

@[simp] theorem numEdges_single : (single n sources targets).numEdges = sources.length :=
  Nat.zero_add _

/-- Numbers that are changed into different ones are counted as before. -/
theorem count_map_of_injOn {π : Nat → Nat} (hπ : Set.InjOn π (Set.Iio n)) {ids : List Nat}
    (hids : ∀ id ∈ ids, id < n) {v : Nat} (hv : v < n) :
    (ids.map π).count (π v) = ids.count v := by
  unfold List.count
  rw [List.countP_map]
  refine List.countP_congr fun id hid => ?_
  simp only [Function.comp, beq_iff_eq]
  constructor
  · intro heq
    exact hπ (hids id hid) hv heq
  · intro heq
    rw [heq]

end TypedGraph

namespace DegreeEncoder

variable {c : DegreeConfig} {e : DegreeEncoder} {g g' : TypedGraph} {side : EdgeEnd}
  {n : Nat} {sources targets : List Nat}

/-! ### Refusals -/

/-- With room for counting there are rows for either end. -/
theorem rowsAt_roomy (hg : g.Sound) {largest : Nat} (hlargest : largest < 2 ^ 63)
    (hroom : Shape.Fits 8 [g.numEdges] ∧ Shape.Fits 8 [g.numNodes]) (side : EdgeEnd) :
    ∃ t, rowsAt side g largest = .ok t := by
  rcases rowsAt_outcome side g hlargest with ⟨-, t, ht, -⟩ | ⟨x, hx, -⟩
  · exact ⟨t, ht⟩
  · exact absurd ((TypedGraph.countsFit_iff hg side).mpr hroom) hx.not_countsFit

/-- Without room for counting, the report speaks of sizes only. -/
theorem clampedDegrees_roomless {m n : Nat} (hlist : (g.counted .target).length = m)
    (hcounters : g.collapsed.counters .target = n)
    (hroom : ¬ (Shape.Fits 8 [m] ∧ Shape.Fits 8 [n])) (e : DegreeEncoder) :
    e.clampedDegrees g = .error (.graph (.tensor (.unaddressable (oversized m n)))) := by
  rw [clampedDegrees_eq]
  unfold rowsAt
  rw [TypedGraph.degreesAt_roomless hlist hcounters hroom]
  rfl

/-- The sizes of a graph that was built are the numbers of its edges and of its nodes. -/
theorem clampedDegrees_refused (hg : g.Sound)
    (hroom : ¬ (Shape.Fits 8 [g.numEdges] ∧ Shape.Fits 8 [g.numNodes])) (e : DegreeEncoder) :
    e.clampedDegrees g
      = .error (.graph (.tensor (.unaddressable (oversized g.numEdges g.numNodes)))) :=
  clampedDegrees_roomless
    ((TypedGraph.length_counted .target g).trans (TypedGraph.length_ids_mergedEdges hg .target))
    (TypedGraph.counters_collapsed hg .target) hroom e

/-- Why there are no vectors for so many edges and nodes: there is no room for counting, or
    none for the vectors. -/
def shortage? (c : DegreeConfig) (numEdges numNodes : Nat) : Option ModuleError :=
  if Shape.Fits 8 [numEdges] ∧ Shape.Fits 8 [numNodes] then
    if Shape.Fits c.dtype.width [numNodes, c.embeddingDim] then none
    else some (.tensor (.unaddressable [numNodes, c.embeddingDim]))
  else some (.graph (.tensor (.unaddressable (oversized numEdges numNodes))))

/-- Vectors for a graph that was built are refused for want of room, and only then. -/
theorem forward_error_iff (hc : c.validate = .ok ()) (h : Follows c e) (hg : g.Sound)
    (x : ModuleError) :
    e.forward g = .error x ↔ shortage? c g.numEdges g.numNodes = some x := by
  unfold shortage?
  by_cases hroom : Shape.Fits 8 [g.numEdges] ∧ Shape.Fits 8 [g.numNodes]
  · rw [if_pos hroom]
    by_cases hvectors : Shape.Fits c.dtype.width [g.numNodes, c.embeddingDim]
    · rcases (forward_ok_iff hc h hg).mpr ⟨hroom.1, hroom.2, hvectors⟩ with ⟨out, hout⟩
      simp [hout, hvectors]
    · have hcountable : ∀ side, Countable side g := fun side =>
        (TypedGraph.countsFit_iff hg side).mpr hroom
      have hfail : e.forward g
          = .error (.tensor (.unaddressable [g.numNodes, c.embeddingDim])) := by
        rcases forward_cases h g with ⟨y, hy, -⟩ | ⟨-, -, ⟨-, hfail⟩ | ⟨hvectors', -⟩⟩
        · exact absurd ⟨hcountable .target, hcountable .source⟩ hy.not_countable
        · exact hfail
        · exact absurd hvectors'.2 hvectors
      simp [hfail, hvectors]
  · simp [forward_error (clampedDegrees_refused hg hroom e), hroom]

/-! ### Graphs of a single type -/

/-- There are no vectors for want of room exactly if a size is too large. -/
theorem shortage?_eq_none {numEdges numNodes : Nat} :
    shortage? c numEdges numNodes = none ↔ Shape.Fits 8 [numEdges] ∧ Shape.Fits 8 [numNodes] ∧
      Shape.Fits c.dtype.width [numNodes, c.embeddingDim] := by
  unfold shortage?
  split_ifs <;> simp_all

/-- Without room for counting, so many edges and nodes are refused. -/
theorem clampedDegrees_single (hlength : sources.length = targets.length)
    (hroom : ¬ (Shape.Fits 8 [sources.length] ∧ Shape.Fits 8 [n])) (e : DegreeEncoder) :
    e.clampedDegrees (.single n sources targets)
      = .error (.graph (.tensor (.unaddressable (oversized sources.length n)))) :=
  clampedDegrees_roomless (g := .single n sources targets) hlength.symm
    (TypedGraph.counters_single .target) hroom e

/-- What can be counted in an array can be counted in a machine word. -/
theorem lt_wordCount_of_fits (h : Shape.Fits 8 [n]) : n < wordCount :=
  Nat.lt_of_le_of_lt (Shape.length_le_of_fits (by decide) h) (by decide)

/-- Vectors for nodes of a single type are refused for want of room, and only then, also if
    the nodes are more than a machine word can count. -/
theorem forward_single_error_iff (hc : c.validate = .ok ()) (h : Follows c e)
    (hedges : TypedGraph.PairsBelow n sources targets) (x : ModuleError) :
    e.forward (.single n sources targets) = .error x
      ↔ shortage? c sources.length n = some x := by
  by_cases hroom : Shape.Fits 8 [sources.length] ∧ Shape.Fits 8 [n]
  · have hn := lt_wordCount_of_fits hroom.2
    have herror := forward_error_iff hc h (hedges.sound hn) x
    rwa [TypedGraph.numEdges_single, TypedGraph.numNodes_single hn] at herror
  · simp [forward_error (clampedDegrees_single hedges.paired hroom e), shortage?, hroom]

theorem forward_single_ok_iff (hc : c.validate = .ok ()) (h : Follows c e)
    (hedges : TypedGraph.PairsBelow n sources targets) :
    (∃ out, e.forward (.single n sources targets) = .ok out) ↔
      Shape.Fits 8 [sources.length] ∧ Shape.Fits 8 [n] ∧
        Shape.Fits c.dtype.width [n, c.embeddingDim] := by
  rw [← shortage?_eq_none, Option.eq_none_iff_forall_ne_some]
  have herror := forward_single_error_iff hc h hedges
  cases hrun : e.forward (.single n sources targets) with
  | ok out =>
    refine iff_of_true ⟨out, rfl⟩ fun x hx => ?_
    rw [← herror, hrun] at hx
    cases hx
  | error x => exact iff_of_false nofun fun hnone => hnone x ((herror x).mp hrun)

theorem forward_single_rows (hc : c.validate = .ok ()) (h : Follows c e)
    (hedges : TypedGraph.PairsBelow n sources targets) {out : Tensor}
    (hout : e.forward (.single n sources targets) = .ok out) :
    out.Matches c.dtype [n, c.embeddingDim] ∧
      ∀ v j, v < n → j < c.embeddingDim → out.entry c.dtype [v, j]
        = e.tables.vectorAt c.dtype (rowOf .target (.single n sources targets) c.maxDegree v)
            (rowOf .source (.single n sources targets) c.maxDegree v) j := by
  have hfits := (forward_single_ok_iff hc h hedges).mp ⟨out, hout⟩
  have hrows := forward_rows h hout
  rwa [TypedGraph.numNodes_single (lt_wordCount_of_fits hfits.2.1)] at hrows

/-! ### Edges turned around -/

/-- If each end of the edges of one graph is the other end of those of another, their
    degrees are exchanged. -/
theorem clampedDegrees_swapped (hg : g.Sound) (hg' : g'.Sound)
    (hlargest : e.maxDegree < 2 ^ 63) (hnodes : g'.numNodes = g.numNodes)
    (hentering : (EdgeEnd.target.ids g'.mergedEdges).Perm (EdgeEnd.source.ids g.mergedEdges))
    (hleaving : (EdgeEnd.source.ids g'.mergedEdges).Perm (EdgeEnd.target.ids g.mergedEdges)) :
    e.clampedDegrees g' = (e.clampedDegrees g).map Prod.swap := by
  have hedges : g'.numEdges = g.numEdges := by
    rw [← TypedGraph.length_ids_mergedEdges hg .source, ← hentering.length_eq,
      TypedGraph.length_ids_mergedEdges hg']
  by_cases hroom : Shape.Fits 8 [g.numEdges] ∧ Shape.Fits 8 [g.numNodes]
  · rcases rowsAt_roomy hg hlargest hroom .target with ⟨entering, hin⟩
    rcases rowsAt_roomy hg hlargest hroom .source with ⟨leaving, hout⟩
    rw [clampedDegrees_eq, clampedDegrees_eq, rowsAt_eq_of_perm hg' hg hnodes hentering,
      rowsAt_eq_of_perm hg' hg hnodes hleaving, hin, hout]
    rfl
  · have hroom' : ¬ (Shape.Fits 8 [g'.numEdges] ∧ Shape.Fits 8 [g'.numNodes]) := by
      rwa [hedges, hnodes]
    rw [clampedDegrees_refused hg hroom, clampedDegrees_refused hg' hroom', hedges, hnodes]
    rfl

/-- With the edges turned around, the degrees at the two ends are exchanged. -/
theorem clampedDegrees_turned (hlargest : e.maxDegree < 2 ^ 63)
    (hedges : TypedGraph.PairsBelow n sources targets) :
    e.clampedDegrees (.single n targets sources)
      = (e.clampedDegrees (.single n sources targets)).map Prod.swap := by
  by_cases hroom : Shape.Fits 8 [sources.length] ∧ Shape.Fits 8 [n]
  · have hn := lt_wordCount_of_fits hroom.2
    have hsound := hedges.sound hn
    have hsound' := hedges.turned.sound hn
    refine clampedDegrees_swapped hsound hsound' hlargest ?_ ?_ ?_
    · rw [TypedGraph.numNodes_single hn, TypedGraph.numNodes_single hn]
    · rw [← TypedGraph.counted_eq hsound, ← TypedGraph.counted_eq hsound']
      exact List.Perm.refl _
    · rw [← TypedGraph.counted_eq hsound, ← TypedGraph.counted_eq hsound']
      exact List.Perm.refl _
  · -- Both graphs ask for the same room, and there is none.
    have hroom' : ¬ (Shape.Fits 8 [targets.length] ∧ Shape.Fits 8 [n]) := by
      rwa [← hedges.paired]
    rw [clampedDegrees_single hedges.paired hroom,
      clampedDegrees_single hedges.paired.symm hroom', hedges.paired]
    rfl

/-! ### Nodes under other numbers -/

/-- A node under another number looks up the same row. -/
theorem rowOf_relabeled {π : Nat → Nat} (hπ : Set.InjOn π (Set.Iio n))
    (hedges : TypedGraph.PairsBelow n sources targets) (side : EdgeEnd) (largest : Nat)
    {v : Nat} (hv : v < n) :
    rowOf side (.single n (sources.map π) (targets.map π)) largest (π v)
      = rowOf side (.single n sources targets) largest v := by
  unfold rowOf
  rw [TypedGraph.counted_single, TypedGraph.counted_single]
  cases side with
  | source => exact congrArg (min · largest) (TypedGraph.count_map_of_injOn hπ hedges.source hv)
  | target => exact congrArg (min · largest) (TypedGraph.count_map_of_injOn hπ hedges.target hv)

/-- Edges between nodes below a bound make a graph, also when the nodes are given other
    numbers below the bound, and when the edges are turned around. An encoder, whatever was
    done to it since it was built, has vectors for the first graph exactly when there is
    room. For the second graph it is refused alike, and otherwise each vector stands in the
    row of the new number of its node. For the third graph the degrees at the two ends are
    exchanged. -/
theorem forward_relabeled {G : Type} [NormalSource G] (he : Reached G c e)
    (hlength : sources.length = targets.length) (hsources : ∀ id ∈ sources, id < n)
    (htargets : ∀ id ∈ targets, id < n) {π : Nat → Nat}
    (hπ : Set.BijOn π (Set.Iio n) (Set.Iio n)) :
    ∃ g moved turned : TypedGraph,
      TypedGraph.homogeneous n sources targets = .ok g ∧
      TypedGraph.homogeneous n (sources.map π) (targets.map π) = .ok moved ∧
      TypedGraph.homogeneous n targets sources = .ok turned ∧
      ((∃ out, e.forward g = .ok out) ↔ Shape.Fits 8 [sources.length] ∧ Shape.Fits 8 [n] ∧
        Shape.Fits c.dtype.width [n, c.embeddingDim]) ∧
      (∀ x, e.forward moved = .error x ↔ e.forward g = .error x) ∧
      (∀ out out', e.forward g = .ok out → e.forward moved = .ok out' →
        out.Matches c.dtype [n, c.embeddingDim] ∧ out'.Matches c.dtype [n, c.embeddingDim] ∧
        ∀ v j, v < n → j < c.embeddingDim →
          out'.entry c.dtype [π v, j] = out.entry c.dtype [v, j]) ∧
      e.clampedDegrees turned = (e.clampedDegrees g).map Prod.swap := by
  rcases he.follows with ⟨hc, h⟩
  have hlargest : e.maxDegree < 2 ^ 63 := by
    rw [h.maxDegree]
    exact h.maxDegree_lt
  -- All three graphs are of a single type, with edges between nodes that there are.
  have hedges : TypedGraph.PairsBelow n sources targets := ⟨hlength, hsources, htargets⟩
  have hedges' := hedges.relabeled hπ.mapsTo
  refine ⟨_, _, _, TypedGraph.homogeneous_ok hedges, TypedGraph.homogeneous_ok hedges',
    TypedGraph.homogeneous_ok hedges.turned, forward_single_ok_iff hc h hedges, fun x => ?_,
    fun out out' hout hout' => ?_, clampedDegrees_turned hlargest hedges⟩
  · rw [forward_single_error_iff hc h hedges', forward_single_error_iff hc h hedges,
      List.length_map]
  · rcases forward_single_rows hc h hedges hout with ⟨hmatch, hentry⟩
    rcases forward_single_rows hc h hedges' hout' with ⟨hmatch', hentry'⟩
    refine ⟨hmatch, hmatch', fun v j hv hj => ?_⟩
    rw [hentry' (π v) j (hπ.mapsTo hv) hj, hentry v j hv hj,
      rowOf_relabeled hπ.injOn hedges .target _ hv, rowOf_relabeled hπ.injOn hedges .source _ hv]

/-- Three nodes with the numbers moved up by one, the last to the first. The node that two
    edges enter, one of them its own, takes its vector from the last row to the first. -/
theorem forward_relabeled_movedUp :
    ∃ (g moved : TypedGraph) (e : DegreeEncoder) (out out' : Tensor),
      TypedGraph.homogeneous 3 [0, 0, 2] [1, 2, 2] = .ok g ∧
      TypedGraph.homogeneous 3 [1, 1, 0] [2, 0, 0] = .ok moved ∧
      Reached SplitMix ⟨3, 1, .both, .float64⟩ e ∧
      e.forward g = .ok out ∧ e.forward moved = .ok out' ∧
      out'.entry .float64 [0, 0] = out.entry .float64 [2, 0] := by
  have hπ : Set.BijOn (fun v => (v + 1) % 3) (Set.Iio 3) (Set.Iio 3) := by
    refine ⟨fun v _ => Nat.mod_lt _ (by omega), fun v hv w hw heq => ?_, fun w hw => ?_⟩
    · simp only [Set.mem_Iio] at hv hw heq
      omega
    · simp only [Set.mem_Iio] at hw
      exact ⟨(w + 2) % 3, Nat.mod_lt _ (by omega), by simp only; omega⟩
  have hlength : [0, 0, 2].length = [1, 2, 2].length := rfl
  have hsources : ∀ id ∈ [0, 0, 2], id < 3 := by decide
  have htargets : ∀ id ∈ [1, 2, 2], id < 3 := by decide
  have hsingle := TypedGraph.homogeneous_ok ⟨hlength, hsources, htargets⟩
  have hsound := TypedGraph.sound_homogeneous (by decide) hsingle
  rcases exists_vectors hsound (by decide) (by decide) with ⟨e, out, he, hout⟩
  rcases forward_relabeled he hlength hsources htargets hπ with
    ⟨g, moved, -, hg, hmoved, -, -, herror, hrows, -⟩
  obtain rfl := Except.ok.inj (hsingle.symm.trans hg)
  cases hout' : e.forward moved with
  | error x =>
    rw [herror x, hout] at hout'
    cases hout'
  | ok out' =>
    have hentry := (hrows out out' hout hout').2.2 2 0 (by omega) (by decide)
    exact ⟨_, moved, e, out, out', hg, hmoved, he, hout, hout', hentry⟩

end DegreeEncoder

end GraphAttention
