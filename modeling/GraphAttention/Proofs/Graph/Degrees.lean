import GraphAttention.Proofs.Entries
import GraphAttention.Proofs.Graph.Reachable

/-!
# Counting Degrees

The degree of a node is the number of edges that have it at one end. Said in this
way it needs the edges of a graph as pairs of nodes, each with its type, and nothing
of how they are stored. What the program counts are numbers in one long list, the
nodes of all relations moved up by the nodes before their types. The two agree in a
graph that was built and whose nodes can all be counted in a machine word, where
moving up never makes one node of two.

The program does not always merge before it counts. A graph with one type and one
relation is counted as it stands, which gives the same list for a graph that was
built, because there are no types to come before, but makes as many counters as the
relation says there are nodes. That number is the one thing that can be wrong in a
graph that was read from a file, and only in a graph that is not merged.

## Main definitions

* `TypedGraph.edges`: The edges as pairs of nodes with their types.
* `TypedGraph.degree`: How many edges have a node at one end.
* `TypedGraph.position`: The number of a node after merging.
* `TypedGraph.Numbered`: Nodes can be told apart by their numbers.
* `TypedGraph.collapsed`, `TypedGraph.counted`: The graph whose degrees are counted, and
  the list that is counted.
* `CountsFit`, `CountFault`: Nodes can be counted, or why they cannot.

## Theorems

* `occurrences_getD`: Counting, read at one number.
* `ids_mergedEdges_eq`: The edges of the merged graph are those of the graph.
* `eq_of_offset_eq`, `position_injective`: Two nodes do not get one number.
* `eq_of_position_eq`, `count_position`: Occurrences of a number are the degree of its
  node.
* `counted_eq`: What is counted in a graph that was built.
* `countsFit_iff`: When the degrees of a graph that was built can be counted.
* `count_outcome`, `degreesAt_outcome`: Degrees as a tensor, or why there are none.
-/

namespace GraphAttention

/-! ### Occurrences -/

theorem foldl_modify_getD (ids : List Nat) (counts : Array Nat) {v : Nat} (hv : v < counts.size) :
    (ids.foldl (fun counts id => counts.modify id (· + 1)) counts).getD v 0
      = counts.getD v 0 + ids.count v := by
  -- The counters vary in the induction, because each number changes one of them.
  induction ids generalizing counts with
  | nil => simp
  | cons id ids ih =>
    rw [List.foldl_cons, ih _ (by simpa using hv), List.count_cons]
    by_cases hid : id = v
    · subst hid
      simp [Array.getElem_modify, hv]
      omega
    · simp [Array.getElem_modify, hv, hid]

theorem size_occurrences (ids : List Nat) (n : Nat) : (occurrences ids n).size = n := by
  have hfold : ∀ (ids : List Nat) (counts : Array Nat),
      (ids.foldl (fun counts id => counts.modify id (· + 1)) counts).size = counts.size := by
    intro ids
    induction ids with
    | nil => simp
    | cons id ids ih =>
      intro counts
      rw [List.foldl_cons, ih, Array.size_modify]
  rw [occurrences, hfold, Array.size_replicate]

/-- A number is counted as often as it occurs. -/
theorem occurrences_getD (ids : List Nat) {n v : Nat} (hv : v < n) :
    (occurrences ids n).getD v 0 = ids.count v := by
  rw [occurrences, foldl_modify_getD ids _ (by simpa using hv)]
  simp [hv]

/-- Why the nodes of a graph cannot be counted: there is no room for the list or for
    the counters, or there are not as many counters as nodes. -/
inductive CountFault (ids : List Nat) (m n : Nat) : TensorError → Prop
  | longList (h : ¬ Shape.Fits 8 [ids.length]) : CountFault ids m n (.unaddressable [ids.length])
  | manyCounters (h : ¬ Shape.Fits 8 [m]) : CountFault ids m n (.unaddressable [m])
  | otherCount (h : m ≠ n) : CountFault ids m n (.shapeMismatch [n] [m])

/-- There is room for a list and for as many counters as there are nodes. -/
structure CountsFit (ids : List Nat) (m n : Nat) : Prop where
  list : Shape.Fits 8 [ids.length]
  counters : Shape.Fits 8 [m]
  nodes : m = n

/-- No number occurs more often than there is room for. -/
theorem CountsFit.count_lt {ids : List Nat} {m n : Nat} (h : CountsFit ids m n) (v : Nat) :
    ids.count v < 2 ^ 63 :=
  have hlist : ids.length < 2 ^ 63 :=
    Nat.lt_of_le_of_lt (Shape.length_le_of_fits (by decide) h.list) (by decide)
  Nat.lt_of_le_of_lt List.count_le_length hlist

/-- Nodes that can be counted are not refused. -/
theorem CountFault.not_countsFit {ids : List Nat} {m n : Nat} {e : TensorError}
    (h : CountFault ids m n e) : ¬ CountsFit ids m n := by
  intro hfit
  cases h with
  | longList h => exact h hfit.list
  | manyCounters h => exact h hfit.counters
  | otherCount h => exact h hfit.nodes

/-- Counts as a tensor, or why there are none. -/
theorem count_outcome (ids : List Nat) (m : Nat) {n : Nat} (hn : n < wordCount) :
    (CountsFit ids m n ∧ ∃ t : Tensor, (do
        let numbers ← countOccurrences ids m
        Tensor.ofElements .int64 (numbers.map Int64.ofNat) [n]) = .ok t ∧
      t.Matches .int64 [n] ∧ ∀ v, v < n → t.entry .int64 [v] = Int64.ofNat (ids.count v)) ∨
    ∃ e, CountFault ids m n e ∧ (do
        let numbers ← countOccurrences ids m
        Tensor.ofElements .int64 (numbers.map Int64.ofNat) [n]) = .error e := by
  by_cases hlist : Shape.Fits 8 [ids.length]
  · by_cases hcounters : Shape.Fits 8 [m]
    · have hcount : countOccurrences ids m = .ok (occurrences ids m) := by
        rw [countOccurrences, if_neg (not_not.mpr hlist), if_pos hcounters]
      have hsize : ((occurrences ids m).map Int64.ofNat).size = m := by
        rw [Array.size_map, size_occurrences]
      have hshape : ∀ k, Shape.size [k] = k := fun k => Nat.mul_one k
      rw [hcount]
      by_cases hnodes : m = n
      · subst hnodes
        let counts : DenseArray (DType.Elem .int64) :=
          ⟨[m], (occurrences ids m).map Int64.ofNat, hsize.trans (hshape m).symm⟩
        have hroom : Shape.Allocatable (DType.width .int64) counts.shape :=
          Shape.allocatable_vector (by decide) hcounters
        refine .inl ⟨⟨hlist, hcounters, rfl⟩, ⟨.int64, counts, hroom⟩,
          Tensor.ofElements_ok (d := .int64) _ hroom, ⟨rfl, rfl⟩, fun v hv => ?_⟩
        have hlt : v < (occurrences ids m).size := by rwa [size_occurrences]
        refine (Tensor.entry_mk counts hroom [v]).trans ?_
        rw [← occurrences_getD ids hv]
        simp [counts, DenseArray.get, Shape.ravel, hlt]
      · refine .inr ⟨_, .otherCount hnodes, ?_⟩
        have hother : ((occurrences ids m).map Int64.ofNat).size ≠ Shape.numel [n] := by
          rw [hsize, Shape.numel_eq, hshape, wrap_of_lt hn]
          exact hnodes
        change Tensor.ofElements .int64 ((occurrences ids m).map Int64.ofNat) [n] = _
        rw [Tensor.ofElements, if_pos hother, hsize]
    · refine .inr ⟨_, .manyCounters hcounters, ?_⟩
      rw [countOccurrences, if_neg (not_not.mpr hlist), if_neg hcounters]
      rfl
  · refine .inr ⟨_, .longList hlist, ?_⟩
    rw [countOccurrences, if_pos hlist]
    rfl

namespace TypedGraph

variable {g : TypedGraph}

/-! ### Edges and nodes -/

/-- The edges as pairs of nodes, a node being its type and its number there. -/
def edges (g : TypedGraph) : List ((String × Nat) × (String × Nat)) :=
  g.relations.flatMap fun r =>
    List.zipWith (fun v w => ((r.1.sourceType, v), (r.1.targetType, w))) r.2.sources r.2.targets

/-- How many edges have a node at one end. -/
def degree (side : EdgeEnd) (g : TypedGraph) (node : String × Nat) : Nat :=
  g.edges.countP fun edge => side.pick edge.1 edge.2 = node

/-- The number of a node after merging. -/
def position (g : TypedGraph) (node : String × Nat) : Nat := wrap (g.typeOffset node.1 + node.2)

/-- The graph has the type, and the type has the node. -/
def HasNode (g : TypedGraph) (node : String × Nat) : Prop :=
  ∃ count, g.typeCount? node.1 = some count ∧ node.2 < count

/-- A graph that was built and whose nodes can all be counted in a machine word. Its nodes
    are told apart by their numbers, and from what else edges may run between. -/
structure Numbered (g : TypedGraph) : Prop extends g.Sound where
  located : g.Located
  counted : g.total < wordCount

theorem Reachable.numbered (hg : g.Reachable) (htotal : g.total < wordCount) : g.Numbered :=
  ⟨hg.sound, hg.located, htotal⟩

theorem map_pick_zipWith (side : EdgeEnd) (s t : String) {sources targets : List Nat}
    (h : sources.length = targets.length) :
    (List.zipWith (fun v w => ((s, v), (t, w))) sources targets).map
        (fun edge => side.pick edge.1 edge.2)
      = (side.pick sources targets).map fun v => (side.pick s t, v) := by
  induction sources generalizing targets with
  | nil =>
    obtain rfl : targets = [] := List.eq_nil_of_length_eq_zero h.symm
    cases side <;> rfl
  | cons v sources ih =>
    cases targets with
    | nil => simp at h
    | cons w targets =>
      rw [List.zipWith_cons_cons, List.map_cons, ih (by simpa using h)]
      cases side <;> rfl

/-- The nodes at one end of the edges. -/
theorem map_pick_edges (hg : g.Sound) (side : EdgeEnd) :
    g.edges.map (fun edge => side.pick edge.1 edge.2)
      = g.relations.flatMap fun r => (side.ids r.2).map fun v => (side.typeName r.1, v) := by
  rw [edges, List.map_flatMap]
  refine List.flatMap_congr fun r hr => ?_
  exact map_pick_zipWith side _ _ (hg.edges r hr).paired

/-- The edges of the merged graph are those of the graph, their nodes renumbered. -/
theorem ids_mergedEdges_eq (hg : g.Sound) (side : EdgeEnd) :
    side.ids g.mergedEdges
      = (g.edges.map fun edge => side.pick edge.1 edge.2).map g.position := by
  rw [map_pick_edges hg, ids_mergedEdges, List.map_flatMap]
  refine List.flatMap_congr fun r _ => ?_
  rw [List.map_map]
  exact List.map_congr_left fun v _ => congrArg wrap (Nat.add_comm _ _)

/-- An end of an edge has a type that is there, and is a node of it if edges run between
    nodes that there are. -/
theorem type_of_mem_edges (hg : g.Sound) (side : EdgeEnd) :
    ∀ node ∈ g.edges.map (fun edge => side.pick edge.1 edge.2),
      ∃ count, g.typeCount? node.1 = some count ∧ node.2 < wordCount ∧
        (g.InRange → node.2 < count) := by
  intro node hnode
  rw [map_pick_edges hg, List.mem_flatMap] at hnode
  rcases hnode with ⟨r, hr, hnode⟩
  rcases List.mem_map.mp hnode with ⟨v, hv, rfl⟩
  exact ⟨_, (hg.edges r hr).count side, (hg.edges r hr).word side v hv,
    fun hrange => hrange r hr side v hv⟩

/-- A node is numbered from where its type begins. -/
theorem position_of_split {before after : List (String × Nat)} {name : String} {count : Nat}
    (h : g.nodeTypes = before ++ (name, count) :: after) (hnew : name ∉ before.map Prod.fst)
    (v : Nat) : g.position (name, v) = wrap ((before.map Prod.snd).sum + v) := by
  rw [position, typeOffset_of_split h hnew, wrap_wrap_add]

/-- Where all nodes can be counted, so can those before a node. -/
theorem position_eq_add {before after : List (String × Nat)} {name : String} {count v : Nat}
    (h : g.nodeTypes = before ++ (name, count) :: after) (hnew : name ∉ before.map Prod.fst)
    (htotal : g.total < wordCount) (hv : v < count) :
    g.position (name, v) = (before.map Prod.snd).sum + v := by
  have hsum := (sum_lt_of_split h htotal).1
  rw [position_of_split h hnew, wrap_of_lt (by omega)]

/-- Laid end to end, a type begins after all nodes of a type before it, so one number is
    one of the same type. -/
theorem eq_of_offset_eq {s t : String} {m n v w : Nat}
    {before between after after' : List (String × Nat)}
    (heq : (s, m) :: after = between ++ (t, n) :: after') (hv : v < m)
    (h : (before.map Prod.snd).sum + v = ((before ++ between).map Prod.snd).sum + w) :
    (s, v) = (t, w) := by
  cases between with
  | nil =>
    simp only [List.nil_append, List.cons.injEq, Prod.mk.injEq] at heq
    rw [List.append_nil] at h
    rw [heq.1.1, Nat.add_left_cancel h]
  | cons type between =>
    -- The first type between is the one of the smaller node.
    simp only [List.cons_append, List.cons.injEq] at heq
    obtain rfl := heq.1
    simp only [List.map_append, List.map_cons, List.sum_append, List.sum_cons] at h
    omega

/-- Two nodes do not get one number. -/
theorem position_injective (htotal : g.total < wordCount) {a b : String × Nat}
    (ha : g.HasNode a) (hb : g.HasNode b) (h : g.position a = g.position b) : a = b := by
  rcases a with ⟨s, v⟩
  rcases b with ⟨t, w⟩
  rcases ha with ⟨m, hs, hv⟩
  rcases hb with ⟨n, ht, hw⟩
  rcases split_of_typeCount? hs with ⟨before, after, hsplit, hnew⟩
  rcases split_of_typeCount? ht with ⟨before', after', hsplit', hnew'⟩
  rw [position_eq_add hsplit hnew htotal hv, position_eq_add hsplit' hnew' htotal hw] at h
  rw [hsplit] at hsplit'
  -- The type of one node comes before the type of the other, or they are the same.
  rcases List.append_eq_append_iff.mp hsplit' with ⟨between, rfl, heq⟩ | ⟨between, rfl, heq⟩
  · exact eq_of_offset_eq heq hv h
  · exact (eq_of_offset_eq heq hw h.symm).symm

theorem position_lt (htotal : g.total < wordCount) {node : String × Nat} (h : g.HasNode node) :
    g.position node < g.numNodes := by
  rcases node with ⟨name, v⟩
  rcases h with ⟨count, hcount, hlt⟩
  rcases split_of_typeCount? hcount with ⟨before, after, hsplit, hnew⟩
  have hsum := (sum_lt_of_split hsplit htotal).2
  rw [position_eq_add hsplit hnew htotal hlt]
  exact Nat.lt_of_lt_of_le (Nat.add_lt_add_left hlt _) hsum

/-- A type that exists is the only one where there is one at most. -/
theorem nodeTypes_of_single {name : String} {count : Nat} (h : g.nodeTypes.length ≤ 1)
    (hcount : g.typeCount? name = some count) : g.nodeTypes = [(name, count)] := by
  rcases split_of_typeCount? hcount with ⟨before, after, hsplit, -⟩
  rw [hsplit] at h ⊢
  simp only [List.length_append, List.length_cons] at h
  obtain rfl : before = [] := List.eq_nil_of_length_eq_zero (by omega)
  obtain rfl : after = [] := List.eq_nil_of_length_eq_zero (by omega)
  rfl

/-- An end of an edge with the number of a node is that node. -/
theorem eq_of_position_eq (hg : g.Numbered) (side : EdgeEnd) {a node : String × Nat}
    (ha : a ∈ g.edges.map fun edge => side.pick edge.1 edge.2) (hnode : g.HasNode node)
    (h : g.position a = g.position node) : a = node := by
  rcases type_of_mem_edges hg.toSound side a ha with ⟨m, hm, hword, hbelow⟩
  rcases hg.located with hrange | hsingle
  · exact position_injective hg.counted ⟨m, hm, hbelow hrange⟩ hnode h
  · -- The end may be no node, but then it has the one type and a number of its own.
    rcases a with ⟨name, v⟩
    rcases node with ⟨other, w⟩
    rcases hnode with ⟨n, hn, hw⟩
    have htypes := nodeTypes_of_single hsingle hm
    have hsame := htypes.symm.trans (nodeTypes_of_single hsingle hn)
    simp only [List.cons.injEq, Prod.mk.injEq, and_true] at hsame
    obtain ⟨rfl, rfl⟩ := hsame
    have hlt : w < wordCount := Nat.lt_trans hw (hg.count_lt hm)
    have hfirst : g.nodeTypes = [] ++ (name, m) :: [] := htypes
    have hplace : ∀ u, g.position (name, u) = wrap u := fun u => by
      rw [position_of_split hfirst (by simp), List.map_nil, List.sum_nil, Nat.zero_add]
    rw [hplace, hplace, wrap_of_lt hword, wrap_of_lt hlt] at h
    exact congrArg (Prod.mk name) h

/-- The number of a node occurs as often as there are edges with the node at that
    end. -/
theorem count_position (hg : g.Numbered) (side : EdgeEnd) {node : String × Nat}
    (hnode : g.HasNode node) :
    (side.ids g.mergedEdges).count (g.position node) = g.degree side node := by
  rw [ids_mergedEdges_eq hg.toSound, List.count, List.countP_map, degree, List.countP_map]
  refine List.countP_congr fun edge hedge => ?_
  -- Numbers tell nodes apart, so counting numbers is counting nodes.
  have hend := eq_of_position_eq hg side (List.mem_map_of_mem hedge) hnode
  simp only [Function.comp, beq_iff_eq, decide_eq_true_eq]
  exact ⟨hend, fun heq => by rw [heq]⟩

/-! ### Graphs whose degrees are counted -/

/-- The graph whose degrees are counted: the graph itself if it has at most one type
    and one relation, and otherwise the merged one. -/
def collapsed (g : TypedGraph) : TypedGraph := if g.isHomogeneous then g else g.merged

/-- How many nodes the counters are for. -/
def counters (side : EdgeEnd) (g : TypedGraph) : Nat :=
  (g.relations.head?.map fun r => side.bound r.2).getD g.numNodes

/-- The numbers at one end of the edges that are counted. -/
def counted (side : EdgeEnd) (g : TypedGraph) : List Nat :=
  (g.collapsed.relations.head?.map fun r => side.ids r.2).getD []

/-- Degrees as a tensor, for either end. -/
def degreesAt (side : EdgeEnd) (g : TypedGraph) : Except GraphError Tensor :=
  side.pick g.outDegrees g.inDegrees

theorem isHomogeneous_merged (g : TypedGraph) : g.merged.isHomogeneous = true := rfl

theorem isHomogeneous_collapsed (g : TypedGraph) : g.collapsed.isHomogeneous = true := by
  rw [collapsed]
  by_cases h : g.isHomogeneous = true
  · rw [if_pos h]
    exact h
  · rw [if_neg h]
    exact isHomogeneous_merged g

@[simp] theorem numNodes_collapsed (g : TypedGraph) : g.collapsed.numNodes = g.numNodes := by
  rw [collapsed]
  split
  · rfl
  · exact numNodes_merged g

/-- With at most one type there are no nodes before a type. -/
theorem typeOffset_of_isHomogeneous (h : g.isHomogeneous = true) (name : String) :
    g.typeOffset name = 0 := by
  rcases g with ⟨_ | ⟨⟨other, count⟩, _ | _⟩, relations⟩
  · rfl
  · by_cases hname : other = name
    · simp [typeOffset, offsetIn?, hname]
    · simp [typeOffset, offsetIn?, hname]
  · simp [isHomogeneous] at h

/-- Merging a graph with one type at most leaves the numbers of its edges as they are, if
    machine words can hold them. -/
theorem ids_mergedEdges_of_isHomogeneous (h : g.isHomogeneous = true) (side : EdgeEnd)
    (hword : ∀ r ∈ g.relations, ∀ id ∈ side.ids r.2, id < wordCount) :
    side.ids g.mergedEdges = (g.relations.head?.map fun r => side.ids r.2).getD [] := by
  rw [ids_mergedEdges]
  simp only [typeOffset_of_isHomogeneous h, Nat.add_zero]
  rcases g with ⟨types, _ | ⟨r, _ | _⟩⟩
  · rfl
  · have hkept : (side.ids r.2).map wrap = side.ids r.2 := by
      rw [List.map_congr_left fun id hid => wrap_of_lt (hword r List.mem_cons_self id hid),
        List.map_id']
    simpa using hkept
  · simp [isHomogeneous] at h

theorem counted_of_not_isHomogeneous (h : ¬ g.isHomogeneous = true) (side : EdgeEnd) :
    g.counted side = side.ids g.mergedEdges := by
  rw [counted, collapsed, if_neg h]
  rfl

/-- In a graph that was built, what is counted are the numbers after merging, also where it
    is not merged. -/
theorem counted_eq (hg : g.Sound) (side : EdgeEnd) :
    g.counted side = side.ids g.mergedEdges := by
  by_cases h : g.isHomogeneous = true
  · rw [counted, collapsed, if_pos h, ids_mergedEdges_of_isHomogeneous h side fun r hr =>
      (hg.edges r hr).word side]
  · exact counted_of_not_isHomogeneous h side

/-- As many numbers are counted as there are ends of edges. -/
theorem length_counted (side : EdgeEnd) (g : TypedGraph) :
    (g.counted side).length = (side.ids g.mergedEdges).length := by
  by_cases h : g.isHomogeneous = true
  · rw [counted, collapsed, if_pos h, ids_mergedEdges]
    rcases g with ⟨types, _ | ⟨r, _ | _⟩⟩
    · rfl
    · simp
    · simp [isHomogeneous] at h
  · rw [counted_of_not_isHomogeneous h]

/-- Degrees are counted in the collapsed graph. -/
theorem degreesAt_collapsed (side : EdgeEnd) (g : TypedGraph) :
    g.collapsed.degreesAt side = Except.mapError .tensor (do
      let numbers ← countOccurrences (g.counted side) (g.collapsed.counters side)
      Tensor.ofElements .int64 (numbers.map Int64.ofNat) [g.numNodes]) := by
  have hhomogeneous := isHomogeneous_collapsed g
  rw [← numNodes_collapsed g, counted]
  generalize g.collapsed = g at hhomogeneous
  rcases g with ⟨types, _ | ⟨r, relations⟩⟩
  · cases side <;> exact if_pos hhomogeneous
  · cases side <;> exact if_pos hhomogeneous

/-- Degrees of the collapsed graph as a tensor, or why there are none. -/
theorem degreesAt_outcome (side : EdgeEnd) (g : TypedGraph) :
    (CountsFit (g.counted side) (g.collapsed.counters side) g.numNodes ∧
      ∃ t, g.collapsed.degreesAt side = .ok t ∧ t.Matches .int64 [g.numNodes] ∧
        ∀ v, v < g.numNodes →
          t.entry .int64 [v] = Int64.ofNat ((g.counted side).count v)) ∨
    ∃ e, CountFault (g.counted side) (g.collapsed.counters side) g.numNodes e ∧
      g.collapsed.degreesAt side = .error (.tensor e) := by
  rw [degreesAt_collapsed]
  rcases count_outcome (g.counted side) (g.collapsed.counters side) g.numNodes_lt with
    ⟨hfit, t, ht, hmatch, hentry⟩ | ⟨e, hfault, he⟩
  · refine .inl ⟨hfit, t, ?_, hmatch, hentry⟩
    rw [ht]
    rfl
  · refine .inr ⟨e, hfault, ?_⟩
    rw [he]
    rfl

/-! ### Room for counting -/

theorem numEdges_eq_sum (g : TypedGraph) :
    g.numEdges = (g.relations.map fun r => r.2.count).sum := by
  rw [numEdges, foldl_add_eq fun r : Relation × EdgeList => r.2.count, Nat.zero_add]

/-- Merging keeps all edges, and each has an end at either side. -/
theorem length_ids_mergedEdges (hg : g.Sound) (side : EdgeEnd) :
    (side.ids g.mergedEdges).length = g.numEdges := by
  rw [ids_mergedEdges, List.length_flatMap, numEdges_eq_sum]
  refine congrArg List.sum (List.map_congr_left fun r hr => ?_)
  rw [List.length_map]
  -- Edges are counted by their sources, and a relation that was built has as many targets.
  cases side with
  | source => rfl
  | target => exact (hg.edges r hr).paired.symm

/-- In a graph that was built there are as many counters as nodes. -/
theorem counters_collapsed (hg : g.Sound) (side : EdgeEnd) :
    g.collapsed.counters side = g.numNodes := by
  by_cases h : g.isHomogeneous = true
  · rw [collapsed, if_pos h, counters]
    rcases g with ⟨types, _ | ⟨r, relations⟩⟩
    · rfl
    · -- The relation names a type, and there is only one.
      have hcount := (hg.edges r List.mem_cons_self).count side
      rcases types with _ | ⟨⟨name, count⟩, _ | _⟩
      · cases hcount
      · by_cases hname : side.typeName r.1 = name
        · rw [typeCount?, hname, List.lookup_cons, beq_self_eq_true] at hcount
          have hbound : count = side.bound r.2 := Option.some.inj hcount
          have hword : count < wordCount := hg.words (name, count) List.mem_cons_self
          simp [numNodes, ← hbound, wrap_of_lt hword]
        · have hbeq : (side.typeName r.1 == name) = false := beq_eq_false_iff_ne.mpr hname
          rw [typeCount?, List.lookup_cons, hbeq] at hcount
          cases hcount
      · simp [isHomogeneous] at h
  · rw [collapsed, if_neg h]
    exact bound_mergedEdges side g

/-- The degrees of a graph that was built can be counted when there is room for as many
    numbers as it has edges and for as many as it has nodes. -/
theorem countsFit_iff (hg : g.Sound) (side : EdgeEnd) :
    CountsFit (g.counted side) (g.collapsed.counters side) g.numNodes ↔
      Shape.Fits 8 [g.numEdges] ∧ Shape.Fits 8 [g.numNodes] := by
  rw [counters_collapsed hg, counted_eq hg]
  constructor
  · intro h
    rw [← length_ids_mergedEdges hg side]
    exact ⟨h.list, h.counters⟩
  · intro h
    rw [← length_ids_mergedEdges hg side] at h
    exact ⟨h.1, h.2, rfl⟩

end TypedGraph

end GraphAttention
