import GraphAttention.Proofs.Graph.Insertion

/-!
# Calls That Add Edges

A call has five things to check: whether its two lists are as long as each other, whether
the type of the sources exists, whether it has all of them, and then the same twice for the
targets. It succeeds when nothing is wrong. Otherwise it reports what is wrong first, with
the first number that is too large in its list, and leaves the graph as it was.

A success changes one relation and nothing else. The first relation of that name keeps its
place and gets the edges at its end, and a new one joins behind all others. This makes the
division into calls irrelevant within a relation: after one batch another one can be added
exactly when both could have come at once, and the graph is the same.

Nothing is assumed of the graph, which may have come from a file. Of two types with one
name, or two relations, the first is meant. The two lists of a relation are extended
side by side, so they are pairs of nodes as long as they were of the same length before.

## Main definitions

* `TypedGraph.HasNodes`: A type with all of some nodes.
* `TypedGraph.NodeFault`, `TypedGraph.EdgeFault`: What is wrong first with nodes and edges.
* `TypedGraph.Extends`: A graph with further edges in one relation.
* `TypedGraph.storedPairs`: The edges of a relation.

## Theorems

* `checkNodes_ok_iff`, `checkNodes_error_iff`: When nodes pass, and what is reported.
* `addEdges_ok_iff`, `addEdges_fault`: The same for edges.
* `extends_extendRelation`, `lookup_extendRelation`: What becomes of the relations.
* `addEdges_twice`, `addBatches_iff`: One batch instead of two, or of many.
* `addEdges_settled`: All of this for any call.
-/

namespace GraphAttention

namespace TypedGraph

variable {g g' : TypedGraph} {r : Relation} {name : String} {ids sources targets : List Nat}
  {count : Nat} {e : GraphError}

/-! ### Nodes -/

/-- The type exists and has all the nodes. -/
def HasNodes (g : TypedGraph) (name : String) (ids : List Nat) : Prop :=
  ∃ count, g.typeCount? name = some count ∧ ∀ id ∈ ids, id < count

/-- What is wrong with nodes of a type: there is no such type, or it lacks the first of
    them that is reported. -/
inductive NodeFault (g : TypedGraph) (name : String) (ids : List Nat) : GraphError → Prop
  | unknown (hname : g.typeCount? name = none) : NodeFault g name ids (.unknownNodeType name)
  | outOfRange {count id : Nat} {before after : List Nat} (hname : g.typeCount? name = some count)
      (hids : ids = before ++ id :: after) (hbefore : ∀ v ∈ before, v < count)
      (hid : count ≤ id) : NodeFault g name ids (.nodeOutOfRange name id count)

theorem checkNodes_ok_iff :
    g.checkNodes name ids = .ok count ↔ g.typeCount? name = some count ∧ ∀ id ∈ ids, id < count :=
  ⟨checkNodes_ok, fun h => checkNodes_eq_ok h.1 h.2⟩

theorem hasNodes_iff : g.HasNodes name ids ↔ ∃ count, g.checkNodes name ids = .ok count := by
  unfold HasNodes
  simp only [checkNodes_ok_iff]

/-- Nodes of two lists pass together exactly when those of either list pass. -/
theorem checkNodes_append {ids' : List Nat} :
    g.checkNodes name (ids ++ ids') = .ok count ↔
      g.checkNodes name ids = .ok count ∧ g.checkNodes name ids' = .ok count := by
  simp only [checkNodes_ok_iff, List.forall_mem_append]
  constructor
  · rintro ⟨hcount, hids, hids'⟩
    exact ⟨⟨hcount, hids⟩, hcount, hids'⟩
  · rintro ⟨⟨hcount, hids⟩, -, hids'⟩
    exact ⟨hcount, hids, hids'⟩

/-- A refusal names the type, or the first of the nodes that it lacks. -/
theorem checkNodes_error_iff : g.checkNodes name ids = .error e ↔ g.NodeFault name ids e := by
  unfold checkNodes
  constructor
  · intro h
    cases hcount : g.typeCount? name with
    | none =>
      simp only [hcount, Except.error.injEq] at h
      exact h ▸ .unknown hcount
    | some count =>
      simp only [hcount] at h
      cases hfind : ids.find? fun id => count ≤ id with
      | none => simp [hfind] at h
      | some id =>
        simp only [hfind, Except.error.injEq] at h
        rcases List.find?_eq_some_iff_append.mp hfind with ⟨hid, before, after, hids, hbefore⟩
        refine h ▸ .outOfRange hcount hids (fun v hv => ?_) (by simpa using hid)
        simpa using hbefore v hv
  · intro h
    cases h with
    | unknown hname => simp only [hname]
    | @outOfRange count id before after hname hids hbefore hid =>
      have hfind : (ids.find? fun id => count ≤ id) = some id :=
        List.find?_eq_some_iff_append.mpr
          ⟨by simpa using hid, before, after, hids, fun v hv => by simpa using hbefore v hv⟩
      simp only [hname, hfind]

/-! ### Refusals and successes -/

/-- What is wrong first with edges of a relation. -/
inductive EdgeFault (g : TypedGraph) (r : Relation) (sources targets : List Nat) :
    GraphError → Prop
  | lengths (h : sources.length ≠ targets.length) :
      EdgeFault g r sources targets (.endpointLengths sources.length targets.length)
  | source {e : GraphError} (hlength : sources.length = targets.length)
      (h : g.NodeFault r.sourceType sources e) : EdgeFault g r sources targets e
  | target {e : GraphError} (hlength : sources.length = targets.length)
      (hsource : g.HasNodes r.sourceType sources) (h : g.NodeFault r.targetType targets e) :
      EdgeFault g r sources targets e

/-- A call that succeeds has extended one relation by its edges. -/
theorem addEdges_ok_iff :
    addEdges r sources targets g = (.ok (), g') ↔ sources.length = targets.length ∧
      ∃ m n, g.checkNodes r.sourceType sources = .ok m ∧
        g.checkNodes r.targetType targets = .ok n ∧
        g' = { g with
          relations := extendRelation r (.empty m n) sources targets g.relations } := by
  constructor
  · intro h
    rcases addEdges_cases r sources targets g with ⟨e, hrun⟩ | ⟨m, n, hlength, hm, hn, hrun⟩
    · rw [hrun] at h
      cases h
    · rw [hrun] at h
      exact ⟨hlength, m, n, hm, hn, (Prod.mk.inj h).2.symm⟩
  · rintro ⟨hlength, m, n, hm, hn, rfl⟩
    exact addEdges_ok hlength hm hn

theorem addEdges_fault (h : g.EdgeFault r sources targets e) :
    addEdges r sources targets g = (.error e, g) := by
  rw [addEdges, Action.bind_ok (Action.run_get g)]
  cases h with
  | lengths h =>
    rw [if_pos h]
    rfl
  | source hlength h =>
    rw [if_neg (not_not.mpr hlength), checkNodes_error_iff.mpr h]
    rfl
  | target hlength hsource h =>
    rcases hasNodes_iff.mp hsource with ⟨m, hm⟩
    rw [if_neg (not_not.mpr hlength), hm, checkNodes_error_iff.mpr h]
    rfl

/-- Every call is one that can succeed or one with something wrong. -/
theorem accepted_or_edgeFault (g : TypedGraph) (r : Relation) (sources targets : List Nat) :
    (sources.length = targets.length ∧ g.HasNodes r.sourceType sources ∧
      g.HasNodes r.targetType targets) ∨ ∃ e, g.EdgeFault r sources targets e := by
  by_cases hlength : sources.length = targets.length
  · cases hsource : g.checkNodes r.sourceType sources with
    | error e => exact .inr ⟨e, .source hlength (checkNodes_error_iff.mp hsource)⟩
    | ok m =>
      have hm : g.HasNodes r.sourceType sources := hasNodes_iff.mpr ⟨m, hsource⟩
      cases htarget : g.checkNodes r.targetType targets with
      | error e => exact .inr ⟨e, .target hlength hm (checkNodes_error_iff.mp htarget)⟩
      | ok n => exact .inl ⟨hlength, hm, hasNodes_iff.mpr ⟨n, htarget⟩⟩
  · exact .inr ⟨_, .lengths hlength⟩

/-! ### The relations afterwards -/

/-- One graph is another with further edges in a relation. A known relation keeps its place
    and a new one comes last. All else is the same. -/
inductive Extends (g : TypedGraph) (r : Relation) (sources targets : List Nat) :
    TypedGraph → Prop
  | known {before after : List (Relation × EdgeList)} {edges : EdgeList}
      (hplace : g.relations = before ++ (r, edges) :: after) (hfirst : r ∉ before.map Prod.fst) :
      Extends g r sources targets
        ⟨g.nodeTypes, before ++ (r, edges.append sources targets) :: after⟩
  | fresh {m n : Nat} (hnew : r ∉ g.relations.map Prod.fst)
      (hm : g.typeCount? r.sourceType = some m) (hn : g.typeCount? r.targetType = some n) :
      Extends g r sources targets ⟨g.nodeTypes, g.relations ++ [(r, ⟨m, n, sources, targets⟩)]⟩

/-- The edges of a relation as pairs of numbers, none if it is not there. -/
def storedPairs (g : TypedGraph) (r : Relation) : List (Nat × Nat) :=
  match g.relations.lookup r with
  | some edges => edges.sources.zip edges.targets
  | none => []

/-- A relation is found at its first place, or passed over to the end. -/
theorem extendRelation_split (r : Relation) (fresh : EdgeList) (sources targets : List Nat)
    (relations : List (Relation × EdgeList)) :
    (∃ before edges after, relations = before ++ (r, edges) :: after ∧
        r ∉ before.map Prod.fst ∧ extendRelation r fresh sources targets relations
          = before ++ (r, edges.append sources targets) :: after) ∨
      r ∉ relations.map Prod.fst ∧ extendRelation r fresh sources targets relations
        = relations ++ [(r, fresh.append sources targets)] := by
  induction relations with
  | nil => exact .inr ⟨by simp, rfl⟩
  | cons head relations ih =>
    rcases head with ⟨other, edges⟩
    by_cases hother : other = r
    · subst hother
      exact .inl ⟨[], edges, relations, rfl, by simp, by rw [extendRelation, if_pos rfl]; rfl⟩
    · have hne : ¬ r = other := fun h => hother h.symm
      rw [extendRelation, if_neg hother]
      rcases ih with ⟨before, found, after, hplace, hfirst, hextended⟩ | ⟨hnew, hextended⟩
      · refine .inl ⟨(other, edges) :: before, found, after, by rw [hplace]; rfl, ?_,
          by rw [hextended]; rfl⟩
        simpa [hne] using hfirst
      · refine .inr ⟨?_, by rw [hextended]; rfl⟩
        simpa [hne] using hnew

theorem extends_extendRelation {m n : Nat} (hm : g.typeCount? r.sourceType = some m)
    (hn : g.typeCount? r.targetType = some n) :
    g.Extends r sources targets
      { g with relations := extendRelation r (.empty m n) sources targets g.relations } := by
  rcases extendRelation_split r (.empty m n) sources targets g.relations with
    ⟨before, edges, after, hplace, hfirst, hextended⟩ | ⟨hnew, hextended⟩
  · rw [hextended]
    exact .known hplace hfirst
  · rw [hextended]
    exact .fresh hnew hm hn

/-- Only the extended relation is found with other edges than before. -/
theorem lookup_extendRelation (r other : Relation) (fresh : EdgeList)
    (sources targets : List Nat) (relations : List (Relation × EdgeList)) :
    (extendRelation r fresh sources targets relations).lookup other
      = if other = r then some (((relations.lookup r).getD fresh).append sources targets)
        else relations.lookup other := by
  induction relations with
  | nil =>
    by_cases h : other = r
    · simp [extendRelation, h]
    · have hother : (other == r) = false := by simpa using h
      simp [extendRelation, h, hother, List.lookup_cons]
  | cons head relations ih =>
    rcases head with ⟨first, edges⟩
    by_cases hfirst : first = r
    · subst hfirst
      rw [extendRelation, if_pos rfl]
      by_cases h : other = first
      · simp [h]
      · have hother : (other == first) = false := by simpa using h
        simp [h, hother, List.lookup_cons]
    · have hne : (r == first) = false := by simpa using fun h => hfirst h.symm
      rw [extendRelation, if_neg hfirst]
      simp only [List.lookup_cons, hne, ih]
      by_cases h : other = first
      · subst h
        simp [hfirst]
      · have hother : (other == first) = false := by simpa using h
        simp only [hother]

theorem storedPairs_extendRelation {m n : Nat}
    (hpaired : ∀ edges, g.relations.lookup r = some edges →
      edges.sources.length = edges.targets.length) :
    storedPairs { g with
        relations := extendRelation r (.empty m n) sources targets g.relations } r
      = g.storedPairs r ++ sources.zip targets := by
  unfold storedPairs
  simp only [lookup_extendRelation, if_pos]
  cases hlookup : g.relations.lookup r with
  | none => rfl
  | some edges => exact List.zip_append (hpaired edges hlookup)

theorem storedPairs_extendRelation_ne {m n : Nat} {other : Relation} (h : other ≠ r) :
    storedPairs { g with
        relations := extendRelation r (.empty m n) sources targets g.relations } other
      = g.storedPairs other := by
  unfold storedPairs
  simp only [lookup_extendRelation, if_neg h]

/-! ### Batches -/

/-- Edges that follow others at once come to lie where they would have come later. -/
theorem extendRelation_extendRelation (r : Relation) (fresh fresh' : EdgeList)
    (sources targets sources' targets' : List Nat) (relations : List (Relation × EdgeList)) :
    extendRelation r fresh' sources' targets' (extendRelation r fresh sources targets relations)
      = extendRelation r fresh (sources ++ sources') (targets ++ targets') relations := by
  have happend : ∀ edges : EdgeList, (edges.append sources targets).append sources' targets'
      = edges.append (sources ++ sources') (targets ++ targets') := fun edges => by
    simp only [EdgeList.append, List.append_assoc]
  induction relations with
  | nil => simp only [extendRelation, if_pos, happend]
  | cons head relations ih =>
    rcases head with ⟨other, edges⟩
    by_cases hother : other = r
    · simp only [extendRelation, if_pos hother, happend]
    · simp only [extendRelation, if_neg hother, ih]

/-- Two batches can be added one after the other exactly when the first has lists of one
    length and both can be added at once. The graph is then the same. -/
theorem addEdges_twice (g g' : TypedGraph) (r : Relation)
    (sources targets sources' targets' : List Nat) :
    (∃ next, addEdges r sources targets g = (.ok (), next) ∧
        addEdges r sources' targets' next = (.ok (), g')) ↔
      sources.length = targets.length ∧
        addEdges r (sources ++ sources') (targets ++ targets') g = (.ok (), g') := by
  simp only [addEdges_ok_iff, checkNodes_append, List.length_append]
  constructor
  · rintro ⟨_, ⟨hlength, m, n, hm, hn, rfl⟩, hlength', m', n', hm', hn', rfl⟩
    -- The second batch meets the types that the first has met, and so the same counts.
    obtain rfl : m = m' :=
      Option.some.inj ((checkNodes_ok hm).1.symm.trans (checkNodes_ok hm').1)
    obtain rfl : n = n' :=
      Option.some.inj ((checkNodes_ok hn).1.symm.trans (checkNodes_ok hn').1)
    refine ⟨hlength, by omega, m, n, ⟨hm, hm'⟩, ⟨hn, hn'⟩, ?_⟩
    rw [extendRelation_extendRelation]
  · rintro ⟨hlength, hboth, m, n, ⟨hm, hm'⟩, ⟨hn, hn'⟩, rfl⟩
    refine ⟨_, ⟨hlength, m, n, hm, hn, rfl⟩, by omega, m, n, hm', hn', ?_⟩
    rw [extendRelation_extendRelation]

/-- Batches for one relation can be added one after another exactly when the lists of each
    have one length and all batches can be added at once. -/
theorem addBatches_iff (g g' : TypedGraph) {first : EdgeBatch} {batches : List EdgeBatch}
    (hrelation : ∀ b ∈ first :: batches, b.relation = r) :
    addBatches (first :: batches) g = (.ok (), g') ↔
      (∀ b ∈ first :: batches, b.sources.length = b.targets.length) ∧
        addEdges r ((first :: batches).flatMap EdgeBatch.sources)
          ((first :: batches).flatMap EdgeBatch.targets) g = (.ok (), g') := by
  have hstep : ∀ (b : EdgeBatch) (batches : List EdgeBatch) (g g' : TypedGraph),
      addBatches (b :: batches) g = (.ok (), g') ↔
        ∃ next, addEdges b.relation b.sources b.targets g = (.ok (), next) ∧
          addBatches batches next = (.ok (), g') := by
    intro b batches g g'
    rw [addBatches, Action.bind_ok_iff]
    exact ⟨fun ⟨_, next, h⟩ => ⟨next, h⟩, fun ⟨next, h⟩ => ⟨(), next, h⟩⟩
  -- The last batch is alone, and any other is followed by what the rest adds at once.
  induction batches generalizing first g with
  | nil =>
    rw [hstep, hrelation first List.mem_cons_self]
    simp only [List.flatMap_cons, List.flatMap_nil, List.append_nil, List.forall_mem_singleton]
    constructor
    · rintro ⟨next, hfirst, hrest⟩
      obtain rfl : next = g' := (Prod.mk.inj hrest).2
      exact ⟨(addEdges_ok_iff.mp hfirst).1, hfirst⟩
    · rintro ⟨-, hfirst⟩
      exact ⟨g', hfirst, rfl⟩
  | cons b batches ih =>
    rw [hstep, hrelation first List.mem_cons_self]
    simp only [ih _ fun x hx => hrelation x (List.mem_cons_of_mem _ hx)]
    rw [List.forall_mem_cons (a := first), List.flatMap_cons, List.flatMap_cons]
    constructor
    · rintro ⟨next, hfirst, hlengths, hrest⟩
      rcases (addEdges_twice ..).mp ⟨next, hfirst, hrest⟩ with ⟨hlength, hboth⟩
      exact ⟨⟨hlength, hlengths⟩, hboth⟩
    · rintro ⟨⟨hlength, hlengths⟩, hboth⟩
      rcases (addEdges_twice ..).mpr ⟨hlength, hboth⟩ with ⟨next, hfirst, hrest⟩
      exact ⟨next, hfirst, hlengths, hrest⟩

/-! ### Any call -/

/-- A call succeeds exactly when its lists are as long as each other and the types have all
    their nodes. It then extends its relation, so that pairs follow the pairs that were there
    and the other relations keep theirs. Otherwise it reports what is wrong first, and the
    graph is the same. Two batches make the graph that both make together. -/
theorem addEdges_settled (g : TypedGraph) (r : Relation) (sources targets : List Nat) :
    ((∃ x g', addEdges r sources targets g = (.ok x, g')) ↔
        sources.length = targets.length ∧ g.HasNodes r.sourceType sources ∧
          g.HasNodes r.targetType targets) ∧
      (∀ g', addEdges r sources targets g = (.ok (), g') →
        g.Extends r sources targets g' ∧
          ((∀ edges, g.relations.lookup r = some edges →
              edges.sources.length = edges.targets.length) →
            g'.storedPairs r = g.storedPairs r ++ sources.zip targets) ∧
          ∀ other, other ≠ r → g'.storedPairs other = g.storedPairs other) ∧
      (∀ e g', addEdges r sources targets g = (.error e, g') ↔
        g.EdgeFault r sources targets e ∧ g' = g) ∧
      ∀ sources' targets' g',
        (∃ next, addEdges r sources targets g = (.ok (), next) ∧
            addEdges r sources' targets' next = (.ok (), g')) ↔
          sources.length = targets.length ∧
            addEdges r (sources ++ sources') (targets ++ targets') g = (.ok (), g') := by
  have houtcome := Action.outcome_iff (addEdges r sources targets) g
    (accepted_or_edgeFault g r sources targets)
    (fun ⟨hlength, hsource, htarget⟩ => by
      rcases hasNodes_iff.mp hsource with ⟨m, hm⟩
      rcases hasNodes_iff.mp htarget with ⟨n, hn⟩
      exact ⟨(), _, addEdges_ok hlength hm hn⟩)
    (fun e h => addEdges_fault h)
  refine ⟨houtcome.1, fun g' h => ?_, houtcome.2,
    fun sources' targets' g' => addEdges_twice g g' r sources targets sources' targets'⟩
  rcases addEdges_ok_iff.mp h with ⟨-, m, n, hm, hn, rfl⟩
  exact ⟨extends_extendRelation (checkNodes_ok hm).1 (checkNodes_ok hn).1,
    storedPairs_extendRelation, fun other => storedPairs_extendRelation_ne⟩

/-- Two relations between the same two types, one for each direction. -/
def bothWays : TypedGraph :=
  ⟨[("user", 2), ("item", 3)],
    [(⟨"user", "buys", "item"⟩, ⟨2, 3, [0], [0]⟩), (⟨"item", "sold", "user"⟩, ⟨3, 2, [0], [0]⟩)]⟩

/-- Two edges more for the first relation leave the second as it is. With a third item that
    is not there nothing is added. -/
theorem addEdges_settled_bothWays :
    (∃ g', addEdges ⟨"user", "buys", "item"⟩ [1, 0] [2, 1] bothWays = (.ok (), g') ∧
      g'.storedPairs ⟨"user", "buys", "item"⟩ = [(0, 0), (1, 2), (0, 1)] ∧
      g'.storedPairs ⟨"item", "sold", "user"⟩ = [(0, 0)]) ∧
    addEdges ⟨"user", "buys", "item"⟩ [1, 0, 0] [2, 3, 4] bothWays
      = (.error (.nodeOutOfRange "item" 3 3), bothWays) := by
  constructor
  · rcases addEdges_settled bothWays ⟨"user", "buys", "item"⟩ [1, 0] [2, 1] with
      ⟨hok, hextends, -, -⟩
    rcases hok.mpr ⟨rfl, ⟨2, rfl, by decide⟩, ⟨3, rfl, by decide⟩⟩ with ⟨_, g', hrun⟩
    rcases hextends g' hrun with ⟨-, hpairs, hothers⟩
    refine ⟨g', hrun, ?_, ?_⟩
    · refine (hpairs fun edges hedges => ?_).trans rfl
      obtain rfl : EdgeList.mk 2 3 [0] [0] = edges := Option.some.inj hedges
      rfl
    · exact (hothers ⟨"item", "sold", "user"⟩ (by decide)).trans rfl
  · have hfault : bothWays.EdgeFault ⟨"user", "buys", "item"⟩ [1, 0, 0] [2, 3, 4]
        (.nodeOutOfRange "item" 3 3) :=
      .target rfl ⟨2, rfl, by decide⟩
        (.outOfRange rfl (show [2, 3, 4] = [2] ++ 3 :: [4] from rfl) (by decide) (by decide))
    exact ((addEdges_settled bothWays _ _ _).2.2.1 _ _).mpr ⟨hfault, rfl⟩

end TypedGraph

end GraphAttention
