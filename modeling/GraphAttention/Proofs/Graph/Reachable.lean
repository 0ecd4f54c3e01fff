import GraphAttention.Graph.Typed
import GraphAttention.Proofs.Running
import Mathlib.Algebra.BigOperators.Group.List.Basic
import Mathlib.Algebra.GroupWithZero.Nat
import Mathlib.Algebra.Order.BigOperators.Group.List
import Mathlib.Algebra.Order.Group.Nat

/-!
# Graphs That Are Built

A graph that was read from a file may be anything. One that was made by the
operations is not: no name stands for two types, no relation appears twice, and
every relation goes with the types of its ends. These are conditions on a graph as
it stands, and each operation keeps them, also where it is refused, so they hold
of a graph whatever was done to it.

That edges run between nodes that there are is another matter. It is kept as long as
the nodes of all types can be counted in a machine word. Beyond that the number of
nodes wraps when types are merged, and the ends of edges may be left outside. The
graph has a single type then, so an end that was left outside can still not be taken
for a node of another type.

Sources and targets are treated alike throughout. What is said of one end of the
edges is said of the other, and `EdgeEnd` names the end that is meant, so that
there is one statement where there would be two.

## Main definitions

* `EdgeEnd`: One of the two ends of an edge.
* `TypedGraph.Joins`: The edges of a relation go with the types of its ends.
* `TypedGraph.Sound`: What is true of every graph that was built.
* `TypedGraph.InRange`: The edges run between nodes that there are.
* `TypedGraph.total`: The number of nodes, as large as it may be.
* `TypedGraph.BuiltFrom`, `TypedGraph.Reachable`: A graph was built by the operations.

## Theorems

* `addEdges_cases`: Adding edges is refused, or all of them are added.
* `mem_extendRelation`, `map_fst_extendRelation`: The relations after it.
* `numNodes_eq`, `typeOffset_of_split`: What is counted, and what a word holds of it.
* `offset_add_le`: A type lies within the nodes of the graph when it is laid out.
* `sound_addEdges`, `sound_merged`: The operations keep the conditions.
* `inRange_addEdges`, `inRange_merged`: Edges between nodes that there are.
* `Reachable.sound`, `Reachable.located`: What holds of every graph that was built.
* `BuiltFrom.inRange`: What holds besides where all nodes can be counted.
-/

namespace GraphAttention

/-- One of the two ends of an edge. -/
inductive EdgeEnd where
  | source
  | target
deriving DecidableEq

namespace EdgeEnd

/-- What belongs to this end, out of what belongs to the sources and to the
    targets. -/
def pick {α : Type} : EdgeEnd → α → α → α
  | source, a, _ => a
  | target, _, b => b

/-- The nodes at one end of the edges of a list. -/
def ids (side : EdgeEnd) (e : EdgeList) : List Nat := side.pick e.sources e.targets

/-- How many nodes there are said to be at one end. -/
def bound (side : EdgeEnd) (e : EdgeList) : Nat := side.pick e.numSources e.numTargets

/-- The type of the nodes at one end of a relation. -/
def typeName (side : EdgeEnd) (r : Relation) : String := side.pick r.sourceType r.targetType

theorem ids_append (side : EdgeEnd) (e : EdgeList) (sources targets : List Nat) :
    side.ids (e.append sources targets) = side.ids e ++ side.pick sources targets := by
  cases side <;> rfl

@[simp] theorem ids_empty (side : EdgeEnd) (m n : Nat) : side.ids (.empty m n) = [] := by
  cases side <;> rfl

@[simp] theorem bound_append (side : EdgeEnd) (e : EdgeList) (sources targets : List Nat) :
    side.bound (e.append sources targets) = side.bound e := by
  cases side <;> rfl

end EdgeEnd

namespace TypedGraph

/-- The edges of a relation are pairs, and the types of their ends are there with as
    many nodes as the relation says. -/
structure Joins (g : TypedGraph) (r : Relation) (e : EdgeList) : Prop where
  count : ∀ side : EdgeEnd, g.typeCount? (side.typeName r) = some (side.bound e)
  word : ∀ side : EdgeEnd, ∀ id ∈ side.ids e, id < wordCount
  paired : e.sources.length = e.targets.length

/-- No name stands for two types, the nodes of each type can be counted in a machine
    word, no relation appears twice, and each goes with the types of its ends. -/
structure Sound (g : TypedGraph) : Prop where
  types : (g.nodeTypes.map Prod.fst).Nodup
  words : ∀ type ∈ g.nodeTypes, type.2 < wordCount
  relations : (g.relations.map Prod.fst).Nodup
  edges : ∀ r ∈ g.relations, g.Joins r.1 r.2

/-- Every edge runs between nodes that there are. -/
def InRange (g : TypedGraph) : Prop :=
  ∀ r ∈ g.relations, ∀ side : EdgeEnd, ∀ id ∈ side.ids r.2, id < side.bound r.2

/-- Every edge runs between nodes that there are, or there is one type at most, to which
    all ends of edges belong. -/
def Located (g : TypedGraph) : Prop := g.InRange ∨ g.nodeTypes.length ≤ 1

/-- The number of nodes of all types, whether or not a machine word can hold it. -/
def total (g : TypedGraph) : Nat := (g.nodeTypes.map Prod.snd).sum

/-- A graph was built from types: begun from these, or from the edges of a single one,
    and then extended and merged any number of times. Edges that were refused count as
    well. -/
inductive BuiltFrom : List (String × Nat) → TypedGraph → Prop
  | ofTypes {types : List (String × Nat)} {g : TypedGraph} (h : ofTypes types = .ok g) :
    BuiltFrom types g
  | homogeneous {n : Nat} {sources targets : List Nat} {g : TypedGraph}
    (h : homogeneous n sources targets = .ok g) : BuiltFrom [(homogeneousType, n)] g
  | addEdges {types : List (String × Nat)} (r : Relation) (sources targets : List Nat)
    {g : TypedGraph} (h : BuiltFrom types g) : BuiltFrom types (addEdges r sources targets g).2
  | merged {types : List (String × Nat)} {g : TypedGraph} (h : BuiltFrom types g) :
    BuiltFrom types g.merged

/-- A graph was built from some types, whose nodes can each be counted in a machine
    word. -/
def Reachable (g : TypedGraph) : Prop :=
  ∃ types : List (String × Nat), (∀ type ∈ types, type.2 < wordCount) ∧ g.BuiltFrom types

variable {g : TypedGraph} {r : Relation} {fresh : EdgeList} {sources targets ids : List Nat}
  {name : String} {count : Nat}

/-! ### Types -/

theorem firstRepeat?_eq_none {seen : List String} {types : List (String × Nat)}
    (h : firstRepeat? seen types = none) :
    (types.map Prod.fst).Nodup ∧ ∀ name ∈ types.map Prod.fst, name ∉ seen := by
  -- The names passed are gathered, so they vary in the induction.
  induction types generalizing seen with
  | nil => simp
  | cons type types ih =>
    rcases type with ⟨name, count⟩
    rw [firstRepeat?] at h
    by_cases hseen : name ∈ seen
    · simp [hseen] at h
    · rw [if_neg hseen] at h
      rcases ih h with ⟨hnodup, hnew⟩
      constructor
      · rw [List.map_cons, List.nodup_cons]
        exact ⟨fun hmem => hnew name hmem List.mem_cons_self, hnodup⟩
      · intro other hother
        rcases List.mem_cons.mp hother with rfl | hother
        · exact hseen
        · exact fun hmem => hnew other hother (List.mem_cons_of_mem _ hmem)

/-- Numbers added up one after another are their sum. -/
theorem foldl_add_eq {α : Type} (f : α → Nat) (l : List α) (n : Nat) :
    l.foldl (fun n x => n + f x) n = n + (l.map f).sum := by
  induction l generalizing n with
  | nil => rfl
  | cons x l ih => rw [List.foldl_cons, ih, List.map_cons, List.sum_cons, Nat.add_assoc]

/-- A sum that is wrapped at each step comes to what is left of the whole sum. -/
theorem foldl_wrap_add {α : Type} (f : α → Nat) (l : List α) {n : Nat} (hn : n < wordCount) :
    l.foldl (fun n x => wrap (n + f x)) n = wrap (n + (l.map f).sum) := by
  -- The sum so far varies in the induction, and is held in a word throughout.
  induction l generalizing n with
  | nil => exact (wrap_of_lt hn).symm
  | cons x l ih =>
    rw [List.foldl_cons, ih (wrap_lt _), wrap_wrap_add, List.map_cons, List.sum_cons,
      Nat.add_assoc]

/-- The number of nodes is what a machine word holds of it. -/
theorem numNodes_eq (g : TypedGraph) : g.numNodes = wrap g.total := by
  rw [numNodes, foldl_wrap_add Prod.snd _ (by decide), Nat.zero_add, total]

theorem numNodes_lt (g : TypedGraph) : g.numNodes < wordCount := by
  rw [numNodes_eq]
  exact wrap_lt _

/-- A number of nodes that a machine word can hold is right. -/
theorem numNodes_of_total (h : g.total < wordCount) : g.numNodes = g.total := by
  rw [numNodes_eq, wrap_of_lt h]

/-- A type that exists stands somewhere among the types, for the first time. -/
theorem split_of_typeCount? (h : g.typeCount? name = some count) :
    ∃ before after, g.nodeTypes = before ++ (name, count) :: after ∧
      name ∉ before.map Prod.fst := by
  unfold typeCount? at h
  generalize g.nodeTypes = types at h
  -- Looking a name up passes over the types before it, and none of them has the name.
  induction types with
  | nil => cases h
  | cons type types ih =>
    rcases type with ⟨other, n⟩
    rw [List.lookup_cons] at h
    by_cases hname : name = other
    · subst hname
      simp only [beq_self_eq_true, Option.some.injEq] at h
      exact ⟨[], types, by rw [h]; rfl, by simp⟩
    · have hne : (name == other) = false := by simpa using hname
      rw [hne] at h
      rcases ih h with ⟨before, after, rfl, hnew⟩
      refine ⟨(other, n) :: before, after, rfl, ?_⟩
      simp [hname, hnew]

/-- The nodes before a type are those of the types before it. -/
theorem typeOffset_of_split {before after : List (String × Nat)}
    (h : g.nodeTypes = before ++ (name, count) :: after) (hnew : name ∉ before.map Prod.fst) :
    g.typeOffset name = wrap (before.map Prod.snd).sum := by
  have hoffset : offsetIn? name (before ++ (name, count) :: after)
      = some (wrap (before.map Prod.snd).sum) := by
    clear h
    -- The hypothesis on the whole list would not survive the loss of its first type.
    induction before with
    | nil => simp [offsetIn?, wrap]
    | cons type before ih =>
      simp only [List.map_cons, List.mem_cons, not_or] at hnew
      have hother : ¬ type.1 = name := fun heq => hnew.1 heq.symm
      simp [offsetIn?, hother, ih hnew.2]
  rw [typeOffset, h, hoffset, Option.getD_some]

theorem typeCount?_of_split {before after : List (String × Nat)}
    (h : g.nodeTypes = before ++ (name, count) :: after) (hnew : name ∉ before.map Prod.fst) :
    g.typeCount? name = some count := by
  rw [typeCount?, h]
  clear h
  induction before with
  | nil => simp
  | cons type before ih =>
    simp only [List.map_cons, List.mem_cons, not_or] at hnew
    have hother : (name == type.1) = false := by simpa using hnew.1
    rw [List.cons_append, List.lookup_cons, hother]
    exact ih hnew.2

/-- Where all nodes can be counted, so can those before a type. -/
theorem sum_lt_of_split {before after : List (String × Nat)}
    (h : g.nodeTypes = before ++ (name, count) :: after) (htotal : g.total < wordCount) :
    (before.map Prod.snd).sum + count < wordCount ∧
      (before.map Prod.snd).sum + count ≤ g.numNodes := by
  rw [numNodes_of_total htotal]
  rw [total, h] at htotal ⊢
  simp only [List.map_append, List.map_cons, List.sum_append, List.sum_cons] at htotal ⊢
  omega

/-- Laid end to end, a type stays within the nodes of the graph. -/
theorem offset_add_le (h : g.typeCount? name = some count) (htotal : g.total < wordCount) :
    g.typeOffset name + count ≤ g.numNodes := by
  rcases split_of_typeCount? h with ⟨before, after, hsplit, hnew⟩
  have hsum := sum_lt_of_split hsplit htotal
  rw [typeOffset_of_split hsplit hnew, wrap_of_lt (by omega)]
  exact hsum.2

/-- The nodes of a type that is there can be counted in a machine word. -/
theorem Sound.count_lt (hg : g.Sound) (h : g.typeCount? name = some count) :
    count < wordCount := by
  rcases split_of_typeCount? h with ⟨before, after, hsplit, -⟩
  exact hg.words (name, count) (by simp [hsplit])

/-! ### Adding edges -/

theorem checkNodes_ok (h : g.checkNodes name ids = .ok count) :
    g.typeCount? name = some count ∧ ∀ id ∈ ids, id < count := by
  unfold checkNodes at h
  cases hcount : g.typeCount? name with
  | none => simp [hcount] at h
  | some n =>
    simp only [hcount] at h
    cases hfind : ids.find? fun id => n ≤ id with
    | some id => simp [hfind] at h
    | none =>
      simp only [hfind, Except.ok.injEq] at h
      subst h
      refine ⟨rfl, fun id hid => ?_⟩
      have hnot := List.find?_eq_none.mp hfind id hid
      simpa using hnot

/-- Adding edges is refused, or every check has passed and all are added. -/
theorem addEdges_cases (r : Relation) (sources targets : List Nat) (g : TypedGraph) :
    (∃ e, addEdges r sources targets g = (.error e, g)) ∨
      ∃ m n, sources.length = targets.length ∧ g.checkNodes r.sourceType sources = .ok m ∧
        g.checkNodes r.targetType targets = .ok n ∧
        addEdges r sources targets g = (.ok (), { g with
          relations := extendRelation r (.empty m n) sources targets g.relations }) := by
  rw [addEdges, Action.bind_ok (Action.run_get g)]
  by_cases hlength : sources.length = targets.length
  · rw [if_neg (not_not.mpr hlength)]
    dsimp only
    cases hsource : g.checkNodes r.sourceType sources with
    | error e => exact .inl ⟨e, Action.bind_error (Action.run_attempt _ _)⟩
    | ok m =>
      rw [Action.bind_ok (Action.run_attempt _ _)]
      cases htarget : g.checkNodes r.targetType targets with
      | error e => exact .inl ⟨e, Action.bind_error (Action.run_attempt _ _)⟩
      | ok n => exact .inr ⟨m, n, hlength, rfl, rfl, Action.bind_ok (Action.run_attempt _ _)⟩
  · rw [if_pos hlength]
    exact .inl ⟨_, Action.bind_error (Action.run_throw _ _)⟩

/-- What is among the relations after edges were added was there before, or it is
    the relation that they were added to. -/
theorem mem_extendRelation {relations : List (Relation × EdgeList)} {x : Relation × EdgeList}
    (h : x ∈ extendRelation r fresh sources targets relations) :
    x ∈ relations ∨ ∃ old, (old = fresh ∨ (r, old) ∈ relations) ∧
      x = (r, old.append sources targets) := by
  -- The list is walked until the relation is found, and what follows it is not looked at.
  induction relations with
  | nil => exact .inr ⟨fresh, .inl rfl, by simpa [extendRelation] using h⟩
  | cons head relations ih =>
    rcases head with ⟨other, edges⟩
    rw [extendRelation] at h
    by_cases hother : other = r
    · rw [if_pos hother] at h
      rcases List.mem_cons.mp h with rfl | h
      · exact .inr ⟨edges, .inr (by simp [hother]), by rw [hother]⟩
      · exact .inl (List.mem_cons_of_mem _ h)
    · rw [if_neg hother] at h
      rcases List.mem_cons.mp h with rfl | h
      · exact .inl List.mem_cons_self
      · rcases ih h with h | ⟨old, hold, rfl⟩
        · exact .inl (List.mem_cons_of_mem _ h)
        · exact .inr ⟨old, hold.imp_right (List.mem_cons_of_mem _), rfl⟩

/-- A relation that is there keeps its place, and a new one joins at the end. -/
theorem map_fst_extendRelation (relations : List (Relation × EdgeList)) :
    (extendRelation r fresh sources targets relations).map Prod.fst
      = if r ∈ relations.map Prod.fst then relations.map Prod.fst
        else relations.map Prod.fst ++ [r] := by
  induction relations with
  | nil => simp [extendRelation]
  | cons head relations ih =>
    rcases head with ⟨other, edges⟩
    by_cases hother : other = r
    · simp [extendRelation, hother]
    · have hne : ¬ r = other := fun h => hother h.symm
      by_cases hmem : r ∈ relations.map Prod.fst
      · rw [if_pos hmem] at ih
        rw [extendRelation, if_neg hother, List.map_cons, ih, List.map_cons,
          if_pos (List.mem_cons_of_mem _ hmem)]
      · rw [if_neg hmem] at ih
        have hmem' : ¬ r ∈ other :: relations.map Prod.fst := by simp [hne, hmem]
        rw [extendRelation, if_neg hother, List.map_cons, ih, List.map_cons, if_neg hmem']
        rfl

/-! ### The conditions are kept -/

/-- Edges added to a relation still go with the types of its ends. -/
theorem Joins.append {old : EdgeList} (hold : g.Joins r old)
    (hlength : sources.length = targets.length) (hsources : ∀ id ∈ sources, id < wordCount)
    (htargets : ∀ id ∈ targets, id < wordCount) : g.Joins r (old.append sources targets) where
  count side := by
    rw [EdgeEnd.bound_append]
    exact hold.count side
  word side id hid := by
    rw [EdgeEnd.ids_append] at hid
    rcases List.mem_append.mp hid with hid | hid
    · exact hold.word side id hid
    · cases side with
      | source => exact hsources id hid
      | target => exact htargets id hid
  paired := by
    simp only [EdgeList.append, List.length_append, hold.paired, hlength]

/-- What edges are added to goes with the types of its ends, whether it was there before or
    is new. -/
theorem Sound.joins_old (hg : g.Sound) {m n : Nat} (hm : g.typeCount? r.sourceType = some m)
    (hn : g.typeCount? r.targetType = some n) {old : EdgeList}
    (hold : old = .empty m n ∨ (r, old) ∈ g.relations) : g.Joins r old := by
  rcases hold with rfl | hold
  · refine ⟨fun side => ?_, by simp, rfl⟩
    cases side with
    | source => exact hm
    | target => exact hn
  · exact hg.edges (r, old) hold

theorem sound_addEdges (hg : g.Sound) (r : Relation) (sources targets : List Nat) :
    (addEdges r sources targets g).2.Sound := by
  rcases addEdges_cases r sources targets g with ⟨e, h⟩ | ⟨m, n, hlength, hm, hn, h⟩
  · rw [h]
    exact hg
  · rw [h]
    rcases checkNodes_ok hm with ⟨hsource, hsources⟩
    rcases checkNodes_ok hn with ⟨htarget, htargets⟩
    refine ⟨hg.types, hg.words, ?_, ?_⟩
    · simp only [map_fst_extendRelation]
      by_cases hnew : r ∈ g.relations.map Prod.fst
      · rw [if_pos hnew]
        exact hg.relations
      · rw [if_neg hnew]
        refine List.nodup_append.mpr ⟨hg.relations, by simp, fun x hx y hy => ?_⟩
        rw [List.mem_singleton.mp hy]
        exact fun heq => hnew (heq ▸ hx)
    · intro x hx
      rcases mem_extendRelation hx with hx | ⟨old, hold, rfl⟩
      · -- The types are the same, so what went with them before does so still.
        have hjoins := hg.edges x hx
        exact ⟨hjoins.count, hjoins.word, hjoins.paired⟩
      · have happended := (hg.joins_old hsource htarget hold).append hlength
          (fun id hid => Nat.lt_trans (hsources id hid) (hg.count_lt hsource))
          (fun id hid => Nat.lt_trans (htargets id hid) (hg.count_lt htarget))
        exact ⟨happended.count, happended.word, happended.paired⟩

/-- Edges that are added run between nodes that there are. -/
theorem inRange_addEdges (hg : g.Sound) (hrange : g.InRange) (r : Relation)
    (sources targets : List Nat) : (addEdges r sources targets g).2.InRange := by
  rcases addEdges_cases r sources targets g with ⟨e, h⟩ | ⟨m, n, -, hm, hn, h⟩
  · rw [h]
    exact hrange
  · rw [h]
    rcases checkNodes_ok hm with ⟨hsource, hsources⟩
    rcases checkNodes_ok hn with ⟨htarget, htargets⟩
    intro x hx side id hid
    rcases mem_extendRelation hx with hx | ⟨old, hold, rfl⟩
    · exact hrange x hx side id hid
    · have hjoins := hg.joins_old hsource htarget hold
      have hbelow : ∀ id ∈ side.ids old, id < side.bound old := by
        rcases hold with rfl | hold
        · simp
        · exact hrange (r, old) hold side
      rw [EdgeEnd.bound_append]
      rw [EdgeEnd.ids_append] at hid
      -- The edges were checked against the counts of the types, which are the ones that
      -- the relation says, whether it is new or not.
      have hcountSource : old.numSources = m :=
        Option.some.inj ((hjoins.count .source).symm.trans hsource)
      have hcountTarget : old.numTargets = n :=
        Option.some.inj ((hjoins.count .target).symm.trans htarget)
      rcases List.mem_append.mp hid with hid | hid
      · exact hbelow id hid
      · cases side with
        | source => exact (hsources id hid).trans_eq hcountSource.symm
        | target => exact (htargets id hid).trans_eq hcountTarget.symm

theorem nodeTypes_addEdges (r : Relation) (sources targets : List Nat) (g : TypedGraph) :
    (addEdges r sources targets g).2.nodeTypes = g.nodeTypes := by
  rcases addEdges_cases r sources targets g with ⟨e, h⟩ | ⟨m, n, -, -, -, h⟩
  · rw [h]
  · rw [h]

theorem eq_of_ofTypes {types : List (String × Nat)} (h : ofTypes types = .ok g) :
    g = ⟨types, []⟩ ∧ (types.map Prod.fst).Nodup := by
  unfold ofTypes at h
  cases hrepeat : firstRepeat? [] types with
  | some name => simp [hrepeat] at h
  | none =>
    simp only [hrepeat, Except.ok.injEq] at h
    exact ⟨h.symm, (firstRepeat?_eq_none hrepeat).1⟩

theorem sound_ofTypes {types : List (String × Nat)}
    (hwords : ∀ type ∈ types, type.2 < wordCount) (h : ofTypes types = .ok g) : g.Sound := by
  rcases eq_of_ofTypes h with ⟨rfl, hnodup⟩
  exact ⟨hnodup, hwords, List.nodup_nil, fun r hr => absurd hr List.not_mem_nil⟩

/-- A graph of a single type with one relation is sound if its edges are. -/
theorem sound_single {n : Nat} {e : EdgeList} (hn : n < wordCount)
    (hbound : ∀ side : EdgeEnd, side.bound e = n)
    (hword : ∀ side : EdgeEnd, ∀ id ∈ side.ids e, id < wordCount)
    (hpaired : e.sources.length = e.targets.length) :
    (⟨[(homogeneousType, n)], [(.homogeneous, e)]⟩ : TypedGraph).Sound := by
  refine ⟨by simp, by simpa using hn, by simp, fun r hr => ?_⟩
  rw [List.mem_singleton.mp hr]
  refine ⟨fun side => ?_, hword, hpaired⟩
  rw [hbound]
  cases side <;> rfl

/-- A graph of a single type starts from one without edges. -/
theorem eq_of_homogeneous {n : Nat} (h : homogeneous n sources targets = .ok g) :
    g = (addEdges .homogeneous sources targets
      ⟨[(homogeneousType, n)], [(.homogeneous, .empty n n)]⟩).2 := by
  unfold homogeneous at h
  dsimp only at h
  -- Adding the edges was not refused, or there would be no graph.
  rcases hrun : addEdges .homogeneous sources targets
    ⟨[(homogeneousType, n)], [(.homogeneous, .empty n n)]⟩ with ⟨e | _, after⟩
  · simp [hrun] at h
  · rw [hrun] at h
    exact (Except.ok.inj h).symm

theorem sound_bare {n : Nat} (hn : n < wordCount) :
    (⟨[(homogeneousType, n)], [(.homogeneous, .empty n n)]⟩ : TypedGraph).Sound := by
  refine sound_single hn (fun side => ?_) (by simp) rfl
  cases side <;> rfl

theorem sound_homogeneous {n : Nat} (hn : n < wordCount)
    (h : homogeneous n sources targets = .ok g) : g.Sound := by
  rw [eq_of_homogeneous h]
  exact sound_addEdges (sound_bare hn) .homogeneous sources targets

theorem inRange_homogeneous {n : Nat} (hn : n < wordCount)
    (h : homogeneous n sources targets = .ok g) : g.InRange := by
  rw [eq_of_homogeneous h]
  refine inRange_addEdges (sound_bare hn) (fun r hr side => ?_) .homogeneous sources targets
  rw [List.mem_singleton.mp hr]
  simp

/-! ### Merging -/

@[simp] theorem bound_mergedEdges (side : EdgeEnd) (g : TypedGraph) :
    side.bound g.mergedEdges = g.numNodes := by
  have hfold : ∀ (relations : List (Relation × EdgeList)) (all : EdgeList),
      side.bound (relations.foldl (fun all r => all.extendShifted r.2
        (g.typeOffset r.1.sourceType) (g.typeOffset r.1.targetType)) all) = side.bound all := by
    -- The edges gathered so far vary in the induction, and their bound does not.
    intro relations
    induction relations with
    | nil => exact fun _ => rfl
    | cons r relations ih =>
      intro all
      rw [List.foldl_cons, ih, EdgeList.extendShifted, EdgeEnd.bound_append]
  refine (hfold g.relations _).trans ?_
  cases side <;> rfl

/-- The edges of the merged graph are those of the relations, one relation after the
    other, each of their nodes moved up by the nodes before its type. -/
theorem ids_mergedEdges (side : EdgeEnd) (g : TypedGraph) :
    side.ids g.mergedEdges = g.relations.flatMap fun r =>
      (side.ids r.2).map fun id => wrap (id + g.typeOffset (side.typeName r.1)) := by
  have hfold : ∀ (relations : List (Relation × EdgeList)) (all : EdgeList),
      side.ids (relations.foldl (fun all r => all.extendShifted r.2
        (g.typeOffset r.1.sourceType) (g.typeOffset r.1.targetType)) all)
        = side.ids all ++ relations.flatMap fun r =>
          (side.ids r.2).map fun id => wrap (id + g.typeOffset (side.typeName r.1)) := by
    intro relations
    induction relations with
    | nil => simp
    | cons r relations ih =>
      intro all
      rw [List.foldl_cons, ih, EdgeList.extendShifted, EdgeEnd.ids_append, List.flatMap_cons,
        List.append_assoc]
      cases side <;> rfl
  refine (hfold g.relations _).trans ?_
  cases side <;> rfl

theorem length_mergedEdges (h : ∀ r ∈ g.relations, r.2.sources.length = r.2.targets.length) :
    g.mergedEdges.sources.length = g.mergedEdges.targets.length := by
  have hsource := congrArg List.length (ids_mergedEdges .source g)
  have htarget := congrArg List.length (ids_mergedEdges .target g)
  simp only [List.length_flatMap, List.length_map] at hsource htarget
  refine hsource.trans (Eq.trans ?_ htarget.symm)
  exact congrArg List.sum (List.map_congr_left h)

theorem word_of_mem_mergedEdges (side : EdgeEnd) (g : TypedGraph) :
    ∀ id ∈ side.ids g.mergedEdges, id < wordCount := by
  intro id hid
  rw [ids_mergedEdges, List.mem_flatMap] at hid
  rcases hid with ⟨r, -, hid⟩
  rcases List.mem_map.mp hid with ⟨v, -, rfl⟩
  exact wrap_lt _

/-- Nodes that there are stay nodes that there are when the types are laid end to
    end, and all of them can be counted. -/
theorem lt_of_mem_mergedEdges (hg : g.Sound) (hrange : g.InRange) (htotal : g.total < wordCount)
    (side : EdgeEnd) : ∀ id ∈ side.ids g.mergedEdges, id < g.numNodes := by
  intro id hid
  rw [ids_mergedEdges, List.mem_flatMap] at hid
  rcases hid with ⟨r, hr, hid⟩
  rcases List.mem_map.mp hid with ⟨v, hv, rfl⟩
  have hbelow := hrange r hr side v hv
  -- A type and what comes before it fit into the nodes of the graph.
  have hoffset := offset_add_le ((hg.edges r hr).count side) htotal
  have hnodes := g.numNodes_lt
  rw [wrap_of_lt (by omega)]
  omega

theorem sound_merged (hg : g.Sound) : g.merged.Sound :=
  sound_single g.numNodes_lt (fun side => bound_mergedEdges side g)
    (fun side => word_of_mem_mergedEdges side g)
    (length_mergedEdges fun r hr => (hg.edges r hr).paired)

theorem inRange_merged (hg : g.Sound) (hrange : g.InRange) (htotal : g.total < wordCount) :
    g.merged.InRange := by
  intro r hr side id hid
  rw [List.mem_singleton.mp hr] at hid ⊢
  rw [bound_mergedEdges]
  exact lt_of_mem_mergedEdges hg hrange htotal side id hid

@[simp] theorem numNodes_merged (g : TypedGraph) : g.merged.numNodes = g.numNodes := by
  change wrap (0 + g.numNodes) = g.numNodes
  rw [Nat.zero_add, wrap_of_lt g.numNodes_lt]

/-! ### Graphs that are built -/

/-- However a graph was built, it is sound. -/
theorem BuiltFrom.sound {types : List (String × Nat)} (h : BuiltFrom types g)
    (hwords : ∀ type ∈ types, type.2 < wordCount) : g.Sound := by
  induction h with
  | ofTypes h => exact sound_ofTypes hwords h
  | homogeneous h => exact sound_homogeneous (hwords _ List.mem_cons_self) h
  | addEdges r sources targets _ ih => exact sound_addEdges (ih hwords) r sources targets
  | merged _ ih => exact sound_merged (ih hwords)

/-- The nodes of each type can be counted if those of all types can. -/
theorem words_of_sum {types : List (String × Nat)} (h : (types.map Prod.snd).sum < wordCount) :
    ∀ type ∈ types, type.2 < wordCount := fun _ htype =>
  Nat.lt_of_le_of_lt
    (List.single_le_sum (fun _ _ => Nat.zero_le _) _ (List.mem_map_of_mem htype)) h

/-- Where all nodes can be counted, the edges run between nodes that there are, and no
    node is lost. -/
theorem BuiltFrom.inRange {types : List (String × Nat)} (h : BuiltFrom types g)
    (hsum : (types.map Prod.snd).sum < wordCount) :
    g.InRange ∧ g.total = (types.map Prod.snd).sum := by
  have hwords := words_of_sum hsum
  induction h with
  | ofTypes h =>
    obtain rfl := (eq_of_ofTypes h).1
    exact ⟨fun r hr => absurd hr List.not_mem_nil, rfl⟩
  | homogeneous h =>
    refine ⟨inRange_homogeneous (hwords _ List.mem_cons_self) h, ?_⟩
    rw [total, eq_of_homogeneous h, nodeTypes_addEdges]
  | addEdges r sources targets h ih =>
    rcases ih hsum hwords with ⟨hrange, htotal⟩
    refine ⟨inRange_addEdges (h.sound hwords) hrange r sources targets, ?_⟩
    rw [total, nodeTypes_addEdges]
    exact htotal
  | merged h ih =>
    rcases ih hsum hwords with ⟨hrange, htotal⟩
    have hcounted := htotal.trans_lt hsum
    refine ⟨inRange_merged (h.sound hwords) hrange hcounted, ?_⟩
    -- Merging leaves one type, with the nodes of all.
    rw [← htotal, ← numNodes_of_total hcounted]
    exact Nat.add_zero _

namespace Reachable

theorem ofTypes {types : List (String × Nat)} (hwords : ∀ type ∈ types, type.2 < wordCount)
    (h : ofTypes types = .ok g) : g.Reachable := ⟨types, hwords, .ofTypes h⟩

theorem addEdges (r : Relation) (sources targets : List Nat) (h : g.Reachable) :
    (addEdges r sources targets g).2.Reachable :=
  let ⟨types, hwords, hbuilt⟩ := h
  ⟨types, hwords, hbuilt.addEdges r sources targets⟩

theorem merged (h : g.Reachable) : g.merged.Reachable :=
  let ⟨types, hwords, hbuilt⟩ := h
  ⟨types, hwords, hbuilt.merged⟩

theorem sound (h : g.Reachable) : g.Sound :=
  let ⟨_, hwords, hbuilt⟩ := h
  hbuilt.sound hwords

/-- However a graph was built, no end of an edge can be taken for a node of another
    type. -/
theorem located (h : g.Reachable) : g.Located := by
  rcases h with ⟨types, hwords, hbuilt⟩
  induction hbuilt with
  | ofTypes h =>
    obtain rfl := (eq_of_ofTypes h).1
    exact .inl fun r hr => absurd hr List.not_mem_nil
  | homogeneous h => exact .inl (inRange_homogeneous (hwords _ List.mem_cons_self) h)
  | addEdges r sources targets h ih =>
    rcases ih hwords with hrange | hsingle
    · exact .inl (inRange_addEdges (h.sound hwords) hrange r sources targets)
    · exact .inr (by rwa [nodeTypes_addEdges])
  | merged _ _ => exact .inr (Nat.le_refl 1)

end Reachable

end TypedGraph

end GraphAttention
