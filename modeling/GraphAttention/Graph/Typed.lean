import GraphAttention.Action
import GraphAttention.Graph.EdgeList
import GraphAttention.Tensor.Basic

/-!
# Typed Graphs

A directed graph whose nodes are divided into named types and whose edges are
divided into relations. A relation names the type of its sources, the kind of
edge and the type of its targets, and nodes are numbered within their type.

Edges are added to a relation after every check has passed: the two lists are
equally long, the type of the sources exists and has all of them, then the same
for the targets. A relation appears with its first edges, at the end.

Degrees are asked of a graph with at most one type and one relation. Any other
graph is merged first: the types are laid end to end in the order of their
declaration, so a node moves up by the number of nodes in the types before its
own, and the edges follow, relation by relation.

Numbers of nodes are held in machine words. A type may have nearly as many nodes
as a word can hold, since nothing is stored for a node, and then the types
together may have more. Merging does not look for that: the number of all nodes
and the numbers they get are what is left in a word.

A graph that was read from a file need not obey any of this. A type that a
relation names and that does not exist is merged as if it came first.

## Main definitions

* `Relation`: The types and the kind of edge of a relation.
* `TypedGraph`: Node types and relations.
* `TypedGraph.ofTypes`, `TypedGraph.homogeneous`: Graphs to begin with.
* `TypedGraph.addEdges`: Edges added to a relation.
* `TypedGraph.merged`: The graph with one type and one relation.
* `TypedGraph.inDegrees`, `TypedGraph.outDegrees`: Degrees as a tensor.
-/

namespace GraphAttention

/-- A relation: the type of its sources, its kind of edge, the type of its
    targets. -/
structure Relation where
  sourceType : String
  edgeType : String
  targetType : String
deriving DecidableEq, Repr

/-- A directed graph of typed nodes and relations between them. -/
structure TypedGraph where
  nodeTypes : List (String × Nat)
  relations : List (Relation × EdgeList)
deriving DecidableEq

/-- The reasons for which a graph operation is refused. -/
inductive GraphError where
  | unknownNodeType (name : String)
  | duplicateNodeType (name : String)
  | nodeOutOfRange (name : String) (id count : Nat)
  | endpointLengths (sources targets : Nat)
  | notHomogeneous (nodeTypes edgeTypes : Nat)
  | tensor (e : TensorError)
deriving DecidableEq

/-- The wording of a refusal. -/
def GraphError.message : GraphError → String
  | unknownNodeType name => "Unknown node type: " ++ name
  | duplicateNodeType name => "Duplicate node type: " ++ name
  | nodeOutOfRange name id count => "Node id " ++ toString id ++ " out of range for node type "
      ++ name ++ " with " ++ toString count ++ " nodes"
  | endpointLengths sources targets => "Edge endpoint arrays differ in length: "
      ++ toString sources ++ " sources, " ++ toString targets ++ " destinations"
  | notHomogeneous nodeTypes edgeTypes => "Degree query needs a homogeneous graph, got "
      ++ toString nodeTypes ++ " node types and " ++ toString edgeTypes ++ " edge types"
  | tensor e => e.message

/-- Whether a refusal ends the work that surrounds the operation. -/
def GraphError.isFatal : GraphError → Bool
  | tensor e => e.isFatal
  | _ => false

/-- The relation of a graph with a single type. -/
def Relation.homogeneous : Relation := ⟨"_N", "_E", "_N"⟩

namespace TypedGraph

/-- The type of the nodes of a graph with a single type. -/
def homogeneousType : String := "_N"

/-- How many nodes a type has, if it exists. -/
def typeCount? (g : TypedGraph) (name : String) : Option Nat := g.nodeTypes.lookup name

/-- How many nodes the types before a given one have, if it exists, held in a
    machine word. -/
def offsetIn? (name : String) : List (String × Nat) → Option Nat
  | [] => none
  | (other, count) :: types =>
    if other = name then some 0 else (offsetIn? name types).map fun n => wrap (count + n)

/-- The number that node zero of a type has after merging. -/
def typeOffset (g : TypedGraph) (name : String) : Nat := (offsetIn? name g.nodeTypes).getD 0

/-- The first name that is in `seen` or stood before in the list. -/
def firstRepeat? (seen : List String) : List (String × Nat) → Option String
  | [] => none
  | (name, _) :: types => if name ∈ seen then some name else firstRepeat? (name :: seen) types

/-- The graph with the given types and no edges. -/
def ofTypes (types : List (String × Nat)) : Except GraphError TypedGraph :=
  match firstRepeat? [] types with
  | some name => .error (.duplicateNodeType name)
  | none => .ok ⟨types, []⟩

/-- How many nodes a type has, provided it exists and has all the given
    nodes. -/
def checkNodes (g : TypedGraph) (name : String) (ids : List Nat) : Except GraphError Nat :=
  match g.typeCount? name with
  | none => .error (.unknownNodeType name)
  | some count =>
    match ids.find? fun id => count ≤ id with
    | some id => .error (.nodeOutOfRange name id count)
    | none => .ok count

/-- The relations with further edges in one of them, which joins at the end as
    `fresh` if it is not there yet. -/
def extendRelation (r : Relation) (fresh : EdgeList) (sources targets : List Nat) :
    List (Relation × EdgeList) → List (Relation × EdgeList)
  | [] => [(r, fresh.append sources targets)]
  | (other, edges) :: rest =>
    if other = r then (other, edges.append sources targets) :: rest
    else (other, edges) :: extendRelation r fresh sources targets rest

/-- Adds edges to a relation. -/
def addEdges (r : Relation) (sources targets : List Nat) : Action TypedGraph GraphError Unit := do
  let g ← get
  if sources.length ≠ targets.length then
    throw (.endpointLengths sources.length targets.length)
  let numSources ← Action.attempt (g.checkNodes r.sourceType sources)
  let numTargets ← Action.attempt (g.checkNodes r.targetType targets)
  let fresh := EdgeList.empty numSources numTargets
  set { g with relations := extendRelation r fresh sources targets g.relations }

/-- The graph with a single type and a single relation. -/
def homogeneous (numNodes : Nat) (sources targets : List Nat) : Except GraphError TypedGraph :=
  let bare : TypedGraph :=
    ⟨[(homogeneousType, numNodes)], [(.homogeneous, .empty numNodes numNodes)]⟩
  match addEdges .homogeneous sources targets bare with
  | (.ok (), g) => .ok g
  | (.error e, _) => .error e

/-- The number of nodes of all types, held in a machine word. -/
def numNodes (g : TypedGraph) : Nat := g.nodeTypes.foldl (fun n t => wrap (n + t.2)) 0

/-- The number of edges of all relations. -/
def numEdges (g : TypedGraph) : Nat := g.relations.foldl (fun n r => n + r.2.count) 0

/-- At most one type and one relation. -/
def isHomogeneous (g : TypedGraph) : Bool :=
  g.nodeTypes.length ≤ 1 && g.relations.length ≤ 1

/-- The edges of all relations between the renumbered nodes. -/
def mergedEdges (g : TypedGraph) : EdgeList :=
  g.relations.foldl
    (fun all (r, edges) =>
      all.extendShifted edges (g.typeOffset r.sourceType) (g.typeOffset r.targetType))
    (.empty g.numNodes g.numNodes)

/-- The graph with all types merged into one and all relations into one. -/
def merged (g : TypedGraph) : TypedGraph :=
  ⟨[(homogeneousType, g.numNodes)], [(.homogeneous, g.mergedEdges)]⟩

/-- Degrees as a tensor, counted in the first relation. Without one they are
    zero. -/
def degrees (g : TypedGraph) (counts : EdgeList → Except TensorError (Array Nat)) :
    Except GraphError Tensor :=
  if g.isHomogeneous then Except.mapError .tensor do
    let numbers ← match g.relations with
      | [] => countOccurrences [] g.numNodes
      | (_, edges) :: _ => counts edges
    Tensor.ofElements .int64 (numbers.map Int64.ofNat) [g.numNodes]
  else .error (.notHomogeneous g.nodeTypes.length g.relations.length)

/-- How many edges enter each node. -/
def inDegrees (g : TypedGraph) : Except GraphError Tensor := g.degrees EdgeList.targetCounts

/-- How many edges leave each node. -/
def outDegrees (g : TypedGraph) : Except GraphError Tensor := g.degrees EdgeList.sourceCounts

end TypedGraph

end GraphAttention
