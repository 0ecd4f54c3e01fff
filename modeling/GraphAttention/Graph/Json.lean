import GraphAttention.Graph.Typed
import GraphAttention.Json.Basic

/-!
# Graphs as JSON

A graph is written with its node types and its relations, each in order, and
read back without any check beyond the form: types may repeat, a relation may
name a type that is not there, and an entry may be no node.

Every record may be written as an object, whose further members are ignored, or
as the array of its fields.

## Main definitions

* `EdgeList.toJson`, `EdgeList.ofJson?`: Edge lists.
* `TypedGraph.toJson`, `TypedGraph.ofJson?`: Graphs.
-/

namespace GraphAttention

/-- A list of numbers as a value. -/
def naturalsJson (ns : List Nat) : Json := .array (ns.map fun n => .int (Int.ofNat n))

/-- The list of numbers that a value holds. -/
def naturals? : Json → Option (List Nat) := Json.list? Json.natural?

namespace EdgeList

/-- An edge list as a value. -/
def toJson (e : EdgeList) : Json := .object [
  ("num_rows", .int (Int.ofNat e.numSources)), ("num_cols", .int (Int.ofNat e.numTargets)),
  ("row", naturalsJson e.sources), ("col", naturalsJson e.targets)]

/-- The edge list that a value holds. -/
def ofJson? (value : Json) : Option EdgeList := do
  let members ← value.record? ["num_rows", "num_cols", "row", "col"]
  return {
    numSources := ← (← Json.field? "num_rows" members).natural?
    numTargets := ← (← Json.field? "num_cols" members).natural?
    sources := ← naturals? (← Json.field? "row" members)
    targets := ← naturals? (← Json.field? "col" members) }

end EdgeList

namespace Relation

/-- A relation as a value. -/
def toJson (r : Relation) : Json := .object [("src_type", .string r.sourceType),
  ("edge_type", .string r.edgeType), ("dst_type", .string r.targetType)]

/-- The relation that a value holds. -/
def ofJson? (value : Json) : Option Relation := do
  let members ← value.record? ["src_type", "edge_type", "dst_type"]
  return {
    sourceType := ← (← Json.field? "src_type" members).text?
    edgeType := ← (← Json.field? "edge_type" members).text?
    targetType := ← (← Json.field? "dst_type" members).text? }

end Relation

namespace TypedGraph

/-- A graph as a value. -/
def toJson (g : TypedGraph) : Json := .object [
  ("node_types", .array (g.nodeTypes.map fun (name, count) =>
    .array [.string name, .int (Int.ofNat count)])),
  ("relations", .array (g.relations.map fun (r, edges) => .array [r.toJson, edges.toJson]))]

/-- The graph that a value holds. -/
def ofJson? (value : Json) : Option TypedGraph := do
  let members ← value.record? ["node_types", "relations"]
  return {
    nodeTypes := ← (← Json.field? "node_types" members).list?
      (Json.pair? Json.text? Json.natural?)
    relations := ← (← Json.field? "relations" members).list?
      (Json.pair? Relation.ofJson? EdgeList.ofJson?) }

end TypedGraph

end GraphAttention
