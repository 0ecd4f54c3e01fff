import GraphAttention.Config.Degree
import GraphAttention.Layer.Embedding
import GraphAttention.Tensor.Arithmetic

/-!
# Degree Encoders

Every node of a graph gets a vector that depends on how many edges enter it, how
many leave it, or both. Degrees are clamped to a largest one and looked up in a
table with a row for each; with two tables the two vectors are added. Row zero
is for padding, so a node without edges starts with no vector of its own.

A graph with several node types or relations is merged before its degrees are
counted. A graph with at most one of each is counted as it stands, and its node
numbers are those of the result either way.

The gradient of the vectors goes to the tables one after the other, first the
one for incoming edges.

## Main definitions

* `DegreeTables`: One table or two.
* `DegreeEncoder`: The settings kept and the tables.
* `DegreeEncoder.build`: An encoder with drawn tables.
* `DegreeEncoder.clampedDegrees`: Degrees as row numbers.
* `DegreeEncoder.forward`, `DegreeEncoder.backward`: Vectors and their gradient.
-/

namespace GraphAttention

/-- The tables of an encoder. -/
inductive DegreeTables where
  | incoming (table : Embedding)
  | outgoing (table : Embedding)
  | both (incoming outgoing : Embedding)
deriving DecidableEq

/-- An encoder of degrees as vectors. -/
structure DegreeEncoder where
  maxDegree : Nat
  embeddingDim : Nat
  tables : DegreeTables
deriving DecidableEq

namespace DegreeTables

/-- Which degrees the tables are for. -/
def direction : DegreeTables → Direction
  | incoming _ => .incoming
  | outgoing _ => .outgoing
  | both _ _ => .both

/-- The table for incoming edges. -/
def incoming? : DegreeTables → Option Embedding
  | incoming table => some table
  | outgoing _ => none
  | both table _ => some table

/-- The table for outgoing edges. -/
def outgoing? : DegreeTables → Option Embedding
  | incoming _ => none
  | outgoing table => some table
  | both _ table => some table

/-- The tables with another one for incoming edges, where there is one. -/
def withIncoming (table : Embedding) : DegreeTables → DegreeTables
  | incoming _ => incoming table
  | outgoing t => outgoing t
  | both _ t => both table t

/-- The tables with another one for outgoing edges, where there is one. -/
def withOutgoing (table : Embedding) : DegreeTables → DegreeTables
  | incoming t => incoming t
  | outgoing _ => outgoing table
  | both t _ => both t table

end DegreeTables

namespace DegreeEncoder

variable {G : Type} [NormalSource G]

/-- An encoder with drawn tables. -/
def build (c : DegreeConfig) : Action G ModuleError DegreeEncoder := do
  Action.attempt c.validate
  let table : Action G ModuleError Embedding :=
    Embedding.build (c.maxDegree + 1) c.embeddingDim (some 0) c.dtype
  let tables ← match c.direction with
    | .incoming => DegreeTables.incoming <$> table
    | .outgoing => DegreeTables.outgoing <$> table
    | .both => do
      let incoming ← table
      let outgoing ← table
      pure (.both incoming outgoing)
  return ⟨c.maxDegree, c.embeddingDim, tables⟩

/-- The degrees of the nodes, held below the largest one: first those of
    incoming edges, then those of outgoing edges. -/
def clampedDegrees (e : DegreeEncoder) (g : TypedGraph) :
    Except ModuleError (Tensor × Tensor) := do
  let g := if g.isHomogeneous then g else g.merged
  let largest := Int64.ofNat e.maxDegree
  let entering ← g.inDegrees.mapError .graph
  let entering ← (entering.clamp 0 largest).mapError .tensor
  let leaving ← g.outDegrees.mapError .graph
  let leaving ← (leaving.clamp 0 largest).mapError .tensor
  return (entering, leaving)

/-- The vector of every node. -/
def forward (e : DegreeEncoder) (g : TypedGraph) : Except ModuleError Tensor := do
  let (entering, leaving) ← e.clampedDegrees g
  match e.tables with
  | .incoming table => (table.forward entering).mapError .tensor
  | .outgoing table => (table.forward leaving).mapError .tensor
  | .both incoming outgoing => do
    let first ← (incoming.forward entering).mapError .tensor
    let second ← (outgoing.forward leaving).mapError .tensor
    (first.add second).mapError .tensor

/-- Work on the table for incoming edges, if there is one. -/
def onIncoming (act : Action (Tracked Embedding) TensorError Unit) :
    Action (Tracked DegreeEncoder) ModuleError Unit := do
  match (← get).value.tables.incoming? with
  | none => pure ()
  | some table => Action.mapError .tensor (Tracked.focus (fun _ => table)
      (fun t e => { e with tables := e.tables.withIncoming t }) act)

/-- Work on the table for outgoing edges, if there is one. -/
def onOutgoing (act : Action (Tracked Embedding) TensorError Unit) :
    Action (Tracked DegreeEncoder) ModuleError Unit := do
  match (← get).value.tables.outgoing? with
  | none => pure ()
  | some table => Action.mapError .tensor (Tracked.focus (fun _ => table)
      (fun t e => { e with tables := e.tables.withOutgoing t }) act)

/-- Accumulates the gradient of the vectors into the tables. -/
def backward (graph : TypedGraph) (g : Tensor) :
    Action (Tracked DegreeEncoder) ModuleError Unit := do
  let (entering, leaving) ← Action.attempt ((← get).value.clampedDegrees graph)
  onIncoming (Embedding.backward entering g)
  onOutgoing (Embedding.backward leaving g)

instance : Module DegreeEncoder where
  parameters e :=
    match e.tables with
    | .incoming t | .outgoing t => [t.weight]
    | .both t u => [t.weight, u.weight]
  withParameters ps e :=
    match ps, e.tables with
    | [p], .incoming t => { e with tables := .incoming { t with weight := p } }
    | [p], .outgoing t => { e with tables := .outgoing { t with weight := p } }
    | [p, q], .both t u =>
      { e with tables := .both { t with weight := p } { u with weight := q } }
    | _, _ => e

/-- The operations of a degree encoder. -/
inductive Op where
  | forward (graph : TypedGraph)
  | clampedDegrees (graph : TypedGraph)
  | backward (graph : TypedGraph) (g : Tensor)

/-- What an operation of a degree encoder answers. -/
inductive Answer where
  | vectors (t : Tensor)
  | degrees (entering leaving : Tensor)
  | buffers (gs : List (Option Tensor))

/-- Carries out an operation. -/
def perform : Op → Action (Tracked DegreeEncoder) ModuleError Answer
  | .forward graph => do
    return .vectors (← Action.attempt ((← get).value.forward graph))
  | .clampedDegrees graph => do
    let (entering, leaving) ← Action.attempt ((← get).value.clampedDegrees graph)
    return .degrees entering leaving
  | .backward graph g => do
    backward graph g
    return .buffers ((Module.parameters (← get).value).map Parameter.grad)

end DegreeEncoder

end GraphAttention
