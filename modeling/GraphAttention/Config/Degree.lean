import GraphAttention.Config.Record
import GraphAttention.Module.Error

/-!
# Settings of a Degree Encoder

The largest degree told apart, the length of the vectors, which degrees count
and the kind of the tables. Both directions and the narrower floating kind are
what is taken when nothing is said.

## Main definitions

* `DegreeConfig`: The settings.
* `DegreeConfig.validate`: Whether an encoder can be built from them.
* `DegreeConfig.toJson`, `DegreeConfig.ofJson`: Writing and reading them.
-/

namespace GraphAttention

/-- Requires a floating kind of parameters. -/
def requireFloatParameters (d : DType) : Except ModuleError Unit :=
  if d.isFloat then .ok () else .error (.setting (.integerKind d))

/-- The settings of a degree encoder. -/
structure DegreeConfig where
  maxDegree : Nat
  embeddingDim : Nat
  direction : Direction := default
  dtype : DType := default
deriving DecidableEq

namespace DegreeConfig

/-- Requires vectors with some length and a floating kind. -/
def validate (c : DegreeConfig) : Except ModuleError Unit := do
  if c.embeddingDim = 0 then throw (.setting .emptyEmbedding)
  requireFloatParameters c.dtype

/-- The settings as a value. -/
def toJson (c : DegreeConfig) : Json := .object [
  ("max_degree", .int (Int.ofNat c.maxDegree)), ("embedding_dim", .int (Int.ofNat c.embeddingDim)),
  ("direction", c.direction.toJson), ("dtype", c.dtype.toJson)]

/-- Settings of which some were read. -/
structure Draft where
  maxDegree : Option Nat := none
  embeddingDim : Option Nat := none
  direction : Direction := default
  dtype : DType := default

/-- The draft with one more member. -/
def Draft.put (draft : Draft) : String × Json → Except SettingsError Draft
  | ("max_degree", v) => return { draft with maxDegree := some (← formed v.natural?) }
  | ("embedding_dim", v) => return { draft with embeddingDim := some (← formed v.natural?) }
  | ("direction", v) => return { draft with direction := ← Direction.ofJson v }
  | ("dtype", v) => return { draft with dtype := ← formed (DType.ofJson? v) }
  | _ => throw .malformed

/-- The settings of a draft in which nothing required is missing. -/
def Draft.finish (draft : Draft) : Option DegreeConfig := do
  return ⟨← draft.maxDegree, ← draft.embeddingDim, draft.direction, draft.dtype⟩

/-- The settings that a value holds. -/
def ofJson : Json → Except SettingsError DegreeConfig :=
  readSettings ["max_degree", "embedding_dim", "direction", "dtype"] Draft.put {} Draft.finish

end DegreeConfig

end GraphAttention
