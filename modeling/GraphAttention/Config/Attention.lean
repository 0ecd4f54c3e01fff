import GraphAttention.Config.Degree
import GraphAttention.Tensor.Random

/-!
# Settings of an Attention Module

The number of features, the number of heads that share them, whether the
projections have biases, how a structural bias enters the scores, the chance of
dropping a weight, and the kind of the parameters.

The features have to be divided evenly among the heads. Whether the settings
describe a module is asked in a fixed order: sizes, divisibility, chance, kind.

## Main definitions

* `AttentionConfig`: The settings.
* `AttentionConfig.headDim`: The features of one head.
* `AttentionConfig.validate`: Whether a module can be built from them.
* `AttentionConfig.toJson`, `AttentionConfig.ofJson`: Writing and reading them.
-/

namespace GraphAttention

/-- The settings of an attention module. -/
structure AttentionConfig where
  featSize : Nat
  numHeads : Nat
  bias : Bool := true
  biasMode : BiasMode := default
  attnDrop : Float := 0.1
  dtype : DType := default
deriving DecidableEq

namespace AttentionConfig

/-- The features of one head, none if there is no head. -/
def headDim (c : AttentionConfig) : Nat :=
  if c.numHeads = 0 then 0 else c.featSize / c.numHeads

/-- Requires settings that describe a module. -/
def validate (c : AttentionConfig) : Except ModuleError Unit := do
  if c.featSize = 0 ∨ c.numHeads = 0 then throw (.setting (.emptySizes c.featSize c.numHeads))
  if c.featSize % c.numHeads ≠ 0 then throw (.indivisibleHeads c.featSize c.numHeads)
  if ¬ Tensor.isProbability c.attnDrop then throw (.dropProbability c.attnDrop)
  requireFloatParameters c.dtype

/-- Whether two settings agree, where the two zeros of a chance do. -/
def agrees (c d : AttentionConfig) : Bool :=
  c.attnDrop == d.attnDrop && decide ({ c with attnDrop := 0 } = { d with attnDrop := 0 })

/-- The settings as a value. -/
def toJson (c : AttentionConfig) : Json := .object [
  ("feat_size", .int (Int.ofNat c.featSize)), ("num_heads", .int (Int.ofNat c.numHeads)),
  ("bias", .bool c.bias), ("attn_bias_type", c.biasMode.toJson),
  ("attn_drop", DType.floatJson c.attnDrop), ("dtype", c.dtype.toJson)]

/-- Settings of which some were read. -/
structure Draft where
  featSize : Option Nat := none
  numHeads : Option Nat := none
  bias : Bool := true
  biasMode : BiasMode := default
  attnDrop : Float := 0.1
  dtype : DType := default

/-- The draft with one more member. -/
def Draft.put (draft : Draft) : String × Json → Except SettingsError Draft
  | ("feat_size", v) => return { draft with featSize := some (← formed v.natural?) }
  | ("num_heads", v) => return { draft with numHeads := some (← formed v.natural?) }
  | ("bias", v) => return { draft with bias := ← formed v.bool? }
  | ("attn_bias_type", v) => return { draft with biasMode := ← BiasMode.ofJson v }
  | ("attn_drop", v) => return { draft with attnDrop := ← formed v.number? }
  | ("dtype", v) => return { draft with dtype := ← formed (DType.ofJson? v) }
  | _ => throw .malformed

/-- The settings of a draft in which nothing required is missing. -/
def Draft.finish (draft : Draft) : Option AttentionConfig := do
  return ⟨← draft.featSize, ← draft.numHeads, draft.bias, draft.biasMode, draft.attnDrop,
    draft.dtype⟩

/-- The settings that a value holds. -/
def ofJson : Json → Except SettingsError AttentionConfig :=
  readSettings ["feat_size", "num_heads", "bias", "attn_bias_type", "attn_drop", "dtype"]
    Draft.put {} Draft.finish

end AttentionConfig

end GraphAttention
