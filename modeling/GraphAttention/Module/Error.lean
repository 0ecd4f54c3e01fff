import GraphAttention.Config.Choice
import GraphAttention.Graph.Typed

/-!
# Why a Module Is Refused

A module can be refused when its settings are read, when it is built, when it
is run and when its parameters are loaded. What comes from tensors or graphs
below is passed on as it is.

## Main definitions

* `SettingFault`: Settings that no module can have.
* `ModuleError`: All refusals.
* `ModuleError.message`: Their wording.
* `ModuleError.isFatal`: Whether one ends the work around it.
-/

namespace GraphAttention

/-- Settings, or a file, that do not describe the module. -/
inductive SettingFault where
  | emptyEmbedding
  | emptySizes (featSize numHeads : Nat)
  | integerKind (dtype : DType)
  | paddingOutside (row rows : Nat)
  | parameterCount (expected got : Nat)
deriving DecidableEq

/-- The wording of a fault. -/
def SettingFault.message : SettingFault → String
  | emptyEmbedding => "embedding_dim must be positive"
  | emptySizes featSize numHeads => "feat_size and num_heads must be positive, got "
      ++ toString featSize ++ " and " ++ toString numHeads
  | integerKind dtype => "parameters need a float dtype, got " ++ dtype.name
  | paddingOutside row rows => "padding_idx " ++ toString row
      ++ " must be within num_embeddings " ++ toString rows
  | parameterCount expected got => "Model architecture mismatch. Expected " ++ toString expected
      ++ " parameter blocks, file contains " ++ toString got

/-- The reasons for which a module operation is refused. -/
inductive ModuleError where
  | choice (e : ChoiceError)
  | indivisibleHeads (featSize numHeads : Nat)
  | dropProbability (p : Float)
  | setting (fault : SettingFault)
  | featureRank (shape : Shape)
  | tensor (e : TensorError)
  | graph (e : GraphError)
  | missingFile
  | malformedFile
  | noParameter (index count : Nat)
deriving DecidableEq

/-- Whether a refusal ends the work that surrounds the operation. Asking for a
    parameter that is not there does. -/
def ModuleError.isFatal : ModuleError → Bool
  | tensor e => e.isFatal
  | graph e => e.isFatal
  | noParameter .. => true
  | _ => false

/-- The wording of a refusal. -/
def ModuleError.message : ModuleError → String
  | choice e => e.message
  | indivisibleHeads featSize numHeads =>
      "feat_size must be divisible by num_heads, got feat_size=" ++ toString featSize
      ++ " and num_heads=" ++ toString numHeads
  | dropProbability p => "Dropout probability must be in [0, 1), got " ++ Decimal.render p
  | setting fault => "Invalid configuration: " ++ fault.message
  | featureRank shape =>
      "Invalid operation: node features must be [batch, N, feat_size], got " ++ listText shape
  | tensor e => e.message
  | graph e => e.message
  | missingFile => "The parameter file cannot be opened"
  | malformedFile => "The parameter file is malformed"
  | noParameter index count => "There is no parameter " ++ toString index ++ " among "
      ++ toString count

end GraphAttention
