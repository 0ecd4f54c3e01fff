import GraphAttention.Attention
import GraphAttention.Proofs.Projection

/-!
# Attention Entry by Entry

What an attention module is meant to compute, one number at a time. Every
definition here gives the entry at given coordinates as an expression in entries
of the inputs: batch `b`, head `h`, query node `i`, key node `j`, feature `o`.
There are no tensors in between, so there is nothing to reshape and no axis to
exchange.

Feature `h * headDim + c` is component `c` of head `h`. A sum has one order
throughout, that of `sumRange`, and a softmax is taken of the list of the scores
of one query in one head over all keys.

Merging and projecting are given for any weights and not only for those that
come from the scores, because dropout changes the weights in between.

## Main definitions

* `Attention.WellFormed`: Sizes and parameters in agreement.
* `hides`: Whether a mask hides a pair of nodes.
* `Attention.queryAt`, `keyAt`, `valueAt`: The projections of a node.
* `Attention.scoreAt`: The score of a pair in a head, with bias and mask.
* `Attention.weightAt`: The softmax of the scores over the keys.
* `Attention.mergedAt`, `Attention.outputAt`: The values averaged by weights,
  and the result.
* `Attention.twoHeads`: A small module that is well-formed.
-/

namespace GraphAttention

/-- Whether a mask hides the pair at an index, for all heads. No mask hides
    nothing. -/
def hides (mask : Option Tensor) (idx : Index) : Bool :=
  match mask with
  | none => false
  | some m => m.nonzeroAt idx

namespace Attention

/-- The sizes of a module agree with each other and with its parameters, which
    are of one floating kind. -/
structure WellFormed (a : Attention) : Prop where
  isFloat : a.dtype.isFloat = true
  heads_pos : 0 < a.numHeads
  headDim_pos : 0 < a.headDim
  featSize_eq : a.featSize = a.numHeads * a.headDim
  projection : ∀ l ∈ a.projections,
    l.WellFormed a.dtype ∧ l.inFeatures = a.featSize ∧ l.outFeatures = a.featSize

variable (a : Attention) (x : Tensor) (bias mask : Option Tensor)

/-- The features of node `i` of item `b`. -/
def rowAt (b i k : Nat) : a.dtype.Elem := x.entry a.dtype [b, i, k]

def queryAt (b i o : Nat) : a.dtype.Elem := a.query.apply a.dtype (a.rowAt x b i) o

def keyAt (b i o : Nat) : a.dtype.Elem := a.key.apply a.dtype (a.rowAt x b i) o

def valueAt (b i o : Nat) : a.dtype.Elem := a.value.apply a.dtype (a.rowAt x b i) o

/-- The product of the scaled query of a node with the key of another, within
    one head. -/
def productAt (b h i j : Nat) : a.dtype.Elem :=
  sumRange a.headDim fun c =>
    a.queryAt x b i (h * a.headDim + c) * Scalar.ofFloat a.scaling
      * a.keyAt x b j (h * a.headDim + c)

/-- A score with the structural bias of its pair and head in it. -/
def biasedAt (b h i j : Nat) (score : a.dtype.Elem) : a.dtype.Elem :=
  match bias with
  | none => score
  | some t =>
    match a.biasMode with
    | .add => score + t.entry a.dtype [b, i, j, h]
    | .mul => score * t.entry a.dtype [b, i, j, h]

/-- The score of a pair in a head: negative infinity if the pair is hidden. -/
def scoreAt (b h i j : Nat) : a.dtype.Elem :=
  if hides mask [b, i, j] then a.dtype.negInf else a.biasedAt bias b h i j (a.productAt x b h i j)

/-- The weight of key `j` for query `i` among `n` nodes. -/
def weightAt (n b h i j : Nat) : a.dtype.Elem :=
  (a.dtype.softmaxLane ((List.range n).map fun k => a.scoreAt x bias mask b h i k)).getD j default

/-- Component `c` of head `h` of the values averaged by weights. -/
def mergedAt (weights : Nat → Nat → Nat → Nat → a.dtype.Elem) (n b i h c : Nat) : a.dtype.Elem :=
  sumRange n fun j => weights b h i j * a.valueAt x b j (h * a.headDim + c)

/-- The result for feature `o` of node `i`: the output projection of the merged
    heads. -/
def outputAt (weights : Nat → Nat → Nat → Nat → a.dtype.Elem) (n b i o : Nat) : a.dtype.Elem :=
  a.output.apply a.dtype
    (fun k => a.mergedAt x weights n b i (k / a.headDim) (k % a.headDim)) o

/-! ### A small module -/

/-- A layer from two inputs to two outputs with every weight one. -/
def unitLayer : Linear where
  inFeatures := 2
  outFeatures := 2
  weight := .trainable ⟨.float64, .fill [2, 2] 1, by decide⟩
  bias := none

/-- A module with two heads of one feature each. -/
def twoHeads : Attention where
  featSize := 2
  numHeads := 2
  headDim := 1
  biasMode := .add
  scaling := 1
  query := unitLayer
  key := unitLayer
  value := unitLayer
  output := unitLayer
  dropout := ⟨0, false⟩

theorem twoHeads_wellFormed : twoHeads.WellFormed where
  isFloat := rfl
  heads_pos := by decide
  headDim_pos := by decide
  featSize_eq := rfl
  projection := by
    intro l hl
    have hunit : l = unitLayer := by simpa [projections, twoHeads] using hl
    subst hunit
    exact ⟨⟨⟨rfl, rfl⟩, fun b hb => by cases hb⟩, rfl, rfl⟩

end Attention

end GraphAttention
