import GraphAttention.Tensor.Arithmetic
import GraphAttention.Tensor.Rows

/-!
# Tensor Operations as Values

An operation with its arguments, waiting for the tensor it is to be applied to.
A statement about every operation is a statement about `Operation.apply`, and a
chain of operations of any length is a list of them.

A chain keeps every tensor it has produced. An operation that is refused
produces nothing new, and the chain goes on from the tensor before it.

## Main definitions

* `Operation`: An operation and its arguments.
* `Operation.apply`: The operation applied to a tensor.
* `Operation.extend`: A chain of tensors with one more.
-/

namespace GraphAttention

/-- An operation on a tensor, with its other arguments. -/
inductive Operation where
  | identity
  | t
  | permute (axes : List Nat)
  | transpose (axisA axisB : Nat)
  | reshape (shape : Shape)
  | add (b : Tensor)
  | mul (b : Tensor)
  | matmul (b : Tensor)
  | bmm (b : Tensor)
  | scalarMul (scalar : Float)
  | clamp (low high : Int64)
  | softmax (axis : Nat)
  | maskedFill (mask : Tensor) (value : Float)
  | indexSelect (indices : Tensor)
  | indexAdd (indices source : Tensor)

namespace Operation

/-- The operation applied to a tensor. -/
def apply (a : Tensor) : Operation → Except TensorError Tensor
  | identity => .ok a
  | t => .ok a.t
  | permute axes => a.permute axes
  | transpose axisA axisB => a.transpose axisA axisB
  | reshape shape => a.reshape shape
  | add b => a.add b
  | mul b => a.mul b
  | matmul b => a.matmul b
  | bmm b => a.bmm b
  | scalarMul scalar => .ok (a.scalarMul scalar)
  | clamp low high => a.clamp low high
  | softmax axis => a.softmax axis
  | maskedFill mask value => a.maskedFill mask value
  | indexSelect indices => a.indexSelect indices
  | indexAdd indices source => a.indexAdd indices source

/-- What an operation makes of the newest tensor of a chain, and the newest
    tensor after it: the result, or the one before if there is none. -/
def extend (newest : Tensor) (op : Operation) : Except TensorError Tensor × Tensor :=
  let result := op.apply newest
  (result, result.toOption.getD newest)

end Operation

end GraphAttention
