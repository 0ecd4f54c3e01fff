import GraphAttention.Learning.Script
import GraphAttention.Tensor.Arithmetic

/-!
# Parameters

A parameter is a tensor to be learned and the gradient gathered for it so far.
The buffer is absent until something has been accumulated, and afterwards holds
the sum of what was, in the order in which it came.

What is accumulated has to have the kind and the shape of the data, and this is
asked first. Only then does it matter whether the parameter is frozen or
gradients are off, so a gradient that does not fit is refused even where it
would have had no effect.

## Main definitions

* `Parameter`: Data, whether it is learned, and the gradient so far.
* `Parameter.accumulate`: A gradient added to the buffer.
* `Parameter.setData`: Other data of the same kind and shape.
* `Parameter.Op`, `Parameter.perform`: The operations on a parameter as values.
-/

namespace GraphAttention

/-- A tensor to be learned and the gradient gathered for it. -/
structure Parameter where
  data : Tensor
  requiresGrad : Bool
  grad : Option Tensor
deriving DecidableEq

namespace Parameter

/-- A parameter that is learned. -/
def trainable (data : Tensor) : Parameter := ⟨data, true, none⟩

/-- A parameter that never gathers a gradient. -/
def frozen (data : Tensor) : Parameter := ⟨data, false, none⟩

/-- The shape of the data. -/
def shape (p : Parameter) : Shape := p.data.shape

/-- Requires of a tensor the kind and the shape of the data. -/
def ensureFits (p : Parameter) (t : Tensor) : Except TensorError Unit := do
  p.data.ensureKind t
  t.ensureShape p.shape

/-- Adds a gradient to the buffer, unless the parameter is frozen or gradients
    are off. The buffer is taken out while it is added to. -/
def accumulate (g : Tensor) : Action (Tracked Parameter) TensorError Unit := do
  let s ← get
  let p := s.value
  Action.attempt (p.ensureFits g)
  if p.requiresGrad && s.gradEnabled then
    set { s with value := { p with grad := none } }
    let sum ← Action.attempt (match p.grad with
      | some buffer => buffer.add g
      | none => .ok g)
    set { s with value := { p with grad := some sum } }

/-- Forgets the gradient. -/
def zeroGrad (p : Parameter) : Parameter := { p with grad := none }

/-- Replaces the data by other data of the same kind and shape. -/
def setData (data : Tensor) : Action Parameter TensorError Unit := do
  let p ← get
  Action.attempt (p.ensureFits data)
  set { p with data := data }

/-- The operations on a parameter. -/
inductive Op where
  | accumulate (g : Tensor)
  | zeroGrad
  | grad
  | setData (data : Tensor)
  | data
  | setRequiresGrad (value : Bool)
  | gradEnabled

/-- What an operation on a parameter answers. -/
inductive Answer where
  | buffer (grad : Option Tensor)
  | data (data : Tensor)
  | flag (value : Bool)
  | done

/-- Carries out an operation and answers what it concerns. -/
def perform : Op → Action (Tracked Parameter) TensorError Answer
  | .accumulate g => do
    accumulate g
    return .buffer (← get).value.grad
  | .zeroGrad => do
    modify fun s => { s with value := s.value.zeroGrad }
    return .buffer (← get).value.grad
  | .grad => return .buffer (← get).value.grad
  | .setData data => do
    Tracked.onValue (setData data)
    return .data (← get).value.data
  | .data => return .data (← get).value.data
  | .setRequiresGrad value => do
    modify fun s => { s with value := { s.value with requiresGrad := value } }
    return .done
  | .gradEnabled => return .flag (← get).gradEnabled

end Parameter

end GraphAttention
