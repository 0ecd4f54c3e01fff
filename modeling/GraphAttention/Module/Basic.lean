import GraphAttention.Learning.Parameter
import GraphAttention.Module.Error
import GraphAttention.Module.File

/-!
# Modules

A module is known here by its parameters in their order. `parameters` reads
them off and `withParameters` puts a list of them back; what a module computes
is its own affair. Everything that is the same for all modules is defined over
these two: counting, forgetting gradients, writing a file and loading one.

Loading is all or nothing. The whole file is read, the number of tensors is
compared and every tensor is held against its parameter before the first
parameter is touched.

## Main definitions

* `Module`: Reading and writing the parameters of a module.
* `Module.onParameter`: Work on one parameter.
* `Module.save`, `Module.load`: The parameters as a file.
* `ModuleOp`, `ModuleOp.perform`: The operations of every module as values.
-/

namespace GraphAttention

/-- A type with learned parameters. -/
class Module (M : Type) where
  /-- The parameters in order. -/
  parameters : M → List Parameter
  /-- The module with other parameters, as many as it has. -/
  withParameters : List Parameter → M → M
  /-- Switches between training and inference where the two differ. -/
  setTraining : Bool → M → M := fun _ m => m

namespace Module

variable {M : Type} [Module M]

/-- The number of elements of all parameters. -/
def numParameters (m : M) : Nat := (parameters m).foldl (fun n p => n + p.data.count) 0

/-- Forgets every gradient. -/
def zeroGrad (m : M) : M := withParameters ((parameters m).map Parameter.zeroGrad) m

/-- Work on one parameter. -/
def onParameter {α : Type} (index : Nat) (act : Action (Tracked Parameter) TensorError α) :
    Action (Tracked M) ModuleError α := do
  let ps := parameters (← get).value
  match ps[index]? with
  | none => throw (.noParameter index ps.length)
  | some p => Action.mapError .tensor (Tracked.focus (fun _ => p)
      (fun p m => withParameters ((parameters m).set index p) m) act)

/-- The parameters as a file. -/
def save (m : M) : List UInt8 := ParameterFile.encode ((parameters m).map Parameter.data)

/-- Requires of each tensor that it fits its parameter. -/
def ensureAllFit : List Parameter → List Tensor → Except TensorError Unit
  | p :: ps, t :: ts => do
    p.ensureFits t
    ensureAllFit ps ts
  | _, _ => .ok ()

/-- Replaces the data of each parameter, one after another. -/
def assignAll : List Tensor → Action (List Parameter) TensorError Unit
  | t :: ts => fun ps =>
    match ps with
    | [] => (.ok (), [])
    | p :: ps =>
      match Parameter.setData t p with
      | (.error e, p') => (.error e, p' :: ps)
      | (.ok (), p') =>
        let (result, ps') := assignAll ts ps
        (result, p' :: ps')
  | [] => pure ()

/-- Loads the parameters from a file. -/
def load (file : List UInt8) : Action M ModuleError Unit := do
  match ParameterFile.decode file with
  | none => throw .malformedFile
  | some (tensors, _) =>
    let ps := parameters (← get)
    if ps.length ≠ tensors.length then
      throw (.setting (.parameterCount ps.length tensors.length))
    Action.attempt ((ensureAllFit ps tensors).mapError .tensor)
    Action.mapError .tensor (Action.zoom parameters withParameters (assignAll tensors))

end Module

/-- The operations of every module, and the operations of its own. -/
inductive ModuleOp (Own : Type) where
  | numParameters
  | parameters
  | shapes
  | grads
  | zeroGrad
  | setTraining (on : Bool)
  | setParameter (index : Nat) (data : Tensor)
  | freeze (index : Nat) (value : Bool)
  | accumulate (index : Nat) (g : Tensor)
  | gradEnabled
  /-- Writes a file, at a place that can be written to or not. -/
  | save (reachable : Bool)
  /-- Loads a file, or finds none. -/
  | load (file : Option (List UInt8))
  | own (op : Own)

/-- What an operation of a module answers. -/
inductive ModuleAnswer (R : Type) where
  | number (n : Nat)
  | tensors (ts : List Tensor)
  | shapes (ss : List Shape)
  | buffers (gs : List (Option Tensor))
  | buffer (g : Option Tensor)
  | flag (value : Bool)
  | file (bytes : List UInt8)
  | done
  | own (r : R)

namespace ModuleOp

variable {M Own R : Type} [Module M]

/-- Carries out an operation and answers what it concerns. -/
def perform (own : Own → Action (Tracked M) ModuleError R) :
    ModuleOp Own → Action (Tracked M) ModuleError (ModuleAnswer R)
  | .numParameters => return .number (Module.numParameters (← get).value)
  | .parameters => return .tensors ((Module.parameters (← get).value).map Parameter.data)
  | .shapes => return .shapes ((Module.parameters (← get).value).map Parameter.shape)
  | .grads => return .buffers ((Module.parameters (← get).value).map Parameter.grad)
  | .zeroGrad => do
    modify fun s => { s with value := Module.zeroGrad s.value }
    return .done
  | .setTraining on => do
    modify fun s => { s with value := Module.setTraining on s.value }
    return .done
  | .setParameter index data => do
    Module.onParameter index (Tracked.onValue (Parameter.setData data))
    return .done
  | .freeze index value => do
    Module.onParameter index (modify fun s =>
      { s with value := { s.value with requiresGrad := !value } })
    return .done
  | .accumulate index g => do
    let buffer ← Module.onParameter index (do
      Parameter.accumulate g
      return (← get).value.grad)
    return .buffer buffer
  | .gradEnabled => return .flag (← get).gradEnabled
  | .save reachable => do
    if ¬ reachable then throw .missingFile
    return .file (Module.save (← get).value)
  | .load none => throw .missingFile
  | .load (some file) => do
    Tracked.onValue (Module.load file)
    return .done
  | .own op => return .own (← own op)

end ModuleOp

end GraphAttention
