import GraphAttention.Proofs.Failures
import GraphAttention.Proofs.Gathering
import GraphAttention.Proofs.Operations

/-!
# Failures That Leave No Trace

An operation on a parameter that is refused is refused before anything changes. A gradient
is checked before the buffer is taken out, and then the sum cannot fail, because buffers
have the kind and the shape of the data as much as gradients that passed. Buffers that fit
are therefore what has to be known of a parameter.

Of a module nothing else has to be known for the operations that all modules have. Work on
one of its parameters is work on the module, and putting a parameter back unchanged changes
nothing, because parameters and settings are the whole of a module.

## Theorems

* `Parameter.setData_atomicAt`, `Parameter.accumulate_atomicAt`, `Parameter.perform_atomicAt`:
  Parameters.
* `Module.onParameter_atomicAt`, `Module.load_atomicAt`: Parameters of a module.
* `ModuleOp.perform_atomicAt`: The operations of every module.
-/

namespace GraphAttention

open GraphAttention.Action

/-! ### Parameters -/

namespace Parameter

variable {s : Tracked Parameter} {p : Parameter}

/-- Data that does not fit is refused before anything changes. -/
theorem setData_atomicAt (t : Tensor) (p : Parameter) : AtomicAt (setData t) p := by
  rcases fits_or_misfit p t with hfits | ⟨e, hmisfit⟩
  · exact SucceedsAt.atomicAt ⟨_, _, setData_ok hfits⟩
  · exact AtomicAt.of_error (setData_misfit hmisfit)

/-- A gradient that does not fit is refused before the buffer is taken out, and one that fits
    is added to it. -/
theorem accumulate_atomicAt (hs : s.value.BufferFits) (g : Tensor) :
    AtomicAt (accumulate g) s := by
  rcases s with ⟨enabled, p⟩
  rcases fits_or_misfit p g with hfits | ⟨e, hmisfit⟩
  · rcases accumulate_fits hs hfits enabled with ⟨grad, hrun, -⟩
    exact SucceedsAt.atomicAt ⟨_, _, hrun⟩
  · exact AtomicAt.of_error (accumulate_misfit hmisfit)

/-- No operation on a parameter leaves a trace where it fails. -/
theorem perform_atomicAt (hs : s.value.BufferFits) (op : Op) : AtomicAt (perform op) s := by
  cases op with
  | accumulate g => exact (accumulate_atomicAt hs g).bind fun _ s' _ => succeedsAt_get _ s'
  | zeroGrad => exact SucceedsAt.atomicAt ⟨_, _, rfl⟩
  | grad => exact (succeedsAt_get _ s).atomicAt
  | setData data =>
    exact (AtomicAt.zoom rfl (setData_atomicAt data s.value)).bind fun _ s' _ =>
      succeedsAt_get _ s'
  | data => exact (succeedsAt_get _ s).atomicAt
  | setRequiresGrad value => exact SucceedsAt.atomicAt ⟨_, _, rfl⟩
  | gradEnabled => exact (succeedsAt_get _ s).atomicAt

end Parameter

/-! ### Modules -/

namespace Module

variable {M : Type} [Module M]

/-- Work on one parameter leaves the module as it is where the work leaves the parameter as it
    is, and where there is no such parameter. -/
theorem onParameter_atomicAt [Lawful M] {s : Tracked M} {index : Nat} {α : Type}
    {act : Action (Tracked Parameter) TensorError α}
    (hact : ∀ p ∈ parameters s.value, AtomicAt act ⟨s.gradEnabled, p⟩) :
    AtomicAt (onParameter index act) s := by
  refine AtomicAt.get_bind ?_
  dsimp only
  cases hp : (parameters s.value)[index]? with
  | none => exact atomicAt_throw _ s
  | some p =>
    refine AtomicAt.mapError _ (AtomicAt.zoom ?_ (hact p (List.mem_of_getElem? hp)))
    have hset : (parameters s.value).set index p = parameters s.value := by
      rcases List.getElem?_eq_some_iff.mp hp with ⟨hlt, rfl⟩
      exact List.set_getElem_self hlt
    dsimp only
    rw [hset, withParameters_parameters]

theorem load_atomicAt (file : List UInt8) (m : M) : AtomicAt (load file) m :=
  fun _ _ hfail => load_error_state hfail

end Module

/-- No operation of a module leaves a trace where it fails, if the operations of its own do
    not. -/
theorem ModuleOp.perform_atomicAt {M Own R : Type} [Module M] [Module.Lawful M] {s : Tracked M}
    {own : Own → Action (Tracked M) ModuleError R}
    (hbuffers : Module.Each Parameter.BufferFits s.value) (hown : ∀ op, AtomicAt (own op) s)
    (op : ModuleOp Own) : AtomicAt (ModuleOp.perform own op) s := by
  cases op with
  | numParameters => exact (succeedsAt_get _ s).atomicAt
  | parameters => exact (succeedsAt_get _ s).atomicAt
  | shapes => exact (succeedsAt_get _ s).atomicAt
  | grads => exact (succeedsAt_get _ s).atomicAt
  | gradEnabled => exact (succeedsAt_get _ s).atomicAt
  | zeroGrad => exact SucceedsAt.atomicAt ⟨_, _, rfl⟩
  | setTraining on => exact SucceedsAt.atomicAt ⟨_, _, rfl⟩
  | setParameter index data =>
    refine (Module.onParameter_atomicAt fun p _ => ?_).bind fun _ s' _ => succeedsAt_pure _ s'
    exact AtomicAt.zoom rfl (Parameter.setData_atomicAt data p)
  | freeze index value =>
    refine (Module.onParameter_atomicAt fun p _ => ?_).bind fun _ s' _ => succeedsAt_pure _ s'
    exact SucceedsAt.atomicAt ⟨_, _, rfl⟩
  | accumulate index g =>
    refine (Module.onParameter_atomicAt fun p hp => ?_).bind fun _ s' _ => succeedsAt_pure _ s'
    exact (Parameter.accumulate_atomicAt (hbuffers p hp) g).bind fun _ s' _ =>
      succeedsAt_get _ s'
  | save reachable =>
    cases reachable with
    | true => exact (succeedsAt_get _ s).atomicAt
    | false => exact atomicAt_throw _ s
  | load file =>
    cases file with
    | none => exact atomicAt_throw _ s
    | some file =>
      exact (AtomicAt.zoom rfl (Module.load_atomicAt file s.value)).bind fun _ s' _ =>
        succeedsAt_pure _ s'
  | own op => exact (hown op).bind fun _ s' _ => succeedsAt_pure _ s'

end GraphAttention
