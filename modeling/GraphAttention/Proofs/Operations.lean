import GraphAttention.Learning.Script
import GraphAttention.Proofs.Persistence
import GraphAttention.Proofs.Running

/-!
# What Work on a Module Keeps

A module is worked on by scripts: its parameters are replaced, frozen and loaded
from files, gradients gather, training is switched on and off, and steps fail in
between. None of this touches what a module is besides its parameters and its
mode of training, and no parameter changes its kind or its shape. A property that
looks at nothing else is `Stable`, and whatever was true of a module before a
script in this sense is true of it afterwards, after a failing step as well.

Data does change, and what is true of it is lost when other data is written. Only two
operations write data, and they are told from the rest by `ModuleOp.written`. A
property of single parameters that is `Steady` survives every script that writes
nothing but data which has it.

The argument has the two layers of the definition of a script. One operation
keeps a stable or a steady property, which is a case for each operation, and a tree of
steps keeps what its operations keep, which is an induction on the tree and knows
nothing of modules.

## Main definitions

* `Module.Stable`: A property that depends on kinds and shapes of parameters only.
* `Parameter.Steady`: A property of a parameter that only written data can end.
* `Module.Each`: Something is true of every parameter.
* `ModuleOp.written`: The tensors that an operation may write.
* `ModuleOp.after`: A module after some steps.
* `Script.ops`, `Script.allOps`: The operations that a script consists of.

## Theorems

* `Parameter.accumulate_keeps_data`, `Parameter.accumulate_keeps`: Gradients leave data
  alone.
* `Parameter.Steady.setData`: What is steady is kept where sound data is written.
* `Module.onParameter_run`, `Module.onParameter_keeps`, `Module.load_keeps`: Work on
  parameters.
* `ModuleOp.perform_keeps`, `ModuleOp.perform_keeps_each`: An operation keeps what is
  stable, and what is steady where it writes nothing else.
* `Script.run_keeps`, `Script.runAll_keeps`: A script keeps what its operations
  keep.
-/

namespace GraphAttention

open GraphAttention.Action

theorem Tracked.onValue_keeps {σ ε α : Type} {act : Action σ ε α} {P : σ → Prop}
    (h : Keeps act P) : Keeps (Tracked.onValue act) fun s => P s.value :=
  Keeps.zoom h (fun _ hs => hs) fun _ _ _ hpart => hpart

/-- Whatever is added to a gradient, the data stays. -/
theorem Parameter.accumulate_keeps_data (g : Tensor) (P : Tensor → Prop) :
    Keeps (Parameter.accumulate g) fun t => P t.value.data := by
  refine Keeps.get_bind fun t ht => Keeps.bind (keeps_attempt _) fun _ => ?_
  split
  · -- The buffer is out while it is added to, and the data is there all the time.
    exact Keeps.bind (fun _ _ => ht) fun _ => Keeps.bind (keeps_attempt _) fun _ => fun _ _ => ht
  · exact keeps_pure _

theorem Parameter.accumulate_keeps (g : Tensor) (d : DType) (s : Shape) :
    Keeps (Parameter.accumulate g) fun t => t.value.data.dtype = d ∧ t.value.shape = s :=
  accumulate_keeps_data g fun data => data.dtype = d ∧ data.shape = s

namespace Module

variable {M : Type} [Module M] {P : M → Prop}

/-- A property that other data of the same kinds and shapes does not change, nor
    a change of the mode of training. -/
structure Stable (P : M → Prop) : Prop where
  withParameters : ∀ ps m, P m → Compatible ps (parameters m) → P (Module.withParameters ps m)
  setTraining : ∀ on m, P m → P (Module.setTraining on m)

theorem Stable.and {Q : M → Prop} (hP : Stable P) (hQ : Stable Q) : Stable fun m => P m ∧ Q m where
  withParameters ps m h hps := ⟨hP.withParameters ps m h.1 hps, hQ.withParameters ps m h.2 hps⟩
  setTraining on m h := ⟨hP.setTraining on m h.1, hQ.setTraining on m h.2⟩

/-- Replacing one parameter by one of its kind and shape. -/
theorem Compatible.set {ps : List Parameter} {index : Nat} {p q : Parameter}
    (hp : ps[index]? = some p) (hkind : q.data.dtype = p.data.dtype) (hshape : q.shape = p.shape) :
    Compatible (ps.set index q) ps := by
  -- Setting walks down the list with the index, so the index varies in the induction.
  induction ps generalizing index with
  | nil => cases hp
  | cons p' ps ih =>
    cases index with
    | zero =>
      cases hp
      exact .cons ⟨hkind, hshape⟩ (Compatible.refl ps)
    | succ index => exact .cons ⟨rfl, rfl⟩ (ih hp)

theorem Compatible.refill {ps : List Parameter} {ts : List Tensor}
    (h : List.Forall₂ Parameter.Fits ps ts) : Compatible (Module.refill ps ts) ps := by
  induction h with
  | nil => exact .nil
  | cons hfit _ ih => exact .cons ⟨hfit.dtype, hfit.shape⟩ ih

theorem Compatible.map (f : Parameter → Parameter) (hf : ∀ p, (f p).data = p.data)
    (ps : List Parameter) : Compatible (ps.map f) ps := by
  induction ps with
  | nil => exact .nil
  | cons p ps ih => exact .cons ⟨by rw [hf], by rw [Parameter.shape, hf, Parameter.shape]⟩ ih

/-- A parameter is worked on under the mode of its module and then put back. -/
theorem onParameter_run {index : Nat} {α : Type} {act : Action (Tracked Parameter) TensorError α}
    {t : Tracked M} {p : Parameter} (hp : (parameters t.value)[index]? = some p) :
    onParameter index act t = ((act ⟨t.gradEnabled, p⟩).1.mapError .tensor,
      ⟨(act ⟨t.gradEnabled, p⟩).2.gradEnabled, Module.withParameters
        ((parameters t.value).set index (act ⟨t.gradEnabled, p⟩).2.value) t.value⟩) := by
  rw [onParameter, bind_ok (run_get t)]
  simp only [hp]
  rfl

/-- A module without the parameter is left alone. -/
theorem onParameter_none {index : Nat} {α : Type} {act : Action (Tracked Parameter) TensorError α}
    {t : Tracked M} (hp : (parameters t.value)[index]? = none) :
    onParameter index act t = (.error (.noParameter index (parameters t.value).length), t) := by
  rw [onParameter, bind_ok (run_get t)]
  simp only [hp]
  rfl

/-- Work on one parameter that keeps its kind and shape, on a module with that
    parameter or without it. -/
theorem onParameter_keeps (hP : Stable P) (index : Nat) {α : Type}
    {act : Action (Tracked Parameter) TensorError α}
    (hact : ∀ d s, Keeps act fun t => t.value.data.dtype = d ∧ t.value.shape = s) :
    Keeps (onParameter (M := M) index act) fun t => P t.value := by
  intro t ht
  cases hp : (parameters t.value)[index]? with
  | none =>
    rw [onParameter_none hp]
    exact ht
  | some p =>
    have hkept := hact p.data.dtype p.shape ⟨t.gradEnabled, p⟩ ⟨rfl, rfl⟩
    rw [onParameter_run hp]
    exact hP.withParameters _ _ ht (.set hp hkept.1 hkept.2)

/-- Loading replaces data by data that fits, or does nothing. -/
theorem load_keeps (hP : Stable P) (file : List UInt8) : Keeps (load (M := M) file) P := by
  intro m hm
  rcases load_cases m file with ⟨-, h⟩ | ⟨_, _, -, -, h⟩ | ⟨_, _, -, _, -, -, h⟩ |
    ⟨ts, rest, -, hfits, h⟩
  case inr.inr.inr =>
    -- Only a file that fits changes the module at all.
    rw [h]
    exact hP.withParameters _ m hm (.refill hfits)
  all_goals
    rw [h]
    exact hm

end Module

/-- An operation keeps what is stable, if the operations of the module's own do,
    also where it fails. -/
theorem ModuleOp.perform_keeps {M Own R : Type} [Module M] {P : M → Prop} (hP : Module.Stable P)
    {own : Own → Action (Tracked M) ModuleError R}
    (hown : ∀ op, Keeps (own op) fun t => P t.value) (op : ModuleOp Own) :
    Keeps (ModuleOp.perform own op) fun t => P t.value := by
  -- The first five operations and a save only read.
  cases op with
  | numParameters => exact keeps_get _
  | parameters => exact keeps_get _
  | shapes => exact keeps_get _
  | grads => exact keeps_get _
  | gradEnabled => exact keeps_get _
  | zeroGrad =>
    intro t ht
    exact hP.withParameters _ _ ht (.map Parameter.zeroGrad (fun _ => rfl) _)
  | setTraining on =>
    intro t ht
    exact hP.setTraining on _ ht
  | setParameter index data =>
    refine Keeps.bind (Module.onParameter_keeps hP index fun d s => ?_) fun _ => keeps_pure _
    exact Tracked.onValue_keeps (Parameter.setData_keeps data d s)
  | freeze index value =>
    -- Whether a parameter is trained is not among what has to stay.
    exact Keeps.bind (Module.onParameter_keeps hP index fun d s _ ht => ht) fun _ => keeps_pure _
  | accumulate index g =>
    refine Keeps.bind (Module.onParameter_keeps hP index fun d s => ?_) fun _ => keeps_pure _
    exact Keeps.bind (Parameter.accumulate_keeps g d s) fun _ => keeps_get _
  | save reachable =>
    cases reachable with
    | true => exact keeps_get _
    | false => exact keeps_throw _
  | load file =>
    cases file with
    | none => exact keeps_throw _
    | some file =>
      exact Keeps.bind (Tracked.onValue_keeps (Module.load_keeps hP file)) fun _ => keeps_pure _
  | own op => exact Keeps.bind (hown op) fun _ => keeps_pure _

/-! ### Properties of single parameters -/

/-- A property of a parameter that no operation of every module takes away, provided
    that data which is written is of some sort. -/
structure Parameter.Steady (Q : Parameter → Prop) (sound : Tensor → Prop) : Prop where
  zeroGrad : ∀ p, Q p → Q p.zeroGrad
  freeze : ∀ p value, Q p → Q { p with requiresGrad := value }
  accumulate : ∀ g, Keeps (Parameter.accumulate g) fun t => Q t.value
  write : ∀ p t, Q p → p.Fits t → sound t → Q { p with data := t }

/-- What is steady is kept where data of the sort that it asks for is written, or
    refused. -/
theorem Parameter.Steady.setData {Q : Parameter → Prop} {sound : Tensor → Prop}
    (hQ : Steady Q sound) {t : Tensor} (ht : sound t) : Keeps (Parameter.setData t) Q := by
  intro p hp
  rcases fits_or_misfit p t with hfit | ⟨e, hmisfit⟩
  · rw [setData_ok hfit]
    exact hQ.write p t hp hfit ht
  · rw [setData_misfit hmisfit]
    exact hp

/-- Something is true of every parameter of a module. -/
def Module.Each {M : Type} [Module M] (Q : Parameter → Prop) (m : M) : Prop :=
  ∀ p ∈ Module.parameters m, Q p

/-- The tensors that an operation may write into parameters. -/
def ModuleOp.written {Own : Type} : ModuleOp Own → List Tensor
  | .setParameter _ data => [data]
  | .load (some file) => ((ParameterFile.decode file).map Prod.fst).getD []
  | _ => []

/-- A module after some steps, begun with gradients on. -/
def ModuleOp.after {M Own R : Type} [Module M] (own : Own → Action (Tracked M) ModuleError R)
    (steps : List (Script ModuleError (ModuleOp Own))) (m : M) : M :=
  (Script.runAll ModuleError.isFatal (ModuleOp.perform own) steps (Tracked.start m)).2.value

section Steadiness

variable {M Own R : Type} [Module M] [Module.Lawful M] {Q : Parameter → Prop}
  {sound : Tensor → Prop}

theorem Module.onParameter_keeps_each (index : Nat) {α : Type}
    {act : Action (Tracked Parameter) TensorError α} (hact : Keeps act fun t => Q t.value) :
    Keeps (Module.onParameter (M := M) index act) fun t => Module.Each Q t.value := by
  intro t ht
  cases hp : (Module.parameters t.value)[index]? with
  | none =>
    rw [Module.onParameter_none hp]
    exact ht
  | some p =>
    -- The parameters afterwards are the ones before with another at one place.
    have hkept := hact ⟨t.gradEnabled, p⟩ (ht p (List.mem_of_getElem? hp))
    rw [Module.onParameter_run hp]
    intro q hq
    dsimp only at hq
    rw [Module.Lawful.parameters_withParameters _ _ (List.length_set)] at hq
    rcases List.mem_or_eq_of_mem_set hq with hq | rfl
    · exact ht q hq
    · exact hkept

/-- Parameters that are refilled keep a property that is kept when data is written. -/
theorem Module.forall_refill (hwrite : ∀ p t, Q p → p.Fits t → sound t → Q { p with data := t })
    {ps : List Parameter} {ts : List Tensor} (hfits : List.Forall₂ Parameter.Fits ps ts)
    (hps : ∀ p ∈ ps, Q p) (hts : ∀ t ∈ ts, sound t) : ∀ p ∈ Module.refill ps ts, Q p := by
  induction hfits with
  | nil => exact hps
  | cons hfit _ ih =>
    intro p hp
    rcases List.mem_cons.mp hp with rfl | hp
    · exact hwrite _ _ (hps _ List.mem_cons_self) hfit (hts _ List.mem_cons_self)
    · exact ih (fun q hq => hps q (List.mem_cons_of_mem _ hq))
        (fun t ht => hts t (List.mem_cons_of_mem _ ht)) p hp

theorem Module.load_keeps_each (hQ : Parameter.Steady Q sound) (file : List UInt8)
    (hfile : ∀ t ∈ ((ParameterFile.decode file).map Prod.fst).getD [], sound t) :
    Keeps (Module.load (M := M) file) (Module.Each Q) := by
  intro m hm
  rcases Module.load_cases m file with ⟨-, h⟩ | ⟨_, _, -, -, h⟩ | ⟨_, _, -, _, -, -, h⟩ |
    ⟨ts, rest, hdecode, hfits, h⟩
  case inr.inr.inr =>
    rw [hdecode] at hfile
    rw [h]
    intro p hp
    dsimp only at hp
    rw [Module.Lawful.parameters_withParameters _ m (Module.length_refill hfits)] at hp
    exact Module.forall_refill hQ.write hfits hm hfile p hp
  all_goals
    rw [h]
    exact hm

/-- An operation keeps a steady property of all parameters, if what it writes is of the
    sort that the property asks for, and if the operations of the module's own keep it. -/
theorem ModuleOp.perform_keeps_each (hQ : Parameter.Steady Q sound)
    (htraining : ∀ on (m : M), Module.parameters (Module.setTraining on m) = Module.parameters m)
    {own : Own → Action (Tracked M) ModuleError R}
    (hown : ∀ op, Keeps (own op) fun t => Module.Each Q t.value) (op : ModuleOp Own)
    (hop : ∀ t ∈ op.written, sound t) :
    Keeps (ModuleOp.perform own op) fun t => Module.Each Q t.value := by
  cases op with
  | numParameters => exact keeps_get _
  | parameters => exact keeps_get _
  | shapes => exact keeps_get _
  | grads => exact keeps_get _
  | gradEnabled => exact keeps_get _
  | zeroGrad =>
    intro t ht p hp
    change p ∈ Module.parameters (Module.withParameters _ _) at hp
    rw [Module.Lawful.parameters_withParameters _ _ (List.length_map _)] at hp
    rcases List.mem_map.mp hp with ⟨q, hq, rfl⟩
    exact hQ.zeroGrad q (ht q hq)
  | setTraining on =>
    intro t ht p hp
    change p ∈ Module.parameters (Module.setTraining on t.value) at hp
    rw [htraining] at hp
    exact ht p hp
  | setParameter index data =>
    refine Keeps.bind (Module.onParameter_keeps_each index ?_) fun _ => keeps_pure _
    exact Tracked.onValue_keeps (hQ.setData (hop data (List.mem_singleton_self data)))
  | freeze index value =>
    exact Keeps.bind (Module.onParameter_keeps_each index fun t ht => hQ.freeze t.value _ ht)
      fun _ => keeps_pure _
  | accumulate index g =>
    refine Keeps.bind (Module.onParameter_keeps_each index ?_) fun _ => keeps_pure _
    exact Keeps.bind (hQ.accumulate g) fun _ => keeps_get _
  | save reachable =>
    cases reachable with
    | true => exact keeps_get _
    | false => exact keeps_throw _
  | load file =>
    cases file with
    | none => exact keeps_throw _
    | some file =>
      exact Keeps.bind (Tracked.onValue_keeps (Module.load_keeps_each hQ file hop)) fun _ =>
        keeps_pure _
  | own op => exact Keeps.bind (hown op) fun _ => keeps_pure _

end Steadiness

namespace Script

variable {σ ε Op R : Type}

mutual

/-- The operations of a step, also those within scopes. -/
def ops : Script ε Op → List Op
  | act op => [op]
  | noGrad body => allOps body
  | failing _ => []

/-- The operations of a list of steps. -/
def allOps : List (Script ε Op) → List Op
  | [] => []
  | step :: steps => ops step ++ allOps steps

end

variable {P : σ → Prop} {perform : Op → Action (Tracked σ) ε R}

-- The two follow the recursion of `run` and `runScope` through nested scopes.
mutual

/-- A step keeps what its operations keep: the mode of gradients is not part of
    it, and what fails leaves a state as well. -/
theorem run_keeps (fatal : ε → Bool) : (step : Script ε Op) →
    (∀ op ∈ ops step, Keeps (perform op) fun t => P t.value) → (t : Tracked σ) → P t.value →
      P (run fatal perform step t).2.value
  | act op, h, t, ht => h op (List.mem_singleton_self op) t ht
  | noGrad body, h, t, ht => runScope_keeps fatal body h { t with gradEnabled := false } ht
  | failing _, _, _, ht => ht

theorem runScope_keeps (fatal : ε → Bool) : (steps : List (Script ε Op)) →
    (∀ op ∈ allOps steps, Keeps (perform op) fun t => P t.value) → (t : Tracked σ) → P t.value →
      P (runScope fatal perform steps t).2.value
  | [], _, _, ht => ht
  | step :: steps, h, t, ht => by
    have hstep := run_keeps fatal step (fun op hop => h op (List.mem_append_left _ hop)) t ht
    rw [runScope]
    dsimp only
    split
    · exact hstep
    · exact runScope_keeps fatal steps (fun op hop => h op (List.mem_append_right _ hop)) _ hstep

end

/-- What their operations keep is kept by any number of steps. -/
theorem runAll_keeps (fatal : ε → Bool) (steps : List (Script ε Op))
    (h : ∀ op ∈ allOps steps, Keeps (perform op) fun t => P t.value) (t : Tracked σ)
    (ht : P t.value) : P (runAll fatal perform steps t).2.value := by
  induction steps generalizing t with
  | nil => exact ht
  | cons step steps ih =>
    have hstep := run_keeps fatal step (fun op hop => h op (List.mem_append_left _ hop)) t ht
    exact ih (fun op hop => h op (List.mem_append_right _ hop)) _ hstep

end Script

end GraphAttention
