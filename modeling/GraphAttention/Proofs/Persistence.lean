import GraphAttention.Proofs.Loading
import GraphAttention.Proofs.Settings

/-!
# Saved and Loaded Again

What one module writes another can load, if their parameters have the same kinds
and shapes in the same order. The second module then has the data of the first
and is otherwise the one it was: its settings, what has been gathered for its
gradients and which of its parameters are learned are not in the file.

Two things come together here. The file holds all tensors of the first module
and gives them back as they were, which is a matter of its layout, and each of
them ends up in the parameter at its place, which is a matter of the kind of
module. Elements are words throughout, so they are the same words afterwards,
also those that stand for no number.

## Theorems

* `Module.isFile_save`: What is written is a file of the data in order.
* `Module.load_save`: What one module writes is loaded by another.
* `Module.withParameters_parameters`: Putting parameters back changes nothing.
* `Module.load_own`: A module that loads what it wrote does not change.
* `ModuleKind.load_save_keeps`: The same for each kind of module, part by part.
-/

namespace GraphAttention

namespace Module

/-- The parameters of two modules have the same kinds and shapes in order. -/
def Compatible (ps qs : List Parameter) : Prop :=
  List.Forall₂ (fun p q => p.data.dtype = q.data.dtype ∧ p.shape = q.shape) ps qs

variable {ps qs : List Parameter} {ts : List Tensor}

theorem Compatible.fits (h : Compatible ps qs) :
    List.Forall₂ Parameter.Fits qs (ps.map Parameter.data) := by
  induction h with
  | nil => exact .nil
  | cons hpq _ ih => exact .cons ⟨hpq.1, hpq.2⟩ ih

theorem Compatible.refl (ps : List Parameter) : Compatible ps ps :=
  List.forall₂_same.mpr fun _ _ => ⟨rfl, rfl⟩

theorem length_refill (h : List.Forall₂ Parameter.Fits ps ts) :
    (refill ps ts).length = ps.length := by
  rw [refill, List.length_zipWith, h.length_eq, Nat.min_self]

/-- The data of refilled parameters is what they were filled with. -/
theorem map_data_refill (h : List.Forall₂ Parameter.Fits ps ts) :
    (refill ps ts).map Parameter.data = ts := by
  induction h with
  | nil => rfl
  | cons _ _ ih => exact congrArg (List.cons _) ih

/-- Whatever of a parameter is not its data stays when it is refilled. -/
theorem map_refill {β : Type} (f : Parameter → β)
    (hf : ∀ (p : Parameter) (t : Tensor), f { p with data := t } = f p)
    (h : List.Forall₂ Parameter.Fits ps ts) : (refill ps ts).map f = ps.map f := by
  induction h with
  | nil => rfl
  | cons _ _ ih =>
    rw [List.map_cons, ← ih, ← hf]
    rfl

/-- Parameters filled with their own data are the same parameters. -/
theorem refill_own (ps : List Parameter) : refill ps (ps.map Parameter.data) = ps := by
  induction ps with
  | nil => rfl
  | cons p ps ih => exact congrArg (List.cons p) ih

variable {M : Type} [Module M] [Lawful M]

theorem count_lt (m : M) : ((parameters m).map Parameter.data).length < 256 ^ 8 := by
  rw [List.length_map]
  exact Nat.lt_of_le_of_lt (Lawful.few m) (by decide)

/-- What a module writes is a file of its data in the order of its parameters. -/
theorem isFile_save (m : M) :
    ParameterFile.IsFile ((parameters m).map Parameter.data) (save m) :=
  (ParameterFile.encode_writes _ _).mpr ⟨count_lt m, rfl⟩

/-- What one module writes is loaded by another with compatible parameters,
    whatever follows it. -/
theorem load_save (m m' : M) (rest : List UInt8)
    (h : Compatible (parameters m) (parameters m')) :
    load (save m ++ rest) m' = (.ok (),
      withParameters (refill (parameters m') ((parameters m).map Parameter.data)) m') :=
  load_fits (ParameterFile.decode_encode (count_lt m) rest) h.fits

/-- A module whose own parameters are put back has the same settings and the same
    parameters, and there is nothing else. -/
theorem withParameters_parameters (m : M) : withParameters (parameters m) m = m :=
  Lawful.ext _ _ (Lawful.settings_withParameters _ m) (Lawful.parameters_withParameters _ m rfl)

/-- A module that loads what it wrote does not change. -/
theorem load_own (m : M) : load (save m) m = (.ok (), m) := by
  have hload := load_save m m [] (.refl _)
  rw [List.append_nil, refill_own] at hload
  rw [hload, withParameters_parameters]

end Module

namespace ModuleKind

open GraphAttention.Module

/-- For every kind of module: what one writes is a file of its data in order,
    and another with compatible parameters loads it. It then has the data of
    the first, and its own gradients, flags and settings. -/
theorem load_save_keeps (k : ModuleKind) (m m' : k.State)
    (h : Compatible (parameters m) (parameters m')) :
    ParameterFile.IsFile ((parameters m).map Parameter.data) (save m) ∧
    ∃ loaded, load (save m) m' = (.ok (), loaded) ∧
      (parameters loaded).map Parameter.data = (parameters m).map Parameter.data ∧
      (parameters loaded).map Parameter.grad = (parameters m').map Parameter.grad ∧
      (parameters loaded).map Parameter.requiresGrad
        = (parameters m').map Parameter.requiresGrad ∧
      Lawful.settings loaded = Lawful.settings m' := by
  have hfits := h.fits
  -- After loading, the parameters are those of the second module, refilled.
  have hload := load_save m m' [] h
  rw [List.append_nil] at hload
  have hparameters := Lawful.parameters_withParameters _ m' (length_refill hfits)
  refine ⟨isFile_save m, _, hload, ?_, ?_, ?_, Lawful.settings_withParameters _ m'⟩
  · rw [hparameters, map_data_refill hfits]
  · rw [hparameters, map_refill Parameter.grad (fun _ _ => rfl) hfits]
  · rw [hparameters, map_refill Parameter.requiresGrad (fun _ _ => rfl) hfits]

/-- A frozen layer takes over a word that is not a number, payload and all, and
    stays frozen. -/
theorem load_save_keeps_payload :
    ∃ m m' loaded : Linear,
      m.weight.data = ⟨.float32, .fill [1, 1] ⟨0x7f800001⟩, by decide⟩ ∧
      load (save m) m' = (.ok (), loaded) ∧
      (parameters loaded).map Parameter.data = (parameters m).map Parameter.data ∧
      (parameters loaded).map Parameter.requiresGrad = [false] := by
  let m : Linear := ⟨1, 1, .trainable ⟨.float32, .fill [1, 1] ⟨0x7f800001⟩, by decide⟩, none⟩
  let m' : Linear := ⟨1, 1, .frozen ⟨.float32, .fill [1, 1] 0, by decide⟩, none⟩
  rcases load_save_keeps .linear m m' (.cons ⟨rfl, rfl⟩ .nil) with
    ⟨-, loaded, hload, hdata, -, hflags, -⟩
  exact ⟨m, m', loaded, rfl, hload, hdata, hflags⟩

end ModuleKind

end GraphAttention
