import GraphAttention.Module.Basic
import GraphAttention.Proofs.FileLayout
import GraphAttention.Proofs.Fitting

/-!
# Loading

Loading a file either replaces the data of all parameters or leaves the module
as it was. Two passes over the parameters make it so: the first holds every
tensor against its parameter and the second replaces the data. The second asks
the same question again for each parameter, and after the first it can only be
answered one way, so it never stops halfway.

`load_outcome` is about any type of module and any bytes. It divides the bytes
by what is at their beginning: no file, a file of the wrong length, a file with
a tensor that does not fit, or a file in which all fit. What is reported about a
tensor that does not fit is about the first of them, and its kind comes before
its shape.

## Main definitions

* `Module.FirstMisfit`: Why the first tensor that does not fit does not.
* `Module.refill`: Parameters with other data.

## Theorems

* `ensureAllFit_ok`, `ensureAllFit_error`: What the first pass finds.
* `assignAll_ok`: The second pass succeeds after it.
* `load_fits`: The module after loading.
* `load_outcome`: When loading succeeds, and what it reports when not.
-/

namespace GraphAttention

namespace Module

variable {M : Type} [Module M]

/-- The reason for which the first tensor that does not fit its parameter does
    not. All tensors before it do. -/
def FirstMisfit (ps : List Parameter) (ts : List Tensor) (e : TensorError) : Prop :=
  ∃ before p after before' t after', ps = before ++ p :: after ∧ ts = before' ++ t :: after' ∧
    List.Forall₂ Parameter.Fits before before' ∧ p.Misfit t e

/-- Parameters with other data, each keeping its gradient and whether it is
    learned. -/
def refill (ps : List Parameter) (ts : List Tensor) : List Parameter :=
  List.zipWith (fun p t => { p with data := t }) ps ts

variable {ps : List Parameter} {ts : List Tensor} {e : TensorError}

theorem ensureAllFit_ok (h : List.Forall₂ Parameter.Fits ps ts) :
    ensureAllFit ps ts = .ok () := by
  induction h with
  | nil => rfl
  | cons hfit _ ih =>
    rw [ensureAllFit, Parameter.ensureFits_ok hfit]
    exact ih

theorem ensureAllFit_error (h : FirstMisfit ps ts e) : ensureAllFit ps ts = .error e := by
  rcases h with ⟨before, p, after, before', t, after', rfl, rfl, hfits, hmisfit⟩
  induction hfits with
  | nil =>
    rw [List.nil_append, List.nil_append, ensureAllFit, Parameter.ensureFits_error hmisfit]
    rfl
  | cons hfit _ ih =>
    rw [List.cons_append, List.cons_append, ensureAllFit, Parameter.ensureFits_ok hfit]
    exact ih

/-- Among as many tensors as parameters, all fit or there is a first one that
    does not. -/
theorem forall_fits_or_firstMisfit (hlength : ps.length = ts.length) :
    List.Forall₂ Parameter.Fits ps ts ∨ ∃ e, FirstMisfit ps ts e := by
  induction ps generalizing ts with
  | nil =>
    rcases List.eq_nil_of_length_eq_zero hlength.symm with rfl
    exact .inl .nil
  | cons p ps ih =>
    cases ts with
    | nil => cases hlength
    | cons t ts =>
      -- The first parameter decides, unless its tensor fits.
      rcases Parameter.fits_or_misfit p t with hfit | ⟨e, hmisfit⟩
      · rcases ih (by simpa using hlength) with hall | ⟨e, hfirst⟩
        · exact .inl (.cons hfit hall)
        · rcases hfirst with ⟨before, q, after, before', u, after', rfl, rfl, hfits, hmisfit⟩
          exact .inr ⟨e, p :: before, q, after, t :: before', u, after', rfl, rfl,
            .cons hfit hfits, hmisfit⟩
      · exact .inr ⟨e, [], p, ps, [], t, ts, rfl, rfl, .nil, hmisfit⟩

/-- Where all tensors fit, all data is replaced. -/
theorem assignAll_ok (h : List.Forall₂ Parameter.Fits ps ts) :
    assignAll ts ps = (.ok (), refill ps ts) := by
  induction h with
  | nil => rfl
  | cons hfit _ ih => simp only [assignAll, Parameter.setData_ok hfit, ih, refill,
      List.zipWith_cons_cons]

variable {m : M} {bytes rest : List UInt8}

theorem load_malformed (h : ParameterFile.decode bytes = none) :
    load bytes m = (.error .malformedFile, m) := by
  simp only [load, h]
  rfl

theorem load_count (h : ParameterFile.decode bytes = some (ts, rest))
    (hlength : (parameters m).length ≠ ts.length) :
    load bytes m
      = (.error (.setting (.parameterCount (parameters m).length ts.length)), m) := by
  simp only [load, h]
  rw [Action.bind_ok (Action.run_get m), if_pos hlength]
  exact Action.bind_error (Action.run_throw _ _)

theorem load_misfit (h : ParameterFile.decode bytes = some (ts, rest))
    (hlength : (parameters m).length = ts.length) (hmisfit : FirstMisfit (parameters m) ts e) :
    load bytes m = (.error (.tensor e), m) := by
  simp only [load, h]
  rw [Action.bind_ok (Action.run_get m), if_neg (not_not.mpr hlength),
    ensureAllFit_error hmisfit]
  exact Action.bind_error (Action.run_attempt _ _)

/-- Where all tensors fit, loading succeeds and replaces the data of every
    parameter. -/
theorem load_fits (h : ParameterFile.decode bytes = some (ts, rest))
    (hfits : List.Forall₂ Parameter.Fits (parameters m) ts) :
    load bytes m = (.ok (), withParameters (refill (parameters m) ts) m) := by
  have hpass : Action.attempt ((ensureAllFit (parameters m) ts).mapError ModuleError.tensor) m
      = (.ok (), m) := by
    rw [ensureAllFit_ok hfits]
    rfl
  simp only [load, h]
  rw [Action.bind_ok (Action.run_get m), if_neg (not_not.mpr hfits.length_eq),
    Action.bind_ok hpass, Action.run_mapError, Action.run_zoom, assignAll_ok hfits]
  rfl

/-- The four ways in which loading ends. -/
theorem load_cases (m : M) (bytes : List UInt8) :
    (ParameterFile.decode bytes = none ∧ load bytes m = (.error .malformedFile, m)) ∨
    (∃ ts rest, ParameterFile.decode bytes = some (ts, rest) ∧
      (parameters m).length ≠ ts.length ∧ load bytes m
        = (.error (.setting (.parameterCount (parameters m).length ts.length)), m)) ∨
    (∃ ts rest, ParameterFile.decode bytes = some (ts, rest) ∧
      ∃ e, (parameters m).length = ts.length ∧ FirstMisfit (parameters m) ts e ∧
        load bytes m = (.error (.tensor e), m)) ∨
    ∃ ts rest, ParameterFile.decode bytes = some (ts, rest) ∧
      List.Forall₂ Parameter.Fits (parameters m) ts ∧
      load bytes m = (.ok (), withParameters (refill (parameters m) ts) m) := by
  cases hdecode : ParameterFile.decode bytes with
  | none => exact .inl ⟨rfl, load_malformed hdecode⟩
  | some result =>
    rcases result with ⟨ts, rest⟩
    by_cases hlength : (parameters m).length = ts.length
    · rcases forall_fits_or_firstMisfit hlength with hfits | ⟨e, hfirst⟩
      · exact .inr (.inr (.inr ⟨ts, rest, rfl, hfits, load_fits hdecode hfits⟩))
      · exact .inr (.inr (.inl
          ⟨ts, rest, rfl, e, hlength, hfirst, load_misfit hdecode hlength hfirst⟩))
    · exact .inr (.inl ⟨ts, rest, rfl, hlength, load_count hdecode hlength⟩)

theorem load_ok_iff (m : M) (bytes : List UInt8) :
    (∃ m', load bytes m = (.ok (), m')) ↔
      ∃ ts rest, ParameterFile.decode bytes = some (ts, rest) ∧
        List.Forall₂ Parameter.Fits (parameters m) ts := by
  constructor
  · rintro ⟨m', hload⟩
    rcases load_cases m bytes with ⟨-, h⟩ | ⟨_, _, -, -, h⟩ | ⟨_, _, -, _, -, -, h⟩ |
      ⟨ts, rest, hdecode, hfits, -⟩
    case inr.inr.inr => exact ⟨ts, rest, hdecode, hfits⟩
    all_goals
      rw [h] at hload
      cases hload
  · rintro ⟨ts, rest, hdecode, hfits⟩
    exact ⟨_, load_fits hdecode hfits⟩

/-- A refusal leaves the module as it was. -/
theorem load_error_state {e : ModuleError} {m' : M} (hload : load bytes m = (.error e, m')) :
    m' = m := by
  rcases load_cases m bytes with ⟨-, h⟩ | ⟨_, _, -, -, h⟩ | ⟨_, _, -, _, -, -, h⟩ |
    ⟨_, _, -, -, h⟩
  case inr.inr.inr =>
    rw [h] at hload
    cases hload
  all_goals
    rw [h] at hload
    exact (Prod.mk.inj hload).2.symm

/-- Loading succeeds exactly on bytes that begin with a file of tensors that
    fit the parameters, one each. Bytes without a file at their beginning, a
    file with another number of tensors and a file with tensors that do not fit
    are reported in this order, and the module is then what it was. -/
theorem load_outcome (m : M) (bytes : List UInt8) :
    ((∃ m', load bytes m = (.ok (), m')) ↔
      ∃ ts file rest, ParameterFile.IsFile ts file ∧ bytes = file ++ rest ∧
        List.Forall₂ Parameter.Fits (parameters m) ts) ∧
    ((¬ ∃ ts file rest, ParameterFile.IsFile ts file ∧ bytes = file ++ rest) →
      load bytes m = (.error .malformedFile, m)) ∧
    (∀ ts file rest, ParameterFile.IsFile ts file → bytes = file ++ rest →
      ((parameters m).length ≠ ts.length →
        load bytes m
          = (.error (.setting (.parameterCount (parameters m).length ts.length)), m)) ∧
      ((parameters m).length = ts.length → ¬ List.Forall₂ Parameter.Fits (parameters m) ts →
        ∃ e, FirstMisfit (parameters m) ts e ∧ load bytes m = (.error (.tensor e), m))) ∧
    ∀ e m', load bytes m = (.error e, m') → m' = m := by
  have hread : ∀ {ts file rest}, ParameterFile.IsFile ts file → bytes = file ++ rest →
      ParameterFile.decode bytes = some (ts, rest) := fun hfile hbytes =>
    (ParameterFile.decode_reads _ _ _).mpr ⟨_, hfile, hbytes⟩
  refine ⟨⟨fun hok => ?_, ?_⟩, fun hnone => ?_, ?_, fun e m' => load_error_state⟩
  · rcases (load_ok_iff m bytes).mp hok with ⟨ts, rest, hdecode, hfits⟩
    rcases (ParameterFile.decode_reads _ _ _).mp hdecode with ⟨file, hfile, hbytes⟩
    exact ⟨ts, file, rest, hfile, hbytes, hfits⟩
  · rintro ⟨ts, file, rest, hfile, hbytes, hfits⟩
    exact (load_ok_iff m bytes).mpr ⟨ts, rest, hread hfile hbytes, hfits⟩
  · exact load_malformed (ParameterFile.decode_eq_none.mpr hnone)
  · intro ts file rest hfile hbytes
    have hdecode := hread hfile hbytes
    refine ⟨fun hlength => load_count hdecode hlength, fun hlength hnot => ?_⟩
    -- Something does not fit, so there is a first thing that does not.
    rcases forall_fits_or_firstMisfit hlength with hall | ⟨e, hfirst⟩
    · exact absurd hall hnot
    · exact ⟨e, hfirst, load_misfit hdecode hlength hfirst⟩

end Module

end GraphAttention
