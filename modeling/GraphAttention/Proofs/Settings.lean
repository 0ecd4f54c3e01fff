import GraphAttention.Attention
import GraphAttention.DegreeEncoder

/-!
# Settings and Parameters

A module consists of its parameters and of everything else: sizes, modes, the
probability of a dropout and whether it is on. Everything else is called the
settings here. What a module computes depends on both, and what changes one of
them should leave the other alone.

`Module.Lawful` says that the list of parameters is such a half. Parameters put
back are the ones read off, the settings are then what they were, and the two
halves together are the whole, so nothing of a module is left out of what is
said about it. Each kind of module has its own reason. An attention module has
the only one that is not a look at a few cases: it divides a list among its four
projections, each taking as many parameters as it has, and nothing is left over.

## Main definitions

* `Module.Lawful`: Parameters and settings are the halves of a module.
* `Linear.Settings`, `Embedding.Settings`, `DegreeEncoder.Settings`,
  `Attention.Settings`: What a module is besides its parameters.
* `ModuleKind`, `ModuleKind.State`: The kinds of module.

## Theorems

* `Attention.flatMap_distribute`, `Attention.settings_distribute`: Parameters
  divided among projections.
-/

namespace GraphAttention

/-- A module whose parameters and settings are independent of each other and
    together the whole of it. -/
class Module.Lawful (M : Type) [Module M] where
  /-- What a module is besides its parameters. -/
  Settings : Type
  settings : M → Settings
  parameters_withParameters : ∀ (ps : List Parameter) (m : M),
    ps.length = (Module.parameters m).length →
    Module.parameters (Module.withParameters ps m) = ps
  settings_withParameters : ∀ (ps : List Parameter) (m : M),
    settings (Module.withParameters ps m) = settings m
  ext : ∀ m m' : M, settings m = settings m' → Module.parameters m = Module.parameters m' → m = m'
  /-- The parameters are few enough to be counted in a file. -/
  few : ∀ m : M, (Module.parameters m).length ≤ 8

/-! ### Layers -/

namespace Linear

/-- The sizes of a layer and whether it has a bias. -/
structure Settings where
  inFeatures : Nat
  outFeatures : Nat
  hasBias : Bool

def settings (l : Linear) : Settings := ⟨l.inFeatures, l.outFeatures, l.bias.isSome⟩

instance : Module.Lawful Linear where
  Settings := Settings
  settings := settings
  parameters_withParameters := by
    rintro ps ⟨i, o, w, _ | b⟩ h
    · match ps, h with
      | [p], _ => rfl
    · match ps, h with
      | [p, q], _ => rfl
  settings_withParameters := by
    rintro ps ⟨i, o, w, _ | b⟩ <;>
      match ps with
      | [] | [_] | [_, _] | _ :: _ :: _ :: _ => rfl
  ext := by
    rintro ⟨i, o, w, _ | b⟩ ⟨i', o', w', _ | b'⟩ hs hp <;> cases hs <;> cases hp <;> rfl
  few := by
    rintro ⟨i, o, w, _ | b⟩ <;> simp [Module.parameters]

theorem length_parameters (l : Linear) :
    (Module.parameters l).length = if l.settings.hasBias then 2 else 1 := by
  rcases l with ⟨i, o, w, _ | b⟩ <;> rfl

end Linear

namespace Embedding

/-- The size of a table and its padding row. -/
structure Settings where
  numRows : Nat
  dim : Nat
  paddingRow : Option Nat

def settings (e : Embedding) : Settings := ⟨e.numRows, e.dim, e.paddingRow⟩

instance : Module.Lawful Embedding where
  Settings := Settings
  settings := settings
  parameters_withParameters := by
    intro ps e h
    match ps, h with
    | [p], _ => rfl
  settings_withParameters := by
    intro ps e
    match ps with
    | [] | [_] | _ :: _ :: _ => rfl
  ext := by
    rintro ⟨n, d, r, w⟩ ⟨n', d', r', w'⟩ hs hp
    cases hs
    cases hp
    rfl
  few := fun e => by simp [Module.parameters]

end Embedding

/-- A dropout has no parameters and is all settings. -/
instance : Module.Lawful Dropout where
  Settings := Dropout
  settings l := l
  parameters_withParameters := by
    intro ps l h
    rw [List.eq_nil_of_length_eq_zero h]
    rfl
  settings_withParameters _ _ := rfl
  ext _ _ hs _ := hs
  few _ := Nat.zero_le 8

namespace DegreeEncoder

/-- The sizes of an encoder, the degrees it looks at and the settings of its
    tables. -/
structure Settings where
  maxDegree : Nat
  embeddingDim : Nat
  direction : Direction
  tables : List Embedding.Settings

def settings (e : DegreeEncoder) : Settings where
  maxDegree := e.maxDegree
  embeddingDim := e.embeddingDim
  direction := e.tables.direction
  tables := (e.tables.incoming?.toList ++ e.tables.outgoing?.toList).map Embedding.settings

instance : Module.Lawful DegreeEncoder where
  Settings := Settings
  settings := settings
  parameters_withParameters := by
    rintro ps ⟨m, d, t | t | ⟨t, u⟩⟩ h
    · match ps, h with
      | [p], _ => rfl
    · match ps, h with
      | [p], _ => rfl
    · match ps, h with
      | [p, q], _ => rfl
  settings_withParameters := by
    rintro ps ⟨m, d, t | t | ⟨t, u⟩⟩ <;>
      match ps with
      | [] | [_] | [_, _] | _ :: _ :: _ :: _ => rfl
  ext := by
    rintro ⟨m, d, ⟨n, k, r, w⟩ | ⟨n, k, r, w⟩ | ⟨⟨n, k, r, w⟩, ⟨i, j, q, v⟩⟩⟩
      ⟨m', d', ⟨n', k', r', w'⟩ | ⟨n', k', r', w'⟩ | ⟨⟨n', k', r', w'⟩, ⟨i', j', q', v'⟩⟩⟩ hs hp <;>
    cases hs <;> cases hp <;> rfl
  few := by
    rintro ⟨m, d, t | t | ⟨t, u⟩⟩ <;> simp [Module.parameters]

end DegreeEncoder

namespace Attention

/-- The sizes and modes of a module, the settings of its projections and its
    dropout. -/
structure Settings where
  featSize : Nat
  numHeads : Nat
  headDim : Nat
  biasMode : BiasMode
  scaling : Float
  projections : List Linear.Settings
  dropout : Dropout

def settings (a : Attention) : Settings where
  featSize := a.featSize
  numHeads := a.numHeads
  headDim := a.headDim
  biasMode := a.biasMode
  scaling := a.scaling
  projections := a.projections.map Linear.settings
  dropout := a.dropout

theorem settings_distribute (ls : List Linear) (ps : List Parameter) :
    (distribute ls ps).map Linear.settings = ls.map Linear.settings := by
  induction ls generalizing ps with
  | nil => rfl
  | cons l ls ih =>
    have hl : (Module.withParameters (ps.take (Module.parameters l).length) l).settings
        = l.settings := Module.Lawful.settings_withParameters _ l
    rw [distribute, List.map_cons, List.map_cons, ih, hl]

/-- Parameters divided among projections that have as many are all put back, in
    order. -/
theorem flatMap_distribute (ls : List Linear) (ps : List Parameter)
    (h : ps.length = (ls.flatMap Module.parameters).length) :
    (distribute ls ps).flatMap Module.parameters = ps := by
  induction ls generalizing ps with
  | nil =>
    rw [List.eq_nil_of_length_eq_zero h]
    rfl
  | cons l ls ih =>
    rw [List.flatMap_cons, List.length_append] at h
    -- The first projection takes as many as it has, and enough are left.
    have htake : (ps.take (Module.parameters l).length).length = (Module.parameters l).length := by
      rw [List.length_take]
      omega
    have hdrop : (ps.drop (Module.parameters l).length).length
        = (ls.flatMap Module.parameters).length := by
      rw [List.length_drop]
      omega
    rw [distribute, List.flatMap_cons, ih _ hdrop,
      Module.Lawful.parameters_withParameters _ l htake, List.take_append_drop]

/-- Projections are told apart by their settings and their parameters. -/
theorem projections_ext (ls ls' : List Linear)
    (hs : ls.map Linear.settings = ls'.map Linear.settings)
    (hp : ls.flatMap Module.parameters = ls'.flatMap Module.parameters) : ls = ls' := by
  induction ls generalizing ls' with
  | nil => rw [List.map_eq_nil_iff.mp hs.symm]
  | cons l ls ih =>
    cases ls' with
    | nil => cases hs
    | cons l' ls' =>
      rcases List.cons.inj hs with ⟨hl, hls⟩
      have hlength : (Module.parameters l).length = (Module.parameters l').length := by
        rw [Linear.length_parameters, Linear.length_parameters, hl]
      -- Equal settings mean equally many parameters, so the lists split at the same place.
      rcases List.append_inj hp hlength with ⟨hpl, hpls⟩
      rw [Module.Lawful.ext l l' hl hpl, ih ls' hls hpls]

instance : Module.Lawful Attention where
  Settings := Settings
  settings := settings
  parameters_withParameters ps a h := flatMap_distribute a.projections ps h
  settings_withParameters := by
    intro ps a
    -- Only the projections are exchanged, for others with the same settings.
    change ({ a.settings with
      projections := (distribute a.projections ps).map Linear.settings } : Settings) = a.settings
    rw [settings_distribute]
    rfl
  ext := by
    intro a a' hs hp
    have hls := projections_ext _ _ (congrArg Settings.projections hs) hp
    cases a
    cases a'
    simp only [projections, List.cons.injEq] at hls
    simp only [settings, Settings.mk.injEq] at hs
    simp [hs, hls]
  few := by
    intro a
    -- Four projections with at most a weight and a bias each.
    have hl : ∀ l : Linear, (Module.parameters l).length ≤ 2 := by
      intro l
      rw [Linear.length_parameters]
      split <;> decide
    have hq := hl a.query
    have hk := hl a.key
    have hv := hl a.value
    have ho := hl a.output
    change (a.projections.flatMap Module.parameters).length ≤ 8
    simp only [projections, List.flatMap_cons, List.flatMap_nil, List.length_append,
      List.length_nil]
    omega

end Attention

/-! ### All kinds -/

/-- The kinds of module. -/
inductive ModuleKind where
  | linear
  | embedding
  | dropout
  | degreeEncoder
  | attention
deriving DecidableEq

namespace ModuleKind

/-- The modules of a kind. -/
@[reducible] def State : ModuleKind → Type
  | linear => Linear
  | embedding => Embedding
  | dropout => Dropout
  | degreeEncoder => DegreeEncoder
  | attention => Attention

instance instModule : (k : ModuleKind) → Module k.State
  | linear => inferInstanceAs (Module Linear)
  | embedding => inferInstanceAs (Module Embedding)
  | dropout => inferInstanceAs (Module Dropout)
  | degreeEncoder => inferInstanceAs (Module DegreeEncoder)
  | attention => inferInstanceAs (Module Attention)

instance instLawful : (k : ModuleKind) → Module.Lawful k.State
  | linear => inferInstanceAs (Module.Lawful Linear)
  | embedding => inferInstanceAs (Module.Lawful Embedding)
  | dropout => inferInstanceAs (Module.Lawful Dropout)
  | degreeEncoder => inferInstanceAs (Module.Lawful DegreeEncoder)
  | attention => inferInstanceAs (Module.Lawful Attention)

end ModuleKind

end GraphAttention
