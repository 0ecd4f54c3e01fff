import GraphAttention.Config.Choice
import GraphAttention.Json.Position
import GraphAttention.Tensor.Json

/-!
# Reading Settings

Settings are read member by member, in the order in which they are written,
into a draft in which nothing is required yet. The first member that cannot be
read decides what is reported; that a required member is missing, or that an
array goes on too long, is only noticed at the end.

## Main definitions

* `SettingsError`, `SettingsError.message`: Why settings could not be read.
* `readSettings`: Settings read through a draft.
-/

namespace GraphAttention

/-- Why settings could not be read. -/
inductive SettingsError where
  /-- The value does not have the form of these settings. -/
  | malformed
  /-- A word is no choice. -/
  | choice (e : ChoiceError)
deriving DecidableEq

/-- The wording of a refusal. -/
def SettingsError.message : SettingsError → String
  | malformed => "The settings are malformed"
  | choice e => Json.relayed e.message

/-- What a value was read as, or that it has the wrong form. -/
def formed {α : Type} (x : Option α) : Except SettingsError α := x.elim (.error .malformed) .ok

/-- Settings with the given fields, gathered in a draft and finished at the
    end. -/
def readSettings {Draft α : Type} (fields : List String)
    (put : Draft → String × Json → Except SettingsError Draft) (draft : Draft)
    (finish : Draft → Option α) (value : Json) : Except SettingsError α := do
  let (members, excess) ← formed (value.members? fields)
  let draft ← members.foldlM put draft
  if excess then throw .malformed
  formed (finish draft)

/-- The direction that a value names. -/
def Direction.ofJson (value : Json) : Except SettingsError Direction := do
  (ofName (← formed value.text?)).mapError .choice

/-- A direction as a value. -/
def Direction.toJson (d : Direction) : Json := .string d.name

/-- The mode that a value names. -/
def BiasMode.ofJson (value : Json) : Except SettingsError BiasMode := do
  (ofName (← formed value.text?)).mapError .choice

/-- A mode as a value. -/
def BiasMode.toJson (m : BiasMode) : Json := .string m.name

end GraphAttention
