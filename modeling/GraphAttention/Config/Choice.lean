/-!
# Choices by Name

The two settings that are given by a word: which degrees of a node are embedded
and how a structural bias enters the scores. A word counts only in its exact
spelling, so blanks and capitals matter, and a word that is no choice is
reported together with the choices there are.

## Main definitions

* `Direction`: Incoming edges, outgoing edges or both.
* `BiasMode`: A bias that is added or multiplied.
* `ChoiceError`: A word that is no choice.
-/

namespace GraphAttention

/-- Which degrees of a node count. -/
inductive Direction where
  | incoming
  | outgoing
  | both
deriving DecidableEq, Repr

/-- How a structural bias is combined with the scores. -/
inductive BiasMode where
  | add
  | mul
deriving DecidableEq, Repr

/-- A word that names no choice. -/
inductive ChoiceError where
  | direction (word : String)
  | biasMode (word : String)
deriving DecidableEq, Repr

/-- The wording of a refusal. -/
def ChoiceError.message : ChoiceError → String
  | direction word => "Supported direction options: \"in\", \"out\" and \"both\", but got " ++ word
  | biasMode word => "Supported attention bias types: \"add\" and \"mul\", but got " ++ word

namespace Direction

instance : Inhabited Direction := ⟨both⟩

/-- The word for a direction. -/
def name : Direction → String
  | incoming => "in"
  | outgoing => "out"
  | both => "both"

/-- The direction that a word names. -/
def ofName : String → Except ChoiceError Direction
  | "in" => .ok incoming
  | "out" => .ok outgoing
  | "both" => .ok both
  | word => .error (.direction word)

end Direction

namespace BiasMode

instance : Inhabited BiasMode := ⟨add⟩

/-- The word for a mode. -/
def name : BiasMode → String
  | add => "add"
  | mul => "mul"

/-- The mode that a word names. -/
def ofName : String → Except ChoiceError BiasMode
  | "add" => .ok add
  | "mul" => .ok mul
  | word => .error (.biasMode word)

end BiasMode

end GraphAttention
