import GraphAttention.Json.Text

/-!
# Positions in Messages

A message about a value that could not be read may end in the position of the
fault, a line and a column. Whoever hands such a message on takes the position
off and writes it again, in plain digits, and line zero means that there is no
position to write. A message whose own words happen to end that way is treated
no differently.

## Main definitions

* `Json.splitPosition?`: A message and the position at its end.
* `Json.relayed`: A message as it is handed on.
-/

namespace GraphAttention

namespace Json

/-- The word between the text of a message and the line. -/
def lineWord : String := " at line "

/-- The word between the line and the column. -/
def columnWord : String := " column "

/-- A message without the position at its end, the line and the column. Numbers
    too large for a machine word are no position. -/
def splitPosition? (message : String) : Option (String × Nat × Nat) := do
  let (column, cs) ← someDigits? message.toList.reverse
  let cs ← afterWord? columnWord.toList.reverse cs
  let (line, cs) ← someDigits? cs
  let cs ← afterWord? lineWord.toList.reverse cs
  let line := digitsValue line.reverse
  let column := digitsValue column.reverse
  if line ≤ maxNatural ∧ column ≤ maxNatural then
    some (String.ofList cs.reverse, line, column)
  else none

/-- A message as it is handed on: with the position at its end in plain digits,
    or without it if the line is zero. -/
def relayed (message : String) : String :=
  match splitPosition? message with
  | none => message
  | some (text, line, column) =>
    if line = 0 then text
    else text ++ lineWord ++ toString line ++ columnWord ++ toString column

end Json

end GraphAttention
