/-!
# JSON Values

A JSON value, with integers kept apart from other numbers. A number written
without point and exponent that fits a 64-bit integer is an integer, and every
other number is a floating one, also when its value happens to be whole; the
two are read back differently, so they are different values.

A record is written as an object or as the array of its fields in order.
`Json.members?` gives the members of either in the order in which they stand,
because the first of them that cannot be read decides what is reported.

## Main definitions

* `Json`: A JSON value.
* `Json.natural?`, `Json.bool?`, `Json.text?`, `Json.list?`: What a value is.
* `Json.pair?`: The two items of an array of two.
* `Json.members?`: The members of a record.
-/

namespace GraphAttention

/-- A JSON value. -/
inductive Json where
  | null
  | bool (b : Bool)
  | int (n : Int)
  | float (x : Float)
  | string (s : String)
  | array (items : List Json)
  | object (members : List (String × Json))

namespace Json

/-- The largest length or count that can be written. -/
def maxNatural : Nat := 0xffffffffffffffff

/-- A value that is a non-negative integer of at most 64 bits. -/
def natural? : Json → Option Nat
  | int n => if 0 ≤ n ∧ n ≤ maxNatural then some n.toNat else none
  | _ => none

/-- A value that is a truth value. -/
def bool? : Json → Option Bool
  | bool b => some b
  | _ => none

/-- A value that is a string. -/
def text? : Json → Option String
  | string s => some s
  | _ => none

/-- A value that is a number. An integer is taken to the nearest one. -/
def number? : Json → Option Float
  | int n => some (Float.ofInt n)
  | float x => some x
  | _ => none

/-- A value that is an array whose items can all be read. -/
def list? {α : Type} (item : Json → Option α) : Json → Option (List α)
  | array items => items.mapM item
  | _ => none

/-- A value that is an array of two items that can be read. -/
def pair? {α β : Type} (first : Json → Option α) (second : Json → Option β) :
    Json → Option (α × β)
  | array [a, b] => do return (← first a, ← second b)
  | _ => none

/-- The value of the first member with a name. -/
def field? (name : String) (members : List (String × Json)) : Option Json :=
  members.lookup name

/-- The members of a record with the given fields, in the order in which they
    stand, and whether an array had more items than there are fields. Members
    of an object that are not fields are left out. -/
def members? (fields : List String) : Json → Option (List (String × Json) × Bool)
  | object members => some (members.filter fun m => fields.contains m.1, false)
  | array items => some (fields.zip items, decide (fields.length < items.length))
  | _ => none

/-- The members of a record all of whose fields are required. An object may
    have further members, an array may not. -/
def record? (fields : List String) (value : Json) : Option (List (String × Json)) := do
  let (members, excess) ← value.members? fields
  if excess then none else some members

end Json

end GraphAttention
