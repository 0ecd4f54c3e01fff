import GraphAttention.Json.Basic
import GraphAttention.Tensor.Basic

/-!
# Tensors as JSON

A tensor is written as an object with one member, named for the element kind,
which holds a version, the axis lengths and the elements in row-major order.
An integer kind takes integers only, and only those in its range; a floating
kind takes any number. A number that is not finite is written as null and does
not come back.

## Main definitions

* `Tensor.toJson`: The value a tensor is written as.
* `Tensor.ofJson?`: The tensor that a value holds.
* `DType.toJson`, `DType.ofJson?`: The same for element kinds.
-/

namespace GraphAttention

namespace DType

/-- An element kind as its spelling. -/
def toJson (d : DType) : Json := .string d.name

/-- The element kind that a value names: its spelling, or an object with that
    one member and nothing in it. -/
def ofJson? : Json → Option DType
  | .string s => ofName? s
  | .object [(name, .null)] => ofName? name
  | _ => none

/-- A finite number as itself, and null for any other. -/
def floatJson (x : Float) : Json := if x.isFinite then .float x else .null

/-- An element as a value. -/
def elemToJson : (d : DType) → d.Elem → Json
  | float32, x => floatJson x.widen.toFloat
  | float64, x => floatJson x.toFloat
  | int64, n => .int n.toInt
  | uint8, n => .int n.toNat

/-- The element that a value stands for. -/
def elemOfJson? : (d : DType) → Json → Option d.Elem
  | float32, .int n => some (Binary32.ofInt n)
  | float32, .float x => some (Binary64.ofFloat x).narrow
  | float64, .int n => some (Binary64.ofInt n)
  | float64, .float x => some (Binary64.ofFloat x)
  | int64, .int n =>
    if Int64.minValue.toInt ≤ n ∧ n ≤ Int64.maxValue.toInt then some (Int64.ofInt n) else none
  | uint8, .int n => if 0 ≤ n ∧ n < 256 then some (UInt8.ofNat n.toNat) else none
  | _, _ => none

end DType

namespace Tensor

/-- The version of the written form. -/
def jsonVersion : Nat := 1

/-- The value a tensor is written as. -/
def toJson (t : Tensor) : Json :=
  .object [(t.dtype.name, .object [
    ("v", .int jsonVersion),
    ("dim", .array (t.shape.map fun n => .int (Int.ofNat n))),
    ("data", .array (t.array.toList.map t.dtype.elemToJson))])]

/-- The fields of the written form, in order. -/
def jsonFields : List String := ["v", "dim", "data"]

/-- The tensor of a kind that the written form holds. -/
def ofRecord? (d : DType) (members : List (String × Json)) : Option Tensor := do
  let version ← (← Json.field? "v" members).natural?
  let s ← (← Json.field? "dim" members).list? Json.natural?
  let data ← (← Json.field? "data" members).list? d.elemOfJson?
  if version = jsonVersion then (ofElements d data.toArray s).toOption else none

/-- The tensor that a value holds. No member may be missing, and none may be
    there that is not a field. -/
def ofJson? : Json → Option Tensor
  | .object [(name, body)] => do
    let d ← DType.ofName? name
    match body with
    | .object members =>
      if members.all fun m => jsonFields.contains m.1 then ofRecord? d members else none
    | body => ofRecord? d (← body.record? jsonFields)
  | _ => none

end Tensor

end GraphAttention
