import GraphAttention.Scalar.Basic

/-!
# Element Kinds

An array carries the kind of its elements as a value, so that two arrays can be
asked at run time whether they may be combined. `DType.Elem` turns the value
into the type of the elements, and the scalar operations of every kind are
found through it; a function that treats all kinds alike is written once, over
an arbitrary `d : DType`.

## Main definitions

* `DType`: The four element kinds.
* `DType.Elem`: The type of the elements of a kind.
* `DType.isFloat`: Whether a kind is a floating one.
* `DType.width`: The bytes that an element takes.
* `DType.name`, `DType.ofName?`: The spelling of a kind and its reading.
-/

namespace GraphAttention

/-- The kinds of element an array may hold. -/
inductive DType where
  | float32
  | float64
  | int64
  | uint8
deriving DecidableEq, Repr

namespace DType

instance : Inhabited DType := ⟨float32⟩

/-- The elements of a kind. -/
@[reducible] def Elem : DType → Type
  | float32 => Binary32
  | float64 => Binary64
  | int64 => Int64
  | uint8 => UInt8

instance instScalarElem : (d : DType) → Scalar d.Elem
  | float32 => inferInstanceAs (Scalar Binary32)
  | float64 => inferInstanceAs (Scalar Binary64)
  | int64 => inferInstanceAs (Scalar Int64)
  | uint8 => inferInstanceAs (Scalar UInt8)

instance instDecidableEqElem : (d : DType) → DecidableEq d.Elem
  | float32 => inferInstanceAs (DecidableEq Binary32)
  | float64 => inferInstanceAs (DecidableEq Binary64)
  | int64 => inferInstanceAs (DecidableEq Int64)
  | uint8 => inferInstanceAs (DecidableEq UInt8)

/-- Whether the kind is a floating one. -/
def isFloat : DType → Bool
  | float32 | float64 => true
  | int64 | uint8 => false

/-- The bytes that an element takes. -/
def width : DType → Nat
  | float32 => 4
  | float64 => 8
  | int64 => 8
  | uint8 => 1

/-- The spelling of a kind. -/
def name : DType → String
  | float32 => "Float32"
  | float64 => "Float64"
  | int64 => "Int64"
  | uint8 => "UInt8"

/-- The kind with a spelling. -/
def ofName? : String → Option DType
  | "Float32" => some float32
  | "Float64" => some float64
  | "Int64" => some int64
  | "UInt8" => some uint8
  | _ => none

end DType

end GraphAttention
