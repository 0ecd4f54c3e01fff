import GraphAttention.Scalar.Word

/-!
# Scalars

What an array may hold. Every kind of element adds, multiplies, has a zero and
a one, takes a number in by the usual cast, and can say whether it is zero.
The floating kinds also subtract, divide, take exponentials and compare, which
is all that a softmax needs.

The integer kinds wrap. A number cast to one of them is truncated toward zero
and held at the ends of the range, and what is not a number becomes zero.

Sums over a range have one order, from the left and starting at zero. Floating
addition is not associative, so the order is part of what a product of two
matrices means.

## Main definitions

* `Scalar`: The operations of every kind of element.
* `RealScalar`: The further operations of the floating kinds.
* `sumRange`: The sum of `f 0, ..., f (n - 1)`, added in that order.
-/

namespace GraphAttention

/-- The operations of an array element, whatever its kind. -/
class Scalar (α : Type) extends Inhabited α, Zero α, One α, Add α, Mul α where
  /-- The cast of a number to this kind. -/
  ofFloat : Float → α
  /-- Whether an element differs from zero. What is not a number does, and
      negative zero does not. -/
  isNonzero : α → Bool
  /-- Whether an element is a finite number. -/
  isFinite : α → Bool

/-- The further operations of a floating element. -/
class RealScalar (α : Type) extends Scalar α, Sub α, Div α where
  /-- Negative infinity. -/
  negInf : α
  /-- Whether an element is negative infinity. -/
  isNegInf : α → Bool
  /-- The exponential. -/
  exp : α → α
  /-- The larger of two elements, ignoring one that is not a number. -/
  maxNum : α → α → α

instance : RealScalar Binary64 where
  ofFloat := Binary64.ofFloat
  isNonzero x := x.toFloat != 0
  isFinite x := x.toFloat.isFinite
  negInf := Binary64.negInf
  isNegInf x := x == Binary64.negInf
  exp := Binary64.exp
  maxNum := Binary64.maxNum

instance : RealScalar Binary32 where
  ofFloat x := (Binary64.ofFloat x).narrow
  isNonzero x := x.toFloat32 != 0
  isFinite x := x.toFloat32.isFinite
  negInf := Binary32.negInf
  isNegInf x := x == Binary32.negInf
  exp := Binary32.exp
  maxNum := Binary32.maxNum

instance : Scalar Int64 where
  zero := 0
  one := 1
  ofFloat x := x.toModel.toInt64
  isNonzero x := x != 0
  isFinite _ := true

instance : Scalar UInt8 where
  zero := 0
  one := 1
  ofFloat x := x.toUInt8
  isNonzero x := x != 0
  isFinite _ := true

/-- The sum `f 0 + ... + f (n - 1)`, added from the left to zero. -/
def sumRange {α : Type} [Zero α] [Add α] (n : Nat) (f : Nat → α) : α :=
  (List.range n).foldl (fun acc k => acc + f k) 0

end GraphAttention
