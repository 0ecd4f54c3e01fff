/-!
# Stored Floating-Point Words

An array element of a floating kind is the word it is stored as, not the
number the word stands for. The two differ in one place: many words stand for
"not a number", and a file that is read and written back has to give the same
bytes, so the payload of such a word may not be lost on the way.

Arithmetic goes through the numbers. A word is read as a `Float` or `Float32`,
the operation is the one of that type, and the result is stored as its word; a
result that is not a number is the one canonical word. Nothing here depends on
how a kind of element is used, so a sum of words is a sum of numbers with a
single rounding and no more.

Converting between the two widths is defined on the words, because rounding to
the narrower format has to be visible to a proof. A finite number is rounded to
the nearest word, ties to the even one, and overflows to an infinity. A word
that is not a number keeps its sign and the leading bits of its payload and is
made quiet.

## Main definitions

* `Binary64`, `Binary32`: The stored words of the two floating kinds.
* `Binary64.narrow`, `Binary32.widen`: The conversions between them.
* `Binary64.exp`, `Binary32.exp`: The exponential, fixed as far as it is known
  without computing it.
* `Binary64.maxNum`, `Binary32.maxNum`: The larger of two numbers, where a
  word that is not a number loses to one that is.
-/

namespace GraphAttention

open Float.Model (UnpackedFloat)

/-- A 64-bit floating-point word, as stored. -/
structure Binary64 where
  bits : UInt64
deriving DecidableEq

/-- A 32-bit floating-point word, as stored. -/
structure Binary32 where
  bits : UInt32
deriving DecidableEq

namespace Binary64

/-- The number a word stands for. -/
def toFloat (x : Binary64) : Float := Float.ofBits x.bits

/-- The word a number is stored as. -/
def ofFloat (x : Float) : Binary64 := ⟨x.toBits⟩

instance : Inhabited Binary64 := ⟨⟨0⟩⟩
instance : Zero Binary64 := ⟨⟨0⟩⟩
instance : One Binary64 := ⟨⟨0x3ff0000000000000⟩⟩
instance : Add Binary64 := ⟨fun x y => ofFloat (x.toFloat + y.toFloat)⟩
instance : Sub Binary64 := ⟨fun x y => ofFloat (x.toFloat - y.toFloat)⟩
instance : Mul Binary64 := ⟨fun x y => ofFloat (x.toFloat * y.toFloat)⟩
instance : Div Binary64 := ⟨fun x y => ofFloat (x.toFloat / y.toFloat)⟩

/-- The word for negative infinity. -/
def negInf : Binary64 := ⟨0xfff0000000000000⟩

/-- The larger of two words, ignoring one that is not a number. -/
def maxNum (x y : Binary64) : Binary64 :=
  if x.toFloat.isNaN then y
  else if y.toFloat.isNaN then x
  else if x.toFloat < y.toFloat then y else x

/-- A word held between zero and one. -/
def holdUnit (x : Binary64) : Binary64 := if 1 < x.toFloat then 1 else maxNum 0 x

/-- The exponential. What is known of it beforehand is settled here: what is not
    a number stays so, the infinities go to zero and to infinity, zero goes to
    one, and no other number leaves its side of one. -/
def exp (x : Binary64) : Binary64 :=
  if x.toFloat.isNaN then x
  else if x.toFloat.isInf then (if x.toFloat < 0 then 0 else x)
  else if x.toFloat < 0 then holdUnit (ofFloat x.toFloat.exp)
  else if 0 < x.toFloat then maxNum 1 (ofFloat x.toFloat.exp)
  else 1

end Binary64

namespace Binary32

/-- The number a word stands for. -/
def toFloat32 (x : Binary32) : Float32 := Float32.ofBits x.bits

/-- The word a number is stored as. -/
def ofFloat32 (x : Float32) : Binary32 := ⟨x.toBits⟩

instance : Inhabited Binary32 := ⟨⟨0⟩⟩
instance : Zero Binary32 := ⟨⟨0⟩⟩
instance : One Binary32 := ⟨⟨0x3f800000⟩⟩
instance : Add Binary32 := ⟨fun x y => ofFloat32 (x.toFloat32 + y.toFloat32)⟩
instance : Sub Binary32 := ⟨fun x y => ofFloat32 (x.toFloat32 - y.toFloat32)⟩
instance : Mul Binary32 := ⟨fun x y => ofFloat32 (x.toFloat32 * y.toFloat32)⟩
instance : Div Binary32 := ⟨fun x y => ofFloat32 (x.toFloat32 / y.toFloat32)⟩

/-- The word for negative infinity. -/
def negInf : Binary32 := ⟨0xff800000⟩

/-- The larger of two words, ignoring one that is not a number. -/
def maxNum (x y : Binary32) : Binary32 :=
  if x.toFloat32.isNaN then y
  else if y.toFloat32.isNaN then x
  else if x.toFloat32 < y.toFloat32 then y else x

/-- A word held between zero and one. -/
def holdUnit (x : Binary32) : Binary32 := if 1 < x.toFloat32 then 1 else maxNum 0 x

/-- The exponential. What is known of it beforehand is settled here: what is not
    a number stays so, the infinities go to zero and to infinity, zero goes to
    one, and no other number leaves its side of one. -/
def exp (x : Binary32) : Binary32 :=
  if x.toFloat32.isNaN then x
  else if x.toFloat32.isInf then (if x.toFloat32 < 0 then 0 else x)
  else if x.toFloat32 < 0 then holdUnit (ofFloat32 x.toFloat32.exp)
  else if 0 < x.toFloat32 then maxNum 1 (ofFloat32 x.toFloat32.exp)
  else 1

/-- The word of the number nearest to `± mantissa * 2 ^ exponent`, ties going
    to the even word. -/
def round (sign : UnpackedFloat.Sign) (mantissa : Nat) (exponent : Int) : Binary32 :=
  ⟨(Float32.Model.pack
    (UnpackedFloat.round Float.Model.Format.binary32 sign mantissa exponent)).toBits⟩

/-- The word of the number nearest to an integer. -/
def ofInt (n : Int) : Binary32 := ⟨(Float32.Model.ofInt n).toBits⟩

/-- The same number in the wider format, which holds every number of the
    narrower one. A payload keeps its leading bits. -/
def widen (x : Binary32) : Binary64 :=
  match x.toFloat32.toModel.unpack with
  | .notANumber =>
    let sign := (x.bits >>> 31).toUInt64 <<< 63
    let payload := (x.bits &&& 0x3fffff).toUInt64 <<< 29
    ⟨sign ||| 0x7ff8000000000000 ||| payload⟩
  | .finite sign mantissa exponent _ =>
    ⟨(Float.Model.pack
      (UnpackedFloat.round Float.Model.Format.binary64 sign mantissa exponent)).toBits⟩
  | other => ⟨(Float.Model.pack other).toBits⟩

end Binary32

namespace Binary64

/-- The word of the number nearest to an integer. -/
def ofInt (n : Int) : Binary64 := ⟨(Float.Model.ofInt n).toBits⟩

/-- The nearest word of the narrower format, ties going to the even one and
    large numbers to an infinity. -/
def narrow (x : Binary64) : Binary32 :=
  match x.toFloat.toModel.unpack with
  | .notANumber =>
    let sign := (x.bits >>> 63).toUInt32 <<< 31
    let payload := ((x.bits >>> 29) &&& 0x3fffff).toUInt32
    ⟨sign ||| 0x7fc00000 ||| payload⟩
  | .finite sign mantissa exponent _ => Binary32.round sign mantissa exponent
  | other => ⟨(Float32.Model.pack other).toBits⟩

end Binary64

end GraphAttention
