import GraphAttention.Scalar.Word

/-!
# Shortest Decimals

A message that mentions a number writes it with as few digits as identify it:
of all decimals that would be read back as the same word, one with the fewest
digits, and among those the nearest to the number.

The decimals with digits down to the place `10 ^ p` form a grid, and a coarser
grid means fewer digits, so the search goes from coarse to fine and stops at
the first grid that meets the interval of numbers rounding to the word. Only
the two grid points around the number need a look: if any point of the grid
lies in the interval, one of these does. Of two that do, the nearer is taken,
and the larger when they are equally near.

All of this is exact arithmetic on natural numbers. The interval is a quarter
of the unit wide on its lower side when the word is a power of two, where the
words below lie twice as close, and its ends belong to it when the significand
is even, because ties round to even.

The digits are written in full, never with an exponent and never with a
trailing point.

## Main definitions

* `gridPoint?`: The point of one grid to write a number with, if it has one.
* `shortest`: The digits and the place of the last of them.
* `positional`: Digits written out in full.
* `Decimal.render`: The text of a number.
-/

namespace GraphAttention

namespace Decimal

/-- The multiple of `10 ^ place` that stands for `mantissa * 2 ^ exponent`,
    when one of the two around it rounds back to it. The gap to the word below
    is half as wide when `narrowBelow` holds. -/
def gridPoint? (mantissa : Nat) (exponent : Int) (narrowBelow : Bool) (place : Int) :
    Option Nat :=
  -- Everything below is in units of a quarter of the gap above, over `unit`.
  let scale := Nat.pow 2 (exponent - 2).toNat * Nat.pow 10 (-place).toNat
  let unit := Nat.pow 2 (2 - exponent).toNat * Nat.pow 10 place.toNat
  let value := 4 * mantissa * scale
  let low := (4 * mantissa - if narrowBelow then 1 else 2) * scale
  let high := (4 * mantissa + 2) * scale
  let hits (d : Nat) : Bool :=
    if mantissa % 2 = 0 then low ≤ d * unit && d * unit ≤ high
    else low < d * unit && d * unit < high
  let below := value / unit
  let above := below + 1
  if hits below then
    if hits above && above * unit - value ≤ value - below * unit then some above
    else some below
  else if hits above then some above
  else none

/-- The coarsest place that a finite word can need. -/
def coarsest : Int := 310

/-- How many places are tried; the last one is below the finest digit of the
    smallest word. -/
def placeCount : Nat := 660

/-- The digits that stand for `mantissa * 2 ^ exponent` and the place of the
    last one. -/
def shortest (mantissa : Nat) (exponent : Int) (narrowBelow : Bool) : Nat × Int :=
  let found := (List.range placeCount).findSome? fun (step : Nat) =>
    let place := coarsest - (step : Int)
    (gridPoint? mantissa exponent narrowBelow place).map fun digits => (digits, place)
  found.getD (mantissa, exponent)

/-- The digits of a natural number. -/
def digits (n : Nat) : List Char := Nat.toDigits 10 n

/-- `n * 10 ^ place` written in full. -/
def positional (n : Nat) (place : Int) : String :=
  if 0 ≤ place then String.ofList (digits n ++ List.replicate place.toNat '0')
  else
    let after := (-place).toNat
    let all := digits n
    let padded := List.replicate (after + 1 - all.length) '0' ++ all
    let cut := padded.length - after
    String.ofList (padded.take cut ++ '.' :: padded.drop cut)

/-- The text of a number: the fewest digits that identify it, in full. -/
def render (x : Float) : String :=
  match x.toModel.unpack with
  | .notANumber => "NaN"
  | .infinity sign => signText sign ++ "inf"
  | .zero sign => signText sign ++ "0"
  | .finite sign mantissa exponent _ =>
    let narrowBelow := mantissa == 0x10000000000000 && decide (-1074 < exponent)
    let (n, place) := shortest mantissa exponent narrowBelow
    signText sign ++ positional n place
where
  signText : Float.Model.UnpackedFloat.Sign → String
    | .positive => ""
    | .negative => "-"

end Decimal

end GraphAttention
