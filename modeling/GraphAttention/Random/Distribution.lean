import GraphAttention.Random.Source

/-!
# Distributions

How words become numbers. A uniform sample takes the leading 52 bits of a word
as a fraction of the width of the range and adds the lower end, with a rounding
after each of the two steps.

The rounding could push the largest fraction up to the excluded upper end. The
width is therefore stepped down, word by word, until the largest fraction stays
below it; at width zero it does, since the lower end is below the upper one, so
the search ends.

Deciding whether an element is dropped takes the leading 53 bits of a word as a
fraction of one.

`SplitMix` makes a normal sample of twelve words. Twelve uniform fractions of one
have a sum with mean six and variance one, and the sum less six is close to normal.
The fractions are added before they become a number, so that the sample is a uniform
one of a wider range, taken at a word that is not uniform.

## Main definitions

* `UniformRange`: A lower end and a width.
* `UniformRange.ofBounds?`: The range between two ends, if its width is finite.
* `UniformRange.sample`: A uniform sample.
* `unitFraction`: A uniform sample between zero and one.
* `SplitMix.normalRange`, `SplitMix.normalWord`: The range of normal samples, and the
  word that one is taken at.
-/

namespace GraphAttention

/-- A half-open range of numbers that can be sampled uniformly. -/
structure UniformRange where
  low : Float
  width : Float
deriving DecidableEq

namespace UniformRange

/-- The fraction `2 ^ (-52)`. -/
def step : Float := Float.ofBits 0x3cb0000000000000

/-- The largest fraction of the width that is drawn, `1 - 2 ^ (-52)`. -/
def largestFraction : Float := Float.ofBits 0x3feffffffffffffe

/-- The largest width, not above that of the given word, for which the largest
    fraction stays below the upper end. -/
def fitWidth (low high : Float) : Nat → Float
  | 0 => 0
  | word + 1 =>
    let width := Float.ofBits (word + 1).toUInt64
    if high ≤ width * largestFraction + low then fitWidth low high word else width

/-- The range between two ends. There is none when an end or the width is not
    finite. -/
def ofBounds? (low high : Float) : Option UniformRange :=
  let width := high - low
  if low.isFinite && high.isFinite && width.isFinite then
    some ⟨low, fitWidth low high width.toBits.toNat⟩
  else none

/-- The sample that a word stands for. -/
def sample (range : UniformRange) (word : UInt64) : Float :=
  (word >>> 12).toFloat * step * range.width + range.low

end UniformRange

/-- The fraction of one that the leading 53 bits of a word stand for. -/
def unitFraction (word : UInt64) : Float :=
  (word >>> 11).toFloat * Float.ofBits 0x3ca0000000000000

namespace SplitMix

/-- A range that is as wide as sixteen fractions of one. -/
def normalRange : UniformRange := ⟨-6, 16⟩

/-- The sum of the leading 48 bits of some words, moved to the leading 52 bits of one
    word. Twelve of them leave nothing over. -/
def normalWord (words : Array UInt64) : UInt64 :=
  let total := words.foldl (fun (n word : UInt64) => n + (word >>> 16)) 0
  total <<< 12

instance : NormalSource SplitMix where
  nextNormal g :=
    let (words, g) := WordSource.take 12 g
    (normalRange.sample (normalWord words), g)

end SplitMix

end GraphAttention
