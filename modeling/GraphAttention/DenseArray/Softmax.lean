import GraphAttention.DenseArray.Basic

/-!
# Softmax along an Axis

A lane of an array along an axis is the list of the elements whose other
coordinates are fixed. `mapLanes` applies a function of lists to every lane;
softmax is that with `softmaxLane`.

The largest element of a lane is subtracted before the exponentials are taken,
which keeps them from overflowing. The largest is found by a fold from negative
infinity that ignores what is not a number. When it is still negative infinity
there is nothing to normalize, and the lane becomes zero throughout; this is
what makes a row that is masked everywhere attend to nothing.

## Main definitions

* `DenseArray.lane`: The elements of one lane.
* `DenseArray.mapLanes`: A function of lists applied to every lane.
* `softmaxLane`: The softmax of one lane.
* `DenseArray.softmax`: The softmax along an axis.
-/

namespace GraphAttention

/-- The softmax of one lane: exponentials of the distances to the largest
    element, over their sum. A lane with no element above negative infinity
    becomes zero. -/
def softmaxLane {α : Type} [RealScalar α] (lane : List α) : List α :=
  let top := lane.foldl RealScalar.maxNum RealScalar.negInf
  if RealScalar.isNegInf top then lane.map fun _ => 0
  else
    let weights := lane.map fun x => RealScalar.exp (x - top)
    let total := weights.foldl (· + ·) 0
    weights.map (· / total)

namespace DenseArray

variable {α : Type} [Inhabited α]

/-- The lane with `length` elements, `inner` apart, that starts below the outer
    coordinates at `outer` and at the inner position `within`. -/
def lane (a : DenseArray α) (length inner outer within : Nat) : List α :=
  (List.range length).map fun j => a.item ((outer * length + j) * inner + within)

/-- A function of lists applied to every lane along an axis. -/
def mapLanes (f : List α → List α) (axis : Nat) (a : DenseArray α) : DenseArray α :=
  let length := a.shape.getD axis 1
  let inner := Shape.size (a.shape.drop (axis + 1))
  let outer := Shape.size (a.shape.take axis)
  let lanes : Array (Array α) := Array.ofFn fun l : Fin (outer * inner) =>
    (f (a.lane length inner (l / inner) (l % inner))).toArray
  generate a.shape fun k =>
    let row := k / inner
    (lanes.getD (row / length * inner + k % inner) #[]).getD (row % length) default

/-- The softmax along an axis. -/
def softmax {α : Type} [RealScalar α] (axis : Nat) (a : DenseArray α) : DenseArray α :=
  a.mapLanes softmaxLane axis

end DenseArray

end GraphAttention
