import GraphAttention.Shape.Basic

/-!
# Broadcasting

Two shapes combine when, aligned at their last axes, every pair of lengths
agrees or has a one in it; a missing axis counts as a one. The combined length
is the other of the two, so a one is stretched even to zero.

Reading a stretched operand drops the leading coordinates that it lacks and
takes coordinate zero along every axis of length one. `project` says so in one
expression, which serves both operands whichever of them is stretched.

## Main definitions

* `broadcastAxis`: The common length of two aligned axes.
* `broadcast?`: The common shape of two shapes.
* `project`: The index of an operand read for an index of the result.
-/

namespace GraphAttention

namespace Shape

/-- The common length of two aligned axes, if one of them can be stretched to
    the other. -/
def broadcastAxis (m n : Nat) : Option Nat :=
  if m = n ∨ n = 1 then some m else if m = 1 then some n else none

/-- Broadcasting with the last axis first, where alignment is plain. -/
def broadcastReversed : Shape → Shape → Option Shape
  | [], t => some t
  | s, [] => some s
  | m :: s, n :: t => do
    let axis ← broadcastAxis m n
    let rest ← broadcastReversed s t
    return axis :: rest

/-- The common shape of two shapes aligned at their last axes. -/
def broadcast? (s t : Shape) : Option Shape :=
  (broadcastReversed s.reverse t.reverse).map List.reverse

/-- The index of an operand of shape `s` that is read for an index of the
    result: the last coordinates, with zero along axes of length one. -/
def project (s : Shape) (idx : Index) : Index :=
  List.zipWith (fun n i => if n = 1 then 0 else i) s (idx.drop (idx.length - s.length))

end Shape

end GraphAttention
