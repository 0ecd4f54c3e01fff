import GraphAttention.MachineWord
import GraphAttention.Tensor.Error

/-!
# Edge Lists

The edges of one relation, as the list of their sources beside the list of
their targets, with the numbers of nodes on either side. Nothing ties the parts
together: the two lists may differ in length and an entry may be no node, as in
a graph that was read from a file. Counting passes over such entries, but it
needs room for the entries themselves and for a counter for every node that
there is said to be.

## Main definitions

* `EdgeList`: Sources, targets and the numbers of nodes.
* `EdgeList.sourceCounts`, `EdgeList.targetCounts`: How often each node occurs
  on either side.
* `EdgeList.extendShifted`: The edges of another list, renumbered and added.
-/

namespace GraphAttention

/-- The edges of one relation between two sets of numbered nodes. -/
structure EdgeList where
  numSources : Nat
  numTargets : Nat
  sources : List Nat
  targets : List Nat
deriving DecidableEq, Repr

/-- How often each number below `n` occurs in a list. Larger numbers are passed
    over. -/
def occurrences (ids : List Nat) (n : Nat) : Array Nat :=
  ids.foldl (fun counts id => counts.modify id (· + 1)) (Array.replicate n 0)

/-- The occurrences of each number below `n`, provided there is room for the
    list and for `n` counters. -/
def countOccurrences (ids : List Nat) (n : Nat) : Except TensorError (Array Nat) :=
  if ¬ Shape.Fits 8 [ids.length] then .error (.unaddressable [ids.length])
  else if Shape.Fits 8 [n] then .ok (occurrences ids n)
  else .error (.unaddressable [n])

namespace EdgeList

/-- No edges. -/
def empty (numSources numTargets : Nat) : EdgeList := ⟨numSources, numTargets, [], []⟩

/-- The number of edges, counted by their sources. -/
def count (e : EdgeList) : Nat := e.sources.length

/-- How many edges leave each source. -/
def sourceCounts (e : EdgeList) : Except TensorError (Array Nat) :=
  countOccurrences e.sources e.numSources

/-- How many edges enter each target. -/
def targetCounts (e : EdgeList) : Except TensorError (Array Nat) :=
  countOccurrences e.targets e.numTargets

/-- The list with further edges at its end. -/
def append (e : EdgeList) (sources targets : List Nat) : EdgeList :=
  { e with sources := e.sources ++ sources, targets := e.targets ++ targets }

/-- The list with the edges of another at its end, whose sources and targets
    are renumbered by adding an offset to each. A number is held in a machine
    word. -/
def extendShifted (e other : EdgeList) (sourceOffset targetOffset : Nat) : EdgeList :=
  e.append (other.sources.map fun id => wrap (id + sourceOffset))
    (other.targets.map fun id => wrap (id + targetOffset))

end EdgeList

end GraphAttention
