import GraphAttention.Proofs.DegreeEncoder.Building
import GraphAttention.Proofs.Gathering
import GraphAttention.Proofs.Graph.Degrees
import GraphAttention.Proofs.Rows

/-!
# Degrees Looked Up

What an encoder computes, for any graph. The occurrences of a node at either end of
the edges are held below the largest degree, and the number that comes of it names a
row in the table for that end, because a table has one row more than the largest
degree. Nothing else can be asked of a table, so no look-up is ever out of bounds,
whatever the graph is.

All that can go wrong is said before a row is looked up, when the degrees are
counted, or when there is no room for the result.

## Main definitions

* `DegreeEncoder.rowOf`: The row that a node looks up.
* `DegreeEncoder.RowsOf`: A list of rows, one for each node.
* `DegreeTables.vectorAt`: What the tables hold for two rows.
* `DegreeEncoder.DegreeFault`: Why degrees cannot be counted.

## Theorems

* `clampedDegrees_outcome`, `clampedDegrees_rows`: The rows of all nodes, or why there
  are none.
* `RowsOf.names`: Every one of them is a row.
* `forward_ok`, `forward_roomless`, `forward_error`: Vectors, where the rows are known.
* `forward_cases`, `forward_rows`: Vectors for any graph, or why there are none.
-/

namespace GraphAttention

open GraphAttention.Action

namespace DegreeTables

/-- What the tables hold in a column, for a row in the table for incoming edges and a
    row in the one for outgoing edges. -/
def vectorAt (d : DType) (tables : DegreeTables) (entering leaving j : Nat) : d.Elem :=
  match tables with
  | incoming t => t.weight.data.entry d [entering, j]
  | outgoing t => t.weight.data.entry d [leaving, j]
  | both t u => t.weight.data.entry d [entering, j] + u.weight.data.entry d [leaving, j]

end DegreeTables

namespace DegreeEncoder

variable {c : DegreeConfig} {e : DegreeEncoder} {g : TypedGraph} {side : EdgeEnd} {largest : Nat}
  {t entering leaving : Tensor}

/-! ### Rows for degrees -/

/-- The row that a node looks up: how often it occurs at an end of the edges, held
    below the largest degree. -/
def rowOf (side : EdgeEnd) (g : TypedGraph) (largest v : Nat) : Nat :=
  min ((g.counted side).count v) largest

/-- A list of rows, one for each node. -/
structure RowsOf (side : EdgeEnd) (g : TypedGraph) (largest : Nat) (t : Tensor) : Prop where
  layout : t.Matches .int64 [g.numNodes]
  entry : ∀ v, v < g.numNodes → t.entry .int64 [v] = Int64.ofNat (rowOf side g largest v)

theorem rowOf_le (side : EdgeEnd) (g : TypedGraph) (largest v : Nat) :
    rowOf side g largest v ≤ largest :=
  Nat.min_le_right _ _

theorem RowsOf.toInt_entry (h : RowsOf side g largest t) (hlargest : largest < 2 ^ 63) {v : Nat}
    (hv : v < g.numNodes) : (t.entry .int64 [v]).toInt = rowOf side g largest v := by
  rw [h.entry v hv]
  exact Int64.toInt_ofNat_of_lt (Nat.lt_of_le_of_lt (rowOf_le side g largest v) hlargest)

/-- Every number in the list is a row of a table for degrees up to the largest. -/
theorem RowsOf.names (h : RowsOf side g largest t) (hlargest : largest < 2 ^ 63) :
    t.Names (largest + 1) := by
  intro k hk
  have hsize : Shape.size [g.numNodes] = g.numNodes := Nat.mul_one _
  rw [Tensor.count, h.layout.shape, hsize] at hk
  have hplace : Shape.ravel [g.numNodes] [k] = k := by simp [Shape.ravel]
  have hrow := h.toInt_entry hlargest hk
  have hle := rowOf_le side g largest k
  rw [Tensor.entry_eq_itemAt h.layout, hplace] at hrow
  rw [hrow]
  omega

/-- A count held below the largest degree. -/
theorem clamp_count {n : Nat} (hlargest : largest < 2 ^ 63) (hn : n < 2 ^ 63) :
    (if Int64.ofNat n < 0 then 0
      else if Int64.ofNat largest < Int64.ofNat n then Int64.ofNat largest else Int64.ofNat n)
      = Int64.ofNat (min n largest) := by
  have hcount := Int64.toInt_ofNat_of_lt hn
  have hmost := Int64.toInt_ofNat_of_lt hlargest
  have hzero : (0 : Int64).toInt = 0 := rfl
  have hneg : ¬ Int64.ofNat n < 0 := by
    rw [Int64.lt_iff_toInt_lt]
    omega
  rw [if_neg hneg]
  by_cases hless : largest < n
  · have hlt : Int64.ofNat largest < Int64.ofNat n := by
      rw [Int64.lt_iff_toInt_lt]
      omega
    rw [if_pos hlt, Nat.min_eq_right (Nat.le_of_lt hless)]
  · have hnot : ¬ Int64.ofNat largest < Int64.ofNat n := by
      rw [Int64.lt_iff_toInt_lt]
      omega
    rw [if_neg hnot, Nat.min_eq_left (Nat.not_lt.mp hless)]

/-- The degrees at one end as rows. -/
def rowsAt (side : EdgeEnd) (g : TypedGraph) (largest : Nat) : Except ModuleError Tensor := do
  let degrees ← (g.collapsed.degreesAt side).mapError .graph
  (degrees.clamp 0 (Int64.ofNat largest)).mapError .tensor

/-- Counting the degrees at an end fits, with room for the list and the counters. -/
def Countable (side : EdgeEnd) (g : TypedGraph) : Prop :=
  CountsFit (g.counted side) (g.collapsed.counters side) g.numNodes

/-- Why the degrees at an end cannot be counted. -/
def Uncountable (side : EdgeEnd) (g : TypedGraph) (x : TensorError) : Prop :=
  CountFault (g.counted side) (g.collapsed.counters side) g.numNodes x

theorem rowsAt_outcome (side : EdgeEnd) (g : TypedGraph) (hlargest : largest < 2 ^ 63) :
    (Countable side g ∧ ∃ t, rowsAt side g largest = .ok t ∧ RowsOf side g largest t) ∨
      ∃ x, Uncountable side g x ∧ rowsAt side g largest = .error (.graph (.tensor x)) := by
  rcases TypedGraph.degreesAt_outcome side g with ⟨hfit, t, ht, hmatch, hentry⟩ | ⟨x, hfault, hx⟩
  · have hrange : ¬ Int64.ofNat largest < 0 := by
      have hmost := Int64.toInt_ofNat_of_lt hlargest
      have hzero : (0 : Int64).toInt = 0 := rfl
      rw [Int64.lt_iff_toInt_lt]
      omega
    rcases Tensor.clamp_ok hmatch hrange with ⟨r, hr, hrmatch, hrentry⟩
    refine .inl ⟨hfit, r, ?_, hrmatch, fun v hv => ?_⟩
    · rw [rowsAt, ht]
      simp only [Except.mapError, hr, bind, Except.bind]
    · rw [hrentry [v] (by simpa using hv), hentry v hv]
      exact clamp_count hlargest (hfit.count_lt v)
  · refine .inr ⟨x, hfault, ?_⟩
    rw [rowsAt, hx]
    rfl

theorem clampedDegrees_eq (e : DegreeEncoder) (g : TypedGraph) :
    e.clampedDegrees g = (do
      let entering ← rowsAt .target g e.maxDegree
      let leaving ← rowsAt .source g e.maxDegree
      return (entering, leaving)) := by
  unfold clampedDegrees rowsAt
  change (do
    let entering ← (g.collapsed.degreesAt .target).mapError ModuleError.graph
    let entering ← (entering.clamp 0 (Int64.ofNat e.maxDegree)).mapError ModuleError.tensor
    let leaving ← (g.collapsed.degreesAt .source).mapError ModuleError.graph
    let leaving ← (leaving.clamp 0 (Int64.ofNat e.maxDegree)).mapError ModuleError.tensor
    return (entering, leaving)) = _
  simp only [bind_assoc]

/-- Why the degrees of a graph cannot be counted: at one end of the edges, first where
    they enter. -/
inductive DegreeFault (g : TypedGraph) (x : TensorError) : Prop
  | entering (h : Uncountable .target g x)
  | leaving (hentering : Countable .target g) (h : Uncountable .source g x)

theorem DegreeFault.not_countable {x : TensorError} (h : DegreeFault g x) :
    ¬ (Countable .target g ∧ Countable .source g) := by
  intro hboth
  cases h with
  | entering h => exact h.not_countsFit hboth.1
  | leaving _ h => exact h.not_countsFit hboth.2

/-- The rows of all nodes for both ends, or why there are none. -/
theorem clampedDegrees_outcome (g : TypedGraph) (hlargest : e.maxDegree < 2 ^ 63) :
    (Countable .target g ∧ Countable .source g ∧ ∃ entering leaving,
      e.clampedDegrees g = .ok (entering, leaving) ∧ RowsOf .target g e.maxDegree entering ∧
        RowsOf .source g e.maxDegree leaving) ∨
    ∃ x, DegreeFault g x ∧ e.clampedDegrees g = .error (.graph (.tensor x)) := by
  rw [clampedDegrees_eq]
  rcases rowsAt_outcome .target g hlargest with ⟨hin, entering, henter, hrows⟩ | ⟨x, hx, hfail⟩
  · rcases rowsAt_outcome .source g hlargest with ⟨hout, leaving, hleave, hrows'⟩ | ⟨x, hx, hfail⟩
    · refine .inl ⟨hin, hout, entering, leaving, ?_, hrows, hrows'⟩
      rw [henter, hleave]
      rfl
    · refine .inr ⟨x, .leaving hin hx, ?_⟩
      rw [henter, hfail]
      rfl
  · refine .inr ⟨x, .entering hx, ?_⟩
    rw [hfail]
    rfl

/-- Degrees that were counted are rows. -/
theorem clampedDegrees_rows (hlargest : e.maxDegree < 2 ^ 63)
    (h : e.clampedDegrees g = .ok (entering, leaving)) :
    RowsOf .target g e.maxDegree entering ∧ RowsOf .source g e.maxDegree leaving := by
  rcases clampedDegrees_outcome g hlargest with ⟨-, -, _, _, hok, hin, hout⟩ | ⟨_, -, hfail⟩
  · rw [hok] at h
    cases h
    exact ⟨hin, hout⟩
  · rw [hfail] at h
    cases h

/-! ### Vectors -/

theorem Follows.maxDegree_lt (h : Follows c e) : c.maxDegree < 2 ^ 63 :=
  have hrows : c.maxDegree + 1 ≤ Shape.maxSpan := Shape.length_le_of_fits (by decide) h.fits
  Nat.lt_of_succ_le (Nat.le_trans hrows (by decide))

/-- The rows of a table for a list of nodes. -/
theorem Suits.forward_ok {table : Embedding} (htable : Suits c table)
    (hlargest : c.maxDegree < 2 ^ 63) (hrows : RowsOf side g c.maxDegree t)
    (room : Shape.Allocatable c.dtype.width [g.numNodes, c.embeddingDim]) :
    ∃ r, table.forward t = .ok r ∧ r.Matches c.dtype [g.numNodes, c.embeddingDim] ∧
      ∀ v j, v < g.numNodes → j < c.embeddingDim → r.entry c.dtype [v, j]
        = table.weight.data.entry c.dtype [rowOf side g c.maxDegree v, j] := by
  rcases Tensor.indexSelect_ok htable.weight hrows.layout (hrows.names hlargest) room with
    ⟨r, hr, hmatch, hentry⟩
  refine ⟨r, hr, hmatch, fun v j hv hj => ?_⟩
  have hrow := hentry [v] [j] (by simpa using hv) (by simpa using hj)
  rw [hrows.toInt_entry hlargest hv] at hrow
  exact hrow

theorem Suits.forward_roomless {table : Embedding} (htable : Suits c table)
    (hlargest : c.maxDegree < 2 ^ 63) (hrows : RowsOf side g c.maxDegree t)
    (hroom : ¬ Shape.Allocatable c.dtype.width [g.numNodes, c.embeddingDim]) :
    table.forward t = .error (.unaddressable [g.numNodes, c.embeddingDim]) := by
  have hsize : Shape.size [g.numNodes] = g.numNodes := Nat.mul_one _
  rw [← hsize] at hroom ⊢
  exact Tensor.indexSelect_roomless htable.weight hrows.layout (hrows.names hlargest) hroom

/-- Without rows there are no vectors. -/
theorem forward_error {x : ModuleError} (h : e.clampedDegrees g = .error x) :
    e.forward g = .error x := by
  rw [forward, h]
  rfl

/-- Where the rows of all nodes are known, each node gets what the tables hold for
    them. -/
theorem forward_ok (h : Follows c e) (hdegrees : e.clampedDegrees g = .ok (entering, leaving))
    (hin : RowsOf .target g c.maxDegree entering) (hout : RowsOf .source g c.maxDegree leaving)
    (room : Shape.Allocatable c.dtype.width [g.numNodes, c.embeddingDim]) :
    ∃ out, e.forward g = .ok out ∧ out.Matches c.dtype [g.numNodes, c.embeddingDim] ∧
      ∀ v j, v < g.numNodes → j < c.embeddingDim → out.entry c.dtype [v, j]
        = e.tables.vectorAt c.dtype (rowOf .target g c.maxDegree v)
            (rowOf .source g c.maxDegree v) j := by
  have hlargest := h.maxDegree_lt
  rcases e with ⟨m, n, table | table | ⟨table, table'⟩⟩
  · rcases (h.table .target table rfl).forward_ok hlargest hin room with ⟨r, hr, hmatch, hentry⟩
    refine ⟨r, ?_, hmatch, hentry⟩
    simp only [forward, hdegrees, hr, bind, Except.bind, Except.mapError]
  · rcases (h.table .source table rfl).forward_ok hlargest hout room with ⟨r, hr, hmatch, hentry⟩
    refine ⟨r, ?_, hmatch, hentry⟩
    simp only [forward, hdegrees, hr, bind, Except.bind, Except.mapError]
  · -- Both tables are looked up, and what they give is added.
    rcases (h.table .target table rfl).forward_ok hlargest hin room with ⟨r, hr, hmatch, hentry⟩
    rcases (h.table .source table' rfl).forward_ok hlargest hout room with
      ⟨r', hr', hmatch', hentry'⟩
    rcases Tensor.add_ok hmatch hmatch' with ⟨sum, hsum, hsmatch, hsentry⟩
    refine ⟨sum, ?_, hsmatch, fun v j hv hj => ?_⟩
    · simp only [forward, hdegrees, hr, hr', hsum, bind, Except.bind, Except.mapError]
    · rw [hsentry [v, j] (by simp [hv, hj]), hentry v j hv hj, hentry' v j hv hj]
      rfl

/-- Without room for the vectors there are none. -/
theorem forward_roomless (h : Follows c e)
    (hdegrees : e.clampedDegrees g = .ok (entering, leaving))
    (hin : RowsOf .target g c.maxDegree entering) (hout : RowsOf .source g c.maxDegree leaving)
    (hroom : ¬ Shape.Allocatable c.dtype.width [g.numNodes, c.embeddingDim]) :
    e.forward g = .error (.tensor (.unaddressable [g.numNodes, c.embeddingDim])) := by
  have hlargest := h.maxDegree_lt
  rcases e with ⟨m, n, table | table | ⟨table, table'⟩⟩
  · have hfail := (h.table .target table rfl).forward_roomless hlargest hin hroom
    simp only [forward, hdegrees, hfail, bind, Except.bind, Except.mapError]
  · have hfail := (h.table .source table rfl).forward_roomless hlargest hout hroom
    simp only [forward, hdegrees, hfail, bind, Except.bind, Except.mapError]
  · have hfail := (h.table .target table rfl).forward_roomless hlargest hin hroom
    simp only [forward, hdegrees, hfail, bind, Except.bind, Except.mapError]

/-- Whatever the graph: the degrees are refused, or there is no room for the vectors, or
    each node gets what the tables hold for its rows. -/
theorem forward_cases (h : Follows c e) (g : TypedGraph) :
    (∃ x, DegreeFault g x ∧ e.forward g = .error (.graph (.tensor x))) ∨
    (Countable .target g ∧ Countable .source g ∧
      ((¬ Shape.Allocatable c.dtype.width [g.numNodes, c.embeddingDim] ∧
        e.forward g = .error (.tensor (.unaddressable [g.numNodes, c.embeddingDim]))) ∨
      (Shape.Allocatable c.dtype.width [g.numNodes, c.embeddingDim] ∧
        ∃ out, e.forward g = .ok out ∧ out.Matches c.dtype [g.numNodes, c.embeddingDim] ∧
          ∀ v j, v < g.numNodes → j < c.embeddingDim → out.entry c.dtype [v, j]
            = e.tables.vectorAt c.dtype (rowOf .target g c.maxDegree v)
                (rowOf .source g c.maxDegree v) j))) := by
  have hlargest : e.maxDegree < 2 ^ 63 := by
    rw [h.maxDegree]
    exact h.maxDegree_lt
  rcases clampedDegrees_outcome g hlargest with
    ⟨htarget, hsource, entering, leaving, hdegrees, hin, hout⟩ | ⟨x, hx, hfail⟩
  · rw [h.maxDegree] at hin hout
    refine .inr ⟨htarget, hsource, ?_⟩
    by_cases room : Shape.Allocatable c.dtype.width [g.numNodes, c.embeddingDim]
    · exact .inr ⟨room, forward_ok h hdegrees hin hout room⟩
    · exact .inl ⟨room, forward_roomless h hdegrees hin hout room⟩
  · exact .inl ⟨x, hx, forward_error hfail⟩

/-- What is computed for a graph, read off its success. -/
theorem forward_rows (h : Follows c e) {out : Tensor} (hout : e.forward g = .ok out) :
    out.Matches c.dtype [g.numNodes, c.embeddingDim] ∧
      ∀ v j, v < g.numNodes → j < c.embeddingDim → out.entry c.dtype [v, j]
        = e.tables.vectorAt c.dtype (rowOf .target g c.maxDegree v)
            (rowOf .source g c.maxDegree v) j := by
  rcases forward_cases h g with ⟨_, -, hfail⟩ | ⟨-, -, ⟨-, hfail⟩ | ⟨-, r, hr, hmatch, hentry⟩⟩
  · rw [hfail] at hout
    cases hout
  · rw [hfail] at hout
    cases hout
  · rw [hr] at hout
    cases hout
    exact ⟨hmatch, hentry⟩

end DegreeEncoder

end GraphAttention
