import GraphAttention.Proofs.DegreeEncoder.Lookup
import GraphAttention.Proofs.Embedding.PaddingGradient

/-!
# What Reaches the Buffers of an Encoder

The gradient of the vectors of an encoder goes to its tables, each with its own list of
rows. What is handed back for a node whose degree at one end is zero stands at a place
of the padding row in the table for that end, and at a place of any row in the table for
the other end. So two runs that differ for such nodes are compared for one table at a
time. Of the other table only as much is kept up as makes it fail in both runs or in
neither.

With this, tables that are worked on alone and tables of an encoder come to the same:
the buffer does not depend on what is handed back for padding, except for the padding
row itself, and that row is zero in every column in which all that it received was
finite. In the other columns it need not be a number.

## Main definitions

* `DegreeEncoder.nodeRows`: The rows that the nodes of a graph look up.
* `DegreeEncoder.EncodersAlike`: Encoders whose tables are alike in some rows.
* `DegreeEncoder.LearnsAlike`, `DegreeEncoder.FiniteAt`: Operations that gather gradients.

## Theorems

* `RowsOf.rowList_eq`: The rows of the nodes as a list.
* `onSide_couples`, `backward_couples`, `perform_couples`: Encoders stay alike under an
  operation.
* `buffers_spare_padding`: Buffers after any number of steps.
* `not_forall_padding_buffer_zero`: A padding row that is not zero in the buffer.
-/

namespace GraphAttention

open GraphAttention.Action

namespace DegreeEncoder

open GraphAttention.Embedding (AgreeAt BuffersAgree GatheredAlike received)

variable {c : DegreeConfig} {e e' : DegreeEncoder} {keep exact : EdgeEnd → Nat → Prop}
  {side : EdgeEnd}

/-! ### Rows of nodes -/

/-- The rows that the nodes of a graph look up in the table for one end. -/
def nodeRows (side : EdgeEnd) (graph : TypedGraph) (largest : Nat) : List Nat :=
  (List.range graph.numNodes).map (rowOf side graph largest)

theorem RowsOf.rowList_eq {graph : TypedGraph} {largest : Nat} {t : Tensor}
    (h : RowsOf side graph largest t) (hlargest : largest < 2 ^ 63) :
    t.rowList = nodeRows side graph largest := by
  have hsize : Shape.size [graph.numNodes] = graph.numNodes := Nat.mul_one _
  have hlength := Tensor.length_rowList h.layout
  refine List.ext_getElem? fun v => ?_
  by_cases hv : v < graph.numNodes
  · have hplace : Shape.ravel [graph.numNodes] [v] = v := by simp [Shape.ravel]
    have hrow := h.toInt_entry hlargest hv
    rw [Tensor.entry_eq_itemAt h.layout, hplace] at hrow
    rw [Tensor.rowList_getElem? h.layout (hsize.symm ▸ hv), hrow]
    simp [nodeRows, hv]
  · rw [List.getElem?_eq_none (by omega), List.getElem?_eq_none (by simpa [nodeRows] using hv)]

/-- The degrees do not depend on the tables. -/
theorem clampedDegrees_congr (h : e.maxDegree = e'.maxDegree) (graph : TypedGraph) :
    e.clampedDegrees graph = e'.clampedDegrees graph := by
  rw [clampedDegrees_eq, clampedDegrees_eq, h]

/-! ### Two encoders -/

/-- The size of a table of an encoder and its padding row. -/
def tableSettings (c : DegreeConfig) : Embedding.Settings :=
  ⟨c.maxDegree + 1, c.embeddingDim, some 0⟩

/-- Encoders whose tables are alike in the rows that are looked at. -/
structure EncodersAlike (c : DegreeConfig) (keep exact : EdgeEnd → Nat → Prop)
    (e e' : DegreeEncoder) : Prop where
  maxDegree : e.maxDegree = c.maxDegree
  maxDegree' : e'.maxDegree = c.maxDegree
  table : ∀ side, Option.Rel (GatheredAlike c.dtype (tableSettings c) (keep side) (exact side))
    (e.tables.at? side) (e'.tables.at? side)

theorem EncodersAlike.withAt {t t' u u' : Embedding} (h : EncodersAlike c keep exact e e')
    (ht : e.tables.at? side = some t) (ht' : e'.tables.at? side = some t')
    (hu : GatheredAlike c.dtype (tableSettings c) (keep side) (exact side) u u') :
    EncodersAlike c keep exact { e with tables := e.tables.withAt side u }
      { e' with tables := e'.tables.withAt side u' } where
  maxDegree := h.maxDegree
  maxDegree' := h.maxDegree'
  table := by
    intro side'
    rw [DegreeTables.at?_withAt ht, DegreeTables.at?_withAt ht']
    by_cases hside : side' = side
    · subst hside
      rw [if_pos rfl, if_pos rfl]
      exact .some hu
    · rw [if_neg hside, if_neg hside]
      exact h.table side'

/-- What keeps tables alike keeps encoders alike when it is done to their tables. -/
theorem onSide_couples {act act' : Action (Tracked Embedding) TensorError Unit}
    (hact : Couples act act'
      (Tracked.Beside (GatheredAlike c.dtype (tableSettings c) (keep side) (exact side)))) :
    Couples (onSide side act) (onSide side act')
      (Tracked.Beside (EncodersAlike c keep exact)) := by
  intro s s' hs
  have hside := hs.2.table side
  generalize ht : s.value.tables.at? side = table at hside
  generalize ht' : s'.value.tables.at? side = table' at hside
  cases hside with
  | none =>
    rw [onSide_none ht, onSide_none ht']
    exact ⟨rfl, hs⟩
  | some htables =>
    rcases hact ⟨s.gradEnabled, _⟩ ⟨s'.gradEnabled, _⟩ ⟨hs.1, htables⟩ with
      ⟨hfailure, hmode, hrest⟩
    rw [onSide_some ht, onSide_some ht']
    refine ⟨?_, hmode, hs.2.withAt ht ht' hrest⟩
    rw [failure?_mapError, failure?_mapError, hfailure]

/-- Operations that forget the gradients, or gather gradients for one graph that agree in
    the rows of each table that are looked at. -/
inductive LearnsAlike (c : DegreeConfig) (keep : EdgeEnd → Nat → Prop) :
    ModuleOp Op → ModuleOp Op → Prop
  | zeroGrad : LearnsAlike c keep .zeroGrad .zeroGrad
  | backward {graph : TypedGraph} {g g' : Tensor}
    (h : ∀ side, AgreeAt c.dtype c.embeddingDim (nodeRows side graph c.maxDegree) (keep side)
      g g') :
    LearnsAlike c keep (.own (.backward graph g)) (.own (.backward graph g'))

/-- What the padding row of a table receives from an operation in a column is finite. -/
def FiniteAt (c : DegreeConfig) (side : EdgeEnd) (j : Nat) : ModuleOp Op → Prop
  | .own (.backward graph g) => (c.dtype.sort
      (received c.dtype c.embeddingDim (nodeRows side graph c.maxDegree) g 0 j)).isFinite = true
  | _ => True

theorem backward_couples (hlargest : c.maxDegree < 2 ^ 63) {graph : TypedGraph} {g g' : Tensor}
    (hg : ∀ side, AgreeAt c.dtype c.embeddingDim (nodeRows side graph c.maxDegree) (keep side)
      g g')
    (hexact : ∀ side j, exact side j → FiniteAt c side j (.own (.backward graph g))) :
    Couples (backward graph g) (backward graph g')
      (Tracked.Beside (EncodersAlike c keep exact)) := by
  -- Of each table it is known which rows it is given.
  have hside : ∀ side t, RowsOf side graph c.maxDegree t →
      Couples (onSide side (Embedding.backward t g)) (onSide side (Embedding.backward t g'))
        (Tracked.Beside (EncodersAlike c keep exact)) := by
    intro side t hrows
    have hlist := hrows.rowList_eq hlargest
    refine onSide_couples (Embedding.backward_couples ?_ fun row hrow j _ hj => ?_)
    · rw [hlist]
      exact hg side
    · cases hrow
      rw [hlist]
      exact hexact side j hj
  refine Couples.get_bind fun s s' hs => ?_
  rw [clampedDegrees_congr (hs.2.maxDegree'.trans hs.2.maxDegree.symm) graph]
  refine Couples.attempt_bind fun degrees hdegrees => ?_
  have hmax := hs.2.maxDegree
  rw [← hmax] at hlargest
  have hrows := clampedDegrees_rows hlargest hdegrees
  rw [hmax] at hrows
  exact Couples.bind (hside .target degrees.1 hrows.1) fun _ _ => hside .source degrees.2 hrows.2

/-- Forgetting the gradients of an encoder is forgetting them table by table. -/
theorem at?_zeroGrad (e : DegreeEncoder) (side : EdgeEnd) :
    (Module.zeroGrad e).tables.at? side
      = (e.tables.at? side).map fun t => { t with weight := t.weight.zeroGrad } := by
  rcases e with ⟨m, n, t | t | ⟨t, u⟩⟩ <;> cases side <;> rfl

theorem EncodersAlike.zeroGrad (h : EncodersAlike c keep exact e e') :
    EncodersAlike c keep exact (Module.zeroGrad e) (Module.zeroGrad e') where
  maxDegree := by
    rcases e with ⟨m, n, t | t | ⟨t, u⟩⟩ <;> exact h.maxDegree
  maxDegree' := by
    rcases e' with ⟨m, n, t | t | ⟨t, u⟩⟩ <;> exact h.maxDegree'
  table := by
    intro side
    rw [at?_zeroGrad, at?_zeroGrad]
    have htable := h.table side
    generalize e.tables.at? side = table at htable
    generalize e'.tables.at? side = table' at htable
    cases htable with
    | none => exact .none
    | some htables => exact .some (htables.withGrad .none)

theorem perform_couples (hlargest : c.maxDegree < 2 ^ 63) {op op' : ModuleOp Op}
    (hop : LearnsAlike c keep op op') (hexact : ∀ side j, exact side j → FiniteAt c side j op) :
    Couples (ModuleOp.perform perform op) (ModuleOp.perform perform op')
      (Tracked.Beside (EncodersAlike c keep exact)) := by
  cases hop with
  | zeroGrad => exact fun s s' hs => ⟨rfl, hs.1, hs.2.zeroGrad⟩
  | backward hg =>
    exact Couples.bind (Couples.bind (backward_couples hlargest hg hexact) fun _ _ =>
      Couples.get_bind fun _ _ _ => couples_pure _ _) fun _ _ => couples_pure _ _

/-- An encoder with nothing gathered is like itself. -/
theorem EncodersAlike.refl (he : Follows c e) (hgrad : e.tables.All fun t => t.weight.grad = none) :
    EncodersAlike c keep exact e e where
  maxDegree := he.maxDegree
  maxDegree' := he.maxDegree
  table := by
    intro side
    cases ht : e.tables.at? side with
    | none => exact .none
    | some t =>
      have hsuits := he.table side t ht
      have hsettings : t.settings = tableSettings c := by
        rw [Embedding.settings, hsuits.numRows, hsuits.dim, hsuits.paddingRow, tableSettings]
      rw [← hsettings]
      exact .some (.refl hsuits.wellFormed (hgrad side t ht))

/-- Two runs in which gradients agree in the rows that are looked at leave encoders that
    are alike. -/
theorem runAll_alike {steps steps' : List (Script ModuleError (ModuleOp Op))} (he : Follows c e)
    (hgrad : e.tables.All fun t => t.weight.grad = none)
    (hsteps : Script.AllAlike (LearnsAlike c keep) steps steps') :
    EncodersAlike c keep (fun side j => ∀ op ∈ Script.allOps steps, FiniteAt c side j op)
      (ModuleOp.after perform steps e) (ModuleOp.after perform steps' e) := by
  have hfinite := hsteps.and_left (P := fun op => op ∈ Script.allOps steps) fun _ hop => hop
  refine (Script.runAll_couples _ (fun op op' hop => ?_) hfinite (Tracked.start e)
    (Tracked.start e) ⟨rfl, .refl he hgrad⟩).2
  exact perform_couples he.maxDegree_lt hop.1 fun side j hj => hj op hop.2

/-- A single gradient of a table is zero in the padding row exactly where what the row
    received is finite, and otherwise not a number there.

    The buffer of a table, alone or in an encoder, after any number of gradients, with scopes
    without gradients and fresh starts in between, does not depend on what is handed
    back for padding, except for the padding row itself. This row is zero in every column
    in which all that it received was finite, and in any other column it is zero or not a
    number. -/
theorem buffers_spare_padding {d : DType} {table : Embedding} {p : Nat} (ht : table.WellFormed d)
    (hp : table.paddingRow = some p) (htnone : table.weight.grad = none) (he : Follows c e)
    (hnone : e.tables.All fun t => t.weight.grad = none) :
    (∀ indices g r, table.tableGradient indices g = .ok r → ∀ j, j < table.dim →
      d.sort (r.entry d [p, j])
        = if (d.sort (received d table.dim indices.rowList g p j)).isFinite then .zero
          else .notANumber) ∧
    (∀ steps steps' : List (Script ModuleError (ModuleOp Embedding.Op)),
      Script.AllAlike (Embedding.LearnsAlike d table.dim (· ≠ p)) steps steps' →
      Option.Rel (BuffersAgree d table.settings (· ≠ p)
          fun j => ∀ op ∈ Script.allOps steps, Embedding.FiniteAt d table.dim p j op)
        (ModuleOp.after Embedding.perform steps table).weight.grad
        (ModuleOp.after Embedding.perform steps' table).weight.grad) ∧
    ∀ (side : EdgeEnd) (steps steps' : List (Script ModuleError (ModuleOp Op))),
      Script.AllAlike (LearnsAlike c fun side' row => side' = side ∧ row ≠ 0) steps steps' →
      Option.Rel (fun t t' => Option.Rel (BuffersAgree c.dtype (tableSettings c) (· ≠ 0)
          fun j => ∀ op ∈ Script.allOps steps, FiniteAt c side j op) t.weight.grad t'.weight.grad)
        ((ModuleOp.after perform steps e).tables.at? side)
        ((ModuleOp.after perform steps' e).tables.at? side) := by
  refine ⟨fun indices g r h j hj => Embedding.sort_tableGradient_padding ht hp h hj,
    fun steps steps' hsteps => ?_, fun side steps steps' hsteps => ?_⟩
  · exact (Embedding.runAll_alike ht hp htnone hsteps).grad
  · have htable := (runAll_alike he hnone hsteps).table side
    -- At the end that is looked at, the rows are those other than the padding row.
    have hkeep : (fun row => side = side ∧ row ≠ 0) = fun row => row ≠ 0 := by simp
    rw [hkeep] at htable
    generalize (ModuleOp.after perform steps e).tables.at? side = table at htable
    generalize (ModuleOp.after perform steps' e).tables.at? side = table' at htable
    cases htable with
    | none => exact .none
    | some halike => exact .some halike.grad

/-- A table of two rows of zeros, the first of which is the padding row. -/
def twoRows : Embedding := ⟨2, 1, some 0, .trainable ⟨.float64, .fill [2, 1] 0, by decide⟩⟩

/-- A gradient for two vectors, and the first element of it. -/
def twoVectors (first : Binary64) : Tensor where
  dtype := .float64
  array := ⟨[2, 1], #[first, 1], rfl⟩
  room := (by decide : Shape.Allocatable 8 [2, 1])

/-- The numbers of both rows. -/
def bothRows : Tensor := ⟨.int64, ⟨[2], #[0, 1], rfl⟩, by decide⟩

/-- Two nodes and an edge from the first to the second. -/
def arrow : TypedGraph := ⟨[("a", 2)], [(⟨"a", "r", "a"⟩, ⟨2, 2, [0], [1]⟩)]⟩

/-- One gradient, for both rows of a table. -/
def rowsStep (first : Binary64) : List (Script ModuleError (ModuleOp Embedding.Op)) :=
  [.act (.own (.backward bothRows (twoVectors first)))]

/-- One gradient, for both nodes. -/
def arrowStep (first : Binary64) : List (Script ModuleError (ModuleOp Op)) :=
  [.act (.own (.backward arrow (twoVectors first)))]

theorem twoRows_wellFormed : twoRows.WellFormed .float64 where
  isFloat := rfl
  weight := ⟨rfl, rfl⟩
  padding := by
    intro row hrow
    cases hrow
    exact ⟨by decide, by decide⟩

theorem twoVectors_agree {keep : Nat → Prop} (hkeep : ∀ row, keep row → row ≠ 0) (x y : Binary64) :
    AgreeAt .float64 1 [0, 1] keep (twoVectors x) (twoVectors y) where
  dtype := rfl
  shape := rfl
  item := by
    intro k row j hrow hrow' hj
    obtain rfl : j = 0 := by omega
    have hne := hkeep row hrow'
    -- The first place is one of the padding row, and after the second there is none.
    rcases k with _ | _ | k
    · cases hrow
      exact absurd rfl hne
    · rfl
    · cases hrow

theorem exists_of_rel {α β : Type} {R : α → β → Prop} {x : Option α} {y : Option β}
    (h : Option.Rel R x y) (hx : x.isSome = true) : ∃ a b, x = some a ∧ y = some b ∧ R a b := by
  cases h with
  | none => cases hx
  | some hr => exact ⟨_, _, rfl, rfl, hr⟩

/-- What is handed back for the padding row is zero in one run and infinite in the other,
    for a table by itself and for one in an encoder. -/
theorem buffers_spare_padding_infinite :
    (∃ b b' : Tensor,
      (ModuleOp.after Embedding.perform (rowsStep 0) twoRows).weight.grad = some b ∧
      (ModuleOp.after Embedding.perform (rowsStep ⟨0x7ff0000000000000⟩) twoRows).weight.grad
        = some b' ∧
      DType.sort .float64 (b.entry .float64 [0, 0]) = .zero ∧
      b.entry .float64 [1, 0] = b'.entry .float64 [1, 0]) ∧
    ∃ (t t' : Embedding) (b b' : Tensor),
      (ModuleOp.after perform (arrowStep 0) ⟨1, 1, .incoming twoRows⟩).tables.at? .target
        = some t ∧
      (ModuleOp.after perform (arrowStep ⟨0x7ff0000000000000⟩)
        ⟨1, 1, .incoming twoRows⟩).tables.at? .target = some t' ∧
      t.weight.grad = some b ∧ t'.weight.grad = some b' ∧
      DType.sort .float64 (b.entry .float64 [0, 0]) = .zero ∧
      b.entry .float64 [1, 0] = b'.entry .float64 [1, 0] := by
  have hrows : bothRows.rowList = [0, 1] := by decide
  have hnodes : nodeRows .target arrow 1 = [0, 1] := by decide +kernel
  have hfinite : (DType.sort .float64 (received .float64 1 [0, 1] (twoVectors 0) 0 0)).isFinite
      = true := by decide +kernel
  have hread : ∀ (exact : Nat → Prop) (b b' : Tensor),
      BuffersAgree .float64 twoRows.settings (· ≠ 0) exact b b' → exact 0 →
      DType.sort .float64 (b.entry .float64 [0, 0]) = .zero ∧
        b.entry .float64 [1, 0] = b'.entry .float64 [1, 0] := fun exact b b' h hexact =>
    ⟨(h.padding 0 rfl (by decide) 0 (by decide)).sort_eq hexact,
      h.entry 1 0 (by decide) (by decide) (by decide)⟩
  let c : DegreeConfig := ⟨1, 1, .incoming, .float64⟩
  have hfollows : Follows c ⟨1, 1, .incoming twoRows⟩ :=
    ⟨rfl, rfl, rfl, DegreeTables.all_incoming.mpr ⟨twoRows_wellFormed, rfl, rfl, rfl⟩⟩
  have hspare := buffers_spare_padding twoRows_wellFormed rfl rfl hfollows
    (DegreeTables.all_incoming.mpr rfl)
  refine ⟨?_, ?_⟩
  · have hrel := hspare.2.1 (rowsStep 0) (rowsStep ⟨0x7ff0000000000000⟩)
      (.cons (.act (.backward (hrows ▸ twoVectors_agree (fun _ h => h) _ _))) .nil)
    rcases exists_of_rel hrel (by decide +kernel) with ⟨b, b', hb, hb', hagree⟩
    refine ⟨b, b', hb, hb', hread _ b b' hagree fun op hop => ?_⟩
    obtain rfl := List.mem_singleton.mp hop
    change (DType.sort .float64 (received .float64 1 bothRows.rowList _ 0 0)).isFinite = true
    rw [hrows]
    exact hfinite
  · have halike : ∀ side, AgreeAt .float64 1 (nodeRows side arrow 1)
        (fun row => side = .target ∧ row ≠ 0) (twoVectors 0)
        (twoVectors ⟨0x7ff0000000000000⟩) := by
      intro side
      cases side with
      | source => exact ⟨rfl, rfl, fun _ _ _ _ hkeep => by cases hkeep.1⟩
      | target => exact hnodes ▸ twoVectors_agree (fun _ h => h.2) _ _
    have hrel := hspare.2.2 .target (arrowStep 0) (arrowStep ⟨0x7ff0000000000000⟩)
      (.cons (.act (.backward halike)) .nil)
    rcases exists_of_rel hrel (by decide +kernel) with ⟨t, t', ht, ht', hbuffers⟩
    have hlearned : ((ModuleOp.after perform (arrowStep 0)
        ⟨1, 1, .incoming twoRows⟩).tables.at? .target).all (·.weight.grad.isSome) = true := by
      decide +kernel
    rw [ht] at hlearned
    rcases exists_of_rel hbuffers hlearned with ⟨b, b', hb, hb', hagree⟩
    refine ⟨t, t', b, b', ht, ht', hb, hb', hread _ b b' hagree fun op hop => ?_⟩
    obtain rfl := List.mem_singleton.mp hop
    change (DType.sort .float64
      (received .float64 1 (nodeRows .target arrow 1) _ 0 0)).isFinite = true
    rw [hnodes]
    exact hfinite

/-- An infinite gradient at a place of the padding row leaves what is not a number in the
    padding row of the buffer. -/
theorem not_forall_padding_buffer_zero :
    ¬ ∀ (d : DType) (e : Embedding) (p : Nat)
      (steps : List (Script ModuleError (ModuleOp Embedding.Op))) (b : Tensor),
      e.WellFormed d → e.paddingRow = some p → e.weight.grad = none →
      (ModuleOp.after Embedding.perform steps e).weight.grad = some b → b.ZeroRow d p e.dim := by
  intro hall
  have hsort : ((ModuleOp.after Embedding.perform (rowsStep ⟨0x7ff0000000000000⟩)
      twoRows).weight.grad.map fun b => DType.sort .float64 (b.entry .float64 [0, 0]))
      = some .notANumber := by decide +kernel
  rcases Option.map_eq_some_iff.mp hsort with ⟨b, hb, hnan⟩
  have hzero := hall .float64 twoRows 0 _ b twoRows_wellFormed rfl rfl hb 0 (by decide)
  rw [hnan] at hzero
  cases hzero

end DegreeEncoder

end GraphAttention
