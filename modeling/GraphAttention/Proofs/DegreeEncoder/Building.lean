import GraphAttention.DegreeEncoder
import GraphAttention.Proofs.Embedding.Table
import GraphAttention.Proofs.Graph.Reachable
import GraphAttention.Proofs.Operations

/-!
# Encoders as They Are Built and Used

An encoder that is built has one table or two, each with a row for every degree up
to the largest one, and the first row is the padding row. Whatever is done to it
afterwards, it keeps its settings and the sizes of its tables, so what is proved of an
encoder that follows its settings holds of one that was trained, loaded and frozen in
any order, and of one on which such work failed.

The two tables belong to the two ends of an edge, and what is said of a table is
said for an end. `DegreeTables.at?` finds the table of an end and `onSide` works on it,
so that a statement about both is made once.

## Main definitions

* `DegreeTables.at?`, `DegreeTables.withAt`, `DegreeEncoder.onSide`: The table of an end.
* `DegreeTables.All`: Something is true of every table.
* `DegreeEncoder.Follows`: An encoder has the sizes and kinds of its settings.
* `DegreeEncoder.Reached`: An encoder was built from settings and then worked on.

## Theorems

* `DegreeConfig.validate_ok`: What accepted settings satisfy.
* `build_tables`, `build_yields`, `build_zeroRow`, `build_ok`: Encoders as they are built.
* `onSide_keeps`, `backward_keeps`, `perform_keeps`: What work on an encoder keeps.
* `follows_stable`, `onSide_follows`, `perform_follows`: Encoders keep following their settings.
* `Reached.follows`: What is true of an encoder after any amount of work.
-/

namespace GraphAttention

open GraphAttention.Action

/-- Accepted settings ask for vectors of some length and a floating kind. -/
theorem DegreeConfig.validate_ok {c : DegreeConfig} (h : c.validate = .ok ()) :
    0 < c.embeddingDim ∧ c.dtype.isFloat = true := by
  unfold DegreeConfig.validate at h
  by_cases hdim : c.embeddingDim = 0
  · rw [if_pos hdim] at h
    cases h
  · rw [if_neg hdim] at h
    by_cases hfloat : c.dtype.isFloat
    · exact ⟨by omega, hfloat⟩
    · rw [requireFloatParameters, if_neg hfloat] at h
      cases h

namespace DegreeTables

variable {P : Embedding → Prop} {tables : DegreeTables} {side : EdgeEnd} {t t' : Embedding}

/-- The table for the degrees at one end of the edges, if there is one. -/
def at? (side : EdgeEnd) (tables : DegreeTables) : Option Embedding :=
  side.pick tables.outgoing? tables.incoming?

/-- The tables with another one for one end, where there is one. -/
def withAt (side : EdgeEnd) (table : Embedding) (tables : DegreeTables) : DegreeTables :=
  side.pick (tables.withOutgoing table) (tables.withIncoming table)

/-- Something is true of every table. -/
def All (P : Embedding → Prop) (tables : DegreeTables) : Prop :=
  ∀ side t, tables.at? side = some t → P t

@[simp] theorem direction_withAt : (tables.withAt side t).direction = tables.direction := by
  cases side <;> cases tables <;> rfl

/-- Replacing the table of an end leaves the other end alone. -/
theorem at?_withAt (h : tables.at? side = some t) (side' : EdgeEnd) :
    (tables.withAt side t').at? side' = if side' = side then some t' else tables.at? side' := by
  cases side <;> cases side' <;> cases tables <;> first | rfl | cases h

theorem All.withAt (hall : tables.All P) (h : tables.at? side = some t) (ht' : P t') :
    (tables.withAt side t').All P := by
  intro side' u hu
  rw [at?_withAt h] at hu
  by_cases hside : side' = side
  · rw [if_pos hside] at hu
    cases hu
    exact ht'
  · rw [if_neg hside] at hu
    exact hall side' u hu

@[simp] theorem all_incoming : (incoming t).All P ↔ P t := by
  refine ⟨fun h => h .target t rfl, fun h side u hu => ?_⟩
  cases side <;> cases hu
  exact h

@[simp] theorem all_outgoing : (outgoing t).All P ↔ P t := by
  refine ⟨fun h => h .source t rfl, fun h side u hu => ?_⟩
  cases side <;> cases hu
  exact h

@[simp] theorem all_both : (both t t').All P ↔ P t ∧ P t' := by
  refine ⟨fun h => ⟨h .target t rfl, h .source t' rfl⟩, fun h side u hu => ?_⟩
  cases side <;> cases hu
  · exact h.2
  · exact h.1

end DegreeTables

namespace DegreeEncoder

variable {G : Type} [NormalSource G] {c : DegreeConfig} {e : DegreeEncoder} {t t' : Embedding}

/-- A table of the kind and the sizes of some settings, whose first row is the padding
    row. -/
structure Suits (c : DegreeConfig) (t : Embedding) : Prop where
  wellFormed : t.WellFormed c.dtype
  numRows : t.numRows = c.maxDegree + 1
  dim : t.dim = c.embeddingDim
  paddingRow : t.paddingRow = some 0

/-- An encoder has the sizes and kinds of its settings. -/
structure Follows (c : DegreeConfig) (e : DegreeEncoder) : Prop where
  maxDegree : e.maxDegree = c.maxDegree
  embeddingDim : e.embeddingDim = c.embeddingDim
  direction : e.tables.direction = c.direction
  table : e.tables.All (Suits c)

theorem Suits.weight (h : Suits c t) :
    t.weight.data.Matches c.dtype [c.maxDegree + 1, c.embeddingDim] := by
  have hweight := h.wellFormed.weight
  rwa [h.numRows, h.dim] at hweight

/-- A table stays suited when its data is replaced by data of its kind and shape. -/
theorem Suits.withWeight (h : Suits c t) {p : Parameter}
    (hp : p.data.dtype = t.weight.data.dtype ∧ p.shape = t.weight.shape) :
    Suits c { t with weight := p } := by
  have hweight := h.wellFormed.weight
  exact ⟨{ h.wellFormed with
    weight := ⟨hp.1.trans hweight.dtype, hp.2.trans hweight.shape⟩ }, h.numRows, h.dim,
    h.paddingRow⟩

/-- There is a table at one end or the other. -/
theorem Follows.exists_suits (h : Follows c e) : ∃ t, Suits c t := by
  rcases e with ⟨m, n, t | t | ⟨t, u⟩⟩
  · exact ⟨t, h.table .target t rfl⟩
  · exact ⟨t, h.table .source t rfl⟩
  · exact ⟨t, h.table .target t rfl⟩

/-- There are as many rows as fit. -/
theorem Follows.fits (h : Follows c e) : Shape.Fits 8 [c.maxDegree + 1] := by
  rcases h.exists_suits with ⟨t, ht⟩
  rw [← ht.numRows]
  exact (ht.wellFormed.padding 0 ht.paddingRow).2

theorem Follows.dim_le (h : Follows c e) : c.embeddingDim ≤ Shape.maxSpan := by
  rcases h.exists_suits with ⟨t, ht⟩
  exact Nat.le_trans (Shape.le_span (by simp)) ht.weight.room.1.1

/-! ### Building -/

/-- The tables of an encoder are built in one way, so what is true of a table that is built
    so is true of all of them. -/
theorem build_tables (c : DegreeConfig) {P : Embedding → Prop}
    (htable : Yields (Embedding.build (c.maxDegree + 1) c.embeddingDim (some 0) c.dtype :
      Action G ModuleError Embedding) P) :
    Yields (build c : Action G ModuleError DegreeEncoder) fun e =>
      c.validate = .ok () ∧ e.maxDegree = c.maxDegree ∧ e.embeddingDim = c.embeddingDim ∧
        e.tables.direction = c.direction ∧ e.tables.All P := by
  unfold build
  refine Yields.bind (R := fun _ => c.validate = .ok ()) (yields_attempt fun _ h => h) ?_
  intro _ hc
  -- However many tables are drawn, the encoder is put together from them in one way.
  have hfinish : ∀ tables : DegreeTables, tables.direction = c.direction → tables.All P →
      Yields (pure ⟨c.maxDegree, c.embeddingDim, tables⟩ : Action G ModuleError DegreeEncoder)
        fun e => c.validate = .ok () ∧ e.maxDegree = c.maxDegree ∧
          e.embeddingDim = c.embeddingDim ∧ e.tables.direction = c.direction ∧ e.tables.All P :=
    fun tables hdirection hall => yields_pure ⟨hc, rfl, rfl, hdirection, hall⟩
  cases hdirection : c.direction with
  | incoming =>
    refine Yields.bind (R := fun tables => ∃ t, tables = .incoming t ∧ P t) ?_ ?_
    · exact Yields.bind htable fun t ht => yields_pure ⟨t, rfl, ht⟩
    · rintro _ ⟨t, rfl, ht⟩
      rw [hdirection] at hfinish
      exact hfinish _ rfl (DegreeTables.all_incoming.mpr ht)
  | outgoing =>
    refine Yields.bind (R := fun tables => ∃ t, tables = .outgoing t ∧ P t) ?_ ?_
    · exact Yields.bind htable fun t ht => yields_pure ⟨t, rfl, ht⟩
    · rintro _ ⟨t, rfl, ht⟩
      rw [hdirection] at hfinish
      exact hfinish _ rfl (DegreeTables.all_outgoing.mpr ht)
  | both =>
    rw [hdirection] at hfinish
    exact Yields.bind htable fun t ht => Yields.bind htable fun u hu =>
      hfinish _ rfl (DegreeTables.all_both.mpr ⟨ht, hu⟩)

/-- What is built follows its settings, which were accepted, and nothing is gathered yet. -/
theorem build_yields (c : DegreeConfig) :
    Yields (build c : Action G ModuleError DegreeEncoder) fun e =>
      c.validate = .ok () ∧ Follows c e ∧ e.tables.All fun t => t.weight.grad = none := by
  have htable : Yields (Embedding.build (c.maxDegree + 1) c.embeddingDim (some 0) c.dtype :
      Action G ModuleError Embedding) fun t => Suits c t ∧ t.weight.grad = none := by
    intro g t g' hrun
    rcases Embedding.build_yields _ _ _ _ g t g' hrun with ⟨weight, rfl, hwell⟩
    exact ⟨⟨hwell, rfl, rfl, rfl⟩, rfl⟩
  intro g e g' hrun
  rcases build_tables c htable g e g' hrun with ⟨hc, hmax, hdim, hdirection, hall⟩
  exact ⟨hc, ⟨hmax, hdim, hdirection, fun side t h => (hall side t h).1⟩,
    fun side t h => (hall side t h).2⟩

/-- Where samples are finite, padding rows are zero to begin with. -/
theorem build_zeroRow (hsamples : NormalSource.Finite G) (c : DegreeConfig) :
    Yields (build c : Action G ModuleError DegreeEncoder) fun e =>
      e.tables.All fun t => t.weight.data.ZeroRow c.dtype 0 c.embeddingDim := by
  have htable : Yields (Embedding.build (c.maxDegree + 1) c.embeddingDim (some 0) c.dtype :
      Action G ModuleError Embedding) fun t => t.weight.data.ZeroRow c.dtype 0 c.embeddingDim :=
    fun g t g' hrun => Embedding.build_zeroRow hsamples _ _ _ _ g t g' hrun 0 rfl
  exact fun g e g' hrun => (build_tables c htable g e g' hrun).2.2.2.2

/-- An encoder is built from accepted settings where there is room for a table. -/
theorem build_ok (hc : c.validate = .ok ()) (hfits : Shape.Fits 8 [c.maxDegree + 1])
    (hgather : Shape.Fits 8 [c.maxDegree + 1, c.embeddingDim])
    (room : Shape.Allocatable c.dtype.width [c.maxDegree + 1, c.embeddingDim]) (g : G) :
    ∃ e g', build c g = (.ok e, g') := by
  have htable := Embedding.build_ok (G := G) (DegreeConfig.validate_ok hc).2
    (fun row (h : some 0 = some row) => by cases h; omega) hfits hgather room
  rcases htable g with ⟨t, g', ht⟩
  rcases htable g' with ⟨u, g'', hu⟩
  cases hdirection : c.direction with
  | incoming =>
    refine ⟨⟨c.maxDegree, c.embeddingDim, .incoming t⟩, g', ?_⟩
    simp only [build, run_bind, run_attempt, hc, hdirection, map_eq_pure_bind, ht, run_pure]
  | outgoing =>
    refine ⟨⟨c.maxDegree, c.embeddingDim, .outgoing t⟩, g', ?_⟩
    simp only [build, run_bind, run_attempt, hc, hdirection, map_eq_pure_bind, ht, run_pure]
  | both =>
    refine ⟨⟨c.maxDegree, c.embeddingDim, .both t u⟩, g'', ?_⟩
    simp only [build, run_bind, run_attempt, hc, hdirection, ht, hu, run_pure]

/-! ### Work on an encoder -/

section Working

variable {side : EdgeEnd} {act : Action (Tracked Embedding) TensorError Unit}
  {s : Tracked DegreeEncoder}

/-- Work on the table of one end, if there is one. -/
def onSide (side : EdgeEnd) (act : Action (Tracked Embedding) TensorError Unit) :
    Action (Tracked DegreeEncoder) ModuleError Unit :=
  side.pick (onOutgoing act) (onIncoming act)

theorem onSide_none (h : s.value.tables.at? side = none) : onSide side act s = (.ok (), s) := by
  rcases s with ⟨enabled, m, n, tables⟩
  cases side <;> cases tables <;> first | rfl | cases h

/-- The table is worked on under the mode of the encoder and then put back. -/
theorem onSide_some (h : s.value.tables.at? side = some t) :
    onSide side act s = ((act ⟨s.gradEnabled, t⟩).1.mapError .tensor,
      ⟨(act ⟨s.gradEnabled, t⟩).2.gradEnabled, { s.value with
        tables := s.value.tables.withAt side (act ⟨s.gradEnabled, t⟩).2.value }⟩) := by
  rcases s with ⟨enabled, m, n, tables⟩
  cases side <;> cases tables <;> cases h <;> rfl

theorem onSide_keeps {P : DegreeEncoder → Prop} {Q : Embedding → Prop}
    (hact : Keeps act fun t => Q t.value)
    (hread : ∀ e t, P e → e.tables.at? side = some t → Q t)
    (hwrite : ∀ e t t', P e → e.tables.at? side = some t → Q t' →
      P { e with tables := e.tables.withAt side t' }) :
    Keeps (onSide side act) fun s => P s.value := by
  intro s hs
  cases ht : s.value.tables.at? side with
  | none =>
    rw [onSide_none ht]
    exact hs
  | some t =>
    rw [onSide_some ht]
    exact hwrite s.value t _ hs ht (hact _ (hread s.value t hs ht))

/-- What work on either table keeps, a gradient of the vectors keeps as well. -/
theorem backward_keeps {P : DegreeEncoder → Prop} (graph : TypedGraph) (g : Tensor)
    (h : ∀ side indices, Keeps (onSide side (Embedding.backward indices g)) fun s => P s.value) :
    Keeps (backward graph g) fun s => P s.value :=
  Keeps.get_bind fun _ _ => Keeps.bind (keeps_attempt _) fun degrees =>
    Keeps.bind (h .target degrees.1) fun _ => h .source degrees.2

/-- The operations of an encoder's own, other than a gradient, change nothing. -/
theorem perform_keeps {P : DegreeEncoder → Prop}
    (h : ∀ graph g, Keeps (backward graph g) fun s => P s.value) (op : Op) :
    Keeps (perform op) fun s => P s.value := by
  cases op with
  | forward graph => exact keeps_computed _ _
  | clampedDegrees graph => exact keeps_computed _ _
  | backward graph g =>
    exact Keeps.bind (h graph g) fun _ => keeps_get _

end Working

/-- Neither other data nor the mode of training stops an encoder from following its
    settings. -/
theorem follows_stable (c : DegreeConfig) : Module.Stable (Follows c) where
  withParameters := by
    intro ps e h hps
    rcases e with ⟨m, n, t | t | ⟨t, u⟩⟩
    · rcases hps with _ | ⟨hp, _ | _⟩
      have htable := (h.table .target t rfl).withWeight hp
      exact ⟨h.maxDegree, h.embeddingDim, h.direction, DegreeTables.all_incoming.mpr htable⟩
    · rcases hps with _ | ⟨hp, _ | _⟩
      have htable := (h.table .source t rfl).withWeight hp
      exact ⟨h.maxDegree, h.embeddingDim, h.direction, DegreeTables.all_outgoing.mpr htable⟩
    · rcases hps with _ | ⟨hp, _ | ⟨hq, _ | _⟩⟩
      have hin := (h.table .target t rfl).withWeight hp
      have hout := (h.table .source u rfl).withWeight hq
      exact ⟨h.maxDegree, h.embeddingDim, h.direction, DegreeTables.all_both.mpr ⟨hin, hout⟩⟩
  setTraining := fun _ _ h => h

/-- Nor does a gradient for the table of one end. -/
theorem onSide_follows (side : EdgeEnd) (indices g : Tensor) :
    Keeps (onSide side (Embedding.backward indices g)) fun s => Follows c s.value := by
  refine onSide_keeps (Q := Suits c) ?_ (fun e t h ht => h.table side t ht) ?_
  · -- Of a table only the weight changes, which keeps its kind and shape.
    refine Embedding.backward_keeps (Q := fun p => p.data.dtype = c.dtype ∧
      p.shape = [c.maxDegree + 1, c.embeddingDim])
      (fun gradient => Parameter.accumulate_keeps gradient _ _) ?_ ?_ indices g
    · exact fun t ht => ⟨ht.weight.dtype, ht.weight.shape⟩
    · exact fun t p ht hp => ht.withWeight
        ⟨hp.1.trans ht.weight.dtype.symm, hp.2.trans ht.weight.shape.symm⟩
  · intro e t t' h ht ht'
    refine ⟨h.maxDegree, h.embeddingDim, ?_, h.table.withAt ht ht'⟩
    rw [DegreeTables.direction_withAt]
    exact h.direction

/-- Nor does any operation of its own. -/
theorem perform_follows (op : Op) : Keeps (perform op) fun s => Follows c s.value :=
  perform_keeps (fun graph g => backward_keeps graph g fun side indices =>
    onSide_follows side indices g) op

/-- An encoder was built from settings and then worked on by some steps, of which any
    may have failed. -/
def Reached (G : Type) [NormalSource G] (c : DegreeConfig) (e : DegreeEncoder) : Prop :=
  ∃ (g g' : G) (new : DegreeEncoder) (steps : List (Script ModuleError (ModuleOp Op))),
    build c g = (.ok new, g') ∧
      e = (Script.runAll ModuleError.isFatal (ModuleOp.perform perform) steps
        (Tracked.start new)).2.value

/-- A new encoder is one that was reached, by no steps. -/
theorem Reached.of_build {g g' : G} (h : build c g = (.ok e, g')) : Reached G c e :=
  ⟨g, g', e, [], h, rfl⟩

/-- Work on an encoder leaves it following its settings, and these were accepted. -/
theorem Reached.follows (h : Reached G c e) : c.validate = .ok () ∧ Follows c e := by
  rcases h with ⟨g, g', new, steps, hbuild, rfl⟩
  rcases build_yields c g new g' hbuild with ⟨hc, hnew, -⟩
  have hkept := ModuleOp.perform_keeps (follows_stable c) (perform_follows (c := c))
  exact ⟨hc, Script.runAll_keeps (P := Follows c) _ steps (fun op _ => hkept op) _ hnew⟩

end DegreeEncoder

end GraphAttention
