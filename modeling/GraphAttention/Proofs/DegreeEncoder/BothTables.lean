import GraphAttention.Proofs.Atomicity
import GraphAttention.Proofs.DegreeEncoder.Lookup
import GraphAttention.Proofs.DegreeEncoder.PaddingRow
import GraphAttention.Proofs.Embedding.Gradient

/-!
# Gradients for One Table and for Two

A gradient is gathered by a table or refused as a whole. It is refused while the gradient of
the table is computed, before anything is gathered, and what was computed is never refused
by the weight.

An encoder with two tables hands a gradient to one after the other, so a refusal of the
second would come after a change of the first. There is no such refusal. What scattering
rows is refused for are kinds and shapes and numbers that name no row. The tables of an
encoder have the same size, and the rows they are given are as many in both cases and exist,
so what the first table takes the second takes as well.

## Theorems

* `Tensor.ScatterFault.of_names`: Rows that exist are refused alike.
* `Embedding.backward_ok`, `Embedding.backward_atomicAt`: A gradient for one table.
* `Embedding.backward_ok_of`: What one table takes, another takes.
* `DegreeEncoder.backward_atomicAt`: A gradient for the tables of an encoder.
-/

namespace GraphAttention

open GraphAttention.Action

/-- If two lists of numbers have the same length and their numbers name rows, then rows that
    are refused for one are refused for the other. -/
theorem Tensor.ScatterFault.of_names {indices indices' : Tensor} {d d' : DType} {n : Nat}
    {s s' tail : Shape} {x : TensorError} (hi : indices.Matches .int64 s)
    (hi' : indices'.Matches .int64 s) (hnames : indices.Names n) (hnames' : indices'.Names n)
    (h : ScatterFault indices d n tail d' s' x) : ∃ y, ScatterFault indices' d n tail d' s' y := by
  rcases rowNumbers_ok hi'.dtype hnames' with ⟨rows', hrows'⟩
  have hlength : ∀ rows : List (Fin n), indices.rowNumbers n = .ok rows →
      rows.length = rows'.length := fun rows hrows =>
    (length_rowNumbers hi hrows).trans (length_rowNumbers hi' hrows').symm
  cases h with
  | kind h => exact ⟨_, .kind h⟩
  | numbers hkind h =>
    rcases rowNumbers_ok hi.dtype hnames with ⟨rows, hrows⟩
    rw [hrows] at h
    cases h
  | count hkind hrows h =>
    rw [hlength _ hrows] at h
    exact ⟨_, .count hkind hrows' h⟩
  | span hkind hrows hsize h =>
    rw [hlength _ hrows] at hsize h
    exact ⟨_, .span hkind hrows' hsize h⟩
  | byte hkind hrows hsize hspan h =>
    rw [hlength _ hrows] at hsize hspan
    exact ⟨_, .byte hkind hrows' hsize hspan h⟩

namespace Embedding

variable {d : DType} {e e' : Embedding} {indices indices' g r : Tensor} {enabled enabled' : Bool}

/-- A gradient of the table is gathered by its weight. -/
theorem backward_ok (he : e.WellFormed d) (hbuffer : e.weight.BufferFits)
    (h : e.tableGradient indices g = .ok r) : SucceedsAt (backward indices g) ⟨enabled, e⟩ := by
  have hfits : e.weight.Fits r := by
    rcases tableGradient_cases he indices g.dtype g.shape with ⟨x, hfault⟩ | ⟨hkind, hall⟩
    · rw [tableGradient_error he ⟨rfl, rfl⟩ hfault] at h
      cases h
    · rcases hall g ⟨hkind, rfl⟩ with ⟨r', hr', hmatch, -⟩
      rw [hr'] at h
      cases h
      exact he.fits_of_matches hmatch
  rcases Parameter.accumulate_fits hbuffer hfits enabled with ⟨grad, hrun, -⟩
  exact ⟨(), _, by rw [backward_of_gradient h, hrun]⟩

/-- A gradient is gathered, or the table is as it was. -/
theorem backward_atomicAt {s : Tracked Embedding} (he : s.value.WellFormed d)
    (hbuffer : s.value.weight.BufferFits) (indices g : Tensor) :
    AtomicAt (backward indices g) s := by
  rcases s with ⟨enabled, e⟩
  cases hgradient : e.tableGradient indices g with
  | error x => exact AtomicAt.of_error (backward_error hgradient)
  | ok r => exact (backward_ok he hbuffer hgradient).atomicAt

/-- What one table takes for some rows, another of the same size takes for as many. -/
theorem backward_ok_of {s : Shape} (he : e.WellFormed d) (he' : e'.WellFormed d)
    (hrows : e'.numRows = e.numRows) (hdim : e'.dim = e.dim) (hbuffer : e'.weight.BufferFits)
    (hi : indices.Matches .int64 s) (hi' : indices'.Matches .int64 s)
    (hnames : indices.Names e.numRows) (hnames' : indices'.Names e.numRows)
    (h : SucceedsAt (backward indices g) ⟨enabled, e⟩) :
    SucceedsAt (backward indices' g) ⟨enabled', e'⟩ := by
  rcases tableGradient_cases he' indices' g.dtype g.shape with ⟨x, hfault⟩ | ⟨hkind, hall⟩
  · -- The first table would have refused the gradient as well.
    rw [hrows, hdim] at hfault
    rcases hfault.of_names hi' hi hnames' hnames with ⟨y, hfault'⟩
    rcases h with ⟨_, _, hrun⟩
    rw [backward_error (tableGradient_error he ⟨rfl, rfl⟩ hfault')] at hrun
    cases hrun
  · rcases hall g ⟨hkind, rfl⟩ with ⟨r, hr, -, -⟩
    exact backward_ok he' hbuffer hr

theorem perform_atomicAt {s : Tracked Embedding} (he : s.value.WellFormed d)
    (hbuffer : s.value.weight.BufferFits) (op : Op) : AtomicAt (perform op) s := by
  cases op with
  | forward indices => exact atomicAt_computed _ _ s
  | forwardShape indices => exact atomicAt_computed _ _ s
  | backward indices g =>
    exact AtomicAt.bind (AtomicAt.mapError _ (backward_atomicAt he hbuffer indices g))
      fun _ s' _ => succeedsAt_get _ s'

end Embedding

namespace DegreeTables

variable {tables : DegreeTables} {side : EdgeEnd} {t : Embedding}

/-- Putting a table back where it was changes nothing. -/
theorem withAt_self (h : tables.at? side = some t) : tables.withAt side t = tables := by
  cases side <;> cases tables <;> cases h <;> rfl

end DegreeTables

namespace DegreeEncoder

variable {c : DegreeConfig} {s : Tracked DegreeEncoder} {side : EdgeEnd}
  {act : Action (Tracked Embedding) TensorError Unit}

theorem onSide_atomicAt
    (h : ∀ t, s.value.tables.at? side = some t → AtomicAt act ⟨s.gradEnabled, t⟩) :
    AtomicAt (onSide side act) s := by
  cases ht : s.value.tables.at? side with
  | none => exact SucceedsAt.atomicAt ⟨_, _, onSide_none ht⟩
  | some t =>
    intro e s' hfail
    rw [onSide_some ht] at hfail
    rcases hact : act ⟨s.gradEnabled, t⟩ with ⟨e' | _, part⟩
    · rw [hact] at hfail
      cases hfail
      rw [h t ht e' part hact]
      dsimp only
      rw [DegreeTables.withAt_self ht]
    · rw [hact] at hfail
      cases hfail

theorem onSide_succeedsAt
    (h : ∀ t, s.value.tables.at? side = some t → SucceedsAt act ⟨s.gradEnabled, t⟩) :
    SucceedsAt (onSide side act) s := by
  cases ht : s.value.tables.at? side with
  | none => exact ⟨_, _, onSide_none ht⟩
  | some t =>
    rcases h t ht with ⟨_, part, hact⟩
    exact ⟨(), _, by rw [onSide_some ht, hact]; rfl⟩

/-- A gradient of the vectors is gathered by every table, or the encoder is as it was. -/
theorem backward_atomicAt (h : Follows c s.value)
    (hbuffers : Module.Each Parameter.BufferFits s.value) (graph : TypedGraph) (g : Tensor) :
    AtomicAt (backward graph g) s := by
  have hlargest := h.maxDegree_lt
  have htables := each_iff.mp hbuffers
  have honSide : ∀ side indices, AtomicAt (onSide side (Embedding.backward indices g)) s :=
    fun side indices => onSide_atomicAt fun t ht =>
      Embedding.backward_atomicAt (h.table side t ht).wellFormed (htables side t ht) indices g
  refine AtomicAt.get_bind (AtomicAt.attempt_bind ?_)
  rintro ⟨entering, leaving⟩ hdegrees
  rw [← h.maxDegree] at hlargest
  have hlist := clampedDegrees_rows hlargest hdegrees
  rw [h.maxDegree] at hlargest hlist
  change AtomicAt (onSide .target (Embedding.backward entering g) >>= fun _ =>
    onSide .source (Embedding.backward leaving g)) s
  cases ht : s.value.tables.at? .target with
  | none =>
    -- Without a first table the second is the only one.
    intro e s' hfail
    rw [bind_ok (onSide_none ht)] at hfail
    exact honSide .source leaving e s' hfail
  | some t =>
    refine (honSide .target entering).bind fun _ s' hrun => onSide_succeedsAt fun u hu => ?_
    rw [onSide_some ht] at hrun
    have htaken : SucceedsAt (Embedding.backward entering g) ⟨s.gradEnabled, t⟩ := by
      rcases hact : Embedding.backward entering g ⟨s.gradEnabled, t⟩ with ⟨e | _, part⟩
      · rw [hact] at hrun
        cases hrun
      · exact ⟨_, part, hact⟩
    -- The second table is the one from before the first was changed.
    obtain rfl := (Prod.mk.inj hrun).2
    rw [DegreeTables.at?_withAt ht] at hu
    have hin := h.table .target t ht
    have hout := h.table .source u hu
    refine Embedding.backward_ok_of hin.wellFormed hout.wellFormed
      (hout.numRows.trans hin.numRows.symm) (hout.dim.trans hin.dim.symm) (htables .source u hu)
      hlist.1.layout hlist.2.layout ?_ ?_ htaken
    · rw [hin.numRows]
      exact hlist.1.names hlargest
    · rw [hin.numRows]
      exact hlist.2.names hlargest

theorem perform_atomicAt (h : Follows c s.value)
    (hbuffers : Module.Each Parameter.BufferFits s.value) (op : Op) :
    AtomicAt (perform op) s := by
  cases op with
  | forward graph => exact atomicAt_computed _ _ s
  | clampedDegrees graph => exact atomicAt_computed _ _ s
  | backward graph g =>
    exact AtomicAt.bind (backward_atomicAt h hbuffers graph g) fun _ s' _ => succeedsAt_get _ s'

end DegreeEncoder

end GraphAttention
