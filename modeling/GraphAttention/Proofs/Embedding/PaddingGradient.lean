import GraphAttention.Proofs.Coupling
import GraphAttention.Proofs.Embedding.Gradient
import GraphAttention.Proofs.Settings

/-!
# What Reaches the Buffer of a Table

Two gradients are handed back for the same rows and agree except at places whose row is
not looked at. Then so do the gradients of the table, row by row, and so do the buffers
after any number of further gradients, because a buffer is a sum taken element by
element. With the padding row as the one that is not looked at, this says that the
buffer does not depend on what is handed back for padding, the padding row itself
apart.

The padding row is the exception. What it receives is multiplied by zero, which leaves
zero of a number that is finite and nothing that is a number of any other. Once there
is no number in a place, sums do not bring one back. So it holds zeros, except in the
columns in which something was not finite.

## Main definitions

* `Embedding.AgreeAt`: Two gradients agree at the places of some rows.
* `Embedding.Silent`: An element is zero, or something was not finite.
* `Embedding.BuffersAgree`, `Embedding.GatheredAlike`: Buffers and tables that agree in
  some rows.
* `Embedding.LearnsAlike`, `Embedding.FiniteAt`: Operations that gather gradients.

## Theorems

* `received_congr`: A row that is looked at receives the same from both gradients.
* `Silent.add`, `silent_maskedEntry`: What is silent stays so.
* `sort_tableGradient_padding`: What a gradient has in the padding row.
* `tableGradient_congr`, `tableGradient_alike`: Gradients of tables agree.
* `BuffersAgree.add`, `accumulate_alike`: Buffers agree.
* `backward_couples`, `perform_couples`: Tables stay alike under an operation.
* `runAll_alike`: They do so under any number of steps.
-/

namespace GraphAttention

open GraphAttention.Action

namespace Embedding

open Tensor (ScatterFault)

variable {d : DType} {e e' : Embedding} {s : Settings} {keep exact : Nat → Prop}
  {rows : List Nat} {indices g g' b b' : Tensor} {dim : Nat}

/-- Two gradients of one kind and one shape agree at the places whose rows are looked
    at. -/
structure AgreeAt (d : DType) (dim : Nat) (rows : List Nat) (keep : Nat → Prop)
    (g g' : Tensor) : Prop where
  dtype : g.dtype = g'.dtype
  shape : g.shape = g'.shape
  item : ∀ k row j, rows[k]? = some row → keep row → j < dim →
    g.itemAt d (k * dim + j) = g'.itemAt d (k * dim + j)

/-- A row that is looked at receives the same from both. -/
theorem received_congr (h : AgreeAt d dim rows keep g g') {row j : Nat} (hkeep : keep row)
    (hj : j < dim) : received d dim rows g row j = received d dim rows g' row j := by
  refine scatterSum_congr rows 0 fun k hk => ?_
  rw [Nat.zero_add]
  exact h.item k row j hk hkeep hj

/-! ### Elements of the padding row -/

/-- An element is zero, or else it is not a number and something was not finite. -/
def Silent (d : DType) (exact : Prop) (x : d.Elem) : Prop :=
  d.sort x = .zero ∨ (¬ exact ∧ d.sort x = .notANumber)

theorem Silent.sort_eq {exact : Prop} {x : d.Elem} (h : Silent d exact x) (hexact : exact) :
    d.sort x = .zero :=
  h.resolve_right fun hnan => hnan.1 hexact

theorem Silent.add {exact : Prop} {x y : d.Elem} (hd : d.isFloat = true) (hx : Silent d exact x)
    (hy : Silent d exact y) : Silent d exact (x + y) := by
  rcases hx with hx | ⟨hexact, hx⟩
  · rcases hy with hy | ⟨hexact, hy⟩
    · exact .inl (DType.sort_zero_add_zero hd hx hy)
    · exact .inr ⟨hexact, DType.sort_add_notANumber hd (.inr hy)⟩
  · exact .inr ⟨hexact, DType.sort_add_notANumber hd (.inl hx)⟩

/-- Masking silences whatever the padding row receives. -/
theorem silent_maskedEntry {exact : Prop} (hd : d.isFloat = true) (row : Nat) (x : d.Elem)
    (h : exact → (d.sort x).isFinite = true) : Silent d exact (maskedEntry d (some row) row x) := by
  rw [Silent, sort_maskedEntry hd]
  by_cases hfinite : (d.sort x).isFinite = true
  · exact .inl (if_pos hfinite)
  · exact .inr ⟨fun hexact => hfinite (h hexact), if_neg hfinite⟩

/-! ### Buffers -/

/-- Two buffers for a table agree in the rows that are looked at, and the padding row of
    the first is silent. -/
structure BuffersAgree (d : DType) (s : Settings) (keep exact : Nat → Prop) (b b' : Tensor) :
    Prop where
  left : b.Matches d [s.numRows, s.dim]
  right : b'.Matches d [s.numRows, s.dim]
  entry : ∀ i j, i < s.numRows → j < s.dim → keep i → b.entry d [i, j] = b'.entry d [i, j]
  padding : ∀ row, s.paddingRow = some row → row < s.numRows → ∀ j, j < s.dim →
    Silent d (exact j) (b.entry d [row, j])

theorem BuffersAgree.add (hd : d.isFloat = true) (hb : BuffersAgree d s keep exact b b')
    (hg : BuffersAgree d s keep exact g g') :
    ∃ sum sum', b.add g = .ok sum ∧ b'.add g' = .ok sum' ∧
      BuffersAgree d s keep exact sum sum' := by
  rcases Tensor.add_ok hb.left hg.left with ⟨sum, hsum, hmatch, hentry⟩
  rcases Tensor.add_ok hb.right hg.right with ⟨sum', hsum', hmatch', hentry'⟩
  refine ⟨sum, sum', hsum, hsum', hmatch, hmatch', fun i j hi hj hkeep => ?_,
    fun row hrow hlt j hj => ?_⟩
  · rw [hentry [i, j] (by simp [hi, hj]), hentry' [i, j] (by simp [hi, hj]),
      hb.entry i j hi hj hkeep, hg.entry i j hi hj hkeep]
  · rw [hentry [row, j] (by simp [hlt, hj])]
    exact (hb.padding row hrow hlt j hj).add hd (hg.padding row hrow hlt j hj)

/-- Two tables of one size that are learned alike, with buffers that agree. -/
structure GatheredAlike (d : DType) (s : Settings) (keep exact : Nat → Prop)
    (e e' : Embedding) : Prop where
  settings : e.settings = s
  settings' : e'.settings = s
  wellFormed : e.WellFormed d
  wellFormed' : e'.WellFormed d
  requiresGrad : e'.weight.requiresGrad = e.weight.requiresGrad
  grad : Option.Rel (BuffersAgree d s keep exact) e.weight.grad e'.weight.grad

/-- The gradient of a table depends on its size and its kind only. -/
theorem tableGradient_congr (he : e.WellFormed d) (he' : e'.WellFormed d)
    (h : e.settings = e'.settings) : e.tableGradient = e'.tableGradient := by
  simp only [settings, Settings.mk.injEq] at h
  rcases h with ⟨hrows, hdim, hpadding⟩
  funext indices g
  rw [tableGradient, tableGradient, Parameter.shape, Parameter.shape, he.weight.dtype,
    he'.weight.dtype, he.weight.shape, he'.weight.shape, hrows, hdim, hpadding]

/-- From gradients that agree a table has gradients that agree, or it has neither, for the
    same reason. -/
theorem tableGradient_alike (he : e.WellFormed d) (hg : AgreeAt d e.dim indices.rowList keep g g')
    (hexact : ∀ row, e.paddingRow = some row → ∀ j, j < e.dim → exact j →
      (d.sort (received d e.dim indices.rowList g row j)).isFinite = true) :
    (∃ x, e.tableGradient indices g = .error x ∧ e.tableGradient indices g' = .error x) ∨
    ∃ r r', e.tableGradient indices g = .ok r ∧ e.tableGradient indices g' = .ok r' ∧
      BuffersAgree d e.settings keep exact r r' := by
  have hlike : g'.Matches g.dtype g.shape := ⟨hg.dtype.symm, hg.shape.symm⟩
  -- What is refused is refused for the kind and the shape of a gradient, not its elements.
  rcases tableGradient_cases he indices g.dtype g.shape with ⟨x, hfault⟩ | ⟨hkind, hall⟩
  · exact .inl ⟨x, tableGradient_error he ⟨rfl, rfl⟩ hfault, tableGradient_error he hlike hfault⟩
  · rw [hkind] at hlike
    rcases hall g ⟨hkind, rfl⟩ with ⟨r, hr, hmatch, hentry⟩
    rcases hall g' hlike with ⟨r', hr', hmatch', hentry'⟩
    refine .inr ⟨r, r', hr, hr', hmatch, hmatch', fun i j hi hj hkeep => ?_,
      fun row hrow hlt j hj => ?_⟩
    · rw [hentry i j hi hj, hentry' i j hi hj, received_congr hg hkeep hj]
    · have hpadding : e.paddingRow = some row := hrow
      rw [hentry row j hlt hj, hpadding]
      exact silent_maskedEntry he.isFloat row _ (hexact row hpadding j hj)

/-- In the padding row a gradient of the table has zero where what the row received is
    finite, and nothing that is a number elsewhere. -/
theorem sort_tableGradient_padding {p j : Nat} {r : Tensor} (he : e.WellFormed d)
    (hp : e.paddingRow = some p) (h : e.tableGradient indices g = .ok r) (hj : j < e.dim) :
    d.sort (r.entry d [p, j])
      = if (d.sort (received d e.dim indices.rowList g p j)).isFinite then .zero
        else .notANumber := by
  rcases tableGradient_cases he indices g.dtype g.shape with ⟨x, hfault⟩ | ⟨hkind, hall⟩
  · rw [tableGradient_error he ⟨rfl, rfl⟩ hfault] at h
    cases h
  · rcases hall g ⟨hkind, rfl⟩ with ⟨r', hr', -, hentry⟩
    rw [hr'] at h
    cases h
    rw [hentry p j (he.padding p hp).1 hj, hp, sort_maskedEntry he.isFloat]

/-- Tables stay alike when their buffers are replaced by buffers that agree. -/
theorem GatheredAlike.withGrad {grad grad' : Option Tensor} (h : GatheredAlike d s keep exact e e')
    (hgrad : Option.Rel (BuffersAgree d s keep exact) grad grad') :
    GatheredAlike d s keep exact { e with weight := { e.weight with grad := grad } }
      { e' with weight := { e'.weight with grad := grad' } } where
  settings := h.settings
  settings' := h.settings'
  wellFormed := ⟨h.wellFormed.isFloat, h.wellFormed.weight, h.wellFormed.padding⟩
  wellFormed' := ⟨h.wellFormed'.isFloat, h.wellFormed'.weight, h.wellFormed'.padding⟩
  requiresGrad := h.requiresGrad
  grad := hgrad

/-- A tensor of the kind and the size of a table fits its weight. -/
theorem WellFormed.fits (he : e.WellFormed d) (hsettings : e.settings = s)
    (hb : b.Matches d [s.numRows, s.dim]) : e.weight.Fits b := by
  subst hsettings
  exact he.fits_of_matches hb

/-- What agrees is gathered into buffers that agree. -/
theorem accumulate_alike (h : GatheredAlike d s keep exact e e')
    (hg : BuffersAgree d s keep exact g g') (enabled : Bool) :
    ∃ grad grad', Option.Rel (BuffersAgree d s keep exact) grad grad' ∧
      Parameter.accumulate g ⟨enabled, e.weight⟩
        = (.ok (), ⟨enabled, { e.weight with grad := grad }⟩) ∧
      Parameter.accumulate g' ⟨enabled, e'.weight⟩
        = (.ok (), ⟨enabled, { e'.weight with grad := grad' }⟩) := by
  have hfits := h.wellFormed.fits h.settings hg.left
  have hfits' := h.wellFormed'.fits h.settings' hg.right
  have hmode := congrArg (fun learned => learned && enabled) h.requiresGrad
  by_cases hlearned : (e.weight.requiresGrad && enabled) = true
  · have hlearned' := hmode.trans hlearned
    have hgrad := h.grad
    generalize hbuffer : e.weight.grad = buffer at hgrad
    generalize hbuffer' : e'.weight.grad = buffer' at hgrad
    cases hgrad with
    | none =>
      exact ⟨some g, some g', .some hg, Parameter.accumulate_first hfits hlearned hbuffer,
        Parameter.accumulate_first hfits' hlearned' hbuffer'⟩
    | some hb =>
      -- There is one sum each, and sums of what agrees agree.
      rcases Parameter.accumulate_again hfits hlearned hbuffer
        (h.wellFormed.fits h.settings hb.left) with ⟨sum, hsum, hrun⟩
      rcases Parameter.accumulate_again hfits' hlearned' hbuffer'
        (h.wellFormed'.fits h.settings' hb.right) with ⟨sum', hsum', hrun'⟩
      rcases hb.add h.wellFormed.isFloat hg with ⟨total, total', htotal, htotal', hagree⟩
      rw [hsum] at htotal
      rw [hsum'] at htotal'
      cases htotal
      cases htotal'
      exact ⟨some sum, some sum', .some hagree, hrun, hrun'⟩
  · -- Neither is learned, and both buffers stay what they are.
    rw [Bool.not_eq_true] at hlearned
    exact ⟨e.weight.grad, e'.weight.grad, h.grad, Parameter.accumulate_idle hfits hlearned,
      Parameter.accumulate_idle hfits' (hmode.trans hlearned)⟩

/-! ### Operations -/

/-- Tables that are alike stay so under gradients that agree. -/
theorem backward_couples (hg : AgreeAt d s.dim indices.rowList keep g g')
    (hexact : ∀ row, s.paddingRow = some row → ∀ j, j < s.dim → exact j →
      (d.sort (received d s.dim indices.rowList g row j)).isFinite = true) :
    Couples (backward indices g) (backward indices g')
      (Tracked.Beside (GatheredAlike d s keep exact)) := by
  intro t t' ht
  rcases t with ⟨enabled, e⟩
  rcases t' with ⟨enabled', e'⟩
  rcases ht with ⟨hmode, h⟩
  dsimp only at hmode h
  subst hmode
  have hsettings := h.settings
  subst hsettings
  have hcongr := tableGradient_congr h.wellFormed h.wellFormed' h.settings'.symm
  rcases tableGradient_alike h.wellFormed hg hexact with ⟨x, hx, hx'⟩ | ⟨r, r', hr, hr', hagree⟩
  · rw [hcongr] at hx'
    rw [backward_error hx, backward_error hx']
    exact ⟨rfl, rfl, h⟩
  · rw [hcongr] at hr'
    rcases accumulate_alike h hagree enabled with ⟨grad, grad', hgrad, hrun, hrun'⟩
    rw [backward_of_gradient hr, backward_of_gradient hr', hrun, hrun']
    exact ⟨rfl, rfl, h.withGrad hgrad⟩

/-- Operations that forget the gradient, or gather gradients for the same rows that agree
    in the rows that are looked at. -/
inductive LearnsAlike (d : DType) (dim : Nat) (keep : Nat → Prop) :
    ModuleOp Op → ModuleOp Op → Prop
  | zeroGrad : LearnsAlike d dim keep .zeroGrad .zeroGrad
  | backward {indices g g' : Tensor} (h : AgreeAt d dim indices.rowList keep g g') :
    LearnsAlike d dim keep (.own (.backward indices g)) (.own (.backward indices g'))

/-- What a row receives from an operation in a column is finite. -/
def FiniteAt (d : DType) (dim row j : Nat) : ModuleOp Op → Prop
  | .own (.backward indices g) => (d.sort (received d dim indices.rowList g row j)).isFinite = true
  | _ => True

theorem perform_couples {op op' : ModuleOp Op} (hop : LearnsAlike d s.dim keep op op')
    (hexact : ∀ row, s.paddingRow = some row → ∀ j, exact j → FiniteAt d s.dim row j op) :
    Couples (ModuleOp.perform perform op) (ModuleOp.perform perform op')
      (Tracked.Beside (GatheredAlike d s keep exact)) := by
  cases hop with
  | zeroGrad => exact fun t t' ht => ⟨rfl, ht.1, ht.2.withGrad .none⟩
  | backward hg =>
    -- What is answered is read off the state that the gradient leaves.
    refine Couples.bind (Couples.bind (Couples.mapError _ ?_) fun _ _ =>
      Couples.get_bind fun _ _ _ => couples_pure _ _) fun _ _ => couples_pure _ _
    exact backward_couples hg fun row hrow j _ hj => hexact row hrow j hj

/-- A table with nothing gathered is like itself. -/
theorem GatheredAlike.refl (he : e.WellFormed d) (hgrad : e.weight.grad = none) :
    GatheredAlike d e.settings keep exact e e where
  settings := rfl
  settings' := rfl
  wellFormed := he
  wellFormed' := he
  requiresGrad := rfl
  grad := by
    rw [hgrad]
    exact .none

/-- Two runs in which gradients agree but for the padding row leave a table with the same
    buffer but for the padding row, which is zero in every column in which all that it
    received was finite. -/
theorem runAll_alike {steps steps' : List (Script ModuleError (ModuleOp Op))} {p : Nat}
    (he : e.WellFormed d) (hp : e.paddingRow = some p) (hgrad : e.weight.grad = none)
    (hsteps : Script.AllAlike (LearnsAlike d e.dim (· ≠ p)) steps steps') :
    GatheredAlike d e.settings (· ≠ p)
      (fun j => ∀ op ∈ Script.allOps steps, FiniteAt d e.dim p j op)
      (ModuleOp.after perform steps e) (ModuleOp.after perform steps' e) := by
  have hfinite := hsteps.and_left (P := fun op => op ∈ Script.allOps steps) fun _ hop => hop
  refine (Script.runAll_couples _ (fun op op' hop => ?_) hfinite (Tracked.start e)
    (Tracked.start e) ⟨rfl, .refl he hgrad⟩).2
  refine perform_couples hop.1 fun row hrow j hj => ?_
  have hpadding : e.paddingRow = some row := hrow
  rw [hp] at hpadding
  cases hpadding
  exact hj op hop.2

end Embedding

end GraphAttention
