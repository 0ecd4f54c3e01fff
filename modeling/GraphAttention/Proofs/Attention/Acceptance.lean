import GraphAttention.Proofs.Attention.Forward
import GraphAttention.Proofs.Attention.Reached
import GraphAttention.Proofs.Dropout

/-!
# What an Attention Module Accepts

Inputs are accepted when features, bias and mask have the shapes and kinds that go
with the module, and refused by the first of a few conditions that fails: the
number of axes of the features, their width, their kind, the shape of the bias,
its kind, the shape of the mask. There is nothing else to refuse them for. The
stages in between reshape, reorder, multiply and normalize, and every one of these
operations has a refusal of its own, but none of them is ever met.

The conditions are not asked in one place. The width and the kind of the features
are asked by the first projection, the kind of the bias by the addition that it
goes into, and the rest by the module, so that the order is a result and not
something that can be read off a list of checks.

Room is the one thing that is assumed. The scores of all heads may be too large
for a buffer where the features are not, and then there is a refusal of another
sort.

## Main definitions

* `Attention.Accepts`: Inputs of the right shapes and kinds.
* `Attention.Refuses`: The first condition that inputs do not satisfy.
* `Attention.Roomy`: There is room for the scores, and for drawing over them.

## Theorems

* `accepts_or_refuses`: Inputs that are not accepted have a reason.
* `project_width`, `project_kind`: What the projections refuse.
* `attend_refused`, `attend_accepted`: The module on either sort of inputs.
* `forward_outcome`: When a module succeeds and what it reports when not.
-/

namespace GraphAttention

open GraphAttention.Action

namespace Attention

/-- Features for a number of items and nodes, with a bias and a mask that go with
    them. -/
structure Accepts (a : Attention) (batch n : Nat) (x : Tensor) (bias mask : Option Tensor) :
    Prop where
  features : x.Matches a.dtype [batch, n, a.featSize]
  bias : ∀ t, bias = some t → t.Matches a.dtype [batch, n, n, a.numHeads]
  mask : ∀ m, mask = some m → m.shape = [batch, n, n]

/-- The reason for which inputs are refused. Each case says that the conditions
    before it hold. -/
inductive Refuses (a : Attention) (x : Tensor) (bias mask : Option Tensor) : ModuleError → Prop
  | rank (h : x.shape.length ≠ 3) : Refuses a x bias mask (.featureRank x.shape)
  | width {batch n f : Nat} (hx : x.shape = [batch, n, f]) (h : f ≠ a.featSize) :
    Refuses a x bias mask (.tensor (.shapeMismatch [batch, n, a.featSize] [batch, n, f]))
  | kind {batch n : Nat} (hx : x.shape = [batch, n, a.featSize]) (h : x.dtype ≠ a.dtype) :
    Refuses a x bias mask (.tensor (.typeMismatch x.dtype a.dtype))
  | biasShape {batch n : Nat} {t : Tensor} (hx : x.Matches a.dtype [batch, n, a.featSize])
    (ht : bias = some t) (h : t.shape ≠ [batch, n, n, a.numHeads]) :
    Refuses a x bias mask (.tensor (.shapeMismatch [batch, n, n, a.numHeads] t.shape))
  | biasKind {batch n : Nat} {t : Tensor} (hx : x.Matches a.dtype [batch, n, a.featSize])
    (ht : bias = some t) (hshape : t.shape = [batch, n, n, a.numHeads]) (h : t.dtype ≠ a.dtype) :
    Refuses a x bias mask (.tensor (.typeMismatch a.dtype t.dtype))
  | maskShape {batch n : Nat} {m : Tensor} (hx : x.Matches a.dtype [batch, n, a.featSize])
    (hbias : ∀ t, bias = some t → t.Matches a.dtype [batch, n, n, a.numHeads])
    (hm : mask = some m) (h : m.shape ≠ [batch, n, n]) :
    Refuses a x bias mask (.tensor (.shapeMismatch [batch, n, n] m.shape))

/-- There is room for the scores of all heads in elements of some bytes, if the
    features are such that there are scores. -/
def Roomy (a : Attention) (width : Nat) (x : Tensor) : Prop :=
  ∀ batch n, x.Matches a.dtype [batch, n, a.featSize] →
    Shape.Allocatable width [batch, a.numHeads, n, n]

variable {G : Type} [WordSource G] {c : AttentionConfig} {a : Attention} {batch n : Nat}
  {x : Tensor} {bias mask : Option Tensor} {e : ModuleError}

theorem bias_fits_or_refused (mask : Option Tensor)
    (hx : x.Matches a.dtype [batch, n, a.featSize]) :
    (∀ t, bias = some t → t.Matches a.dtype [batch, n, n, a.numHeads]) ∨
      ∃ e, a.Refuses x bias mask e := by
  cases bias with
  | none => exact .inl fun t ht => by cases ht
  | some t =>
    by_cases hshape : t.shape = [batch, n, n, a.numHeads]
    · by_cases hkind : t.dtype = a.dtype
      · refine .inl fun u hu => ?_
        cases hu
        exact ⟨hkind, hshape⟩
      · exact .inr ⟨_, .biasKind hx rfl hshape hkind⟩
    · exact .inr ⟨_, .biasShape hx rfl hshape⟩

theorem mask_fits_or_refused (hx : x.Matches a.dtype [batch, n, a.featSize])
    (hbias : ∀ t, bias = some t → t.Matches a.dtype [batch, n, n, a.numHeads]) :
    (∀ m, mask = some m → m.shape = [batch, n, n]) ∨ ∃ e, a.Refuses x bias mask e := by
  cases mask with
  | none => exact .inl fun m hm => by cases hm
  | some m =>
    by_cases hshape : m.shape = [batch, n, n]
    · refine .inl fun m' hm' => ?_
      cases hm'
      exact hshape
    · exact .inr ⟨_, .maskShape hx hbias rfl hshape⟩

/-- Inputs that are not accepted have a reason for which they are not. -/
theorem accepts_or_refuses (a : Attention) (x : Tensor) (bias mask : Option Tensor) :
    (∃ batch n, a.Accepts batch n x bias mask) ∨ ∃ e, a.Refuses x bias mask e := by
  rcases hshape : x.shape with _ | ⟨batch, _ | ⟨n, _ | ⟨f, _ | ⟨k, rest⟩⟩⟩⟩
  case cons.cons.cons.nil =>
    by_cases hf : f = a.featSize
    · subst hf
      by_cases hkind : x.dtype = a.dtype
      · have hx : x.Matches a.dtype [batch, n, a.featSize] := ⟨hkind, hshape⟩
        rcases bias_fits_or_refused mask hx with hbias | hrefused
        · rcases mask_fits_or_refused hx hbias with hmask | hrefused
          · exact .inl ⟨batch, n, hx, hbias, hmask⟩
          · exact .inr hrefused
        · exact .inr hrefused
      · exact .inr ⟨_, .kind hshape hkind⟩
    · exact .inr ⟨_, .width hshape hf⟩
  all_goals exact .inr ⟨_, .rank (by simp [hshape])⟩

/-! ### Refusals -/

theorem WellFormed.query_pos (ha : a.WellFormed) :
    a.query.WellFormed a.dtype ∧ a.query.inFeatures = a.featSize ∧ 0 < a.featSize := by
  rcases ha.projection a.query (by simp [projections]) with ⟨hwell, hin, -⟩
  refine ⟨hwell, hin, ?_⟩
  rw [ha.featSize_eq]
  exact Nat.mul_pos ha.heads_pos ha.headDim_pos

/-- Features of another width are refused by the first projection. -/
theorem project_width (ha : a.WellFormed) {f : Nat} (hx : x.shape = [batch, n, f])
    (h : f ≠ a.featSize) :
    a.project batch n x = .error (.shapeMismatch [batch, n, a.featSize] [batch, n, f]) := by
  have hlast : x.shape.getLast? ≠ some a.query.inFeatures := by
    rw [hx, ha.query_pos.2.1]
    exact fun heq => h (Option.some.inj heq)
  have hforward := Linear.forward_width hlast
  rw [hx, ha.query_pos.2.1] at hforward
  simp only [project, hforward, bind, Except.bind]
  rfl

/-- Features of another kind are refused by the first projection, when it
    multiplies. -/
theorem project_kind (ha : a.WellFormed) (hx : x.shape = [batch, n, a.featSize])
    (h : x.dtype ≠ a.dtype) : a.project batch n x = .error (.typeMismatch x.dtype a.dtype) := by
  rcases ha.query_pos with ⟨hwell, hin, hpos⟩
  have hforward := Linear.forward_kind hwell (hin.symm ▸ hpos) [batch, n]
    (hin.symm ▸ hx) h
  simp only [project, hforward, bind, Except.bind]

theorem attend_project_error {f : Nat} {e : TensorError} (hx : x.shape = [batch, n, f])
    (h : a.project batch n x = .error e) (g : G) :
    a.attend x bias mask g = (.error (.tensor e), g) := by
  simp only [attend, hx, run_mapError, h, run_bind, run_attempt]
  rfl

theorem attend_bias_error {e : TensorError} (ha : a.WellFormed)
    (hx : x.Matches a.dtype [batch, n, a.featSize])
    (room : Shape.Allocatable a.dtype.width [batch, a.numHeads, n, n])
    (h : ∀ s, s.Matches a.dtype [batch, n, n, a.numHeads] →
      a.withBias batch n s bias = .error e) (g : G) :
    a.attend x bias mask g = (.error (.tensor e), g) := by
  rcases project_ok ha hx with ⟨q, k, v, hproject, hq, hk, -, -⟩
  rcases scores_ok ha.ne_uint8 room hq hk with ⟨s, hs, hsM, -⟩
  simp only [attend, hx.shape, run_mapError, hproject, hs, h s hsM, run_bind, run_attempt]
  rfl

theorem attend_mask_error {m : Tensor} (ha : a.WellFormed)
    (hx : x.Matches a.dtype [batch, n, a.featSize])
    (hbias : ∀ t, bias = some t → t.Matches a.dtype [batch, n, n, a.numHeads])
    (room : Shape.Allocatable a.dtype.width [batch, a.numHeads, n, n])
    (h : m.shape ≠ [batch, n, n]) (g : G) :
    a.attend x bias (some m) g
      = (.error (.tensor (.shapeMismatch [batch, n, n] m.shape)), g) := by
  rcases project_ok ha hx with ⟨q, k, v, hproject, hq, hk, -, -⟩
  rcases scores_ok ha.ne_uint8 room hq hk with ⟨s, hs, hsM, -⟩
  rcases withBias_ok hsM hbias with ⟨s', hs', -, -⟩
  have hmask : withMask batch n s' (some m) = .error (.shapeMismatch [batch, n, n] m.shape) := by
    simp only [withMask, Tensor.ensureShape_error h, bind, Except.bind]
  simp only [attend, hx.shape, run_mapError, hproject, hs, hs', hmask, run_bind, run_attempt]
  rfl

/-- Inputs that are not accepted are refused for the reason for which they are
    not, and nothing is drawn. -/
theorem attend_refused (ha : a.WellFormed) (room : a.Roomy a.dtype.width x)
    (h : a.Refuses x bias mask e) (g : G) : a.attend x bias mask g = (.error e, g) := by
  cases h with
  | rank h =>
    rcases hshape : x.shape with _ | ⟨batch, _ | ⟨n, _ | ⟨f, _ | ⟨k, rest⟩⟩⟩⟩
    case cons.cons.cons.nil => exact absurd (by simp [hshape]) h
    all_goals
      simp only [attend, hshape]
      rfl
  | width hx h => exact attend_project_error hx (project_width ha hx h) g
  | kind hx h => exact attend_project_error hx (project_kind ha hx h) g
  | biasShape hx ht h =>
    subst ht
    exact attend_bias_error ha hx (room _ _ hx) (fun s _ => withBias_shape h) g
  | biasKind hx ht hshape h =>
    subst ht
    refine attend_bias_error ha hx (room _ _ hx) (fun s hs => ?_) g
    rw [withBias_kind hshape (hs.dtype.symm ▸ h), hs.dtype]
  | maskShape hx hbias hm h =>
    subst hm
    exact attend_mask_error ha hx hbias (room _ _ hx) h g

/-! ### Success -/

/-- On accepted inputs the module succeeds, in training as well. -/
theorem attend_accepted (ha : a.WellFormed) (hp : Tensor.isProbability a.dropout.p = true)
    (h : a.Accepts batch n x bias mask) (room : Shape.Allocatable 8 [batch, a.numHeads, n, n])
    (g : G) :
    ∃ out w g', a.attend x bias mask g = (.ok (out, w), g') ∧
      out.Matches a.dtype [batch, n, a.featSize] ∧
      w.Matches a.dtype [batch * a.numHeads, n, n] := by
  rcases attend_ok (G := G) ha h.features h.bias h.mask (Tensor.allocatable_width room) with
    ⟨w, v, hw, hv, -, -, hattend⟩
  rcases Dropout.forward_matches a.dropout ha.isFloat hp hw
    (Shape.allocatable_fold (by simp [Shape.maxSpan]) room) g with ⟨w', g', hdropout, hw'⟩
  rcases combine_ok ha h.features.room hw' hv with ⟨out, hout, houtM, -⟩
  refine ⟨out, w', g', ?_, houtM, hw'⟩
  rw [hattend g, run_mapError, bind_ok hdropout]
  simp only [hout, run_bind, run_attempt, run_pure]
  rfl

/-- Weights are handed back as `[batch, heads, n, n]`, and these do not depend on the
    run that they came from. -/
theorem answer_of_attend {w : Tensor} (hheads : 0 < a.numHeads)
    (room : Shape.Allocatable a.dtype.width [batch, a.numHeads, n, n])
    (hw : w.Matches a.dtype [batch * a.numHeads, n, n]) :
    ∃ r, r.Matches a.dtype [batch, a.numHeads, n, n] ∧
      (∀ b h i j, r.entry a.dtype [b, h, i, j] = w.entry a.dtype [b * a.numHeads + h, i, j]) ∧
      ∀ out, ∀ g g' : G, a.attend x bias mask g = (.ok (out, w), g') →
        a.forward x bias mask g = (.ok out, g') ∧
          a.forwardWithWeights x bias mask g = (.ok (out, r), g') := by
  rcases unfold_ok room hw with ⟨r, hr, hrM, hrE⟩
  -- The sizes are read off the weights, where batch and heads are one axis.
  have hnodes : w.shape.getD 1 0 = n := by simp [hw.shape]
  have hitems : w.shape.getD 0 0 / a.numHeads = batch := by
    simp [hw.shape, Nat.mul_div_cancel _ hheads]
  refine ⟨r, hrM, hrE, fun out g g' h => ⟨?_, ?_⟩⟩
  · rw [forward, bind_ok h]
    rfl
  · rw [forwardWithWeights, bind_ok h]
    simp only [hnodes, hitems, hr, run_bind, run_attempt]
    rfl

/-- What both ways of applying a module make of the output and the weights. -/
theorem forward_of_attend {out w : Tensor} {g g' : G} (hheads : 0 < a.numHeads)
    (room : Shape.Allocatable a.dtype.width [batch, a.numHeads, n, n])
    (hw : w.Matches a.dtype [batch * a.numHeads, n, n])
    (h : a.attend x bias mask g = (.ok (out, w), g')) :
    a.forward x bias mask g = (.ok out, g') ∧
      ∃ r, a.forwardWithWeights x bias mask g = (.ok (out, r), g') ∧
        r.Matches a.dtype [batch, a.numHeads, n, n] ∧
        ∀ b h i j, r.entry a.dtype [b, h, i, j] = w.entry a.dtype [b * a.numHeads + h, i, j] := by
  rcases answer_of_attend (G := G) hheads room hw with ⟨r, hrM, hrE, hanswer⟩
  rcases hanswer out g g' h with ⟨hforward, hweighted⟩
  exact ⟨hforward, r, hweighted, hrM, hrE⟩

/-- A module that was built, and worked on in any way since, succeeds exactly on
    the inputs that it accepts, with results of the right shapes and of its own
    kind. On all others it reports the first condition that fails, and nothing
    else is ever reported. -/
theorem forward_outcome (c : AttentionConfig) (a : Attention) (ha : Reached G c a) (x : Tensor)
    (bias mask : Option Tensor) (room : a.Roomy 8 x) (g : G) :
    ((∃ out g', a.forward x bias mask g = (.ok out, g')) ↔
      ∃ batch n, a.Accepts batch n x bias mask) ∧
    (∀ batch n, a.Accepts batch n x bias mask →
      ∃ out w g', a.forward x bias mask g = (.ok out, g') ∧
        a.forwardWithWeights x bias mask g = (.ok (out, w), g') ∧
        out.Matches a.dtype [batch, n, a.featSize] ∧
        w.Matches a.dtype [batch, a.numHeads, n, n]) ∧
    (∀ e g', a.forward x bias mask g = (.error e, g') ↔
      a.Refuses x bias mask e ∧ g' = g) ∧
    ∀ e g', a.forwardWithWeights x bias mask g = (.error e, g') ↔
      a.Refuses x bias mask e ∧ g' = g := by
  have hwell := ha.wellFormed
  have haccepted : ∀ batch n, a.Accepts batch n x bias mask →
      ∃ out w g', a.forward x bias mask g = (.ok out, g') ∧
        a.forwardWithWeights x bias mask g = (.ok (out, w), g') ∧
        out.Matches a.dtype [batch, n, a.featSize] ∧
        w.Matches a.dtype [batch, a.numHeads, n, n] := by
    intro batch n h
    have hroom := room _ _ h.features
    rcases attend_accepted hwell ha.isProbability h hroom g with ⟨out, w, g', hattend, hout, hw⟩
    rcases forward_of_attend hwell.heads_pos (Tensor.allocatable_width hroom) hw hattend with
      ⟨hforward, r, hweighted, hr, -⟩
    exact ⟨out, r, g', hforward, hweighted, hout, hr⟩
  have hrefused : ∀ e, a.Refuses x bias mask e → a.attend x bias mask g = (.error e, g) :=
    fun e h => attend_refused hwell
      (fun batch n hx => Tensor.allocatable_width (room batch n hx)) h g
  have hcases := accepts_or_refuses a x bias mask
  have hforward := outcome_iff (a.forward x bias mask) g hcases
    (fun ⟨batch, n, h⟩ => by
      rcases haccepted batch n h with ⟨out, -, g', hrun, -⟩
      exact ⟨out, g', hrun⟩)
    (fun e h => bind_error (hrefused e h))
  have hweighted := outcome_iff (a.forwardWithWeights x bias mask) g hcases
    (fun ⟨batch, n, h⟩ => by
      rcases haccepted batch n h with ⟨out, w, g', -, hrun, -⟩
      exact ⟨(out, w), g', hrun⟩)
    (fun e h => bind_error (hrefused e h))
  exact ⟨hforward.1, haccepted, hforward.2, hweighted.2⟩

/-- A new module reports a bias of another kind before a mask of another shape,
    also where there is no item at all. -/
theorem forward_outcome_empty :
    ∃ (a : Attention) (x bias mask : Tensor), Reached SplitMix ⟨1, 1, false, .add, 0, .float64⟩ a ∧
      a.Roomy 8 x ∧ x.shape = [0, 2, 1] ∧ bias.dtype = .float32 ∧ mask.shape = [0, 2] ∧
      a.forward x (some bias) (some mask) (⟨7⟩ : SplitMix)
        = (.error (.tensor (.typeMismatch .float64 .float32)), ⟨7⟩) := by
  let c : AttentionConfig := ⟨1, 1, false, .add, 0, .float64⟩
  have hbuilt : ((build c (⟨7⟩ : SplitMix)).1.toOption.isSome) = true := by decide +kernel
  rcases hrun : build c (⟨7⟩ : SplitMix) with ⟨e | a, g'⟩
  · rw [hrun] at hbuilt
    cases hbuilt
  · have ha : Reached SplitMix c a := .of_build hrun
    rcases ha.follows with ⟨-, on, hfollows⟩
    let x : Tensor := ⟨.float64, .fill [0, 2, 1] 1, by decide⟩
    let bias : Tensor := ⟨.float32, .fill [0, 2, 2, 1] 1, by decide⟩
    let mask : Tensor := ⟨.uint8, .fill [0, 2] 1, by decide⟩
    have hdtype : a.dtype = .float64 := hfollows.dtype
    have hheads : a.numHeads = 1 := hfollows.numHeads
    have hfeatures : a.featSize = 1 := hfollows.featSize
    have hroom : a.Roomy 8 x := by
      intro batch n hx
      have hsizes := hx.shape
      rw [hfeatures] at hsizes
      cases hsizes
      rw [hheads]
      decide
    have hrefuses : a.Refuses x (some bias) (some mask)
        (.tensor (.typeMismatch .float64 .float32)) := by
      have hx : x.Matches a.dtype [0, 2, a.featSize] := by
        rw [hdtype, hfeatures]
        exact ⟨rfl, rfl⟩
      have hshape : bias.shape = [0, 2, 2, a.numHeads] := by
        rw [hheads]
        rfl
      have hkind : bias.dtype ≠ a.dtype := by
        rw [hdtype]
        decide
      have h : a.Refuses x (some bias) (some mask) _ := .biasKind hx rfl hshape hkind
      rwa [hdtype] at h
    exact ⟨a, x, bias, mask, ha, hroom, rfl, rfl, rfl,
      ((forward_outcome c a ha x (some bias) (some mask) hroom (⟨7⟩ : SplitMix)).2.2.1 _ _).mpr
        ⟨hrefuses, rfl⟩⟩

end Attention

end GraphAttention
