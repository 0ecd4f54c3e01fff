import GraphAttention.Proofs.Attention.Locality

/-!
# Attention in Training

Training adds one thing to an attention module: each weight is multiplied by a
factor, zero or one that makes up for what is dropped, before the values are
averaged. Everything up to the weights is what it is outside training, and so is
everything after them, for other weights. A module whose dropout is idle, out of
training or at probability zero, does not look at its source at all.

The words are taken in the order of the weights as `[batch * heads, n, n]`, which
is the layout in which dropout meets them. The word of a weight is the one at the
row-major position of its coordinates as `[batch, heads, n, n]`, because putting
batch and head together moves nothing. The layout with the head last, in which the
softmax is taken, leaves no trace.

A draw needs room for its words, of eight bytes each, and the weights need room
before that. Where either is missing there is a refusal that does not depend on
the source, and nothing is drawn.

## Main definitions

* `Attention.factorAt`: The factor of a weight, by the word of its own.

## Theorems

* `Dropout.active`: Positive probabilities in training are no reason to be idle.
* `Dropout.forward_roomless`: A draw without room takes nothing.
* `dropped_entries`: What dropout makes of the weights in training.
* `forward_modes`: A module in both modes, with the word of every weight.
-/

namespace GraphAttention

open GraphAttention.Action

/-! ### A layer that drops -/

/-- A positive number is not zero and not below it. -/
theorem Dropout.pos_spec {p : Float} (h : 0 < p) : 0 ≤ p ∧ (p == 0) = false := by
  have hzero : (0 : Float).toModel.unpack = .zero .positive := rfl
  have hlt : Float.Model.UnpackedFloat.lt (.zero .positive) p.toModel.unpack = true :=
    decide_eq_true_iff.mp h
  have hle : 0 ≤ p ↔ Float.Model.UnpackedFloat.le (.zero .positive) p.toModel.unpack = true :=
    decide_eq_true_iff
  have heq : (p == 0) = p.toModel.unpack.beq (.zero .positive) := by
    rw [← hzero]
    rfl
  rw [hle, heq]
  -- Only what is finite or infinite with a positive sign is above zero.
  cases hp : p.toModel.unpack with
  | notANumber =>
    rw [hp] at hlt
    cases hlt
  | zero s =>
    rw [hp] at hlt
    cases hlt
  | infinity s =>
    rw [hp] at hlt
    cases s with
    | negative => cases hlt
    | positive => exact ⟨rfl, rfl⟩
  | finite s m e hm =>
    rw [hp] at hlt
    cases s with
    | negative => cases hlt
    | positive => exact ⟨rfl, rfl⟩

/-- A layer in training whose probability is between zero and one draws, and is not
    refused for its probability. -/
theorem Dropout.active {l : Dropout} (htraining : l.training = true) (hpos : 0 < l.p)
    (hlt : l.p < 1) : l.idle = false ∧ Tensor.isProbability l.p = true := by
  rcases pos_spec hpos with ⟨hle, hne⟩
  refine ⟨?_, ?_⟩
  · rw [idle, htraining, hne]
    rfl
  · exact Tensor.isProbability_iff.mpr ⟨hle, hlt⟩

/-- Without room for the words a layer that would draw is refused, and takes
    none. -/
theorem Dropout.forward_roomless {G : Type} [WordSource G] {d : DType} {s : Shape} {l : Dropout}
    {x : Tensor} (h : l.idle = false) (hd : d.isFloat = true)
    (hp : Tensor.isProbability l.p = true) (hx : x.Matches d s) (hfits : ¬ Shape.Fits 8 s) (g : G) :
    l.forward x g = (.error (.unaddressable s), g) := by
  rcases hx with ⟨rfl, rfl⟩
  exact forward_refused h (.room hd (Tensor.isProbability_iff.mp hp) hfits) g

namespace Attention

variable {G : Type} [WordSource G] {a : Attention} {batch n : Nat} {x : Tensor}
  {bias mask : Option Tensor}

/-- Putting a module out of training leaves it well-formed. -/
theorem WellFormed.setTraining (ha : a.WellFormed) (on : Bool) :
    (Module.setTraining on a).WellFormed :=
  ⟨ha.isFloat, ha.heads_pos, ha.headDim_pos, ha.featSize_eq, ha.projection⟩

/-- The factor by which the weight of key `j` for query `i` in head `h` of item `b` is
    multiplied when a draw begins at a source. -/
def factorAt (a : Attention) (batch n : Nat) (g : G) (b h i j : Nat) : a.dtype.Elem :=
  Scalar.ofFloat (Dropout.keepFactor a.dropout.p
    ((WordSource.take (batch * a.numHeads * n * n) g).1.getD
      (((b * a.numHeads + h) * n + i) * n + j) 0))

/-- A dropout that is not idle multiplies each weight by its own factor. -/
theorem dropped_entries {w : Tensor} (ha : a.WellFormed) (hactive : a.dropout.idle = false)
    (hp : Tensor.isProbability a.dropout.p = true)
    (room : Shape.Allocatable 8 [batch, a.numHeads, n, n])
    (hw : w.Matches a.dtype [batch * a.numHeads, n, n]) (g : G) :
    ∃ w', a.dropout.forward w g
        = (.ok w', (WordSource.take (batch * a.numHeads * n * n) g).2) ∧
      w'.Matches a.dtype [batch * a.numHeads, n, n] ∧
      ∀ b h i j, b < batch → h < a.numHeads → i < n → j < n →
        w'.entry a.dtype [b * a.numHeads + h, i, j]
          = w.entry a.dtype [b * a.numHeads + h, i, j] * a.factorAt batch n g b h i j := by
  have hsize : Shape.size [batch * a.numHeads, n, n] = batch * a.numHeads * n * n := by
    simp [Nat.mul_assoc]
  rcases Dropout.forward_drawn hactive ha.isFloat hp hw
    (Shape.allocatable_fold (by simp [Shape.maxSpan]) room) g with ⟨w', hw', hM, hE⟩
  rw [hsize] at hw' hE
  refine ⟨w', hw', hM, fun b h i j hb hh hi hj => ?_⟩
  -- The position among the weights of all heads is a polynomial in the coordinates.
  have hravel : Shape.ravel [batch * a.numHeads, n, n] [b * a.numHeads + h, i, j]
      = ((b * a.numHeads + h) * n + i) * n + j := by
    simp only [Shape.ravel, Shape.size_cons, Shape.size_nil]
    ring
  have hwithin : Shape.Within [b * a.numHeads + h, i, j] [batch * a.numHeads, n, n] :=
    ⟨Shape.fold_lt hb hh, hi, hj, trivial⟩
  rw [hE _ hwithin, hravel, factorAt]

/-- An idle dropout makes both ways of applying a module the same for every source,
    and draws nothing. In training, with a probability between zero and one, exactly
    one word is drawn for each weight, the weight at `[b, h, i, j]` is the weight
    outside training times the factor that its word decides on, and the output is
    computed from the dropped weights as it is from the others outside training. Where
    there is no room for the draw, the module is refused in training without one. -/
theorem forward_modes (a : Attention) (ha : a.WellFormed) (batch n : Nat) (x : Tensor)
    (bias mask : Option Tensor) (haccept : a.Accepts batch n x bias mask) :
    (a.training = false ∨ (a.dropout.p == 0) = true →
      ∃ r, ∀ g : G, a.forwardWithWeights x bias mask g = (r, g) ∧
        a.forward x bias mask g = (r.map Prod.fst, g)) ∧
    (a.training = true → 0 < a.dropout.p → a.dropout.p < 1 →
      (Shape.Allocatable 8 [batch, a.numHeads, n, n] →
        ∃ out₀ w₀, (∀ g : G, (Module.setTraining false a).forwardWithWeights x bias mask g
            = (.ok (out₀, w₀), g)) ∧
          (∀ b i o, b < batch → i < n → o < a.featSize → out₀.entry a.dtype [b, i, o]
            = a.outputAt x (fun b h i j => w₀.entry a.dtype [b, h, i, j]) n b i o) ∧
          ∀ g : G, ∃ out w,
            a.forwardWithWeights x bias mask g
              = (.ok (out, w), (WordSource.take (batch * a.numHeads * n * n) g).2) ∧
            a.forward x bias mask g
              = (.ok out, (WordSource.take (batch * a.numHeads * n * n) g).2) ∧
            out.Matches a.dtype [batch, n, a.featSize] ∧
            w.Matches a.dtype [batch, a.numHeads, n, n] ∧
            (∀ b h i j, b < batch → h < a.numHeads → i < n → j < n →
              w.entry a.dtype [b, h, i, j]
                = w₀.entry a.dtype [b, h, i, j] * a.factorAt batch n g b h i j) ∧
            ∀ b i o, b < batch → i < n → o < a.featSize → out.entry a.dtype [b, i, o]
              = a.outputAt x (fun b h i j => w.entry a.dtype [b, h, i, j]) n b i o) ∧
      (¬ Shape.Allocatable 8 [batch, a.numHeads, n, n] →
        ∃ e, ∀ g : G, a.forwardWithWeights x bias mask g = (.error e, g) ∧
          a.forward x bias mask g = (.error e, g))) := by
  refine ⟨fun hidle => ?_, fun htraining hpos hlt => ⟨fun room => ?_, fun hroom => ?_⟩⟩
  · have hidle : a.dropout.idle = true := by
      rw [Dropout.idle, Bool.or_eq_true, Bool.not_eq_true']
      exact hidle
    by_cases room : Shape.Allocatable a.dtype.width [batch, a.numHeads, n, n]
    · rcases forward_weighted (G := G) ha haccept room with ⟨w, hw, -, hanswer, -⟩
      rcases hanswer w hw with ⟨out, r, -, -, -, -, hrun⟩
      exact ⟨.ok (out, r), fun g => hrun g g (Dropout.forward_idle hidle w g)⟩
    · rcases attend_error (G := G) bias mask ha haccept.features room with ⟨e, he⟩
      exact ⟨.error e, fun g => ⟨bind_error (he g), bind_error (he g)⟩⟩
  · rcases Dropout.active htraining hpos hlt with ⟨hactive, hp⟩
    have hscores := Tensor.allocatable_width (d := a.dtype) room
    -- Outside training the module has the same weights before dropout, and these stay.
    rcases forward_weighted (G := G) ha haccept hscores with ⟨w, hw, hwE, hanswer, -⟩
    have haccept₀ : (Module.setTraining false a).Accepts batch n x bias mask :=
      ⟨haccept.features, haccept.bias, haccept.mask⟩
    rcases forward_weighted (G := G) (ha.setTraining false) haccept₀ hscores with
      ⟨w₁, hw₁, hw₁E, hanswer₁, -⟩
    rcases hanswer₁ w₁ hw₁ with ⟨out₀, w₀, -, -, hw₀E, hout₀E, hrun₀⟩
    refine ⟨out₀, w₀, fun g => (hrun₀ g g (Dropout.forward_idle rfl w₁ g)).1, hout₀E,
      fun g => ?_⟩
    rcases dropped_entries ha hactive hp room hw g with ⟨w', hdropout, hw', hw'E⟩
    rcases hanswer w' hw' with ⟨out, r, houtM, hrM, hrE, houtE, hrun⟩
    rcases hrun g _ hdropout with ⟨hweighted, hforward⟩
    refine ⟨out, r, hweighted, hforward, houtM, hrM, fun b h i j hb hh hi hj => ?_, houtE⟩
    have hweight : w₀.entry a.dtype [b, h, i, j] = a.weightAt x bias mask n b h i j :=
      (hw₀E b h i j).trans (hw₁E b h i j hb hh hi hj)
    rw [hrE, hw'E b h i j hb hh hi hj, hwE b h i j hb hh hi hj, hweight]
  · rcases Dropout.active htraining hpos hlt with ⟨hactive, hp⟩
    by_cases hscores : Shape.Allocatable a.dtype.width [batch, a.numHeads, n, n]
    · rcases forward_weighted (G := G) ha haccept hscores with ⟨w, hw, -, -, hrefused⟩
      -- There is room for the weights, so it is the words that have none.
      have hfits : ¬ Shape.Fits 8 [batch * a.numHeads, n, n] := by
        intro hfits
        have hsize : Shape.size [batch * a.numHeads, n, n]
            = Shape.size [batch, a.numHeads, n, n] := by simp [Nat.mul_assoc]
        exact hroom ⟨hscores.1, (Shape.fits_congr hsize).mp hfits⟩
      exact ⟨_, fun g => hrefused _ g g
        (Dropout.forward_roomless hactive ha.isFloat hp hw hfits g)⟩
    · rcases attend_error (G := G) bias mask ha haccept.features hscores with ⟨e, he⟩
      exact ⟨e, fun g => ⟨bind_error (he g), bind_error (he g)⟩⟩

/-- Two items of three nodes in two heads take 36 words, and the weight of the last key
    for the second query in the second head of the second item takes number 32. -/
theorem forward_modes_twoHeads :
    ∃ (a : Attention) (x out w out₀ w₀ : Tensor), a.training = true ∧
      (Module.setTraining false a).forwardWithWeights x none none (⟨7⟩ : SplitMix)
        = (.ok (out₀, w₀), ⟨7⟩) ∧
      a.forwardWithWeights x none none (⟨7⟩ : SplitMix)
        = (.ok (out, w), (WordSource.take 36 (⟨7⟩ : SplitMix)).2) ∧
      w.entry .float64 [1, 1, 1, 2] = w₀.entry .float64 [1, 1, 1, 2]
        * Scalar.ofFloat (Dropout.keepFactor 0.5
            ((WordSource.take 36 (⟨7⟩ : SplitMix)).1.getD 32 0)) := by
  let a : Attention := { twoHeads with dropout := ⟨0.5, true⟩ }
  let x : Tensor := ⟨.float64, .fill [2, 3, 2] 1, by decide⟩
  have hunits := twoHeads_wellFormed
  have ha : a.WellFormed :=
    ⟨hunits.isFloat, hunits.heads_pos, hunits.headDim_pos, hunits.featSize_eq, hunits.projection⟩
  have haccept : a.Accepts 2 3 x none none :=
    ⟨⟨rfl, rfl⟩, fun t ht => (by cases ht), fun m hm => (by cases hm)⟩
  rcases ((forward_modes (G := SplitMix) a ha 2 3 x none none haccept).2 rfl (by decide)
    (by decide)).1 (by decide) with ⟨out₀, w₀, heval, -, hdrawn⟩
  rcases hdrawn ⟨7⟩ with ⟨out, w, hrun, -, -, -, hweights, -⟩
  exact ⟨a, x, out, w, out₀, w₀, rfl, heval ⟨7⟩, hrun,
    hweights 1 1 1 2 (by decide) (by decide) (by decide) (by decide)⟩

end Attention

end GraphAttention
