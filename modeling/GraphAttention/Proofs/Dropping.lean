import GraphAttention.Proofs.Dropout
import GraphAttention.Proofs.Reordering

/-!
# Words and Elements

Which word decides on which element, and what is left of the source. A source is asked for
one word after another, so a word has a number and there is a source after each number of
words. A layer that drops takes as many as its input has elements. The word with the number
of an element in row-major order decides on this element. How the axes are laid out does
not matter, and a layer may come before a reshape as well as after it.

A layer out of training, or at probability zero, hands on what it is given, of whatever
kind. In training three things are refused in this order, and nothing is drawn then: a kind
that is not floating, a number that is no probability below one, and a tensor whose words
have no room. The probability may be any number, since it can be replaced at any time. What
is not a number is neither zero nor a probability. There is no room from `2 ^ 60` elements
on, which only a tensor of the smaller floating kind can have.

## Main definitions

* `WordSource.after`, `WordSource.word`: A source after some words, and the next of them.
* `Dropout.Dropped`: A tensor with every element multiplied by its factor.

## Theorems

* `WordSource.take_eq`: The words that are taken at once.
* `Tensor.ext_itemAt`: Tensors are known by their elements in row-major order.
* `Dropout.forward_dropped`, `Dropout.forward_eq_ok_iff`: What a layer in training does.
* `Dropout.Dropped.reshape`: Elements keep their words under another shape.
* `Dropout.forward_reshape`: A layer before a reshape and after it.
* `Dropout.forward_settled`: All of this for any layer and any tensor.
-/

namespace GraphAttention

open GraphAttention.Action

/-! ### Words by their numbers -/

namespace WordSource

variable {G : Type} [WordSource G]

/-- The source after some words. -/
def after : Nat → G → G
  | 0, g => g
  | n + 1, g => (next (after n g)).2

/-- The word with a number, from zero on. -/
def word (n : Nat) (g : G) : UInt64 := (next (after n g)).1

/-- Words taken at once are those taken one by one. -/
theorem take_eq (n : Nat) (g : G) :
    take n g = (((List.range n).map fun k => word k g).toArray, after n g) := by
  unfold take drawEach
  induction n with
  | zero => rfl
  | succ n ih =>
    rw [Nat.fold_succ, ih, List.range_succ, List.map_append]
    simp only [List.push_toArray, List.map_cons, List.map_nil]
    rfl

theorem take_getD {n k : Nat} (h : k < n) (g : G) : (take n g).1.getD k 0 = word k g := by
  simp [take_eq, h]

end WordSource

/-- Tensors of one kind and shape with the same elements in row-major order are the same. -/
theorem Tensor.ext_itemAt {d : DType} {s : Shape} {t u : Tensor} (ht : t.Matches d s)
    (hu : u.Matches d s) (h : ∀ k, k < s.size → t.itemAt d k = u.itemAt d k) : t = u := by
  refine ext_entry ht hu fun idx hidx => ?_
  rw [entry_eq_itemAt ht, entry_eq_itemAt hu]
  exact h _ (Shape.ravel_lt hidx)

namespace Dropout

variable {G : Type} [WordSource G] {l : Dropout} {x y y' : Tensor} {p : Float} {g : G}
  {e : TensorError}

/-! ### Layers that drop -/

/-- One tensor is another with every element multiplied by zero or by one that makes up for
    what is dropped. The words of a source decide on them, each on the element with its
    number in row-major order. -/
structure Dropped (p : Float) (g : G) (x y : Tensor) : Prop where
  kept : y.Matches x.dtype x.shape
  item : ∀ k, k < x.count → y.itemAt x.dtype k = x.itemAt x.dtype k
    * Scalar.ofFloat (if unitFraction (WordSource.word k g) < p then 0 else 1 / (1 - p))

/-- What is not a number is not zero, and it is no probability. -/
theorem not_probability_of_isNaN (h : p.isNaN = true) : (p == 0) = false ∧ ¬ (0 ≤ p ∧ p < 1) := by
  have hunpack : p.toModel.unpack = .notANumber := by
    have hnan : p.toModel.unpack.isNaN = true := h
    cases hu : p.toModel.unpack with
    | notANumber => rfl
    | _ =>
      rw [hu] at hnan
      cases hnan
  have hle : 0 ≤ p ↔
      Float.Model.UnpackedFloat.le (0 : Float).toModel.unpack p.toModel.unpack = true :=
    decide_eq_true_iff
  have heq : (p == 0) = p.toModel.unpack.beq (0 : Float).toModel.unpack := rfl
  rw [hle, heq, hunpack]
  exact ⟨rfl, fun hp => by cases hp.1⟩

theorem idle_iff : l.idle = true ↔ l.training = false ∨ (l.p == 0) = true := by
  rw [idle, Bool.or_eq_true, Bool.not_eq_true']

/-- A layer that is not refused draws one word for each element. -/
theorem forward_dropped (h : l.idle = false) (hd : x.dtype.isFloat = true)
    (hp : 0 ≤ l.p ∧ l.p < 1) (hfits : Shape.Fits 8 x.shape) (g : G) :
    ∃ y, l.forward x g = (.ok y, WordSource.after x.count g) ∧ Dropped l.p g x y := by
  rcases forward_drawn h hd (Tensor.isProbability_iff.mpr hp) ⟨rfl, rfl⟩ ⟨x.room.1, hfits⟩ g with
    ⟨y, hrun, hM, hE⟩
  rw [WordSource.take_eq] at hrun
  refine ⟨y, hrun, hM, fun k hk => ?_⟩
  -- The element with a number is the entry at the coordinates of this number.
  have hravel : x.shape.ravel (x.shape.unravel k) = k := Shape.ravel_unravel hk
  have hentry := hE _ (Shape.within_unravel hk)
  rw [Tensor.entry_eq_itemAt hM, Tensor.entry_eq_itemAt ⟨rfl, rfl⟩, hravel,
    WordSource.take_getD (show k < x.shape.size from hk)] at hentry
  exact hentry

theorem Dropped.unique (h : Dropped p g x y) (h' : Dropped p g x y') : y = y' :=
  Tensor.ext_itemAt h.kept h'.kept fun k hk => (h.item k hk).trans (h'.item k hk).symm

/-- Not idle, a layer succeeds exactly with what is dropped from an input that is fine. -/
theorem forward_eq_ok_iff (h : l.idle = false) {g' : G} :
    l.forward x g = (.ok y, g') ↔
      (x.dtype.isFloat = true ∧ (0 ≤ l.p ∧ l.p < 1) ∧ Shape.Fits 8 x.shape) ∧
        Dropped l.p g x y ∧ g' = WordSource.after x.count g := by
  constructor
  · intro hrun
    rcases Tensor.accepted_or_maskFault x.shape l.p x.dtype with ⟨hd, hp, hfits⟩ | ⟨e, he⟩
    · rcases forward_dropped h hd hp hfits g with ⟨y₀, hrun₀, hdropped⟩
      rw [hrun₀] at hrun
      cases hrun
      exact ⟨⟨hd, hp, hfits⟩, hdropped, rfl⟩
    · rw [forward_refused h he] at hrun
      cases hrun
  · rintro ⟨⟨hd, hp, hfits⟩, hdropped, rfl⟩
    rcases forward_dropped h hd hp hfits g with ⟨y₀, hrun₀, hdropped₀⟩
    rw [hrun₀, hdropped₀.unique hdropped]

/-! ### Another shape -/

/-- With the shapes of input and result replaced alike, the words still decide on the same
    elements. -/
theorem Dropped.reshape {s : Shape} {x' : Tensor} (h : Dropped p g x y)
    (hx : x.reshape s = .ok x') : ∃ y', y.reshape s = .ok y' ∧ Dropped p g x' y' := by
  rcases Tensor.reshape_result hx with ⟨hsize, hM⟩
  have hcount : x'.count = x.count := by
    rw [Tensor.count, hM.shape, hsize]
    rfl
  rcases Tensor.reshape_ok s h.kept hsize hM.room.1 with ⟨y', hy, hyM, -⟩
  refine ⟨y', hy, hM.dtype ▸ hM.shape ▸ hyM, fun k hk => ?_⟩
  rw [hM.dtype, Tensor.itemAt_reshape hy, Tensor.itemAt_reshape hx]
  exact h.item k (hcount ▸ hk)

/-- A layer may be applied before a reshape or after it, whether it drops or not. -/
theorem forward_reshape (l : Dropout) (x : Tensor) (s : Shape) (g : G) (y' : Tensor) (g' : G) :
    (∃ x', x.reshape s = .ok x' ∧ l.forward x' g = (.ok y', g')) ↔
      ∃ y, l.forward x g = (.ok y, g') ∧ y.reshape s = .ok y' := by
  cases hidle : l.idle with
  | true =>
    simp only [forward_idle hidle]
    constructor
    · rintro ⟨x', hx, hrun⟩
      cases hrun
      exact ⟨x, rfl, hx⟩
    · rintro ⟨y, hrun, hy⟩
      cases hrun
      exact ⟨y', hy, rfl⟩
  | false =>
    simp only [forward_eq_ok_iff hidle]
    -- Kind and number of elements are the same under both shapes.
    have hsame : ∀ x', x.reshape s = .ok x' → x'.dtype = x.dtype ∧ x'.count = x.count ∧
        (Shape.Fits 8 x'.shape ↔ Shape.Fits 8 x.shape) := by
      intro x' hx
      rcases Tensor.reshape_result hx with ⟨hsize, hM⟩
      rw [← hM.shape] at hsize
      exact ⟨hM.dtype, hsize, Shape.fits_congr hsize⟩
    constructor
    · rintro ⟨x', hx, ⟨hd, hp, hfits⟩, hdropped, rfl⟩
      rcases hsame x' hx with ⟨hdtype, hcount, hroom⟩
      rw [hdtype] at hd
      rcases forward_dropped hidle hd hp (hroom.mp hfits) g with ⟨y, -, hy⟩
      rcases hy.reshape hx with ⟨y₀, hreshaped, hdropped₀⟩
      refine ⟨y, ⟨⟨hd, hp, hroom.mp hfits⟩, hy, by rw [hcount]⟩, ?_⟩
      rw [hreshaped, hdropped₀.unique hdropped]
    · rintro ⟨y, ⟨⟨hd, hp, hfits⟩, hdropped, rfl⟩, hy⟩
      rcases Tensor.reshape_result hy with ⟨hsize, hM⟩
      rw [hdropped.kept.shape] at hsize
      rcases Tensor.reshape_ok_iff.mpr ⟨hsize, hM.room.1⟩ with ⟨x', hx⟩
      rcases hsame x' hx with ⟨hdtype, hcount, hroom⟩
      rcases hdropped.reshape hx with ⟨y₀, hreshaped, hdropped₀⟩
      obtain rfl : y₀ = y' := Except.ok.inj (hreshaped.symm.trans hy)
      exact ⟨x', hx, ⟨hdtype ▸ hd, hp, hroom.mpr hfits⟩, hdropped₀, by rw [hcount]⟩

/-! ### Any layer -/

/-- What a layer does with any tensor and any source. -/
theorem forward_settled (l : Dropout) (x : Tensor) (g : G) :
    (l.training = false ∨ (l.p == 0) = true → l.forward x g = (.ok x, g)) ∧
      (l.training = true → (l.p == 0) = false →
        ((∃ y g', l.forward x g = (.ok y, g')) ↔
          x.dtype.isFloat = true ∧ (0 ≤ l.p ∧ l.p < 1) ∧ Shape.Fits 8 x.shape) ∧
        (∀ e g', l.forward x g = (.error e, g') ↔ Tensor.MaskFault x.shape l.p x.dtype e ∧ g' = g) ∧
        ∀ y g', l.forward x g = (.ok y, g') →
          Dropped l.p g x y ∧ g' = WordSource.after x.count g) ∧
      (l.p.isNaN = true → (l.p == 0) = false ∧ ¬ (0 ≤ l.p ∧ l.p < 1)) ∧
      (x.dtype = .float64 ∨ x.count < 2 ^ 60 → Shape.Fits 8 x.shape) ∧
      ∀ s y' g', (∃ x', x.reshape s = .ok x' ∧ l.forward x' g = (.ok y', g')) ↔
        ∃ y, l.forward x g = (.ok y, g') ∧ y.reshape s = .ok y' := by
  refine ⟨fun h => forward_idle (idle_iff.mpr h) x g, fun htraining hzero => ?_,
    not_probability_of_isNaN, ?_, fun s => forward_reshape l x s g⟩
  · have hidle : l.idle = false := by rw [idle, htraining, hzero]; rfl
    have hok : (x.dtype.isFloat = true ∧ (0 ≤ l.p ∧ l.p < 1) ∧ Shape.Fits 8 x.shape) →
        ∃ y g', l.forward x g = (.ok y, g') := by
      rintro ⟨hd, hp, hfits⟩
      rcases forward_dropped hidle hd hp hfits g with ⟨y, hrun, -⟩
      exact ⟨y, _, hrun⟩
    have houtcome := Action.outcome_iff (l.forward x) g
      (Tensor.accepted_or_maskFault x.shape l.p x.dtype) hok fun e he => forward_refused hidle he g
    exact ⟨houtcome.1, houtcome.2, fun y g' hrun => ((forward_eq_ok_iff hidle).mp hrun).2⟩
  · rintro (hd | hcount)
    · have hM : x.Matches .float64 x.shape := ⟨hd, rfl⟩
      exact hM.room.2
    · have hcount : x.shape.size < 2 ^ 60 := hcount
      unfold Shape.Fits Shape.maxSpan
      omega

/-- The axes of six elements are exchanged before the layer. The second element was the fourth
    then, and the second word decides on it, with the rows as they are as well as joined. -/
theorem forward_settled_exchanged :
    ∃ t x y x' : Tensor, t.shape = [2, 3] ∧ t.permute [1, 0] = .ok x ∧
      forward ⟨0.5, true⟩ x (SplitMix.mk 0) = (.ok y, WordSource.after 6 (SplitMix.mk 0)) ∧
      y.itemAt .float64 1 = t.itemAt .float64 3 * Scalar.ofFloat
        (if unitFraction (WordSource.word 1 (SplitMix.mk 0)) < 0.5 then 0 else 1 / (1 - 0.5)) ∧
      x.reshape [6] = .ok x' ∧ ∃ y', y.reshape [6] = .ok y' ∧
        forward ⟨0.5, true⟩ x' (SplitMix.mk 0) = (.ok y', WordSource.after 6 (SplitMix.mk 0)) := by
  let t : Tensor := ⟨.float64, .generate [2, 3] fun k => ⟨.ofNat k⟩, by decide⟩
  have ht : t.Matches .float64 [2, 3] := ⟨rfl, rfl⟩
  rcases Tensor.permute_entries ht (p := [1, 0]) (by decide) with ⟨x, hx, hM, hE⟩
  have hcount : x.count = 6 := congrArg Shape.size hM.shape
  have hexchanged : x.itemAt .float64 1 = t.itemAt .float64 3 := by
    have hentry := hE [1, 0] (by decide)
    rwa [Tensor.entry_eq_itemAt hM, Tensor.entry_eq_itemAt ht] at hentry
  have hreshaped : ∃ x', x.reshape [6] = .ok x' :=
    Tensor.reshape_ok_iff.mpr ⟨hcount.symm, by decide⟩
  rcases hreshaped with ⟨x', hx'⟩
  rcases forward_settled ⟨0.5, true⟩ x (SplitMix.mk 0) with ⟨-, hactive, -, hroom, hreshape⟩
  rcases hactive rfl rfl with ⟨hok, -, hresult⟩
  rcases hok.mpr ⟨by rw [hM.dtype]; rfl, by decide, hroom (.inl hM.dtype)⟩ with ⟨y, g', hrun⟩
  rcases hresult y g' hrun with ⟨hdropped, rfl⟩
  have hitem := hdropped.item 1 (by omega)
  rw [hM.dtype, hexchanged] at hitem
  rw [hcount] at hrun
  -- The reshape of the result is what the layer makes of the reshaped input.
  rcases hdropped.reshape hx' with ⟨y', hy', -⟩
  rcases (hreshape [6] y' _).mpr ⟨y, hrun, hy'⟩ with ⟨x₁, hx₁, hrun'⟩
  obtain rfl : x' = x₁ := Except.ok.inj (hx'.symm.trans hx₁)
  exact ⟨t, x, y, x', rfl, hx, hrun, hitem, hx', y', hy', hrun'⟩

end Dropout

end GraphAttention
