import GraphAttention.Layer.Dropout
import GraphAttention.Proofs.Drawing

/-!
# Dropping Elements

A dropout layer in training multiplies every element by a factor of its own, zero
or one that makes up for what is dropped, and it takes one word for each element
to decide which. Out of training, or at probability zero, it does nothing at all
and takes no word, and these are the only two things it ever does where its
probability is one and its input is of a floating kind.

The words are known once the number of elements is, so the source after a draw
and every factor are given by `WordSource.take`. The word of an element is the one
at its row-major position.

## Main definitions

* `Tensor.MaskFault`: Why factors are refused.
* `Dropout.idle`: A layer that hands its input on.
* `Dropout.keepFactor`: The factor that a word decides on.

## Theorems

* `WordSource.take_size`: As many words as are asked for.
* `Tensor.dropoutMask_ok`, `Tensor.dropoutMask_fault`: The factors of all elements as a
  tensor, and when there are none.
* `Dropout.forward_idle`, `Dropout.forward_drawn`: The two things a layer does.
* `Dropout.forward_refused`: When it does neither.
* `Dropout.forward_matches`: Kind and shape stay in either case.
* `Dropout.forward_entries`: What is known of a layer that has succeeded.
-/

namespace GraphAttention

open GraphAttention.Action

/-- A source gives as many words as it is asked for. -/
theorem WordSource.take_size {G : Type} [WordSource G] (n : Nat) (g : G) :
    (WordSource.take n g).1.size = n :=
  drawEach_size WordSource.next n g

/-- The factor for an element whose word is given, when elements are dropped with
    a probability. -/
def Dropout.keepFactor (p : Float) (word : UInt64) : Float :=
  if unitFraction word < p then 0 else 1 / (1 - p)

namespace Tensor

variable {G : Type} [WordSource G] {d : DType} {s : Shape} {p : Float}

/-- A keep mask holds the factor of each element, decided by the word at its
    position. -/
theorem dropoutMask_ok (hd : d.isFloat = true) (hp : isProbability p = true)
    (room : Shape.Allocatable 8 s) (g : G) :
    ∃ mask, dropoutMask s p d g = (.ok mask, (WordSource.take s.size g).2) ∧ mask.Matches d s ∧
      ∀ idx, Shape.Within idx s → mask.entry d idx
        = Scalar.ofFloat (Dropout.keepFactor p
            ((WordSource.take s.size g).1.getD (s.ravel idx) 0)) := by
  have hfloat : requireFloat d = .ok () := if_pos hd
  have hcount := Shape.numel_of_addressable room.1
  have hfits := ensureGatherable_ok room
  have hdraw : drawWords s.numel g
      = (.ok (WordSource.take s.size g).1, (WordSource.take s.size g).2) := by
    rw [hcount]
    rfl
  let data : Array d.Elem := ((WordSource.take s.size g).1.map fun word =>
    if unitFraction word < p then 0 else 1 / (1 - p)).map Scalar.ofFloat
  have hsize : data.size = s.size := by simp [data, WordSource.take_size]
  refine ⟨⟨d, ⟨s, data, hsize⟩, allocatable_width room⟩, ?_, ⟨rfl, rfl⟩, fun idx hidx => ?_⟩
  · -- No check fails, so the words are drawn and cast.
    have hmask : ofFloats ((WordSource.take s.size g).1.map fun word =>
        if unitFraction word < p then 0 else 1 / (1 - p)) s d = .ok ⟨d, ⟨s, data, hsize⟩, _⟩ :=
      ofElements_ok hsize (allocatable_width room)
    simp only [dropoutMask, hfloat, hp, hfits, run_bind, run_attempt, hdraw, hmask,
      not_true_eq_false, if_false]
  · have hlt : s.ravel idx < (WordSource.take s.size g).1.size := by
      rw [WordSource.take_size]
      exact Shape.ravel_lt hidx
    rw [entry_mk]
    simp [DenseArray.get, data, hlt, Dropout.keepFactor]

/-- What is wrong first where factors are refused: the kind is not floating, the number is no
    probability below one, or there is no room for the words. -/
inductive MaskFault (s : Shape) (p : Float) (d : DType) : TensorError → Prop
  | kind (hd : d.isFloat = false) : MaskFault s p d (.invalidOperation (.randomKind d))
  | probability (hd : d.isFloat = true) (hp : ¬ (0 ≤ p ∧ p < 1)) :
      MaskFault s p d (.invalidOperation (.dropProbability p))
  | room (hd : d.isFloat = true) (hp : 0 ≤ p ∧ p < 1) (hfits : ¬ Shape.Fits 8 s) :
      MaskFault s p d (.unaddressable s)

theorem isProbability_iff : isProbability p = true ↔ 0 ≤ p ∧ p < 1 := by
  rw [isProbability, Bool.and_eq_true, decide_eq_true_eq, decide_eq_true_eq]

/-- Nothing is drawn where factors are refused. -/
theorem dropoutMask_fault {e : TensorError} (hcount : s.numel = s.size) (h : MaskFault s p d e)
    (g : G) : dropoutMask s p d g = (.error e, g) := by
  cases h with
  | kind hd =>
    have hkind : requireFloat d = .error (.invalidOperation (.randomKind d)) :=
      if_neg (by simp [hd])
    simp only [dropoutMask, hkind, run_bind, run_attempt]
  | probability hd hp =>
    have hkind : requireFloat d = .ok () := if_pos hd
    rw [← isProbability_iff] at hp
    simp only [dropoutMask, hkind, run_bind, run_attempt]
    rw [if_pos hp]
    rfl
  | room hd hp hfits =>
    have hkind : requireFloat d = .ok () := if_pos hd
    have hgather := ensureGatherable_error hcount hfits
    rw [← isProbability_iff] at hp
    simp only [dropoutMask, hkind, hp, hgather, not_true_eq_false, if_false, run_bind, run_attempt]

/-- Factors are asked for with nothing wrong, or there is a fault. -/
theorem accepted_or_maskFault (s : Shape) (p : Float) (d : DType) :
    (d.isFloat = true ∧ (0 ≤ p ∧ p < 1) ∧ Shape.Fits 8 s) ∨ ∃ e, MaskFault s p d e := by
  cases hd : d.isFloat with
  | false => exact .inr ⟨_, .kind hd⟩
  | true =>
    by_cases hp : 0 ≤ p ∧ p < 1
    · by_cases hfits : Shape.Fits 8 s
      · exact .inl ⟨rfl, hp, hfits⟩
      · exact .inr ⟨_, .room hd hp hfits⟩
    · exact .inr ⟨_, .probability hd hp⟩

/-- Factors are drawn only for a probability below one, and only with room for the
    words. -/
theorem of_dropoutMask {mask : Tensor} {g g' : G} (hcount : s.numel = s.size)
    (h : dropoutMask s p d g = (.ok mask, g')) : isProbability p = true ∧ Shape.Fits 8 s := by
  rcases accepted_or_maskFault s p d with ⟨-, hp, hfits⟩ | ⟨e, he⟩
  · exact ⟨isProbability_iff.mpr hp, hfits⟩
  · rw [dropoutMask_fault hcount he] at h
    cases h

end Tensor

namespace Dropout

variable {G : Type} [WordSource G] {d : DType} {s : Shape} {l : Dropout} {x : Tensor}

/-- A layer that hands its input on: it is not in training, or drops nothing. -/
def idle (l : Dropout) : Bool := !l.training || l.p == 0

/-- An idle layer hands on any tensor and draws nothing. -/
theorem forward_idle (h : l.idle = true) (x : Tensor) (g : G) :
    l.forward x g = (.ok x, g) := by
  unfold idle at h
  rw [forward, if_pos h]
  rfl

/-- A layer that is not idle multiplies by factors that it draws. -/
theorem forward_active (h : l.idle = false) (x : Tensor) (g : G) :
    l.forward x g = (do
      let mask ← Tensor.dropoutMask x.shape l.p x.dtype
      attempt (x.mul mask) : Action G TensorError Tensor) g := by
  unfold idle at h
  rw [forward, if_neg (by simp [h])]

/-- A layer that would draw words is refused before it draws any. -/
theorem forward_refused {e : TensorError} (h : l.idle = false)
    (he : Tensor.MaskFault x.shape l.p x.dtype e) (g : G) : l.forward x g = (.error e, g) := by
  rw [forward_active h, bind_error (Tensor.dropoutMask_fault x.numel_shape he g)]

/-- A layer that is not idle takes one word for each element and multiplies the
    element by the factor that the word decides on. -/
theorem forward_drawn (h : l.idle = false) (hd : d.isFloat = true)
    (hp : Tensor.isProbability l.p = true) (hx : x.Matches d s) (room : Shape.Allocatable 8 s)
    (g : G) :
    ∃ y, l.forward x g = (.ok y, (WordSource.take s.size g).2) ∧ y.Matches d s ∧
      ∀ idx, Shape.Within idx s → y.entry d idx = x.entry d idx
        * Scalar.ofFloat (keepFactor l.p ((WordSource.take s.size g).1.getD (s.ravel idx) 0)) := by
  rcases Tensor.dropoutMask_ok hd hp room g with ⟨mask, hmask, hmaskM, hmaskE⟩
  rcases Tensor.combine_ok (fun _ x y => x * y) [] hx hmaskM with ⟨y, hy, hyM, hyE⟩
  have hmul : x.mul mask = .ok y := hy
  refine ⟨y, ?_, hyM, fun idx hidx => ?_⟩
  · rw [forward_active h, hx.shape, hx.dtype, bind_ok hmask, hmul]
    rfl
  · rw [← hmaskE idx hidx]
    exact hyE [] idx trivial hidx

/-- Wherever there is room for the words of a draw, the result has the kind and
    the shape of the input. -/
theorem forward_matches (l : Dropout) (hd : d.isFloat = true)
    (hp : Tensor.isProbability l.p = true) (hx : x.Matches d s) (room : Shape.Allocatable 8 s)
    (g : G) : ∃ y g', l.forward x g = (.ok y, g') ∧ y.Matches d s := by
  cases h : l.idle with
  | true => exact ⟨x, g, forward_idle h x g, hx⟩
  | false =>
    rcases forward_drawn h hd hp hx room g with ⟨y, hy, hyM, -⟩
    exact ⟨y, _, hy, hyM⟩

/-- Whenever a layer succeeds, it has kept kind and shape, and every element is what
    it was or has been multiplied by the factor of some word. -/
theorem forward_entries {y : Tensor} {g g' : G} (hd : d.isFloat = true) (hx : x.Matches d s)
    (h : l.forward x g = (.ok y, g')) :
    y.Matches d s ∧ ∀ idx, Shape.Within idx s → y.entry d idx = x.entry d idx ∨
      Tensor.isProbability l.p = true ∧
        ∃ word, y.entry d idx = x.entry d idx * Scalar.ofFloat (keepFactor l.p word) := by
  cases hidle : l.idle with
  | true =>
    rw [forward_idle hidle] at h
    cases h
    exact ⟨hx, fun idx _ => .inl rfl⟩
  | false =>
    -- The layer succeeds only if the factors were drawn.
    rw [forward_active hidle] at h
    rcases bind_ok_iff.mp h with ⟨mask, g₁, hmask, -⟩
    rw [← forward_active hidle] at h
    rcases Tensor.of_dropoutMask x.numel_shape hmask with ⟨hp, hfits⟩
    have room : Shape.Allocatable 8 s := ⟨hx.room.1, hx.shape ▸ hfits⟩
    rcases forward_drawn hidle hd hp hx room g with ⟨y', hrun, hyM, hyE⟩
    rw [hrun] at h
    cases h
    exact ⟨hyM, fun idx hidx => .inr ⟨hp, _, hyE idx hidx⟩⟩

end Dropout

end GraphAttention
