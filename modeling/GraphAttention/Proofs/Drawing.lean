import GraphAttention.Proofs.Entries
import GraphAttention.Proofs.Fitting
import GraphAttention.Proofs.Projection
import GraphAttention.Tensor.Random

/-!
# Kinds and Shapes of Drawn Tensors

A tensor that is drawn, if it is drawn at all, has the kind and the shape that
were asked for. Of what its elements are little is said: normal samples are finite
where those of the source are. Layers put together from drawn tensors are therefore
well-formed, and drawing their weights anew keeps them so, because data of a
parameter can only be replaced by data of the same kind and shape.

As many numbers are drawn as the shape is counted to need. A tensor that comes of
it has as many elements, so the count was right.

## Main definitions

* `NormalSource.Finite`: A source whose normal samples are finite, rounded or not.

## Theorems

* `Tensor.ofElements_matches`, `Tensor.filled_matches`: Tensors made of elements.
* `Tensor.ensureGatherable_ok`, `Tensor.ensureGatherable_error`: Room for what is drawn.
* `Tensor.randNormal_yields`, `Tensor.randNormal_finite`, `Tensor.randNormal_ok`: Normal
  samples.
* `Tensor.xavierUniform_yields`, `Tensor.xavierUniform_isFloat`: Weight matrices.
* `Linear.build_yields`, `Linear.build_isFloat`, `Linear.resetXavier_keeps`: Layers are
  well-formed and of a floating kind when they are built, and stay so when they are
  drawn anew.
-/

namespace GraphAttention

open GraphAttention.Action

/-- The normal samples of a source are finite, as numbers of either floating kind. -/
def NormalSource.Finite (G : Type) [NormalSource G] : Prop :=
  ∀ (g : G) (d : DType), d.isFloat = true →
    Scalar.isFinite (Scalar.ofFloat (NormalSource.nextNormal g).1 : d.Elem) = true

/-- What holds of whatever a source hands out next holds of all that is drawn. -/
theorem forall_mem_drawEach {G α : Type} {next : G → α × G} {P : α → Prop}
    (h : ∀ g, P (next g).1) (n : Nat) (g : G) : ∀ x ∈ (drawEach next n g).1, P x := by
  unfold drawEach
  induction n with
  | zero => exact fun x hx => absurd hx (Array.not_mem_empty x)
  | succ n ih =>
    intro x hx
    rw [Nat.fold_succ] at hx
    rcases Array.mem_push.mp hx with hx | rfl
    · exact ih x hx
    · exact h _

namespace Tensor

variable {G : Type} [WordSource G] {d : DType} {s : Shape} {t : Tensor}

theorem ofElements_matches {data : Array d.Elem} (h : ofElements d data s = .ok t) :
    t.Matches d s := by
  rcases ofElements_eq_ok_iff.mp h with ⟨_, _, rfl⟩
  exact ⟨rfl, rfl⟩

theorem entry_ofElements {data : Array d.Elem} (h : ofElements d data s = .ok t) (idx : Index) :
    t.entry d idx = data.getD (s.ravel idx) default := by
  rcases ofElements_eq_ok_iff.mp h with ⟨_, _, rfl⟩
  exact entry_mk _ _ idx

/-- There is room to gather as many numbers as an array of them could hold. -/
theorem ensureGatherable_ok (room : Shape.Allocatable 8 s) :
    ensureGatherable s.numel s = .ok () := by
  have hsize : Shape.size s = Shape.size [s.numel] := by
    rw [Shape.numel_of_addressable room.1, Shape.size_cons, Shape.size_nil, Nat.mul_one]
  exact if_pos ((Shape.fits_congr hsize).mp room.2)

/-- There is none for numbers that do not fit, if they are counted right. -/
theorem ensureGatherable_error (hcount : s.numel = s.size) (hfits : ¬ Shape.Fits 8 s) :
    ensureGatherable s.numel s = .error (.unaddressable s) := by
  have hsize : Shape.size [s.numel] = Shape.size s := by
    rw [hcount, Shape.size_cons, Shape.size_nil, Nat.mul_one]
  rw [← Shape.fits_congr hsize] at hfits
  exact if_neg hfits

/-- Where numbers for the elements of an array could be gathered, they fit. -/
theorem fits_of_gatherable {u : Unit} (hspan : Shape.Addressable s)
    (h : ensureGatherable s.numel s = .ok u) : Shape.Fits 8 s := by
  by_contra hfits
  rw [ensureGatherable_error (Shape.numel_of_addressable hspan) hfits] at h
  cases h

theorem filled_matches {x : d.Elem} (h : filled d s x = .ok t) : t.Matches d s := by
  unfold filled at h
  by_cases room : Shape.Allocatable d.width s
  · rw [ensureAllocatable_ok room] at h
    cases h
    exact ⟨rfl, rfl⟩
  · rw [ensureAllocatable_error room] at h
    cases h

theorem randUniform_yields (low high : Float) :
    Yields (randUniform s low high d : Action G TensorError Tensor) (Matches · d s) := by
  have hsamples : ∀ range : UniformRange, Yields (do
      attempt (ensureGatherable s.numel s)
      let words ← drawWords s.numel
      attempt (ofFloats (words.map range.sample) s d) : Action G TensorError Tensor)
      (Matches · d s) := fun range =>
    Yields.after fun _ => Yields.after fun _ =>
      yields_attempt fun t ht => ofElements_matches ht
  unfold randUniform
  refine Yields.after fun _ => ?_
  dsimp only
  -- Whether the range is empty is asked first, and what follows does not depend on it.
  cases UniformRange.ofBounds? low high with
  | none =>
    split
    · exact Yields.after fun _ => yields_throw _
    · exact yields_throw _
  | some range =>
    split
    · exact Yields.after fun _ => hsamples range
    · exact hsamples range

/-- Only floating kinds are drawn. -/
theorem isFloat_of_requireFloat {u : Unit} (h : requireFloat d = .ok u) : d.isFloat = true := by
  by_contra hd
  rw [requireFloat, if_neg hd] at h
  cases h

theorem xavierUniform_isFloat (gain : Float) :
    Yields (xavierUniform s gain d : Action G TensorError Tensor) fun _ => d.isFloat = true := by
  unfold xavierUniform
  split
  · refine Yields.bind (yields_attempt fun _ h => isFloat_of_requireFloat h) fun _ hd => ?_
    exact fun _ _ _ _ => hd
  · exact yields_throw _

theorem xavierUniform_yields (gain : Float) :
    Yields (xavierUniform s gain d : Action G TensorError Tensor) (Matches · d s) := by
  unfold xavierUniform
  split
  · refine Yields.after fun _ => ?_
    split
    · exact yields_attempt fun t ht => filled_matches ht
    · dsimp only
      split
      · exact yields_attempt fun t ht => filled_matches ht
      · exact randUniform_yields _ _
  · exact yields_throw _

/-! ### Normal samples -/

/-- Standard normal samples are drawn for a floating kind with room for the numbers. -/
theorem randNormal_yields {G : Type} [NormalSource G] (s : Shape) (d : DType) :
    Yields (randNormal s d : Action G TensorError Tensor) fun t =>
      d.isFloat = true ∧ Shape.Fits 8 s ∧ t.Matches d s := by
  unfold randNormal
  refine Yields.bind (yields_attempt fun _ h => isFloat_of_requireFloat h) fun _ hd => ?_
  refine Yields.bind (yields_attempt fun _ h => h) fun _ hgather => ?_
  refine Yields.after fun samples => yields_attempt fun t ht => ?_
  have hmatch := ofElements_matches ht
  exact ⟨hd, fits_of_gatherable hmatch.room.1 hgather, hmatch⟩

/-- They are finite if those of the source are. -/
theorem randNormal_finite {G : Type} [NormalSource G] (hsamples : NormalSource.Finite G)
    (s : Shape) (d : DType) :
    Yields (randNormal s d : Action G TensorError Tensor) fun t =>
      ∀ idx, Shape.Within idx s → Scalar.isFinite (t.entry d idx) = true := by
  unfold randNormal
  refine Yields.bind (yields_attempt fun _ h => isFloat_of_requireFloat h) fun _ hd => ?_
  refine Yields.after fun _ => ?_
  have hdraw : Yields (drawNormals s.numel : Action G TensorError (Array Float))
      fun samples => ∀ x ∈ samples, Scalar.isFinite (Scalar.ofFloat x : d.Elem) = true := by
    intro g samples g' hrun
    cases hrun
    exact forall_mem_drawEach (fun g => hsamples g d hd) s.numel g
  refine Yields.bind hdraw fun samples hfinite => yields_attempt fun t ht idx hidx => ?_
  rcases ofElements_eq_ok_iff.mp ht with ⟨hsize, -, -⟩
  -- The position of an index is that of a sample.
  have hlt : s.ravel idx < samples.size := by
    rw [← Array.size_map (f := Scalar.ofFloat (α := d.Elem)), hsize]
    exact Shape.ravel_lt hidx
  rw [entry_ofElements ht]
  simpa [hlt] using hfinite samples[s.ravel idx] (Array.getElem_mem hlt)

theorem randNormal_ok {G : Type} [NormalSource G] (hd : d.isFloat = true)
    (hgather : Shape.Fits 8 s) (room : Shape.Allocatable d.width s) (g : G) :
    ∃ t g', randNormal s d g = (.ok t, g') := by
  have hfloat : requireFloat d = .ok () := if_pos hd
  have hfits := ensureGatherable_ok ⟨room.1, hgather⟩
  have hdraw : drawNormals s.numel g
      = (.ok (NormalSource.take s.numel g).1, (NormalSource.take s.numel g).2) := rfl
  let data : Array d.Elem := (NormalSource.take s.numel g).1.map Scalar.ofFloat
  have hsize : data.size = s.size := by
    simp [data, NormalSource.take, Shape.numel_of_addressable room.1]
  have hcast : ofFloats (NormalSource.take s.numel g).1 s d = .ok ⟨d, ⟨s, data, hsize⟩, room⟩ :=
    ofElements_ok hsize room
  refine ⟨⟨d, ⟨s, data, hsize⟩, room⟩, (NormalSource.take s.numel g).2, ?_⟩
  simp only [randNormal, run_bind, run_attempt, hfloat, hfits, hdraw, hcast]

end Tensor

namespace Linear

variable {G : Type} [WordSource G]

theorem build_yields (inFeatures outFeatures : Nat) (bias : Bool) (d : DType) :
    Yields (build inFeatures outFeatures bias d : Action G TensorError Linear) fun l =>
      l.WellFormed d ∧ l.inFeatures = inFeatures ∧ l.outFeatures = outFeatures := by
  unfold build
  refine Yields.bind (Tensor.xavierUniform_yields 1) fun weight hweight => ?_
  cases bias with
  | true =>
    refine Yields.bind (yields_attempt fun t ht => Tensor.filled_matches ht) fun zeros hzeros => ?_
    refine yields_pure ⟨⟨hweight, fun b hb => ?_⟩, rfl, rfl⟩
    cases hb
    exact hzeros
  | false => exact yields_pure ⟨⟨hweight, fun b hb => by cases hb⟩, rfl, rfl⟩

/-- A layer is built of a floating kind or not at all. -/
theorem build_isFloat (inFeatures outFeatures : Nat) (bias : Bool) (d : DType) :
    Yields (build inFeatures outFeatures bias d : Action G TensorError Linear) fun _ =>
      d.isFloat = true := by
  unfold build
  exact Yields.bind (Tensor.xavierUniform_isFloat 1) fun _ hd _ _ _ _ => hd

/-- A layer stays well-formed when it is drawn anew, also where that fails. -/
theorem resetXavier_keeps (gain : Float) (d : DType) (m n : Nat) :
    Keeps (resetXavier gain : Action (Linear × G) TensorError Unit) fun s =>
      s.1.WellFormed d ∧ s.1.inFeatures = m ∧ s.1.outFeatures = n := by
  refine Keeps.get_bind fun (l, g) hl => ?_
  rcases hl with ⟨hwell, rfl, rfl⟩
  -- The draw changes the source alone, and the two replacements are checked ones.
  refine Keeps.bind ?_ fun weight => Keeps.bind ?_ fun _ => ?_
  · exact Keeps.zoom (R := fun _ => True) (fun _ _ => trivial) (fun _ _ => trivial)
      fun s _ hs _ => hs
  · refine Keeps.zoom (Parameter.setData_keeps weight d [l.inFeatures, l.outFeatures]) ?_ ?_
    · intro s hs
      rw [← hs.2.1, ← hs.2.2]
      exact ⟨hs.1.weight.dtype, hs.1.weight.shape⟩
    · intro s p hs hp
      refine ⟨⟨?_, hs.1.bias⟩, hs.2⟩
      rw [hs.2.1, hs.2.2]
      exact ⟨hp.1, hp.2⟩
  · split
    · exact keeps_pure _
    · rename_i bias hbias
      refine Keeps.bind (keeps_attempt _) fun zeros => ?_
      refine Keeps.zoom (Parameter.setData_keeps zeros d [l.outFeatures]) ?_ ?_
      · exact fun _ _ => ⟨(hwell.bias bias hbias).dtype, (hwell.bias bias hbias).shape⟩
      · intro s p hs hp
        refine ⟨⟨hs.1.weight, fun b hb => ?_⟩, hs.2⟩
        cases hb
        rw [hs.2.2]
        exact ⟨hp.1, hp.2⟩

end Linear

end GraphAttention
