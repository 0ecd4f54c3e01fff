import GraphAttention.Proofs.Attention.Heads

/-!
# The Stages of Attention

What each stage of an attention module does to the entries. A stage is a few
reshapes and reorderings around one operation, and its theorem says where an
entry of the result comes from in terms of batch, head and node, with the folded
axis written as `b * numHeads + h`. The index arithmetic is done here and does
not come up again.

The room for every array that is made on the way follows from the room of the
features and of the scores `[batch, heads, n, n]`. The first is there, since the
features are a tensor. The second may be missing when there are many nodes.

## Theorems

* `splitHeads_ok`, `mergeHeads_ok`: Dividing features among heads, and back.
* `project_ok`: Queries, keys and values divided among the heads.
* `scores_ok`, `scores_error`: The products of queries and keys.
* `withBias_some`, `withBias_shape`, `withBias_kind`: What becomes of a bias.
* `withBias_ok`, `withMask_ok`: Bias and mask in the scores.
* `weights_ok`: The softmax over the keys.
* `combine_ok`: The values averaged by weights, merged and projected.
-/

namespace GraphAttention

namespace Attention

variable {a : Attention} {d : DType} {batch n : Nat}

/-- There is room for features divided among heads wherever there is room for
    the features. -/
theorem WellFormed.room_split (ha : a.WellFormed) {width : Nat}
    (room : Shape.Allocatable width [batch, n, a.featSize]) :
    Shape.Allocatable width [batch, n, a.numHeads, a.headDim] := by
  rw [ha.featSize_eq] at room
  exact Shape.allocatable_divide ha.heads_pos ha.headDim_pos room

/-- The same with the head before the node. -/
theorem WellFormed.room_heads (ha : a.WellFormed) {width : Nat}
    (room : Shape.Allocatable width [batch, n, a.featSize]) :
    Shape.Allocatable width [batch, a.numHeads, n, a.headDim] :=
  Shape.allocatable_swap.mp (ha.room_split room)

/-- Component `c` of head `h` is feature `h * headDim + c`. -/
theorem splitHeads_ok (ha : a.WellFormed) {t : Tensor} (ht : t.Matches d [batch, n, a.featSize]) :
    ∃ r, a.splitHeads batch n t = .ok r ∧ r.Matches d [batch * a.numHeads, n, a.headDim] ∧
      ∀ b h i c, b < batch → h < a.numHeads → i < n → c < a.headDim →
        r.entry d [b * a.numHeads + h, i, c] = t.entry d [b, i, h * a.headDim + c] :=
  splitHeads_divided ha.featSize_eq (ha.room_split ht.room).1 ht

/-- Merging puts the components where splitting took them from. -/
theorem mergeHeads_ok (ha : a.WellFormed) {t : Tensor}
    (room : Shape.Allocatable d.width [batch, n, a.featSize])
    (ht : t.Matches d [batch * a.numHeads, n, a.headDim]) :
    ∃ r, a.mergeHeads batch n t = .ok r ∧ r.Matches d [batch, n, a.featSize] ∧
      ∀ b h i c, b < batch → h < a.numHeads → i < n → c < a.headDim →
        r.entry d [b, i, h * a.headDim + c] = t.entry d [b * a.numHeads + h, i, c] :=
  mergeHeads_divided ha.featSize_eq (ha.room_heads room).1 ht

/-- The products of queries and keys, with the head last. -/
theorem scores_ok (hd : d ≠ .uint8) {q k : Tensor}
    (room : Shape.Allocatable d.width [batch, a.numHeads, n, n])
    (hq : q.Matches d [batch * a.numHeads, n, a.headDim])
    (hk : k.Matches d [batch * a.numHeads, n, a.headDim]) :
    ∃ s, a.scores batch n q k = .ok s ∧ s.Matches d [batch, n, n, a.numHeads] ∧
      ∀ b h i j, b < batch → h < a.numHeads → i < n → j < n →
        s.entry d [b, i, j, h] = sumRange a.headDim fun c =>
          q.entry d [b * a.numHeads + h, i, c] * k.entry d [b * a.numHeads + h, j, c] := by
  rcases Tensor.transpose_ok hk with ⟨kt, hkt, hktM, hktE⟩
  rcases Tensor.bmm_ok hd hq hktM
    (Shape.allocatable_fold (by simp [Shape.maxSpan]) room) with ⟨r₁, hr₁, hM₁, hE₁⟩
  rcases headsLast_divided room.1 hM₁ with ⟨r₂, hr₂, hM₂, hE₂⟩
  refine ⟨r₂, ?_, hM₂, ?_⟩
  · simp only [scores_eq, hkt, hr₁, hr₂, bind, Except.bind]
  · intro b h i j hb hh hi hj
    have hfold := Shape.fold_lt hb hh
    rw [hE₂ b h i j hb hh hi hj, hE₁ _ _ _ hfold hi hj]
    exact sumRange_congr fun c hc => by rw [hktE _ _ _ hfold hj hc]

/-- Without room for the scores of all heads there are none. -/
theorem scores_error (hd : d ≠ .uint8) {q k : Tensor}
    (hroom : ¬ Shape.Allocatable d.width [batch, a.numHeads, n, n])
    (hq : q.Matches d [batch * a.numHeads, n, a.headDim])
    (hk : k.Matches d [batch * a.numHeads, n, a.headDim]) :
    ∃ e, a.scores batch n q k = .error e := by
  rcases Tensor.transpose_ok hk with ⟨kt, hkt, hktM, -⟩
  -- The products may have room where their unfolded form has none.
  by_cases hfold : Shape.Allocatable d.width [batch * a.numHeads, n, n]
  · rcases Tensor.bmm_ok hd hq hktM hfold with ⟨r, hr, hM, -⟩
    have hsize : Shape.size [batch, a.numHeads, n, n] = Shape.size [batch * a.numHeads, n, n] := by
      simp [Nat.mul_assoc]
    -- The bytes are the same, so it is the span that is too large.
    have hspan : ¬ Shape.Addressable [batch, a.numHeads, n, n] :=
      fun h => hroom ⟨h, (Shape.fits_congr hsize).mpr hfold.2⟩
    refine ⟨.invalidOperation .spanIncompatible, ?_⟩
    simp only [scores_eq, hkt, hr, headsLast_error hM hspan, bind, Except.bind]
  · have hbmm := Tensor.bmm_unaddressable hd hq hktM hfold
    refine ⟨.unaddressable [batch * a.numHeads, n, n], ?_⟩
    simp only [scores, hkt, hbmm, bind, Except.bind]

/-- A bias of the kind and the shape of the scores goes into every one of them. -/
theorem withBias_some {s u : Tensor} (hs : s.Matches d [batch, n, n, a.numHeads])
    (hu : u.Matches d [batch, n, n, a.numHeads]) :
    ∃ r, a.withBias batch n s (some u) = .ok r ∧ r.Matches d [batch, n, n, a.numHeads] ∧
      ∀ idx, Shape.Within idx [batch, n, n, a.numHeads] →
        r.entry d idx = match a.biasMode with
          | .add => s.entry d idx + u.entry d idx
          | .mul => s.entry d idx * u.entry d idx := by
  have hensure := Tensor.ensureShape_ok hu.shape
  unfold withBias
  simp only [hensure, bind, Except.bind]
  -- The two modes differ in the operation alone.
  cases a.biasMode with
  | add =>
    rcases Tensor.combine_ok (fun _ x y => x + y) [] hs hu with ⟨r, hr, hM, hE⟩
    exact ⟨r, hr, hM, fun idx hidx => hE [] idx trivial hidx⟩
  | mul =>
    rcases Tensor.combine_ok (fun _ x y => x * y) [] hs hu with ⟨r, hr, hM, hE⟩
    exact ⟨r, hr, hM, fun idx hidx => hE [] idx trivial hidx⟩

/-- A bias of another shape is refused by its shape alone. -/
theorem withBias_shape {s u : Tensor} (hu : u.shape ≠ [batch, n, n, a.numHeads]) :
    a.withBias batch n s (some u)
      = .error (.shapeMismatch [batch, n, n, a.numHeads] u.shape) := by
  simp only [withBias, Tensor.ensureShape_error hu, bind, Except.bind]

/-- A bias of another kind is refused by its kind alone. -/
theorem withBias_kind {s u : Tensor} (hu : u.shape = [batch, n, n, a.numHeads])
    (hd : u.dtype ≠ s.dtype) :
    a.withBias batch n s (some u) = .error (.typeMismatch s.dtype u.dtype) := by
  have helements := Tensor.elements_error hd
  unfold withBias
  simp only [Tensor.ensureShape_ok hu, bind, Except.bind]
  cases a.biasMode with
  | add => simp only [Tensor.add, Tensor.combine, helements, bind, Except.bind]
  | mul => simp only [Tensor.mul, Tensor.combine, helements, bind, Except.bind]

/-- The bias of a pair and head goes into its score. -/
theorem withBias_ok {s : Tensor} {bias : Option Tensor}
    (hs : s.Matches a.dtype [batch, n, n, a.numHeads])
    (hbias : ∀ t, bias = some t → t.Matches a.dtype [batch, n, n, a.numHeads]) :
    ∃ r, a.withBias batch n s bias = .ok r ∧ r.Matches a.dtype [batch, n, n, a.numHeads] ∧
      ∀ b h i j, b < batch → h < a.numHeads → i < n → j < n →
        r.entry a.dtype [b, i, j, h] = a.biasedAt bias b h i j (s.entry a.dtype [b, i, j, h]) := by
  cases bias with
  | none => exact ⟨s, rfl, hs, fun _ _ _ _ _ _ _ _ => rfl⟩
  | some t =>
    rcases withBias_some hs (hbias t rfl) with ⟨r, hr, hM, hE⟩
    exact ⟨r, hr, hM, fun b h i j hb hh hi hj => hE [b, i, j, h] (by simp [hb, hh, hi, hj])⟩

/-- The score of a hidden pair is overwritten in every head. -/
theorem withMask_ok (hd : d.isFloat = true) {heads : Nat} {s : Tensor} {mask : Option Tensor}
    (hs : s.Matches d [batch, n, n, heads])
    (hmask : ∀ m, mask = some m → m.shape = [batch, n, n]) :
    ∃ r, withMask batch n s mask = .ok r ∧ r.Matches d [batch, n, n, heads] ∧
      ∀ b h i j, b < batch → h < heads → i < n → j < n →
        r.entry d [b, i, j, h]
          = if hides mask [b, i, j] then d.negInf else s.entry d [b, i, j, h] := by
  cases mask with
  | none => exact ⟨s, rfl, hs, fun _ _ _ _ _ _ _ _ => rfl⟩
  | some m =>
    have hm := hmask m rfl
    have hensure := Tensor.ensureShape_ok hm
    rcases Tensor.maskedFill_ok hd [batch, n, n] [heads]
      (-1 / 0) hs hm with ⟨r, hr, hM, hE⟩
    -- What is filled in is the cast of a quotient, which is negative infinity.
    rw [DType.ofFloat_negInf hd] at hE
    refine ⟨r, ?_, hM, ?_⟩
    · simp only [withMask, hensure, hr, bind, Except.bind]
    · intro b h i j hb hh hi hj
      exact hE [b, i, j] [h] (by simp [hb, hi, hj]) (by simp [hh])

/-- The weights of a query in a head are the softmax of its scores. -/
theorem weights_ok (hd : d.isFloat = true) {s : Tensor}
    (hs : s.Matches d [batch, n, n, a.numHeads]) :
    ∃ w, a.weights batch n s = .ok w ∧ w.Matches d [batch * a.numHeads, n, n] ∧
      ∀ b h i j, b < batch → h < a.numHeads → i < n → j < n →
        w.entry d [b * a.numHeads + h, i, j]
          = (d.softmaxLane ((List.range n).map fun k => s.entry d [b, i, k, h])).getD j
              default := by
  rcases Tensor.softmax_ok hd [batch, n] [a.numHeads] hs with ⟨r₁, hr₁, hM₁, hE₁⟩
  rcases headsFirst_divided hM₁ with ⟨r₂, hr₂, hM₂, hE₂⟩
  refine ⟨r₂, ?_, hM₂, ?_⟩
  · have hsoftmax : s.softmax 2 = .ok r₁ := hr₁
    simp only [weights_eq, hsoftmax, hr₂, bind, Except.bind]
  · intro b h i j hb hh hi hj
    rw [hE₂ b h i j hb hh hi hj]
    exact hE₁ [b, i] j [h] (by simp [hb, hi]) hj (by simp [hh])

theorem WellFormed.ne_uint8 (ha : a.WellFormed) : a.dtype ≠ .uint8 := by
  intro h
  have hfloat := ha.isFloat
  rw [h] at hfloat
  cases hfloat

/-- Each projection of a module maps features to features, node by node. -/
theorem WellFormed.projection_ok (ha : a.WellFormed) {l : Linear} (hl : l ∈ a.projections)
    {t : Tensor} (ht : t.Matches a.dtype [batch, n, a.featSize]) :
    ∃ y, l.forward t = .ok y ∧ y.Matches a.dtype [batch, n, a.featSize] ∧
      ∀ b i o, b < batch → i < n → o < a.featSize →
        y.entry a.dtype [b, i, o] = l.apply a.dtype (a.rowAt t b i) o := by
  rcases ha.projection l hl with ⟨hwell, hin, hout⟩
  have hpos : 0 < l.inFeatures := by
    rw [hin, ha.featSize_eq]
    exact Nat.mul_pos ha.heads_pos ha.headDim_pos
  rcases Linear.forward_ok hwell ha.ne_uint8 hpos [batch, n]
    (by rw [hin]; exact ht) (by rw [hout]; exact ht.room) with ⟨y, hy, hM, hE⟩
  rw [hout] at hM hE
  exact ⟨y, hy, hM, fun b i o hb hi ho => hE [b, i] o (by simp [hb, hi]) ho⟩

/-- Queries, keys and values divided among the heads. -/
theorem project_ok (ha : a.WellFormed) {x : Tensor}
    (hx : x.Matches a.dtype [batch, n, a.featSize]) :
    ∃ q k v, a.project batch n x = .ok (q, k, v) ∧
      q.Matches a.dtype [batch * a.numHeads, n, a.headDim] ∧
      k.Matches a.dtype [batch * a.numHeads, n, a.headDim] ∧
      v.Matches a.dtype [batch * a.numHeads, n, a.headDim] ∧
      ∀ b h i c, b < batch → h < a.numHeads → i < n → c < a.headDim →
        q.entry a.dtype [b * a.numHeads + h, i, c]
            = a.queryAt x b i (h * a.headDim + c) * Scalar.ofFloat a.scaling ∧
          k.entry a.dtype [b * a.numHeads + h, i, c] = a.keyAt x b i (h * a.headDim + c) ∧
          v.entry a.dtype [b * a.numHeads + h, i, c] = a.valueAt x b i (h * a.headDim + c) := by
  rcases ha.projection_ok (l := a.query) (by simp [projections]) hx with ⟨q, hq, hqM, hqE⟩
  rcases ha.projection_ok (l := a.key) (by simp [projections]) hx with ⟨k, hk, hkM, hkE⟩
  rcases ha.projection_ok (l := a.value) (by simp [projections]) hx with ⟨v, hv, hvM, hvE⟩
  rcases splitHeads_ok ha (Tensor.scalarMul_matches hqM a.scaling) with ⟨q', hq', hqM', hqE'⟩
  rcases splitHeads_ok ha hkM with ⟨k', hk', hkM', hkE'⟩
  rcases splitHeads_ok ha hvM with ⟨v', hv', hvM', hvE'⟩
  refine ⟨q', k', v', ?_, hqM', hkM', hvM', ?_⟩
  · simp only [project, hq, hk, hv, hq', hk', hv', bind, Except.bind, pure, Except.pure]
  · intro b h i c hb hh hi hc
    -- Component `c` of head `h` is a feature, so the projections are known there.
    have ho : h * a.headDim + c < a.featSize := by
      rw [ha.featSize_eq]
      exact Shape.fold_lt hh hc
    refine ⟨?_, ?_, ?_⟩
    · rw [hqE' b h i c hb hh hi hc,
        Tensor.entry_scalarMul hqM _ (by simp [hb, hi, ho]), hqE b i _ hb hi ho, queryAt]
    · rw [hkE' b h i c hb hh hi hc, hkE b i _ hb hi ho, keyAt]
    · rw [hvE' b h i c hb hh hi hc, hvE b i _ hb hi ho, valueAt]

/-- The values averaged by weights, merged and projected. -/
theorem combine_ok (ha : a.WellFormed) {w v : Tensor}
    (room : Shape.Allocatable a.dtype.width [batch, n, a.featSize])
    (hw : w.Matches a.dtype [batch * a.numHeads, n, n])
    (hv : v.Matches a.dtype [batch * a.numHeads, n, a.headDim]) :
    ∃ out, a.combine batch n w v = .ok out ∧ out.Matches a.dtype [batch, n, a.featSize] ∧
      ∀ b i o, b < batch → i < n → o < a.featSize →
        out.entry a.dtype [b, i, o] = a.output.apply a.dtype (fun k => sumRange n fun j =>
          w.entry a.dtype [b * a.numHeads + k / a.headDim, i, j]
            * v.entry a.dtype [b * a.numHeads + k / a.headDim, j, k % a.headDim]) o := by
  rcases Tensor.bmm_ok ha.ne_uint8 hw hv
    (Shape.allocatable_fold (by simp [Shape.maxSpan]) (ha.room_heads room)) with ⟨r, hr, hrM, hrE⟩
  rcases mergeHeads_ok ha room hrM with ⟨m, hm, hmM, hmE⟩
  rcases ha.projection_ok (l := a.output) (by simp [projections]) hmM with ⟨out, hout, houtM, houtE⟩
  refine ⟨out, ?_, houtM, ?_⟩
  · simp only [combine, hr, hm, hout, bind, Except.bind]
  · intro b i o hb hi ho
    rw [houtE b i o hb hi ho]
    refine Linear.apply_congr (fun k hk => ?_) o
    rw [(ha.projection a.output (by simp [projections])).2.1, ha.featSize_eq] at hk
    -- Feature `k` is a component of one head.
    have hhead : k / a.headDim < a.numHeads := (Nat.div_lt_iff_lt_mul ha.headDim_pos).mpr hk
    have hcomp : k % a.headDim < a.headDim := Nat.mod_lt _ ha.headDim_pos
    have hfeature : k / a.headDim * a.headDim + k % a.headDim = k := Nat.div_add_mod' _ _
    have hmerged := hmE b (k / a.headDim) i (k % a.headDim) hb hhead hi hcomp
    rw [hfeature] at hmerged
    exact hmerged.trans (hrE _ _ _ (Shape.fold_lt hb hhead) hi hcomp)

end Attention

end GraphAttention
