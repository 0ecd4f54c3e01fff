import GraphAttention.Proofs.Attention.Reference
import GraphAttention.Proofs.Reordering

/-!
# Heads Split and Merged

Attention takes the features of a node apart into heads and puts them together
again, and it moves the heads of the scores to the end and back. Each of the four
is a reshape and a reordering, and each of the two pairs undoes itself: a reshape
back to a shape that a tensor had restores it, and so does the inverse order. The
order that brings the heads to the end is no involution. It is undone by the order
that `weights` uses and by no other.

Dividing an axis may ask for room that folding it does not. With as many heads as
there are components, and neither zero, there is none to find. When one of them is
zero the features are empty, the other may have any length, and the divided shape
may be too long to be addressed. Then there is nothing to merge.

## Main definitions

* `Attention.headsLast`: Scores with the head as their last axis.
* `Attention.headsFirst`: Scores with batch and head as one axis.

## Theorems

* `scores_eq`, `weights_eq`: Where an attention module uses them.
* `splitHeads_divided`, `mergeHeads_divided`: The entries of divided and merged features.
* `headsLast_divided`, `headsFirst_divided`: The entries of scores in either form.
* `splitHeads_ok_iff`, `mergeHeads_ok_iff`, `headsLast_ok_iff`: When there is a result.
* `mergeHeads_splitHeads`, `splitHeads_mergeHeads`: Merging undoes splitting, and conversely.
* `headsFirst_headsLast`: The second pair.
* `heads_invertible`: Both pairs, for all sizes.
-/

namespace GraphAttention

namespace Shape

variable {batch n heads dim width : Nat}

/-- The last axis comes to the front, and what it is made of goes back to the end. -/
theorem allocatable_join (room : Allocatable width [batch, n, heads, dim]) :
    Allocatable width [batch, n, heads * dim] := by
  have hfront : Allocatable width [heads, dim, batch, n] :=
    allocatable_perm (@List.perm_append_comm _ [batch, n] [_, _]) room
  have hfold := allocatable_fold (by simp [maxSpan]) hfront
  exact allocatable_perm (@List.perm_append_comm _ [_] [batch, n]) hfold

/-- The other way round there is room if neither part is zero. -/
theorem allocatable_divide (hheads : 0 < heads) (hdim : 0 < dim)
    (room : Allocatable width [batch, n, heads * dim]) :
    Allocatable width [batch, n, heads, dim] := by
  have hfront : Allocatable width [heads * dim, batch, n] :=
    allocatable_perm (@List.perm_append_comm _ [batch, n] [_]) room
  have hunfold := allocatable_unfold hheads hdim (by simp [maxSpan]) hfront
  exact allocatable_perm (@List.perm_append_comm _ [_, _] [batch, n]) hunfold

/-- Which of the two middle axes comes first does not matter for the room. -/
theorem allocatable_swap :
    Allocatable width [batch, n, heads, dim] ↔ Allocatable width [batch, heads, n, dim] :=
  ⟨allocatable_perm (.cons _ (.swap _ _ _)), allocatable_perm (.cons _ (.swap _ _ _))⟩

end Shape

namespace Tensor

variable {t r : Tensor} {s u : Shape} {p : List Nat}

/-- Another shape, another order and a third shape. -/
def refold (s : Shape) (p : List Nat) (u : Shape) (t : Tensor) : Except TensorError Tensor := do
  let t ← t.reshape s
  let t ← t.permute p
  t.reshape u

/-- A reshape and a reordering are undone from the last to the first. -/
theorem unfold_back {r : Tensor} (h : (t.reshape s >>= fun v => v.permute p) = .ok r) :
    (r.permute (Shape.inverseAxes p) >>= fun v => v.reshape t.shape) = .ok t := by
  rcases bind_eq_ok.mp h with ⟨v, hv, hr⟩
  exact bind_eq_ok.mpr ⟨v, permute_inverse hr, reshape_back hv⟩

/-- So are they with a reshape after them. -/
theorem refold_back (h : refold s p u t = .ok r) :
    refold (Shape.reorder p s) (Shape.inverseAxes p) t.shape r = .ok t := by
  rcases bind_eq_ok.mp h with ⟨v, hv, h⟩
  rcases bind_eq_ok.mp h with ⟨w, hw, hr⟩
  have hshape : w.shape = Shape.reorder p s := by
    rw [(permute_result hw).2.shape, (reshape_result hv).2.shape]
    rfl
  have hunfold := reshape_back hr
  rw [hshape] at hunfold
  exact bind_eq_ok.mpr ⟨w, hunfold, unfold_back (bind_eq_ok.mpr ⟨v, hv, hw⟩)⟩

end Tensor

namespace Attention

variable {a : Attention} {d : DType} {batch n : Nat} {t r : Tensor}

/-- Scores with batch and head as one axis, in the form with the head last. -/
def headsLast (a : Attention) (batch n : Nat) (t : Tensor) : Except TensorError Tensor := do
  let t ← t.reshape [batch, a.numHeads, n, n]
  t.permute [0, 2, 3, 1]

/-- Scores with the head last, in the form with batch and head as one axis. -/
def headsFirst (a : Attention) (batch n : Nat) (t : Tensor) : Except TensorError Tensor := do
  let t ← t.permute [0, 3, 1, 2]
  t.reshape [batch * a.numHeads, n, n]

/-- The products of queries and keys, with the head last. -/
theorem scores_eq (q k : Tensor) :
    a.scores batch n q k = (do a.headsLast batch n (← q.bmm (← k.transpose 1 2))) := by
  simp only [scores, headsLast]

/-- The softmax of scores, with batch and head as one axis again. -/
theorem weights_eq (s : Tensor) :
    a.weights batch n s = (do a.headsFirst batch n (← s.softmax 2)) :=
  rfl

/-! ### Entries -/

/-- Component `c` of head `h` is feature `h * headDim + c`. -/
theorem splitHeads_divided (hfeat : a.featSize = a.numHeads * a.headDim)
    (hspan : Shape.Addressable [batch, n, a.numHeads, a.headDim])
    (ht : t.Matches d [batch, n, a.featSize]) :
    ∃ r, a.splitHeads batch n t = .ok r ∧ r.Matches d [batch * a.numHeads, n, a.headDim] ∧
      ∀ b h i c, b < batch → h < a.numHeads → i < n → c < a.headDim →
        r.entry d [b * a.numHeads + h, i, c] = t.entry d [b, i, h * a.headDim + c] := by
  rcases Tensor.reshape_ok [batch, n, a.numHeads, a.headDim] ht
    (by simp [hfeat]) hspan with ⟨r₁, hr₁, hM₁, hE₁⟩
  rcases Tensor.permute_ok [0, 2, 1, 3] hM₁ rfl with ⟨r₂, hr₂, hM₂, hE₂⟩
  rcases Tensor.reshape_ok [batch * a.numHeads, n, a.headDim] hM₂
    (by simp [Nat.mul_assoc]) (Shape.allocatable_fold (by simp [Shape.maxSpan]) hM₂.room).1 with
    ⟨r₃, hr₃, hM₃, hE₃⟩
  refine ⟨r₃, ?_, hM₃, ?_⟩
  · simp only [splitHeads, hr₁, hr₂, hr₃, bind, Except.bind]
  · intro b h i c hb hh hi hc
    -- Backwards from the result: unfold batch and head, exchange head and node, merge.
    have hfold := hE₃ [b * a.numHeads + h, i, c] [b, h, i, c]
      (by simp [Shape.ravel]; ring)
    have hswap := hE₂ [b, i, h, c] (by simp [hb, hh, hi, hc])
    have hsplit := hE₁ [b, i, h, c] [b, i, h * a.headDim + c]
      (by simp [Shape.ravel, hfeat])
    exact hfold.trans (hswap.trans hsplit)

/-- Merging puts the components where splitting took them from. -/
theorem mergeHeads_divided (hfeat : a.featSize = a.numHeads * a.headDim)
    (hspan : Shape.Addressable [batch, a.numHeads, n, a.headDim])
    (ht : t.Matches d [batch * a.numHeads, n, a.headDim]) :
    ∃ r, a.mergeHeads batch n t = .ok r ∧ r.Matches d [batch, n, a.featSize] ∧
      ∀ b h i c, b < batch → h < a.numHeads → i < n → c < a.headDim →
        r.entry d [b, i, h * a.headDim + c] = t.entry d [b * a.numHeads + h, i, c] := by
  rcases Tensor.reshape_ok [batch, a.numHeads, n, a.headDim] ht
    (by simp [Nat.mul_assoc]) hspan with ⟨r₁, hr₁, hM₁, hE₁⟩
  rcases Tensor.permute_ok [0, 2, 1, 3] hM₁ rfl with ⟨r₂, hr₂, hM₂, hE₂⟩
  rcases Tensor.reshape_ok [batch, n, a.featSize] hM₂
    (by simp [hfeat]) (hfeat ▸ (Shape.allocatable_join hM₂.room).1) with ⟨r₃, hr₃, hM₃, hE₃⟩
  refine ⟨r₃, ?_, hM₃, ?_⟩
  · simp only [mergeHeads, hr₁, hr₂, hr₃, bind, Except.bind]
  · intro b h i c hb hh hi hc
    -- The same way as in splitting, walked in the other direction.
    have hmerge := hE₃ [b, i, h * a.headDim + c] [b, i, h, c]
      (by simp [Shape.ravel, hfeat])
    have hswap := hE₂ [b, h, i, c] (by simp [hb, hh, hi, hc])
    have hunfold := hE₁ [b, h, i, c] [b * a.numHeads + h, i, c]
      (by simp [Shape.ravel]; ring)
    exact hmerge.trans (hswap.trans hunfold)

/-- The scores of a pair come together, one for each head. -/
theorem headsLast_divided (hspan : Shape.Addressable [batch, a.numHeads, n, n])
    (ht : t.Matches d [batch * a.numHeads, n, n]) :
    ∃ r, a.headsLast batch n t = .ok r ∧ r.Matches d [batch, n, n, a.numHeads] ∧
      ∀ b h i j, b < batch → h < a.numHeads → i < n → j < n →
        r.entry d [b, i, j, h] = t.entry d [b * a.numHeads + h, i, j] := by
  rcases Tensor.reshape_ok [batch, a.numHeads, n, n] ht
    (by simp [Nat.mul_assoc]) hspan with ⟨r₁, hr₁, hM₁, hE₁⟩
  rcases Tensor.permute_ok [0, 2, 3, 1] hM₁ rfl with ⟨r₂, hr₂, hM₂, hE₂⟩
  refine ⟨r₂, ?_, hM₂, ?_⟩
  · simp only [headsLast, hr₁, hr₂, bind, Except.bind]
  · intro b h i j hb hh hi hj
    -- The head comes from the end to the front, where it is folded with the batch.
    have hlast := hE₂ [b, h, i, j] (by simp [hb, hh, hi, hj])
    have hunfold := hE₁ [b, h, i, j] [b * a.numHeads + h, i, j] (by simp [Shape.ravel]; ring)
    exact hlast.trans hunfold

/-- The scores of a head go back to the head. -/
theorem headsFirst_divided (ht : t.Matches d [batch, n, n, a.numHeads]) :
    ∃ r, a.headsFirst batch n t = .ok r ∧ r.Matches d [batch * a.numHeads, n, n] ∧
      ∀ b h i j, b < batch → h < a.numHeads → i < n → j < n →
        r.entry d [b * a.numHeads + h, i, j] = t.entry d [b, i, j, h] := by
  rcases Tensor.permute_ok [0, 3, 1, 2] ht rfl with ⟨r₁, hr₁, hM₁, hE₁⟩
  rcases Tensor.reshape_ok [batch * a.numHeads, n, n] hM₁
    (by simp [Nat.mul_assoc]) (Shape.allocatable_fold (by simp [Shape.maxSpan]) hM₁.room).1 with
    ⟨r₂, hr₂, hM₂, hE₂⟩
  refine ⟨r₂, ?_, hM₂, ?_⟩
  · simp only [headsFirst, hr₁, hr₂, bind, Except.bind]
  · intro b h i j hb hh hi hj
    have hfold := hE₂ [b * a.numHeads + h, i, j] [b, h, i, j] (by simp [Shape.ravel]; ring)
    have hlast := hE₁ [b, i, j, h] (by simp [hb, hh, hi, hj])
    exact hfold.trans hlast

/-! ### Success -/

/-- Features can be divided wherever the divided shape can be addressed, and nowhere else. -/
theorem splitHeads_ok_iff (hfeat : a.featSize = a.numHeads * a.headDim)
    (ht : t.Matches d [batch, n, a.featSize]) :
    (∃ r, a.splitHeads batch n t = .ok r) ↔
      Shape.Addressable [batch, n, a.numHeads, a.headDim] := by
  constructor
  · rintro ⟨r, hr⟩
    rcases bind_eq_ok.mp hr with ⟨r₁, hr₁, -⟩
    exact (Tensor.reshape_ok_iff.mp ⟨r₁, hr₁⟩).2
  · intro hspan
    rcases splitHeads_divided hfeat hspan ht with ⟨r, hr, -⟩
    exact ⟨r, hr⟩

theorem splitHeads_error (hfeat : a.featSize = a.numHeads * a.headDim)
    (ht : t.Matches d [batch, n, a.featSize])
    (hspan : ¬ Shape.Addressable [batch, n, a.numHeads, a.headDim]) :
    a.splitHeads batch n t = .error (.invalidOperation .spanIncompatible) := by
  have hreshape := Tensor.reshape_incompatible ht (by simp [hfeat]) hspan
  simp only [splitHeads, hreshape, bind, Except.bind]

/-- Features with components can always be divided. -/
theorem addressable_divided (hfeat : a.featSize = a.numHeads * a.headDim)
    (ht : t.Matches d [batch, n, a.featSize]) (hpos : 0 < a.featSize) :
    Shape.Addressable [batch, n, a.numHeads, a.headDim] := by
  have room := ht.room
  rw [hfeat] at hpos room
  exact (Shape.allocatable_divide (Nat.pos_of_mul_pos_right hpos) (Nat.pos_of_mul_pos_left hpos)
    room).1

theorem mergeHeads_ok_iff (hfeat : a.featSize = a.numHeads * a.headDim)
    (ht : t.Matches d [batch * a.numHeads, n, a.headDim]) :
    (∃ r, a.mergeHeads batch n t = .ok r) ↔
      Shape.Addressable [batch, a.numHeads, n, a.headDim] := by
  constructor
  · rintro ⟨r, hr⟩
    rcases bind_eq_ok.mp hr with ⟨r₁, hr₁, -⟩
    exact (Tensor.reshape_ok_iff.mp ⟨r₁, hr₁⟩).2
  · intro hspan
    rcases mergeHeads_divided hfeat hspan ht with ⟨r, hr, -⟩
    exact ⟨r, hr⟩

theorem headsLast_ok_iff (ht : t.Matches d [batch * a.numHeads, n, n]) :
    (∃ r, a.headsLast batch n t = .ok r) ↔ Shape.Addressable [batch, a.numHeads, n, n] := by
  constructor
  · rintro ⟨r, hr⟩
    rcases bind_eq_ok.mp hr with ⟨r₁, hr₁, -⟩
    exact (Tensor.reshape_ok_iff.mp ⟨r₁, hr₁⟩).2
  · intro hspan
    rcases headsLast_divided hspan ht with ⟨r, hr, -⟩
    exact ⟨r, hr⟩

theorem headsLast_error (ht : t.Matches d [batch * a.numHeads, n, n])
    (hspan : ¬ Shape.Addressable [batch, a.numHeads, n, n]) :
    a.headsLast batch n t = .error (.invalidOperation .spanIncompatible) := by
  have hreshape := Tensor.reshape_incompatible ht (by simp [Nat.mul_assoc]) hspan
  simp only [headsLast, hreshape, bind, Except.bind]

/-! ### The way back -/

/-- Merging undoes splitting. -/
theorem mergeHeads_splitHeads (ht : t.shape = [batch, n, a.featSize])
    (h : a.splitHeads batch n t = .ok r) : a.mergeHeads batch n r = .ok t := by
  have hback := Tensor.refold_back h
  rwa [ht] at hback

/-- Splitting undoes merging. -/
theorem splitHeads_mergeHeads (ht : t.shape = [batch * a.numHeads, n, a.headDim])
    (h : a.mergeHeads batch n t = .ok r) : a.splitHeads batch n r = .ok t := by
  have hback := Tensor.refold_back h
  rwa [ht] at hback

/-- Heads that were brought to the end are brought back. -/
theorem headsFirst_headsLast (ht : t.shape = [batch * a.numHeads, n, n])
    (h : a.headsLast batch n t = .ok r) : a.headsFirst batch n r = .ok t := by
  have hback := Tensor.unfold_back h
  rwa [ht] at hback

/-- Splitting and merging heads are inverse to each other, and so are the two ways to place the
    heads of the scores. Splitting succeeds exactly if the divided shape can be addressed, which
    is so whenever there are features at all, and its entries are those of the features. -/
theorem heads_invertible (a : Attention) (hfeat : a.featSize = a.numHeads * a.headDim)
    (d : DType) (batch n : Nat) :
    (∀ t : Tensor, t.Matches d [batch, n, a.featSize] →
      ((∃ r, a.splitHeads batch n t = .ok r) ↔
        Shape.Addressable [batch, n, a.numHeads, a.headDim]) ∧
      (¬ Shape.Addressable [batch, n, a.numHeads, a.headDim] →
        a.splitHeads batch n t = .error (.invalidOperation .spanIncompatible)) ∧
      (0 < a.featSize → Shape.Addressable [batch, n, a.numHeads, a.headDim]) ∧
      ∀ r, a.splitHeads batch n t = .ok r →
        r.Matches d [batch * a.numHeads, n, a.headDim] ∧
        (∀ b h i c, b < batch → h < a.numHeads → i < n → c < a.headDim →
          r.entry d [b * a.numHeads + h, i, c] = t.entry d [b, i, h * a.headDim + c]) ∧
        a.mergeHeads batch n r = .ok t) ∧
    (∀ t : Tensor, t.Matches d [batch * a.numHeads, n, a.headDim] →
      ((∃ r, a.mergeHeads batch n t = .ok r) ↔
        Shape.Addressable [batch, a.numHeads, n, a.headDim]) ∧
      ∀ r, a.mergeHeads batch n t = .ok r → a.splitHeads batch n r = .ok t) ∧
    ∀ t : Tensor, t.Matches d [batch * a.numHeads, n, n] →
      ((∃ r, a.headsLast batch n t = .ok r) ↔ Shape.Addressable [batch, a.numHeads, n, n]) ∧
      (¬ Shape.Addressable [batch, a.numHeads, n, n] →
        a.headsLast batch n t = .error (.invalidOperation .spanIncompatible)) ∧
      (0 < batch * a.numHeads → Shape.Addressable [batch, a.numHeads, n, n]) ∧
      ∀ r, a.headsLast batch n t = .ok r →
        r.Matches d [batch, n, n, a.numHeads] ∧
        (∀ b h i j, b < batch → h < a.numHeads → i < n → j < n →
          r.entry d [b, i, j, h] = t.entry d [b * a.numHeads + h, i, j]) ∧
        a.headsFirst batch n r = .ok t := by
  refine ⟨fun t ht => ⟨splitHeads_ok_iff hfeat ht, splitHeads_error hfeat ht,
      addressable_divided hfeat ht, fun r hr => ?_⟩,
    fun t ht => ⟨mergeHeads_ok_iff hfeat ht, fun r hr => splitHeads_mergeHeads ht.shape hr⟩,
    fun t ht => ⟨headsLast_ok_iff ht, headsLast_error ht, fun hpos => ?_, fun r hr => ?_⟩⟩
  · rcases splitHeads_divided hfeat ((splitHeads_ok_iff hfeat ht).mp ⟨r, hr⟩) ht with
      ⟨r', hr', hM, hE⟩
    obtain rfl : r' = r := Except.ok.inj (hr'.symm.trans hr)
    exact ⟨hM, hE, mergeHeads_splitHeads ht.shape hr⟩
  · exact (Shape.allocatable_unfold (Nat.pos_of_mul_pos_right hpos) (Nat.pos_of_mul_pos_left hpos)
      (by simp [Shape.maxSpan]) ht.room).1
  · rcases headsLast_divided ((headsLast_ok_iff ht).mp ⟨r, hr⟩) ht with ⟨r', hr', hM, hE⟩
    obtain rfl : r' = r := Except.ok.inj (hr'.symm.trans hr)
    exact ⟨hM, hE, headsFirst_headsLast ht.shape hr⟩

/-- Two batches of three nodes with two heads of two components, and their scores. -/
theorem heads_invertible_twoBatches :
    ∃ t r s q : Tensor, t.Matches .int64 [2, 3, 4] ∧ s.Matches .int64 [4, 3, 3] ∧
      splitHeads { twoHeads with featSize := 4, headDim := 2 } 2 3 t = .ok r ∧
      r.entry .int64 [3, 2, 1] = t.entry .int64 [1, 2, 3] ∧
      mergeHeads { twoHeads with featSize := 4, headDim := 2 } 2 3 r = .ok t ∧
      headsLast { twoHeads with featSize := 4, headDim := 2 } 2 3 s = .ok q ∧
      q.entry .int64 [1, 2, 0, 1] = s.entry .int64 [3, 2, 0] ∧
      headsFirst { twoHeads with featSize := 4, headDim := 2 } 2 3 q = .ok s := by
  let a : Attention := { twoHeads with featSize := 4, headDim := 2 }
  let t : Tensor := ⟨.int64, .generate [2, 3, 4] Int64.ofNat, by decide⟩
  let s : Tensor := ⟨.int64, .generate [4, 3, 3] Int64.ofNat, by decide⟩
  rcases heads_invertible a rfl .int64 2 3 with ⟨hfeatures, -, hscores⟩
  rcases hfeatures t ⟨rfl, rfl⟩ with ⟨hsplit, -, -, hmerge⟩
  rcases hscores s ⟨rfl, rfl⟩ with ⟨hlast, -, -, hfirst⟩
  rcases hsplit.mpr (by decide) with ⟨r, hr⟩
  rcases hlast.mpr (by decide) with ⟨q, hq⟩
  rcases hmerge r hr with ⟨-, hentry, hback⟩
  rcases hfirst q hq with ⟨-, hentry', hback'⟩
  exact ⟨t, r, s, q, ⟨rfl, rfl⟩, ⟨rfl, rfl⟩, hr,
    hentry 1 1 2 1 (by decide) (by decide) (by decide) (by decide), hback, hq,
    hentry' 1 1 2 0 (by decide) (by decide) (by decide) (by decide), hback'⟩

/-- No heads of many components: the features are empty, and cannot be divided. -/
theorem not_forall_mergeHeads_splitHeads :
    ¬ ∀ (a : Attention) (d : DType) (batch n : Nat) (t : Tensor),
      a.featSize = a.numHeads * a.headDim → t.Matches d [batch, n, a.featSize] →
      ∃ r, a.splitHeads batch n t = .ok r ∧ a.mergeHeads batch n r = .ok t := by
  intro h
  let a : Attention := { twoHeads with
    featSize := 0, numHeads := 0, headDim := 4611686018427387904 }
  let t : Tensor := ⟨.float64, .fill [4, 1, 0] 0, by decide⟩
  have hfeat : a.featSize = a.numHeads * a.headDim := (Nat.zero_mul _).symm
  rcases h a .float64 4 1 t hfeat ⟨rfl, rfl⟩ with ⟨r, hr, -⟩
  have hspan : Shape.Addressable [4, 1, 0, 4611686018427387904] :=
    (splitHeads_ok_iff hfeat ⟨rfl, rfl⟩).mp ⟨r, hr⟩
  exact absurd hspan (by decide)

end Attention

end GraphAttention
