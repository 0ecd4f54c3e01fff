import GraphAttention.Proofs.Drawing
import GraphAttention.Proofs.Rows
import GraphAttention.Tensor.Operation

/-!
# Kinds and Shapes along a Chain

Every operation on tensors has a rule for the shape of its result. The rule looks at shapes
only, never at elements, so the shape at the end of a chain is found by folding the rules
over the shape that the chain began with. `Operation.resultShape` writes the rules down next
to one another, without looking at how the operations compute: reordering follows the list
of axes, a transposition exchanges two lengths, a gather puts the shape of the numbers in
the place of the first axis.

The kind is simpler. A chain keeps the kind that it began with, because no operation
converts anything: the other operands have to be of that kind already, and numbers of rows
have to be integers.

Axes of length zero and tensors without axes are not exceptions to any rule here.

## Main definitions

* `Operation.resultShape`, `Operation.chainShape`: The shape of a result, and of the last
  one of a chain.
* `Operation.KindsFit`: The other operands are of the kinds that an operation asks for.
* `Operation.chain`: Operations one after another, as long as none is refused.
* `Origin`: How a chain begins.

## Theorems

* `Tensor.combine_result`, `Tensor.matmul_result`, `Tensor.indexSelect_result` and the like:
  Kind and shape of what an operation hands back.
* `Operation.apply_result`, `Operation.chain_result`: The same for every operation and for
  every chain.
* `Operation.results_wellFormed`: Kinds, shapes and numbers of elements along a chain.
-/

namespace GraphAttention

theorem bind_eq_ok {ε α β : Type} {x : Except ε α} {f : α → Except ε β} {y : β} :
    (x >>= f) = .ok y ↔ ∃ a, x = .ok a ∧ f a = .ok y := by
  cases x <;> simp [bind, Except.bind]

/-- Two lengths exchanged, where the axes are listed in their new order. -/
theorem Shape.map_swapAxes {s : Shape} {a b : Nat} (ha : a < s.length) (hb : b < s.length) :
    (swapAxes s.length a b).map (fun axis => s.getD axis 0)
      = (s.set a (s.getD b 0)).set b (s.getD a 0) := by
  refine List.ext_getElem (by simp [swapAxes]) fun k hk _ => ?_
  have hk : k < s.length := by simpa [swapAxes] using hk
  -- The two axes may be one and the same.
  by_cases hka : k = a
  · subst hka
    by_cases hkb : k = b
    · subst hkb
      simp [swapAxes]
    · simp [swapAxes, hb, Ne.symm hkb]
  · by_cases hkb : k = b
    · subst hkb
      simp [swapAxes, ha, hka]
    · simp [swapAxes, hk, hka, hkb, Ne.symm hka, Ne.symm hkb]

/-- Axes in reverse order have their lengths in reverse order. -/
theorem Shape.map_reverse_range (s : Shape) :
    (List.range s.length).reverse.map (fun axis => s.getD axis 0) = s.reverse := by
  rw [List.map_reverse, map_getD_range]

namespace Tensor

variable {d : DType} {t u r indices source : Tensor} {s : Shape}

/-- A tensor has as many elements as its shape says. -/
theorem length_toList (t : Tensor) : t.array.toList.length = t.shape.size := by
  rw [DenseArray.toList, Array.length_toList]
  exact t.array.size_data

theorem dtype_of_elements {a : DenseArray d.Elem} (h : t.elements d = .ok a) : t.dtype = d := by
  by_contra hkind
  rw [elements_error hkind] at h
  cases h

/-! ### Kind and shape of a result -/

theorem t_result (t : Tensor) : t.t.Matches t.dtype t.shape.reverse :=
  ⟨rfl, Shape.map_reverse_range t.shape⟩

theorem permute_result {axes : List Nat} (h : t.permute axes = .ok r) :
    axes.Perm (List.range t.rank) ∧
      r.Matches t.dtype (axes.map fun axis => t.shape.getD axis 0) := by
  refine ⟨?_, ?_, shape_of_permute h⟩
  all_goals
    unfold permute at h
    split at h
    · cases h
    · rename_i hcheck
      cases h
      first | rfl | exact perm_of_checkAxes hcheck

theorem transpose_result {a b : Nat} (h : t.transpose a b = .ok r) :
    a < t.rank ∧ b < t.rank ∧
      r.Matches t.dtype ((t.shape.set a (t.shape.getD b 0)).set b (t.shape.getD a 0)) := by
  unfold transpose at h
  by_cases ha : t.rank ≤ a
  · rw [if_pos ha] at h
    cases h
  by_cases hb : t.rank ≤ b
  · rw [if_neg ha, if_pos hb] at h
    cases h
  rw [if_neg ha, if_neg hb] at h
  have ha : a < t.rank := Nat.lt_of_not_le ha
  have hb : b < t.rank := Nat.lt_of_not_le hb
  have hresult := (permute_result h).2
  exact ⟨ha, hb, hresult.dtype, hresult.shape.trans (Shape.map_swapAxes ha hb)⟩

theorem reshape_result (h : t.reshape s = .ok r) : s.size = t.shape.size ∧ r.Matches t.dtype s := by
  rcases reshape_eq_ok_iff.mp h with ⟨hsize, -, rfl⟩
  exact ⟨hsize, rfl, rfl⟩

/-- Two tensors combined are of one kind, and their shapes have a common one. -/
theorem combine_result {op : (d : DType) → d.Elem → d.Elem → d.Elem}
    (h : combine op t u = .ok r) :
    u.dtype = t.dtype ∧ ∃ s, Shape.broadcast? t.shape u.shape = some s ∧ r.Matches t.dtype s := by
  rcases bind_eq_ok.mp h with ⟨other, hother, h⟩
  rcases bind_eq_ok.mp h with ⟨s, hs, h⟩
  rcases bind_eq_ok.mp h with ⟨room, -, h⟩
  refine ⟨dtype_of_elements hother, s, ?_, ?_⟩
  · unfold broadcastShape at hs
    split at hs
    · cases hs
    · rename_i hshape
      cases hs
      exact hshape
  · cases h
    exact ⟨rfl, rfl⟩

theorem clamp_result {low high : Int64} (h : t.clamp low high = .ok r) :
    r.Matches t.dtype t.shape := by
  unfold clamp at h
  split at h
  · cases h
  · rcases t with ⟨d, a, room⟩
    cases d <;> cases h
    exact ⟨rfl, rfl⟩

theorem softmax_result {axis : Nat} (h : t.softmax axis = .ok r) : r.Matches t.dtype t.shape := by
  unfold softmax at h
  split at h
  · cases h
  · rcases t with ⟨d, a, room⟩
    cases d <;> cases h <;> exact ⟨rfl, rfl⟩

theorem maskedFill_result {mask : Tensor} {value : Float} (h : t.maskedFill mask value = .ok r) :
    r.Matches t.dtype t.shape := by
  unfold maskedFill at h
  dsimp only at h
  split at h
  · cases h
  · split at h
    · cases h
      exact ⟨rfl, rfl⟩
    · cases h

theorem matmul_result (h : t.matmul u = .ok r) :
    u.dtype = t.dtype ∧ ∃ m k n, t.shape = [m, k] ∧ u.shape = [k, n] ∧
      r.Matches t.dtype [m, n] := by
  unfold matmul at h
  split at h
  · rename_i m k k' n ht hu
    rcases bind_eq_ok.mp h with ⟨other, hother, h⟩
    dsimp only at h
    split at h
    · cases h
    · rename_i hk
      split at h
      · cases h
      · rcases bind_eq_ok.mp h with ⟨room, -, h⟩
        cases h
        obtain rfl := Decidable.not_not.mp hk
        exact ⟨dtype_of_elements hother, m, k, n, ht, hu, rfl, rfl⟩
  · cases h

theorem bmm_result (h : t.bmm u = .ok r) :
    u.dtype = t.dtype ∧ ∃ batch m k n, t.shape = [batch, m, k] ∧ u.shape = [batch, k, n] ∧
      r.Matches t.dtype [batch, m, n] := by
  unfold bmm at h
  split at h
  · rename_i batch m k batch' k' n ht hu
    rcases bind_eq_ok.mp h with ⟨other, hother, h⟩
    dsimp only at h
    split at h
    · cases h
    · rename_i hsame
      split at h
      · cases h
      · rcases bind_eq_ok.mp h with ⟨room, -, h⟩
        cases h
        rcases not_or.mp hsame with ⟨hbatch, hk⟩
        obtain rfl := Decidable.not_not.mp hbatch
        obtain rfl := Decidable.not_not.mp hk
        exact ⟨dtype_of_elements hother, batch, m, k, n, ht, hu, rfl, rfl⟩
  · cases h

theorem dtype_of_rowNumbers {n : Nat} {rows : List (Fin n)}
    (h : indices.rowNumbers n = .ok rows) : indices.dtype = .int64 := by
  rcases bind_eq_ok.mp h with ⟨numbers, hnumbers, -⟩
  exact dtype_of_elements hnumbers

/-- A gather puts the shape of the numbers in the place of the first axis. -/
theorem indexSelect_result (h : t.indexSelect indices = .ok r) :
    indices.dtype = .int64 ∧ ∃ n tail, t.shape = n :: tail ∧
      r.Matches t.dtype (indices.shape ++ tail) := by
  unfold indexSelect at h
  split at h
  · cases h
  · rename_i n tail hshape
    rcases bind_eq_ok.mp h with ⟨rows, hrows, h⟩
    rcases bind_eq_ok.mp h with ⟨room, -, h⟩
    have hresult := (reshape_result h).2
    exact ⟨dtype_of_rowNumbers hrows, n, tail, hshape, hresult.dtype, hresult.shape⟩

theorem indexAdd_result (h : t.indexAdd indices source = .ok r) :
    indices.dtype = .int64 ∧ source.dtype = t.dtype ∧ r.Matches t.dtype t.shape := by
  unfold indexAdd at h
  split at h
  · cases h
  · rename_i n tail hshape
    rcases bind_eq_ok.mp h with ⟨_, hkind, h⟩
    rcases bind_eq_ok.mp h with ⟨rows, hrows, h⟩
    dsimp only at h
    split at h
    · cases h
    · rcases bind_eq_ok.mp h with ⟨arranged, harranged, h⟩
      rcases bind_eq_ok.mp h with ⟨summands, hsummands, h⟩
      split at h
      · cases h
      · cases h
        have hsource := (reshape_result harranged).2.dtype
        exact ⟨dtype_of_rowNumbers hrows, hsource.symm.trans (dtype_of_elements hsummands),
          rfl, rfl⟩

end Tensor

namespace Operation

/-- The shape of the result, by the shape of the tensor that an operation is applied to. -/
def resultShape (s : Shape) : Operation → Option Shape
  | identity => some s
  | t => some s.reverse
  | permute axes =>
    if axes.Perm (List.range s.length) then some (axes.map fun axis => s.getD axis 0) else none
  | transpose a b =>
    if a < s.length ∧ b < s.length then some ((s.set a (s.getD b 0)).set b (s.getD a 0)) else none
  | reshape s' => if s'.size = s.size then some s' else none
  | add u | mul u => Shape.broadcast? s u.shape
  | matmul u =>
    match s, u.shape with
    | [m, k], [k', n] => if k = k' then some [m, n] else none
    | _, _ => none
  | bmm u =>
    match s, u.shape with
    | [batch, m, k], [batch', k', n] =>
      if batch = batch' ∧ k = k' then some [batch, m, n] else none
    | _, _ => none
  | indexSelect indices =>
    match s with
    | [] => none
    | _ :: tail => some (indices.shape ++ tail)
  | scalarMul _ | clamp _ _ | softmax _ | maskedFill _ _ | indexAdd _ _ => some s

/-- The other operands of an operation on a tensor of some kind are of the kinds that it
    asks for. -/
def KindsFit (d : DType) : Operation → Prop
  | add u | mul u | matmul u | bmm u => u.dtype = d
  | indexSelect indices => indices.dtype = .int64
  | indexAdd indices source => indices.dtype = .int64 ∧ source.dtype = d
  | _ => True

/-- What an operation hands back: a tensor of the same kind, of the shape that its rule
    gives, where the other operands are of the kinds that it asks for. -/
theorem apply_result {op : Operation} {a r : Tensor} (h : op.apply a = .ok r) :
    op.KindsFit a.dtype ∧ ∃ s, op.resultShape a.shape = some s ∧ r.Matches a.dtype s := by
  cases op with
  | identity =>
    cases h
    exact ⟨trivial, _, rfl, rfl, rfl⟩
  | t =>
    cases h
    exact ⟨trivial, _, rfl, Tensor.t_result a⟩
  | permute axes =>
    rcases Tensor.permute_result h with ⟨hperm, hresult⟩
    exact ⟨trivial, _, if_pos hperm, hresult⟩
  | transpose i j =>
    rcases Tensor.transpose_result h with ⟨hi, hj, hresult⟩
    exact ⟨trivial, _, if_pos ⟨hi, hj⟩, hresult⟩
  | reshape s =>
    rcases Tensor.reshape_result h with ⟨hsize, hresult⟩
    exact ⟨trivial, _, if_pos hsize, hresult⟩
  | add u =>
    rw [apply, Tensor.add] at h
    exact Tensor.combine_result h
  | mul u =>
    rw [apply, Tensor.mul] at h
    exact Tensor.combine_result h
  | matmul u =>
    rcases Tensor.matmul_result h with ⟨hkind, m, k, n, ha, hu, hresult⟩
    refine ⟨hkind, _, ?_, hresult⟩
    simp only [resultShape, ha, hu, if_true]
  | bmm u =>
    rcases Tensor.bmm_result h with ⟨hkind, batch, m, k, n, ha, hu, hresult⟩
    refine ⟨hkind, _, ?_, hresult⟩
    simp only [resultShape, ha, hu, and_self, if_true]
  | scalarMul scalar =>
    cases h
    exact ⟨trivial, _, rfl, rfl, rfl⟩
  | clamp low high => exact ⟨trivial, _, rfl, Tensor.clamp_result h⟩
  | softmax axis => exact ⟨trivial, _, rfl, Tensor.softmax_result h⟩
  | maskedFill mask value => exact ⟨trivial, _, rfl, Tensor.maskedFill_result h⟩
  | indexSelect indices =>
    rcases Tensor.indexSelect_result h with ⟨hkind, n, tail, ha, hresult⟩
    refine ⟨hkind, _, ?_, hresult⟩
    simp only [resultShape, ha]
  | indexAdd indices source =>
    rcases Tensor.indexAdd_result h with ⟨hindices, hsource, hresult⟩
    exact ⟨⟨hindices, hsource⟩, _, rfl, hresult⟩

/-! ### Chains -/

/-- Operations applied one after another, each to what the one before handed back. -/
def chain : List Operation → Tensor → Except TensorError Tensor
  | [], a => .ok a
  | op :: ops, a => op.apply a >>= chain ops

/-- The shape at the end of a chain, by the shape at its beginning. -/
def chainShape : List Operation → Shape → Option Shape
  | [], s => some s
  | op :: ops, s => op.resultShape s >>= chainShape ops

theorem chain_result {ops : List Operation} {a r : Tensor} (h : chain ops a = .ok r) :
    (∀ op ∈ ops, op.KindsFit a.dtype) ∧ ∃ s, chainShape ops a.shape = some s ∧
      r.Matches a.dtype s := by
  -- The tensor that the rest of the chain begins with is the result of the first operation.
  induction ops generalizing a with
  | nil =>
    cases h
    exact ⟨fun op hop => absurd hop List.not_mem_nil, _, rfl, rfl, rfl⟩
  | cons op ops ih =>
    rcases bind_eq_ok.mp h with ⟨b, hb, hrest⟩
    rcases apply_result hb with ⟨hkind, s, hs, hmatch⟩
    rcases ih hrest with ⟨hkinds, s', hs', hmatch'⟩
    rw [hmatch.dtype] at hkinds hmatch'
    rw [hmatch.shape] at hs'
    refine ⟨List.forall_mem_cons.mpr ⟨hkind, hkinds⟩, s', ?_, hmatch'⟩
    rw [chainShape, hs]
    exact hs'

end Operation

/-- How a chain begins: with elements in row-major order, with zeros, or with ones. -/
inductive Origin where
  | elements (d : DType) (data : Array d.Elem) (s : Shape)
  | zeros (s : Shape) (d : DType)
  | ones (s : Shape) (d : DType)

namespace Origin

/-- The tensor that a chain begins with. -/
def make : Origin → Except TensorError Tensor
  | elements d data s => Tensor.ofElements d data s
  | zeros s d => Tensor.zeros s d
  | ones s d => Tensor.ones s d

/-- The kind that was asked for. -/
def dtype : Origin → DType
  | elements d _ _ | zeros _ d | ones _ d => d

/-- The shape that was asked for. -/
def shape : Origin → Shape
  | elements _ _ s | zeros s _ | ones s _ => s

theorem make_result {o : Origin} {a : Tensor} (h : o.make = .ok a) : a.Matches o.dtype o.shape := by
  cases o with
  | elements d data s => exact Tensor.ofElements_matches h
  | zeros s d => exact Tensor.filled_matches h
  | ones s d => exact Tensor.filled_matches h

end Origin

/-- What operations hand back is well-formed, one by one and along chains of any length: of
    the kind of the tensor that the operation was applied to, of the shape that its rule
    gives, with as many elements as this shape has, and with no other operand converted. -/
theorem Operation.results_wellFormed :
    (∀ (op : Operation) (a r : Tensor), op.apply a = .ok r →
      op.KindsFit a.dtype ∧ r.dtype = a.dtype ∧ op.resultShape a.shape = some r.shape ∧
        r.array.toList.length = r.shape.size) ∧
    ∀ (o : Origin) (ops : List Operation) (a r : Tensor), o.make = .ok a → chain ops a = .ok r →
      (∀ op ∈ ops, op.KindsFit o.dtype) ∧ r.dtype = o.dtype ∧
        chainShape ops o.shape = some r.shape ∧ r.array.toList.length = r.shape.size := by
  refine ⟨fun op a r h => ?_, fun o ops a r hmake h => ?_⟩
  · rcases apply_result h with ⟨hkind, s, hs, hmatch⟩
    rw [← hmatch.shape] at hs
    exact ⟨hkind, hmatch.dtype, hs, r.length_toList⟩
  · have hbegin := Origin.make_result hmake
    rcases chain_result h with ⟨hkinds, s, hs, hmatch⟩
    rw [hbegin.dtype] at hkinds hmatch
    rw [hbegin.shape, ← hmatch.shape] at hs
    exact ⟨hkinds, hmatch.dtype, hs, r.length_toList⟩

/-- Products without terms, from which one row and one element of it are gathered, stretched
    to a row without elements and turned around. -/
def Operation.emptySteps : List Operation :=
  [.matmul ⟨.float64, .fill [0, 3] 0, by decide⟩, .indexSelect ⟨.int64, .fill [] 1, by decide⟩,
   .indexSelect ⟨.int64, .fill [] 2, by decide⟩, .add ⟨.float64, .fill [1, 0] 0, by decide⟩, .t]

/-- A chain over axes of length zero and a tensor without axes. -/
theorem Operation.results_wellFormed_empty :
    ∃ a r, (Origin.zeros [2, 0] .float64).make = .ok a ∧ chain emptySteps a = .ok r ∧
      r.dtype = .float64 ∧ r.shape = [0, 1] ∧ r.array.toList.length = 0 := by
  let a : Tensor := ⟨.float64, .fill [2, 0] 0, by decide⟩
  have hmake : (Origin.zeros [2, 0] .float64).make = .ok a := rfl
  cases hchain : chain emptySteps a with
  | error e =>
    have hdone : (chain emptySteps a).toOption.isSome = true := by decide +kernel
    rw [hchain] at hdone
    cases hdone
  | ok r =>
    rcases results_wellFormed.2 _ emptySteps a r hmake hchain with ⟨-, hdtype, hshape, hlength⟩
    have hshape : r.shape = [0, 1] := (Option.some.inj hshape).symm
    rw [hshape] at hlength
    exact ⟨a, r, hmake, hchain, hdtype, hshape, hlength⟩

end GraphAttention
