import GraphAttention.Proofs.Reordering
import GraphAttention.Proofs.Selecting

/-!
# Products of Stacks

A stack of matrices is multiplied in one sweep over three buffers, and a pair of matrices by a
product of its own. Here the first is taken apart into the second: what stands at a place of
the stack of products is the product of the matrices at that place of the two stacks. Both
are sums over the inner axis in increasing order, which start at zero, so they agree to the
last bit where sums are rounded.

The matrix at a place of a stack is a row of it as a gather sees rows. Gathered by a single
number without axes, it comes without the axis of the stack.

Exchanging the last two axes of a product exchanges the factors, and each factor its axes. The
sums keep their order in this. It is the two numbers in each of their terms that change
places, and a product of numbers does not depend on that for any kind of element, also where
it is rounded or is not a number.

When there are products at all is almost what it seems to be. The sizes have to agree, and
bytes have no products. What is missing is the room for the result, for two stacks without
elements may ask for a stack that no buffer can have.

## Main definitions

* `Tensor.slice`: What lies below a coordinate of the first axis.
* `Tensor.StackProduct`: A tensor holds the products of two stacks.

## Theorems

* `DType.mul_exchange`: Factors of any kind may be exchanged.
* `Tensor.slice_ok`: The elements of a slice.
* `Tensor.entry_reordered`: An element of a reordered tensor, by the inverse order.
* `Tensor.bmm_ok_iff`, `Tensor.bmm_entries`: When there are products, and what they are.
* `Tensor.bmm_slice`: One of the products is a product of two matrices.
* `Tensor.bmm_exchange`: Products of the exchanged factors.
* `Tensor.bmm_slicewise`: All of this for any two stacks.
* `Tensor.not_forall_bmm_ok`: Sizes that agree are not enough.
-/

namespace GraphAttention

open Float.Model (Format UnpackedFloat)

/-! ### Factors exchanged -/

theorem Number.sign_exchange (s t : UnpackedFloat.Sign) : s * t = t * s := by
  cases s <;> cases t <;> rfl

/-- Signs, exponents and leading digits are combined alike on both sides, and so is what is
    infinite, zero or not a number. -/
theorem Number.mul_exchange (S : Format) (x y : UnpackedFloat) :
    UnpackedFloat.mul S x y = UnpackedFloat.mul S y x := by
  cases x with
  | notANumber => cases y <;> rfl
  | infinity s | zero s =>
    cases y with
    | notANumber => rfl
    | infinity t | zero t => first | rfl | exact congrArg _ (Number.sign_exchange s t)
    | finite t => exact congrArg _ (Number.sign_exchange s t)
  | finite s m e h =>
    cases y with
    | notANumber => rfl
    | infinity t | zero t => exact congrArg _ (Number.sign_exchange s t)
    | finite t m' e' h' =>
      dsimp only [UnpackedFloat.mul]
      rw [Number.sign_exchange s t, Nat.mul_comm m m', Int.add_comm e e']

namespace DType

variable {d : DType}

/-- A product does not depend on the order of its factors. -/
theorem mul_exchange (x y : d.Elem) : x * y = y * x := by
  cases d with
  | float32 =>
    change Binary32.ofFloat32 (Float32.ofModel (Float32.Model.pack (.mul Format.binary32 _ _))) = _
    rw [Number.mul_exchange]
    rfl
  | float64 =>
    change Binary64.ofFloat (Float.ofModel (Float.Model.pack (.mul Format.binary64 _ _))) = _
    rw [Number.mul_exchange]
    rfl
  | int64 => exact Int64.mul_comm x y
  | uint8 => exact UInt8.mul_comm x y

end DType

namespace Tensor

variable {d : DType} {a b r t u : Tensor} {n i : Nat} {s tail : Shape} {p : List Nat}

/-! ### Slices -/

/-- The number of a row as a tensor without axes. -/
def rowIndex (i : Nat) : Tensor :=
  ⟨.int64, .fill [] (Int64.ofNat i), by change Shape.Allocatable 8 []; decide⟩

/-- What lies below a coordinate of the first axis. -/
def slice (t : Tensor) (i : Nat) : Except TensorError Tensor := t.indexSelect (rowIndex i)

/-- A slice lacks the first axis and has the elements behind one of its coordinates. -/
theorem slice_ok (ht : t.Matches d (n :: tail)) (hi : i < n) :
    ∃ u, t.slice i = .ok u ∧ u.Matches d tail ∧
      ∀ idx, Shape.Within idx tail → u.entry d idx = t.entry d (i :: idx) := by
  have hindex : (rowIndex i).Matches .int64 [] := ⟨rfl, rfl⟩
  have hnumber : ∀ k, k < 1 → ((rowIndex i).itemAt .int64 k).toInt = i := by
    intro k hk
    obtain rfl : k = 0 := by omega
    -- An axis is never longer than what a machine word counts.
    have hle : n ≤ Shape.maxSpan :=
      Nat.le_trans (Shape.le_span List.mem_cons_self) ht.room.1.1
    exact Int64.toInt_ofNat_of_lt (Nat.lt_of_lt_of_le hi (Nat.le_succ_of_le hle))
  have hnames : (rowIndex i).Names n := by
    intro k hk
    rw [hnumber k hk]
    exact ⟨Int.natCast_nonneg i, hi⟩
  have room := Shape.allocatable_below (Nat.zero_lt_of_lt hi) ht.room
  rcases indexSelect_ok ht hindex hnames room with ⟨u, hu, hM, hE⟩
  refine ⟨u, hu, hM, fun idx hidx => ?_⟩
  have hread := hE [] idx trivial hidx
  rwa [entry_eq_itemAt hindex, hnumber (Shape.ravel [] []) Nat.zero_lt_one,
    Int.toNat_natCast] at hread

/-- An element of a reordered tensor stands where the inverse order puts its index. -/
theorem entry_reordered (h : t.permute p = .ok r) {idx : Index}
    (hidx : Shape.Within idx r.shape) :
    r.entry t.dtype idx = t.entry t.dtype (Shape.reorder (Shape.inverseAxes p) idx) := by
  rcases entries_of_permute ⟨rfl, rfl⟩ h with ⟨-, hM, -⟩
  rcases entries_of_permute ⟨hM.dtype, rfl⟩ (permute_inverse h) with ⟨-, -, hE⟩
  exact (hE idx hidx).symm

/-! ### When there are products, and what they are -/

variable {batch m k batch' k' : Nat}

theorem bmm_bytes (ha : a.Matches .uint8 [batch, m, k]) (hb : b.Matches .uint8 [batch, k, n]) :
    a.bmm b = .error (.invalidOperation .bmmKind) := by
  rcases ha.exists_array with ⟨x, rx, rfl, hx⟩
  rcases hb.exists_array with ⟨y, ry, rfl, hy⟩
  simp only [bmm, shape, hx, hy, elements_mk, bind, Except.bind, ne_eq, not_true_eq_false, or_self,
    if_false, if_true]
  rfl

theorem bmm_ok_iff (ha : a.Matches d [batch, m, k]) (hb : b.Matches d [batch', k', n]) :
    (∃ r, a.bmm b = .ok r) ↔
      batch = batch' ∧ k = k' ∧ d ≠ .uint8 ∧ Shape.Allocatable d.width [batch, m, n] := by
  constructor
  · rintro ⟨r, hr⟩
    rcases bmm_result hr with ⟨-, _, _, _, _, hsa, hsb, hM⟩
    rw [ha.shape] at hsa
    rw [hb.shape] at hsb
    cases hsa
    cases hsb
    rw [ha.dtype] at hM
    refine ⟨rfl, rfl, fun hd => ?_, hM.room⟩
    subst hd
    rw [bmm_bytes ha hb] at hr
    cases hr
  · rintro ⟨rfl, rfl, hd, room⟩
    rcases bmm_ok hd ha hb room with ⟨r, hr, -⟩
    exact ⟨r, hr⟩

/-- What is known of products that there are. -/
theorem bmm_entries (ha : a.Matches d [batch, m, k]) (hb : b.Matches d [batch', k', n])
    (h : a.bmm b = .ok r) :
    r.Matches d [batch, m, n] ∧ ∀ c i j, c < batch → i < m → j < n →
      r.entry d [c, i, j] = sumRange k fun l => a.entry d [c, i, l] * b.entry d [c, l, j] := by
  rcases (bmm_ok_iff ha hb).mp ⟨r, h⟩ with ⟨rfl, rfl, hd, room⟩
  rcases bmm_ok hd ha hb room with ⟨r', hr', hresult⟩
  rw [h] at hr'
  cases hr'
  exact hresult

/-- At each place of a stack of products there is the product of two matrices. -/
theorem bmm_slice (ha : a.Matches d [batch, m, k]) (hb : b.Matches d [batch', k', n])
    (h : a.bmm b = .ok r) (hi : i < batch) :
    ∃ x y z, a.slice i = .ok x ∧ b.slice i = .ok y ∧ r.slice i = .ok z ∧ x.matmul y = .ok z := by
  rcases bmm_entries ha hb h with ⟨hM, hE⟩
  rcases (bmm_ok_iff ha hb).mp ⟨r, h⟩ with ⟨rfl, rfl, hd, -⟩
  rcases slice_ok ha hi with ⟨x, hx, hxM, hxE⟩
  rcases slice_ok hb hi with ⟨y, hy, hyM, hyE⟩
  rcases slice_ok hM hi with ⟨z, hz, hzM, hzE⟩
  rcases matmul_ok hd hxM hyM hzM.room with ⟨z', hz', hzM', hzE'⟩
  have heq : z' = z := by
    refine ext_entry hzM' hzM fun idx hidx => ?_
    rcases Shape.within_pair hidx with ⟨v, w, rfl, hv, hw⟩
    rw [hzE _ hidx, hE i v w hi hv hw, hzE' v w hv hw]
    refine sumRange_congr fun l hl => ?_
    rw [hxE [v, l] (by simp [hv, hl]), hyE [l, w] (by simp [hl, hw])]
  exact ⟨x, y, z, hx, hy, hz, heq ▸ hz'⟩

/-- The factors exchanged, each with its last two axes exchanged, have the product with its
    last two axes exchanged, or no product either. -/
theorem bmm_exchange (ha : a.Matches d [batch, m, k]) (hb : b.Matches d [batch', k', n]) :
    ∃ a' b', a.transpose 1 2 = .ok a' ∧ b.transpose 1 2 = .ok b' ∧
      ∀ r', b'.bmm a' = .ok r' ↔ ∃ r, a.bmm b = .ok r ∧ r.transpose 1 2 = .ok r' := by
  rcases transpose_ok ha with ⟨a', ha', haM, haE⟩
  rcases transpose_ok hb with ⟨b', hb', hbM, hbE⟩
  have hswap : ∀ {x y : Nat}, Shape.Allocatable d.width [batch, x, y] →
      Shape.Allocatable d.width [batch, y, x] :=
    Shape.allocatable_perm ((List.Perm.swap _ _ _).cons _)
  have hboth : ∀ r r', a.bmm b = .ok r → b'.bmm a' = .ok r' → r.transpose 1 2 = .ok r' := by
    intro r r' hr hr'
    rcases bmm_entries ha hb hr with ⟨hM, hE⟩
    rcases bmm_entries hbM haM hr' with ⟨hM', hE'⟩
    rcases (bmm_ok_iff ha hb).mp ⟨r, hr⟩ with ⟨rfl, rfl, -, -⟩
    rcases transpose_ok hM with ⟨v, hv, hvM, hvE⟩
    refine hv.trans (congrArg _ (ext_entry hvM hM' fun idx hidx => ?_))
    rcases Shape.within_split (s := [batch]) hidx with ⟨c, ij, rfl, hc, hij⟩
    rcases Shape.within_pair hij with ⟨j, i, rfl, hj, hi⟩
    rcases c with _ | ⟨c, _ | ⟨c', rest⟩⟩
    · exact hc.elim
    · -- Term by term the two factors change places.
      change v.entry d [c, j, i] = r'.entry d [c, j, i]
      rw [hvE c i j hc.1 hi hj, hE c i j hc.1 hi hj, hE' c j i hc.1 hj hi]
      refine sumRange_congr fun l hl => ?_
      rw [haE c i l hc.1 hi hl, hbE c l j hc.1 hl hj, DType.mul_exchange]
    · exact hc.2.elim
  refine ⟨a', b', ha', hb', fun r' => ⟨fun hr' => ?_, ?_⟩⟩
  · rcases (bmm_ok_iff hbM haM).mp ⟨r', hr'⟩ with ⟨rfl, rfl, hd, room⟩
    rcases (bmm_ok_iff ha hb).mpr ⟨rfl, rfl, hd, hswap room⟩ with ⟨r, hr⟩
    exact ⟨r, hr, hboth r r' hr hr'⟩
  · rintro ⟨r, hr, htranspose⟩
    rcases (bmm_ok_iff ha hb).mp ⟨r, hr⟩ with ⟨rfl, rfl, hd, room⟩
    rcases (bmm_ok_iff hbM haM).mpr ⟨rfl, rfl, hd, hswap room⟩ with ⟨v, hv⟩
    rw [hboth r v hr hv] at htranspose
    cases htranspose
    exact hv

/-! ### All laws -/

/-- A tensor holds the products, pair by pair, of two stacks of matrices. -/
structure StackProduct (a b r : Tensor) (batch m k n : Nat) : Prop where
  /-- It is of the kind of the first stack and has a product for each pair. -/
  result : r.Matches a.dtype [batch, m, n]
  /-- At each place it holds the product of the matrices at this place. -/
  slices : ∀ i, i < batch → ∃ x y z, a.slice i = .ok x ∧ b.slice i = .ok y ∧
    r.slice i = .ok z ∧ x.matmul y = .ok z
  /-- Its elements are sums from zero on, in the order of the inner axis. -/
  entries : ∀ c i j, c < batch → i < m → j < n → r.entry a.dtype [c, i, j]
    = sumRange k fun l => a.entry a.dtype [c, i, l] * b.entry a.dtype [c, l, j]
  /-- Without an inner axis to sum over it is zero. -/
  zeros : k = 0 → ∀ idx, Shape.Within idx [batch, m, n] → r.entry a.dtype idx = 0
  /-- Where the stacks are other tensors with their axes reordered, the same sums are taken
      over the elements of those. -/
  views : ∀ (t u : Tensor) (p q : List Nat), t.permute p = .ok a → u.permute q = .ok b →
    ∀ c i j, c < batch → i < m → j < n → r.entry a.dtype [c, i, j]
      = sumRange k fun l => t.entry a.dtype (Shape.reorder (Shape.inverseAxes p) [c, i, l])
        * u.entry a.dtype (Shape.reorder (Shape.inverseAxes q) [c, l, j])

theorem stackProduct_of_bmm (ha : a.Matches d [batch, m, k]) (hb : b.Matches d [batch', k', n])
    (h : a.bmm b = .ok r) : StackProduct a b r batch m k n := by
  obtain rfl := ha.dtype
  rcases bmm_entries ha hb h with ⟨hM, hE⟩
  rcases (bmm_ok_iff ha hb).mp ⟨r, h⟩ with ⟨rfl, rfl, -, -⟩
  refine ⟨hM, fun i hi => bmm_slice ha hb h hi, hE, fun hk idx hidx => ?_, ?_⟩
  · subst hk
    rcases idx with _ | ⟨c, idx⟩
    · exact hidx.elim
    · rcases Shape.within_pair hidx.2 with ⟨i, j, rfl, hi, hj⟩
      exact hE c i j hidx.1 hi hj
  · intro t u p q ht hu c i j hc hi hj
    have htkind := (permute_result ht).2.dtype
    have hukind := (permute_result hu).2.dtype
    rw [hE c i j hc hi hj]
    refine sumRange_congr fun l hl => ?_
    have hin : Shape.Within [c, i, l] a.shape := by
      rw [ha.shape]
      exact ⟨hc, hi, hl, trivial⟩
    have hin' : Shape.Within [c, l, j] b.shape := by
      rw [hb.shape]
      exact ⟨hc, hl, hj, trivial⟩
    have hleft := entry_reordered ht hin
    have hright := entry_reordered hu hin'
    rw [← htkind] at hleft
    rw [← hukind, hb.dtype] at hright
    rw [hleft, hright]

/-- Two stacks of matrices of one kind have products exactly if there are as many on either
    side, their inner axes agree, they are no bytes and the products have room. What there is
    then is the product of each pair, and with the last two axes exchanged it is the product
    of the exchanged stacks. -/
theorem bmm_slicewise (a b : Tensor) (ha : a.shape = [batch, m, k])
    (hb : b.shape = [batch', k', n]) (hkind : b.dtype = a.dtype) :
    ((∃ r, a.bmm b = .ok r) ↔ batch = batch' ∧ k = k' ∧ a.dtype ≠ .uint8 ∧
      Shape.Allocatable a.dtype.width [batch, m, n]) ∧
    (∀ r, a.bmm b = .ok r → StackProduct a b r batch m k n) ∧
    ∃ a' b', a.transpose 1 2 = .ok a' ∧ b.transpose 1 2 = .ok b' ∧
      ∀ r', b'.bmm a' = .ok r' ↔ ∃ r, a.bmm b = .ok r ∧ r.transpose 1 2 = .ok r' := by
  have ha : a.Matches a.dtype [batch, m, k] := ⟨rfl, ha⟩
  have hb : b.Matches a.dtype [batch', k', n] := ⟨hkind, hb⟩
  exact ⟨bmm_ok_iff ha hb, fun r hr => stackProduct_of_bmm ha hb hr, bmm_exchange ha hb⟩

/-- The first stack is a view with two of its axes exchanged, and its second matrix is
    multiplied on its own. -/
theorem bmm_slicewise_turned :
    ∃ t a b r x y z : Tensor, t.shape = [2, 2, 3] ∧ t.permute [0, 2, 1] = .ok a ∧
      b.shape = [2, 2, 1] ∧ a.bmm b = .ok r ∧ r.shape = [2, 3, 1] ∧
      a.slice 1 = .ok x ∧ b.slice 1 = .ok y ∧ r.slice 1 = .ok z ∧ x.matmul y = .ok z ∧
      r.entry .int64 [1, 2, 0] = 8 * 2 + 11 * 3 := by
  let t : Tensor := ⟨.int64, .generate [2, 2, 3] Int64.ofNat, by decide⟩
  let b : Tensor := ⟨.int64, .generate [2, 2, 1] Int64.ofNat, by decide⟩
  rcases permute_entries (t := t) ⟨rfl, rfl⟩ (p := [0, 2, 1]) (by decide) with ⟨a, ha, haM, -⟩
  rcases bmm_slicewise a b haM.shape rfl haM.dtype.symm with ⟨hok, hlaws, -⟩
  rw [haM.dtype] at hok
  rcases hok.mpr ⟨rfl, rfl, by decide, by decide⟩ with ⟨r, hr⟩
  have hproduct := hlaws r hr
  rcases hproduct.slices 1 (by decide) with ⟨x, y, z, hx, hy, hz, hproduct'⟩
  have hb : b.permute (List.range 3) = .ok b := permute_range b
  have hread := hproduct.views t b _ _ ha hb 1 2 0 (by decide) (by decide) (by decide)
  rw [haM.dtype] at hread
  exact ⟨t, a, b, r, x, y, z, rfl, ha, rfl, hr, hproduct.result.shape, hx, hy, hz, hproduct',
    hread.trans (by decide)⟩

/-- Stacks of as many matrices whose inner axes agree may still have no products: without
    elements these may have axes that no buffer can have. -/
theorem not_forall_bmm_ok :
    ¬ ∀ (a b : Tensor) (batch m k batch' k' n : Nat), a.shape = [batch, m, k] →
      b.shape = [batch', k', n] → b.dtype = a.dtype →
      ((∃ r, a.bmm b = .ok r) ↔ batch = batch' ∧ k = k' ∧ a.dtype ≠ .uint8) := by
  intro h
  let a : Tensor := ⟨.float64, .fill [0, 4611686018427387904, 1] 1, by decide⟩
  let b : Tensor := ⟨.float64, .fill [0, 1, 4] 1, by decide⟩
  have hproducts := (h a b _ _ _ _ _ _ rfl rfl rfl).mpr ⟨rfl, rfl, by decide⟩
  rcases (bmm_ok_iff (a := a) (b := b) ⟨rfl, rfl⟩ ⟨rfl, rfl⟩).mp hproducts with ⟨-, -, -, room⟩
  exact absurd room (by decide)

end Tensor

end GraphAttention
