import GraphAttention.Proofs.Chains
import Mathlib.Data.List.GetD

/-!
# The Least Common Shape

Shapes are aligned at their last axes, and an axis of length one, or one that is missing,
gives way to whatever stands beside it. A shape can therefore be stretched to another if
that has at least as many axes and every length is either one or the same in both.
`Stretches` is this relation, and it is an order: what can be stretched to and fro is equal.

The common shape of two shapes is the least in this order to which both can be stretched,
and there is none only if nothing at all is above both. That is all that the laws of
broadcasting rest on. Neither the order nor the grouping of some shapes has a part in what
is above all of them, so neither can change their common shape, and neither can make one
where there was none. No axis has to be looked at for this.

Zero is a length like any other. The length that gives way is one, so an axis of length one
is stretched to length zero, where nothing is left of it.

## Main definitions

* `Shape.lengthAt`: The length of an axis, counted from the last, or one if it is missing.
* `Shape.Stretches`: A shape can be stretched to another.
* `Shape.LeastAbove`: The least shape to which all of some shapes can be stretched.

## Theorems

* `Stretches.trans`, `Stretches.antisymm`: Stretching is an order.
* `broadcast?_eq_some_iff`, `exists_broadcast?_iff`: The common shape, axis by axis.
* `leastAbove_iff`: The common shape is the least one.
* `broadcastShape_twice`: The common shape of three shapes, two of them taken first.
* `broadcastShape_monoid`: The laws of broadcasting, failure included.
-/

namespace GraphAttention

namespace Shape

variable {s t r u : Shape}

/-- The length of the axis with a number counted from the last axis, which has number
    zero. A missing axis counts as one of length one. -/
def lengthAt (s : Shape) (k : Nat) : Nat := s.reverse.getD k 1

/-- A shape can be stretched to another: it has no more axes, and each of its lengths is
    one or that of the axis aligned with it. -/
def Stretches (s r : Shape) : Prop :=
  s.length ≤ r.length ∧ ∀ k, s.lengthAt k = 1 ∨ s.lengthAt k = r.lengthAt k

/-- All of some shapes can be stretched to a shape. -/
def Above (ss : List Shape) (u : Shape) : Prop := ∀ s ∈ ss, Stretches s u

/-- The least shape to which all of some shapes can be stretched. -/
structure LeastAbove (ss : List Shape) (r : Shape) : Prop where
  above : Above ss r
  least : ∀ u, Above ss u → Stretches r u

@[simp] theorem above_nil (u : Shape) : Above [] u := fun _ h => absurd h List.not_mem_nil

@[simp] theorem above_cons {ss : List Shape} :
    Above (s :: ss) u ↔ Stretches s u ∧ Above ss u := List.forall_mem_cons

theorem lengthAt_of_le {k : Nat} (h : s.length ≤ k) : s.lengthAt k = 1 := by
  rw [lengthAt, List.getD_eq_default]
  rwa [List.length_reverse]

/-- Lists with a default past their ends are equal if they are equally long and agree. -/
theorem ext_getD {xs ys : List Nat} (hlength : xs.length = ys.length)
    (h : ∀ k, xs.getD k 1 = ys.getD k 1) : xs = ys := by
  refine List.ext_getElem hlength fun k hk hk' => ?_
  have hread := h k
  rwa [List.getD_eq_getElem _ _ hk, List.getD_eq_getElem _ _ hk'] at hread

theorem ext_lengthAt (hlength : s.length = t.length) (h : ∀ k, s.lengthAt k = t.lengthAt k) :
    s = t := by
  refine List.reverse_injective (ext_getD ?_ h)
  simpa using hlength

/-! ### Stretching -/

theorem stretches_refl (s : Shape) : Stretches s s := ⟨Nat.le_refl _, fun _ => .inr rfl⟩

theorem Stretches.trans (h : Stretches s t) (h' : Stretches t u) : Stretches s u := by
  refine ⟨Nat.le_trans h.1 h'.1, fun k => ?_⟩
  have hst := h.2 k
  have htu := h'.2 k
  omega

/-- Shapes that can be stretched to each other are equal: a length of one on either side is
    one on both. -/
theorem Stretches.antisymm (h : Stretches s t) (h' : Stretches t s) : s = t := by
  refine ext_lengthAt (Nat.le_antisymm h.1 h'.1) fun k => ?_
  have hst := h.2 k
  have hts := h'.2 k
  omega

/-! ### Least shapes -/

theorem LeastAbove.unique {ss : List Shape} (h : LeastAbove ss r) (h' : LeastAbove ss u) :
    r = u :=
  (h.least u h'.above).antisymm (h'.least r h.above)

theorem LeastAbove.above_iff {ss : List Shape} (h : LeastAbove ss r) :
    Above ss u ↔ Stretches r u :=
  ⟨h.least u, fun hru s hs => (h.above s hs).trans hru⟩

/-- The least shape above some shapes depends only on what is above them. -/
theorem leastAbove_congr {ss ts : List Shape} (h : ∀ u, Above ss u ↔ Above ts u) :
    LeastAbove ss r ↔ LeastAbove ts r := by
  constructor
  · intro hr
    exact ⟨(h r).mp hr.above, fun u hu => hr.least u ((h u).mpr hu)⟩
  · intro hr
    exact ⟨(h r).mpr hr.above, fun u hu => hr.least u ((h u).mp hu)⟩

/-- The least shape above two shapes may stand for them both. -/
theorem LeastAbove.pair (h : LeastAbove [s, t] r) {ss : List Shape} {l : Shape} :
    LeastAbove (r :: ss) l ↔ LeastAbove (s :: t :: ss) l := by
  refine leastAbove_congr fun u => ?_
  have habove := h.above_iff (u := u)
  simp only [above_cons, above_nil, and_true] at habove ⊢
  rw [← habove, and_assoc]

/-! ### Axis by axis -/

theorem broadcastAxis_eq_some_iff {m n l : Nat} :
    broadcastAxis m n = some l ↔ ((m = n ∨ n = 1) ∧ l = m) ∨ (m = 1 ∧ l = n) := by
  unfold broadcastAxis
  split
  · simp only [Option.some.injEq]
    omega
  · split
    · simp only [Option.some.injEq]
      omega
    · simp only [reduceCtorEq, false_iff]
      omega

theorem exists_broadcastAxis_iff {m n : Nat} :
    (∃ l, broadcastAxis m n = some l) ↔ m = n ∨ m = 1 ∨ n = 1 := by
  simp only [broadcastAxis_eq_some_iff]
  constructor
  · rintro ⟨l, h⟩
    omega
  · intro h
    by_cases hone : m = 1
    · exact ⟨n, .inr ⟨hone, rfl⟩⟩
    · exact ⟨m, .inl ⟨by omega, rfl⟩⟩

theorem broadcastAxis_one_left (n : Nat) : broadcastAxis 1 n = some n :=
  broadcastAxis_eq_some_iff.mpr (.inr ⟨rfl, rfl⟩)

theorem broadcastAxis_one_right (m : Nat) : broadcastAxis m 1 = some m :=
  broadcastAxis_eq_some_iff.mpr (.inl ⟨.inr rfl, rfl⟩)

/-- With the last axis first the common shape is a matter of each axis, those past the end
    of one shape included. -/
theorem broadcastReversed_eq_some_iff :
    broadcastReversed s t = some r ↔ r.length = max s.length t.length ∧
      ∀ k, broadcastAxis (s.getD k 1) (t.getD k 1) = some (r.getD k 1) := by
  induction s generalizing t r with
  | nil =>
    simp only [broadcastReversed, List.getD_nil, broadcastAxis_one_left, Option.some.injEq,
      List.length_nil, Nat.zero_max]
    constructor
    · rintro rfl
      exact ⟨rfl, fun _ => rfl⟩
    · rintro ⟨hlength, h⟩
      exact ext_getD hlength.symm h
  | cons m s ih =>
    cases t with
    | nil =>
      simp only [broadcastReversed, List.getD_nil, broadcastAxis_one_right, Option.some.injEq,
        List.length_nil, Nat.max_zero]
      constructor
      · rintro rfl
        exact ⟨rfl, fun _ => rfl⟩
      · rintro ⟨hlength, h⟩
        exact ext_getD hlength.symm h
    | cons n t =>
      simp only [broadcastReversed, Option.bind_eq_bind, Option.bind_eq_some_iff, Option.pure_def,
        Option.some.injEq]
      constructor
      · rintro ⟨axis, haxis, rest, hrest, rfl⟩
        rcases ih.mp hrest with ⟨hlength, h⟩
        refine ⟨by simp only [List.length_cons]; omega, fun k => ?_⟩
        cases k with
        | zero => exact haxis
        | succ k => exact h k
      · rintro ⟨hlength, h⟩
        cases r with
        | nil =>
          simp only [List.length_nil, List.length_cons] at hlength
          omega
        | cons axis rest =>
          simp only [List.length_cons] at hlength
          refine ⟨axis, h 0, rest, ih.mpr ⟨by omega, fun k => h (k + 1)⟩, rfl⟩

/-- The common shape has as many axes as the longer shape, and the length of each is the
    common length of the two that are aligned there. -/
theorem broadcast?_eq_some_iff :
    broadcast? s t = some r ↔ r.length = max s.length t.length ∧
      ∀ k, broadcastAxis (s.lengthAt k) (t.lengthAt k) = some (r.lengthAt k) := by
  have hreverse : broadcast? s t = some r
      ↔ broadcastReversed s.reverse t.reverse = some r.reverse := by
    rw [broadcast?, Option.map_eq_some_iff]
    constructor
    · rintro ⟨r', hr', rfl⟩
      rwa [List.reverse_reverse]
    · intro h
      exact ⟨_, h, List.reverse_reverse r⟩
  rw [hreverse, broadcastReversed_eq_some_iff]
  simp only [List.length_reverse]
  rfl

/-- There is a common shape if any two aligned lengths are equal or one of them is one. -/
theorem exists_broadcast?_iff :
    (∃ r, broadcast? s t = some r) ↔
      ∀ k, s.lengthAt k = t.lengthAt k ∨ s.lengthAt k = 1 ∨ t.lengthAt k = 1 := by
  simp only [← exists_broadcastAxis_iff]
  constructor
  · rintro ⟨r, hr⟩ k
    exact ⟨_, (broadcast?_eq_some_iff.mp hr).2 k⟩
  · intro h
    choose length hlength using h
    let r : Shape := ((List.range (max s.length t.length)).map length).reverse
    refine ⟨r, broadcast?_eq_some_iff.mpr ⟨by simp [r], fun k => ?_⟩⟩
    by_cases hk : k < max s.length t.length
    · have hread : r.lengthAt k = length k := by simp [r, lengthAt, hk]
      rw [hread]
      exact hlength k
    · -- Past the end of both, all lengths are one.
      have hs : s.length ≤ k := by omega
      have ht : t.length ≤ k := by omega
      have hr : r.length ≤ k := by simp [r, hs, ht]
      rw [lengthAt_of_le hs, lengthAt_of_le ht, lengthAt_of_le hr, broadcastAxis_one_left]

/-! ### The common shape is the least -/

theorem leastAbove_of_broadcast? (h : broadcast? s t = some r) : LeastAbove [s, t] r := by
  rcases broadcast?_eq_some_iff.mp h with ⟨hlength, haxes⟩
  have haxis := fun k => broadcastAxis_eq_some_iff.mp (haxes k)
  constructor
  · simp only [above_cons, above_nil, and_true]
    refine ⟨⟨by omega, fun k => ?_⟩, ⟨by omega, fun k => ?_⟩⟩
    · have := haxis k
      omega
    · have := haxis k
      omega
  · intro u hu
    simp only [above_cons, above_nil, and_true] at hu
    rcases hu with ⟨hs, ht⟩
    refine ⟨?_, fun k => ?_⟩
    · rw [hlength]
      exact Nat.max_le.mpr ⟨hs.1, ht.1⟩
    · -- Each length is that of one of the two shapes.
      have hsu := hs.2 k
      have htu := ht.2 k
      have := haxis k
      omega

/-- Two shapes that can be stretched to one shape have a common shape. -/
theorem exists_broadcast?_of_above (h : Above [s, t] u) : ∃ r, broadcast? s t = some r := by
  simp only [above_cons, above_nil, and_true] at h
  refine exists_broadcast?_iff.mpr fun k => ?_
  have hsu := h.1.2 k
  have htu := h.2.2 k
  omega

/-- The common shape of two shapes is the least to which both can be stretched. -/
theorem leastAbove_iff : broadcast? s t = some r ↔ LeastAbove [s, t] r := by
  constructor
  · exact leastAbove_of_broadcast?
  · intro h
    rcases exists_broadcast?_of_above h.above with ⟨r', hr'⟩
    rw [hr', (leastAbove_of_broadcast? hr').unique h]

theorem broadcast?_comm (s t : Shape) : broadcast? s t = broadcast? t s := by
  refine Option.ext fun r => ?_
  rw [leastAbove_iff, leastAbove_iff]
  exact leastAbove_congr fun u => by simp [and_comm]

end Shape

namespace Tensor

variable {a b c r : Shape}

theorem broadcastShape_eq_ok_iff :
    broadcastShape a b = .ok r ↔ Shape.broadcast? a b = some r := by
  unfold broadcastShape
  cases Shape.broadcast? a b with
  | none => simp [throw, throwThe, MonadExceptOf.throw]
  | some s => simp [pure, Except.pure]

theorem broadcastShape_leastAbove_iff :
    broadcastShape a b = .ok r ↔ Shape.LeastAbove [a, b] r :=
  broadcastShape_eq_ok_iff.trans Shape.leastAbove_iff

/-- There is one refusal, and it names the shapes in the order in which they were given. -/
theorem broadcastShape_eq_error_iff {e : TensorError} :
    broadcastShape a b = .error e ↔
      e = .notBroadcastable a b ∧ Shape.broadcast? a b = none := by
  unfold broadcastShape
  cases Shape.broadcast? a b with
  | none => simp [throw, throwThe, MonadExceptOf.throw, eq_comm]
  | some s => simp [pure, Except.pure]

/-- The common shape of two shapes and then of a third is the least above all three. -/
theorem broadcastShape_twice :
    (broadcastShape a b >>= fun m => broadcastShape m c) = .ok r ↔
      Shape.LeastAbove [a, b, c] r := by
  simp only [bind_eq_ok, broadcastShape_leastAbove_iff]
  constructor
  · rintro ⟨m, hm, hr⟩
    exact hm.pair.mp hr
  · intro h
    -- Whatever is above all three is above two of them, so these have a common shape.
    have habove : Shape.Above [a, b] r := by
      have := h.above
      simp only [Shape.above_cons] at this ⊢
      exact ⟨this.1, this.2.1, Shape.above_nil r⟩
    rcases Shape.exists_broadcast?_of_above habove with ⟨m, hm⟩
    have hm := Shape.leastAbove_iff.mp hm
    exact ⟨m, hm, hm.pair.mpr h⟩

/-- Broadcasting is a partial operation that is commutative, idempotent and associative and
    has the shape without axes for its unit. It is defined exactly if aligned lengths are
    equal or one of them is one, and gives the least shape above both; where it is not
    defined one way it is not the other, and the refusals differ in the order of the shapes
    alone. Grouping three shapes differently makes no difference, failure included. -/
theorem broadcastShape_monoid (a b c : Shape) :
    ((∃ r, broadcastShape a b = .ok r) ↔
      ∀ k, a.lengthAt k = b.lengthAt k ∨ a.lengthAt k = 1 ∨ b.lengthAt k = 1) ∧
    (∀ r, broadcastShape a b = .ok r ↔ Shape.LeastAbove [a, b] r) ∧
    (∀ r, broadcastShape a b = .ok r ↔ broadcastShape b a = .ok r) ∧
    (∀ e, broadcastShape a b = .error e ↔
      e = .notBroadcastable a b ∧ broadcastShape b a = .error (.notBroadcastable b a)) ∧
    broadcastShape a a = .ok a ∧ broadcastShape a [] = .ok a ∧ broadcastShape [] a = .ok a ∧
    ∀ r, (broadcastShape a b >>= fun m => broadcastShape m c) = .ok r ↔
      (broadcastShape b c >>= fun m => broadcastShape a m) = .ok r := by
  have hswap : ∀ r, broadcastShape a b = .ok r ↔ broadcastShape b a = .ok r := by
    intro r
    rw [broadcastShape_eq_ok_iff, broadcastShape_eq_ok_iff, Shape.broadcast?_comm]
  have hself : broadcastShape a a = .ok a := by
    rw [broadcastShape_eq_ok_iff]
    exact Shape.broadcast_append [] a
  have hunit : broadcastShape a [] = .ok a := by
    rw [broadcastShape_eq_ok_iff]
    simpa using Shape.broadcast_append a []
  refine ⟨?_, fun r => broadcastShape_leastAbove_iff, hswap, fun e => ?_, hself, hunit, ?_, ?_⟩
  · simp only [broadcastShape_eq_ok_iff]
    exact Shape.exists_broadcast?_iff
  · simp only [broadcastShape_eq_error_iff, Shape.broadcast?_comm b a, true_and]
  · rw [broadcastShape_eq_ok_iff, Shape.broadcast?_comm, ← broadcastShape_eq_ok_iff]
    exact hunit
  · intro r
    have hright : (broadcastShape b c >>= fun m => broadcastShape a m) = .ok r ↔
        (broadcastShape b c >>= fun m => broadcastShape m a) = .ok r := by
      simp only [bind_eq_ok, broadcastShape_eq_ok_iff, Shape.broadcast?_comm a]
    rw [hright, broadcastShape_twice, broadcastShape_twice]
    refine Shape.leastAbove_congr fun u => ?_
    simp only [Shape.above_cons, Shape.above_nil, and_true]
    tauto

/-- An axis of length one gives way to an axis of length zero as to any other. -/
example : broadcastShape [5, 1, 0] [3, 1] = .ok [5, 3, 0] := rfl

end Tensor

end GraphAttention
