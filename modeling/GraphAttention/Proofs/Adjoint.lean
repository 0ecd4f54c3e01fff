import GraphAttention.Proofs.Scattering
import Mathlib.Algebra.BigOperators.Group.Finset.Basic
import Mathlib.Algebra.BigOperators.Intervals
import Mathlib.Algebra.BigOperators.Ring.Finset
import Mathlib.Algebra.Order.BigOperators.Group.Finset

/-!
# Gather and Scatter as Adjoints

Rows gathered from a table and weighed against a gradient give the same total as the
table weighed against the gradient scattered. Both totals add up, for every number, the
row that it names times the row of the gradient that belongs to it. A gather goes
through the numbers and looks up their rows; a scatter goes through the rows and collects
what has their number. `sum_by_number` is the exchange of the two orders.

This is about integers. The elements of the tensors are words of 64 bits, and a word is
the remainder of an integer. Sums and products of words are the words of the sums and
products, so the totals agree as words in any case. They agree as integers where the
products fit in a word. Nothing is asked of the sums that a row receives on the way, which
may leave the words and come back.

## Main definitions

* `FitsWord`: An integer that a word holds.
* `Tensor.valueAt`: The integer at a row-major position.
* `Tensor.received`: What a row receives, as an integer.
* `Tensor.NoOverflow`: Every product on the two sides fits in a word.

## Theorems

* `sum_by_number`: A sum by places is a sum by rows.
* `sum_range_blocks`: A sum over positions is a sum over blocks and places in them.
* `foldl_add_word`: Words added one after another.
* `Tensor.sum_words`, `Tensor.sum_values`: Totals as words and as integers.
* `Tensor.gathered_words`, `Tensor.scattered_words`: The elements on the two sides.
* `Tensor.scatter_adjoint`: The totals of the two sides.
-/

namespace GraphAttention

open Finset

/-- A sum by places, each with the number of a row, is a sum by rows and by the places that
    have their number. -/
theorem sum_by_number {K L n : Nat} {key : Nat → ℤ}
    (hkey : ∀ k, k < K → 0 ≤ key k ∧ (key k).toNat < n) (w g : Nat → Nat → ℤ) :
    ∑ k ∈ range K, ∑ l ∈ range L, w (key k).toNat l * g k l
      = ∑ r ∈ range n, ∑ l ∈ range L, w r l * ∑ k ∈ range K with key k = r, g k l := by
  have hmaps : ∀ k ∈ range K, (key k).toNat ∈ range n :=
    fun k hk => mem_range.mpr (hkey k (mem_range.mp hk)).2
  have hrow : ∀ r : Nat, (range K).filter (fun k => (key k).toNat = r)
      = (range K).filter (fun k => key k = r) := by
    intro r
    refine filter_congr fun k hk => ?_
    have hnamed := (hkey k (mem_range.mp hk)).1
    omega
  calc ∑ k ∈ range K, ∑ l ∈ range L, w (key k).toNat l * g k l
      = ∑ r ∈ range n, ∑ k ∈ range K with (key k).toNat = r,
          ∑ l ∈ range L, w (key k).toNat l * g k l := (sum_fiberwise_of_maps_to hmaps _).symm
    _ = ∑ r ∈ range n, ∑ k ∈ range K with (key k).toNat = r, ∑ l ∈ range L, w r l * g k l := by
        refine sum_congr rfl fun r _ => sum_congr rfl fun k hk => ?_
        rw [(mem_filter.mp hk).2]
    _ = ∑ r ∈ range n, ∑ l ∈ range L, w r l * ∑ k ∈ range K with key k = r, g k l := by
        refine sum_congr rfl fun r _ => ?_
        rw [sum_comm, hrow]
        exact sum_congr rfl fun l _ => (mul_sum _ _ _).symm

/-- Positions by blocks of one length. -/
theorem sum_range_blocks (K L : Nat) (f : Nat → Nat → ℤ) :
    ((List.range (K * L)).map fun i => f (i / L) (i % L)).sum
      = ∑ k ∈ range K, ∑ l ∈ range L, f k l := by
  rw [← List.sum_toFinset _ List.nodup_range, List.toFinset_range]
  induction K with
  | zero => simp
  | succ K ih =>
    rw [Nat.succ_mul, sum_range_add, ih, sum_range_succ]
    congr 1
    -- The last block begins where those before it end.
    refine sum_congr rfl fun l hl => ?_
    rw [Shape.div_block (mem_range.mp hl), Shape.mod_block (mem_range.mp hl)]

/-! ### Words -/

/-- An integer that a word of 64 bits holds. -/
def FitsWord (z : ℤ) : Prop := -2 ^ 63 ≤ z ∧ z < 2 ^ 63

instance (z : ℤ) : Decidable (FitsWord z) := inferInstanceAs (Decidable (_ ∧ _))

theorem FitsWord.toInt_ofInt {z : ℤ} (h : FitsWord z) : (Int64.ofInt z).toInt = z :=
  Int64.toInt_ofInt_of_le h.1 h.2

theorem word_mul (x y : Int64) : x * y = Int64.ofInt (x.toInt * y.toInt) := by
  rw [Int64.ofInt_mul, Int64.ofInt_toInt, Int64.ofInt_toInt]

/-- Words added one after another are the word of the sum. -/
theorem foldl_add_word {β : Type} (f : β → Int64) (things : List β) (z : ℤ) :
    things.foldl (fun sum x => sum + f x) (Int64.ofInt z)
      = Int64.ofInt (z + (things.map fun x => (f x).toInt).sum) := by
  induction things generalizing z with
  | nil => simp
  | cons x things ih =>
    have hstep : Int64.ofInt z + f x = Int64.ofInt (z + (f x).toInt) := by
      rw [Int64.ofInt_add, Int64.ofInt_toInt]
    rw [List.foldl_cons, hstep, ih, List.map_cons, List.sum_cons, add_assoc]

theorem sum_map_ofInt (zs : List ℤ) : (zs.map Int64.ofInt).sum = Int64.ofInt zs.sum := by
  induction zs with
  | nil => rfl
  | cons z zs ih => rw [List.map_cons, List.sum_cons, List.sum_cons, ih, Int64.ofInt_add]

namespace Tensor

variable {d : DType} {t u W I G : Tensor} {n K L : Nat} {s tail : Shape}

/-- The integer at a row-major position. -/
def valueAt (t : Tensor) (k : Nat) : ℤ := (t.itemAt .int64 k).toInt

/-- Elements that are the words of integers, block by block. -/
theorem items_blocks {f : Nat → Nat → ℤ} (hcount : t.count = K * L)
    (h : ∀ k l, k < K → l < L → t.itemAt .int64 (k * L + l) = Int64.ofInt (f k l)) :
    t.items .int64 = ((List.range (K * L)).map fun i => f (i / L) (i % L)).map Int64.ofInt := by
  rw [items, hcount, List.map_map]
  refine List.map_congr_left fun i hi => ?_
  have hi := List.mem_range.mp hi
  have hL : 0 < L := Nat.pos_of_mul_pos_left (Nat.lt_of_le_of_lt (Nat.zero_le i) hi)
  have hread := h (i / L) (i % L) ((Nat.div_lt_iff_lt_mul hL).mpr hi) (Nat.mod_lt i hL)
  rwa [Nat.div_add_mod'] at hread

/-- The total of words is the word of the total. -/
theorem sum_words {f : Nat → Nat → ℤ} (hcount : t.count = K * L)
    (h : ∀ k l, k < K → l < L → t.itemAt .int64 (k * L + l) = Int64.ofInt (f k l)) :
    (t.items .int64).sum = Int64.ofInt (∑ k ∈ range K, ∑ l ∈ range L, f k l) := by
  rw [items_blocks hcount h, sum_map_ofInt, sum_range_blocks]

/-- The total of integers that fit. -/
theorem sum_values {f : Nat → Nat → ℤ} (hcount : t.count = K * L)
    (h : ∀ k l, k < K → l < L → t.itemAt .int64 (k * L + l) = Int64.ofInt (f k l))
    (hfits : ∀ k l, k < K → l < L → FitsWord (f k l)) :
    ((t.items .int64).map Int64.toInt).sum = ∑ k ∈ range K, ∑ l ∈ range L, f k l := by
  rw [items_blocks hcount h, List.map_map, List.map_map, ← sum_range_blocks]
  refine congrArg List.sum (List.map_congr_left fun i hi => ?_)
  have hi := List.mem_range.mp hi
  have hL : 0 < L := Nat.pos_of_mul_pos_left (Nat.lt_of_le_of_lt (Nat.zero_le i) hi)
  exact (hfits _ _ ((Nat.div_lt_iff_lt_mul hL).mpr hi) (Nat.mod_lt i hL)).toInt_ofInt

/-! ### Elements by rows -/

theorem itemAt_row (ht : t.Matches d (n :: tail)) (r : Nat) {l : Nat} (hl : l < tail.size) :
    t.itemAt d (r * tail.size + l) = t.entry d (r :: tail.unravel l) := by
  rw [entry_eq_itemAt ht, Shape.ravel, Shape.ravel_unravel hl]

/-- Products of two tensors of one shape, by position. -/
theorem mul_items (ht : t.Matches d s) (hu : u.Matches d s) :
    ∃ p, t.mul u = .ok p ∧ p.Matches d s ∧
      ∀ k, k < s.size → p.itemAt d k = t.itemAt d k * u.itemAt d k := by
  rcases combine_ok (fun d (x y : d.Elem) => x * y) [] ht hu with ⟨p, hp, hM, hE⟩
  have hM : p.Matches d s := hM
  refine ⟨p, hp, hM, fun k hk => ?_⟩
  have hread := hE [] _ trivial (Shape.within_unravel hk)
  rwa [List.nil_append, entry_eq_itemAt hM, entry_eq_itemAt ht, entry_eq_itemAt hu,
    Shape.ravel_unravel hk] at hread

/-- Rows gathered, by position. -/
theorem indexSelect_items (hW : W.Matches d (n :: tail)) (hI : I.Matches .int64 s)
    (hnames : I.Names n) (room : Shape.Allocatable d.width (s ++ tail)) :
    ∃ rows, W.indexSelect I = .ok rows ∧ rows.Matches d (s ++ tail) ∧
      ∀ k l, k < s.size → l < tail.size → rows.itemAt d (k * tail.size + l)
        = W.itemAt d ((I.itemAt .int64 k).toInt.toNat * tail.size + l) := by
  rcases indexSelect_ok hW hI hnames room with ⟨rows, hrows, hM, hE⟩
  refine ⟨rows, hrows, hM, fun k l hk hl => ?_⟩
  have hp := Shape.within_unravel hk
  have hread := hE _ _ hp (Shape.within_unravel hl)
  rw [entry_eq_itemAt hM, Shape.ravel_append _ _ _ _ (Shape.within_length hp),
    Shape.ravel_unravel hk, Shape.ravel_unravel hl, entry_eq_itemAt hI, Shape.ravel_unravel hk]
    at hread
  rw [hread, itemAt_row hW _ hl]

/-! ### The two sides -/

/-- The sum of what a row receives at a place, as an integer. -/
def received (I G : Tensor) (tail : Shape) (r l : Nat) : ℤ :=
  ∑ k ∈ range I.count with I.valueAt k = r, G.valueAt (k * tail.size + l)

/-- What a row receives, by the list of places with its number. -/
theorem received_eq (I G : Tensor) (tail : Shape) (r l : Nat) :
    received I G tail r l
      = (((List.range I.count).filter fun k => (I.itemAt .int64 k).toInt = r).map
          fun k => G.valueAt (k * tail.size + l)).sum := by
  rw [received, ← List.sum_toFinset _ (List.nodup_range.filter _), List.toFinset_filter,
    List.toFinset_range]
  refine sum_congr (filter_congr fun k _ => ?_) fun k _ => rfl
  rw [decide_eq_true_eq, valueAt]

/-- Every product of a gathered row with its row of the gradient fits in a word, and so does
    every product of the table with what a row receives. -/
structure NoOverflow (W I G : Tensor) (n : Nat) (tail : Shape) : Prop where
  gathered : ∀ k l, k < I.count → l < tail.size →
    FitsWord (W.valueAt ((I.valueAt k).toNat * tail.size + l) * G.valueAt (k * tail.size + l))
  scattered : ∀ r l, r < n → l < tail.size →
    FitsWord (W.valueAt (r * tail.size + l) * received I G tail r l)

/-- Rows gathered and multiplied are the words of products. -/
theorem gathered_words (hW : W.Matches .int64 (n :: tail)) (hI : I.Matches .int64 s)
    (hnames : I.Names n) (hG : G.Matches .int64 (s ++ tail)) :
    ∃ rows p, W.indexSelect I = .ok rows ∧ rows.mul G = .ok p ∧ p.Matches .int64 (s ++ tail) ∧
      ∀ k l, k < s.size → l < tail.size → p.itemAt .int64 (k * tail.size + l)
        = Int64.ofInt (W.valueAt ((I.valueAt k).toNat * tail.size + l)
            * G.valueAt (k * tail.size + l)) := by
  rcases indexSelect_items hW hI hnames hG.room with ⟨rows, hrows, hrowsM, hrowsE⟩
  rcases mul_items hrowsM hG with ⟨p, hp, hM, hE⟩
  refine ⟨rows, p, hrows, hp, hM, fun k l hk hl => ?_⟩
  have hplace : k * tail.size + l < Shape.size (s ++ tail) := by
    rw [Shape.size_append]
    exact Shape.fold_lt hk hl
  rw [hE _ hplace, hrowsE k l hk hl]
  exact word_mul _ _

/-- Rows scattered into zeros are the words of what each row receives. -/
theorem scattered_words (hW : W.Matches .int64 (n :: tail)) (hI : I.Matches .int64 s)
    (hnames : I.Names n) (hG : G.Matches .int64 (s ++ tail)) :
    ∃ zero sums, Tensor.zeros W.shape .int64 = .ok zero ∧ zero.indexAdd I G = .ok sums ∧
      sums.Matches .int64 (n :: tail) ∧
      ∀ r l, r < n → l < tail.size →
        sums.itemAt .int64 (r * tail.size + l) = Int64.ofInt (received I G tail r l) := by
  rcases filled_ok hW.room 0 with ⟨zero, hzero, hzeroM, hzeroE⟩
  have hcount : I.count = s.size := congrArg Shape.size hI.shape
  have hspan : Shape.Addressable (I.count :: tail) := by
    rw [hcount]
    exact (hW.allocatable_rows hG.room).1
  have hadmits : zero.Admits I G n tail := by
    refine ⟨hzeroM.shape, hG.dtype.trans hzeroM.dtype.symm, hI.dtype, hnames, ?_, hspan, ?_⟩
    · rw [count, hG.shape, Shape.size_append, hcount]
    · rw [hzeroM.dtype]
      decide
  rcases hadmits.added with ⟨sums, hsums, hM, hE⟩
  rw [hzeroM.dtype] at hM hE
  refine ⟨zero, sums, ?_, hsums, hM, fun r l hr hl => ?_⟩
  · rw [hW.shape]
    exact hzero
  · have hj := Shape.within_unravel hl
    have hread := hE r _ hr hj
    have hwithin : Shape.Within (r :: tail.unravel l) (n :: tail) := ⟨hr, hj⟩
    rw [scatterSum_rowList hI.dtype hnames, hzeroE _ hwithin, Shape.ravel_unravel hl] at hread
    rw [itemAt_row hM r hl, hread]
    refine (foldl_add_word _ _ 0).trans ?_
    rw [zero_add, received_eq]
    rfl

/-- Scattering is the adjoint of gathering, for a table, numbers that name its rows and a
    gradient with a row for each number. Every operation on the two sides succeeds, and their
    totals are the same: as words in any case, and as integers if nothing overflows. -/
theorem scatter_adjoint (hW : W.Matches .int64 (n :: tail)) (hI : I.Matches .int64 s)
    (hnames : I.Names n) (hG : G.Matches .int64 (s ++ tail)) :
    ∃ rows p zero sums q,
      W.indexSelect I = .ok rows ∧ rows.mul G = .ok p ∧
      Tensor.zeros W.shape .int64 = .ok zero ∧ zero.indexAdd I G = .ok sums ∧
      W.mul sums = .ok q ∧
      (p.items .int64).sum = (q.items .int64).sum ∧
      (W.NoOverflow I G n tail →
        ((p.items .int64).map Int64.toInt).sum = ((q.items .int64).map Int64.toInt).sum) := by
  rcases gathered_words hW hI hnames hG with ⟨rows, p, hrows, hp, hpM, hpE⟩
  rcases scattered_words hW hI hnames hG with ⟨zero, sums, hzero, hsums, hsumsM, hsumsE⟩
  rcases mul_items hW hsumsM with ⟨q, hq, hqM, hqE⟩
  have hcount : I.count = s.size := congrArg Shape.size hI.shape
  have hpcount : p.count = s.size * tail.size := by
    rw [count, hpM.shape, Shape.size_append]
  have hqcount : q.count = n * tail.size := by
    rw [count, hqM.shape, Shape.size_cons]
  have hqW : ∀ r l, r < n → l < tail.size → q.itemAt .int64 (r * tail.size + l)
      = Int64.ofInt (W.valueAt (r * tail.size + l) * received I G tail r l) := by
    intro r l hr hl
    have hplace : r * tail.size + l < Shape.size (n :: tail) := Shape.fold_lt hr hl
    rw [hqE _ hplace, hsumsE r l hr hl, Int64.ofInt_mul, valueAt, Int64.ofInt_toInt]
  -- Both totals go over the numbers and the places in a row, in different orders.
  have hexchange : ∑ k ∈ range I.count, ∑ l ∈ range tail.size,
        W.valueAt ((I.valueAt k).toNat * tail.size + l) * G.valueAt (k * tail.size + l)
      = ∑ r ∈ range n, ∑ l ∈ range tail.size,
        W.valueAt (r * tail.size + l) * received I G tail r l :=
    sum_by_number hnames (fun r l => W.valueAt (r * tail.size + l))
      fun k l => G.valueAt (k * tail.size + l)
  rw [← hcount] at hpcount hpE
  refine ⟨rows, p, zero, sums, q, hrows, hp, hzero, hsums, hq, ?_, fun hfits => ?_⟩
  · rw [sum_words hpcount hpE, sum_words hqcount hqW, hexchange]
  · rw [sum_values hpcount hpE hfits.gathered, sum_values hqcount hqW hfits.scattered, hexchange]

/-- A table of three rows, a gradient for a square of four numbers, and one number that stands
    there twice. -/
theorem scatter_adjoint_repeated :
    ∃ W I G rows p zero sums q : Tensor,
      W.shape = [3, 2] ∧ I.shape = [2, 2] ∧ I.items .int64 = [2, 0, 2, 1] ∧ G.shape = [2, 2, 2] ∧
      W.indexSelect I = .ok rows ∧ rows.mul G = .ok p ∧
      Tensor.zeros W.shape .int64 = .ok zero ∧ zero.indexAdd I G = .ok sums ∧
      W.mul sums = .ok q ∧
      ((p.items .int64).map Int64.toInt).sum = ((q.items .int64).map Int64.toInt).sum := by
  let W : Tensor := ⟨.int64, .generate [3, 2] fun k => Int64.ofNat k, by decide⟩
  let I : Tensor := ⟨.int64, ⟨[2, 2], #[2, 0, 2, 1], rfl⟩, by decide⟩
  let G : Tensor := ⟨.int64, .generate [2, 2, 2] fun k => Int64.ofNat k - 3, by decide⟩
  have hnames : I.Names 3 := by decide +kernel
  have hgathered : ∀ k < 4, ∀ l < 2,
      FitsWord (W.valueAt ((I.valueAt k).toNat * 2 + l) * G.valueAt (k * 2 + l)) := by
    decide +kernel
  have hscattered : ∀ r < 3, ∀ l < 2,
      FitsWord (W.valueAt (r * 2 + l) * received I G [2] r l) := by
    unfold received
    decide +kernel
  have hW : W.Matches .int64 (3 :: [2]) := ⟨rfl, rfl⟩
  have hI : I.Matches .int64 [2, 2] := ⟨rfl, rfl⟩
  have hG : G.Matches .int64 ([2, 2] ++ [2]) := ⟨rfl, rfl⟩
  rcases scatter_adjoint hW hI hnames hG with
    ⟨rows, p, zero, sums, q, hrows, hp, hzero, hsums, hq, -, htotal⟩
  refine ⟨W, I, G, rows, p, zero, sums, q, rfl, rfl, by decide +kernel, rfl, hrows, hp, hzero,
    hsums, hq, htotal ⟨fun k l hk hl => ?_, fun r l hr hl => ?_⟩⟩
  · exact hgathered k hk l hl
  · exact hscattered r hr l hl

end Tensor

end GraphAttention
