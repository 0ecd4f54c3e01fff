import GraphAttention.Proofs.Chains

/-!
# Gathers by Their Numbers

Which gathers succeed, what the others are refused for, and how one gather follows
another.

The numbers are checked in row-major order before anything else is asked, so a refused
gather names the first number that strays, whatever comes after it. Numbers that all
name rows are not enough, because the result needs room. Without elements a tensor still
has axes, and a result without elements can have axes that no buffer has.

Gathering from what was gathered is gathering by the numbers that were gathered. This
asks nothing of the second numbers. They are checked against as many rows either way,
and if the rows they name are alike, so is the room that is asked for, hence the two
sides are refused together and for the same reason.

## Main definitions

* `Tensor.NamesAt`: The number at a place names a row.
* `Tensor.FirstStray`: The first number that names no row.

## Theorems

* `names_or_stray`: Numbers all name rows, or there is a first one that does not.
* `rowNumbers_stray`, `rowNumbers_ok_iff`: The first number that names no row is
  reported, and without one the numbers are accepted.
* `indexSelect_ok_iff`, `indexSelect_entries`: When rows are gathered, and which they are.
* `indexSelect_alike`: Rows that are alike are gathered alike, or refused alike.
* `indexSelect_indexSelect`: One gather after another.
* `indexSelect_gathers`: Gathers of any table by any numbers.
* `not_forall_indexSelect_ok`: Numbers that name rows are not enough.
-/

namespace GraphAttention

namespace Tensor

variable {d : DType} {t u r indices numbers : Tensor} {n m : Nat} {s tail : Shape}

/-- The number at a row-major position names one of `n` rows. -/
def NamesAt (indices : Tensor) (n k : Nat) : Prop :=
  0 ≤ (indices.itemAt .int64 k).toInt ∧ (indices.itemAt .int64 k).toInt.toNat < n

instance (indices : Tensor) (n k : Nat) : Decidable (indices.NamesAt n k) :=
  inferInstanceAs (Decidable (_ ∧ _))

instance (indices : Tensor) (n : Nat) : Decidable (indices.Names n) :=
  inferInstanceAs (Decidable (∀ k, k < indices.count → indices.NamesAt n k))

/-- The number at a position names none of `n` rows, and all numbers before it name one. -/
structure FirstStray (indices : Tensor) (n k : Nat) : Prop where
  lt : k < indices.count
  stray : ¬ indices.NamesAt n k
  before : ∀ i, i < k → indices.NamesAt n i

/-- Numbers all name rows, or there is a first one that does not. -/
theorem names_or_stray (indices : Tensor) (n : Nat) :
    indices.Names n ∨ ∃ k, indices.FirstStray n k := by
  classical
  by_cases hstray : ∃ k, k < indices.count ∧ ¬ indices.NamesAt n k
  · have hleast := Nat.find_spec hstray
    refine .inr ⟨Nat.find hstray, hleast.1, hleast.2, fun i hi => ?_⟩
    -- A number before the first one that strays does not stray.
    by_contra hnot
    exact Nat.find_min hstray hi ⟨hi.trans hleast.1, hnot⟩
  · refine .inl fun k hk => ?_
    by_contra hnot
    exact hstray ⟨k, hk, hnot⟩

theorem mapM_rowNumber_stray {before after : List Int64} {i : Int64}
    (hbefore : ∀ i' ∈ before, 0 ≤ i'.toInt ∧ i'.toInt.toNat < n)
    (hi : ¬ (0 ≤ i.toInt ∧ i.toInt.toNat < n)) :
    (before ++ i :: after).mapM (rowNumber n) = .error (.indexOutOfBounds i.toInt 0 n) := by
  rcases mapM_rowNumber_ok hbefore with ⟨rows, hrows⟩
  have hnumber : rowNumber n i = .error (.indexOutOfBounds i.toInt 0 n) := dif_neg hi
  rw [List.mapM_append, List.mapM_cons, hrows, hnumber]
  rfl

/-- The first number that names no row is reported. -/
theorem rowNumbers_stray (hi : indices.Matches .int64 s) {k : Nat} (h : indices.FirstStray n k) :
    indices.rowNumbers n
      = .error (.indexOutOfBounds (indices.itemAt .int64 k).toInt 0 n) := by
  rcases hi.exists_array with ⟨a, room, rfl, -⟩
  have hlength : a.toList.length = a.shape.size := by simp [DenseArray.toList, a.size_data]
  have hitem : ∀ i (hi : i < a.toList.length), a.toList[i] = a.item i := by
    intro i hi
    have hlt : i < a.data.size := by simpa [DenseArray.toList] using hi
    simp [DenseArray.toList, DenseArray.item, hlt]
  have hk : k < a.toList.length := by
    rw [hlength]
    exact h.lt
  -- The numbers are cut where the first one strays.
  have hcut : a.toList = a.toList.take k ++ a.item k :: a.toList.drop (k + 1) := by
    rw [← hitem k hk, List.cons_getElem_drop_succ, List.take_append_drop]
  have hstray := h.stray
  simp only [NamesAt, itemAt_mk] at hstray ⊢
  rw [rowNumbers, elements_mk]
  change a.toList.mapM (rowNumber n) = _
  rw [hcut]
  refine mapM_rowNumber_stray (fun i hi => ?_) hstray
  rcases List.getElem_of_mem hi with ⟨j, hj, rfl⟩
  have hjk : j < k := by
    rw [List.length_take] at hj
    omega
  have hnamed := h.before j hjk
  simp only [NamesAt, itemAt_mk] at hnamed
  rwa [List.getElem_take, hitem j (hjk.trans hk)]

/-- Numbers are accepted when they are integers and each of them names a row. -/
theorem rowNumbers_ok_iff :
    (∃ rows, indices.rowNumbers n = .ok rows) ↔ indices.dtype = .int64 ∧ indices.Names n := by
  constructor
  · rintro ⟨rows, hrows⟩
    have hkind := dtype_of_rowNumbers hrows
    refine ⟨hkind, ?_⟩
    rcases names_or_stray indices n with hnames | ⟨k, hstray⟩
    · exact hnames
    · rw [rowNumbers_stray ⟨hkind, rfl⟩ hstray] at hrows
      cases hrows
  · rintro ⟨hkind, hnames⟩
    exact rowNumbers_ok hkind hnames

/-- Numbers that are refused are all that a gather looks at. -/
theorem indexSelect_refused {e : TensorError} (ht : t.Matches d (n :: tail))
    (h : indices.rowNumbers n = .error e) : t.indexSelect indices = .error e := by
  rcases ht.exists_array with ⟨⟨shape, data, hdata⟩, ra, rfl, hshape⟩
  obtain rfl : shape = n :: tail := hshape
  simp only [indexSelect, h, bind, Except.bind]

/-- Rows are gathered when every number names one and the result has room. -/
theorem indexSelect_ok_iff (ht : t.Matches d (n :: tail)) (hi : indices.Matches .int64 s) :
    (∃ r, t.indexSelect indices = .ok r) ↔
      indices.Names n ∧ Shape.Allocatable d.width (s ++ tail) := by
  constructor
  · rintro ⟨r, hr⟩
    refine ⟨?_, ?_⟩
    · rcases names_or_stray indices n with hnames | ⟨k, hstray⟩
      · exact hnames
      · rw [indexSelect_refused ht (rowNumbers_stray hi hstray)] at hr
        cases hr
    · -- What was gathered is a tensor, and every tensor has room.
      rcases indexSelect_result hr with ⟨-, n', tail', hshape, hresult⟩
      obtain ⟨-, rfl⟩ := List.cons.inj (ht.shape.symm.trans hshape)
      rw [ht.dtype, hi.shape] at hresult
      exact hresult.room
  · rintro ⟨hnames, room⟩
    rcases indexSelect_ok ht hi hnames room with ⟨r, hr, -⟩
    exact ⟨r, hr⟩

/-- What is known of a gather that has succeeded. -/
theorem indexSelect_entries (ht : t.Matches d (n :: tail)) (hi : indices.Matches .int64 s)
    (h : t.indexSelect indices = .ok r) :
    indices.Names n ∧ r.Matches d (s ++ tail) ∧
      ∀ p j, Shape.Within p s → Shape.Within j tail →
        r.entry d (p ++ j) = t.entry d ((indices.entry .int64 p).toInt.toNat :: j) := by
  rcases (indexSelect_ok_iff ht hi).mp ⟨r, h⟩ with ⟨hnames, room⟩
  rcases indexSelect_ok ht hi hnames room with ⟨r', hr', hresult⟩
  rw [h] at hr'
  cases hr'
  exact ⟨hnames, hresult⟩

/-- Where two tables have the same rows under their numbers, the rows are gathered alike
    or refused alike. -/
theorem indexSelect_alike (ht : t.Matches d (n :: tail)) (hu : u.Matches d (m :: tail))
    (hi : indices.Matches .int64 s) (hj : numbers.Matches .int64 s) (hnames : indices.Names n)
    (hnames' : numbers.Names m)
    (hagree : ∀ p j, Shape.Within p s → Shape.Within j tail →
      t.entry d ((indices.entry .int64 p).toInt.toNat :: j)
        = u.entry d ((numbers.entry .int64 p).toInt.toNat :: j)) :
    t.indexSelect indices = u.indexSelect numbers := by
  by_cases hflat : Shape.Allocatable d.width (s.size :: tail)
  · by_cases hspan : Shape.Addressable (s ++ tail)
    · have hsize : Shape.size (s ++ tail) = Shape.size (s.size :: tail) := by
        rw [Shape.size_append, Shape.size_cons]
      have room : Shape.Allocatable d.width (s ++ tail) :=
        ⟨hspan, (Shape.fits_congr hsize).mpr hflat.2⟩
      rcases indexSelect_ok ht hi hnames room with ⟨r, hr, hrM, hrE⟩
      rcases indexSelect_ok hu hj hnames' room with ⟨r', hr', hrM', hrE'⟩
      have heq : r = r' := by
        refine ext_entry hrM hrM' fun idx hidx => ?_
        rcases Shape.within_split hidx with ⟨p, j, rfl, hp, hj⟩
        rw [hrE p j hp hj, hrE' p j hp hj, hagree p j hp hj]
      rw [hr, hr', heq]
    · rw [indexSelect_incompatible ht hi hnames hflat hspan,
        indexSelect_incompatible hu hj hnames' hflat hspan]
  · rw [indexSelect_roomless ht hi hnames hflat, indexSelect_roomless hu hj hnames' hflat]

/-- Numbers gathered from a list of numbers: there is always room for them, and they name
    what the list names. -/
theorem indexSelect_numbers (hi : indices.Matches .int64 [m]) (hj : numbers.Matches .int64 s)
    (hnames : numbers.Names m) :
    ∃ k, indices.indexSelect numbers = .ok k ∧ k.Matches .int64 s ∧
      (indices.Names n → k.Names n) ∧ ∀ p, Shape.Within p s →
        k.entry .int64 p = indices.entry .int64 [(numbers.entry .int64 p).toInt.toNat] := by
  have room : Shape.Allocatable DType.int64.width (s ++ []) := by
    rw [List.append_nil]
    exact hj.room
  rcases indexSelect_ok hi hj hnames room with ⟨k, hk, hkM, hkE⟩
  rw [List.append_nil] at hkM
  have hentry : ∀ p, Shape.Within p s →
      k.entry .int64 p = indices.entry .int64 [(numbers.entry .int64 p).toInt.toNat] := by
    intro p hp
    simpa using hkE p [] hp trivial
  refine ⟨k, hk, hkM, fun hrows i hi' => ?_, hentry⟩
  -- The number at a place was read at a place of the list.
  rw [count, hkM.shape] at hi'
  have hp := Shape.within_unravel hi'
  have hplace := hnames i (by rwa [count, hj.shape])
  have hread := hentry _ hp
  rw [entry_eq_itemAt hkM, entry_eq_itemAt hi, entry_eq_itemAt hj, Shape.ravel_unravel hi'] at hread
  rw [hread]
  refine hrows _ ?_
  rw [count, hi.shape]
  exact Shape.ravel_lt ⟨hplace.2, trivial⟩

/-- Gathering from rows that were gathered by a list of numbers is gathering by numbers that
    were gathered from the list, in what is refused as well. -/
theorem indexSelect_indexSelect (ht : t.Matches d (n :: tail)) (hi : indices.Matches .int64 [m])
    (hr : t.indexSelect indices = .ok r) (numbers : Tensor) :
    r.indexSelect numbers = (indices.indexSelect numbers >>= t.indexSelect) := by
  rcases indexSelect_entries ht hi hr with ⟨hnames, hrM, hrE⟩
  have hrM : r.Matches d (m :: tail) := hrM
  cases hrows : numbers.rowNumbers m with
  | error e =>
    -- Both sides check the numbers against the same list.
    rw [indexSelect_refused hrM hrows, indexSelect_refused hi hrows]
    rfl
  | ok rows =>
    rcases rowNumbers_ok_iff.mp ⟨rows, hrows⟩ with ⟨hkind, hnumbers⟩
    have hj : numbers.Matches .int64 numbers.shape := ⟨hkind, rfl⟩
    rcases indexSelect_numbers hi hj hnumbers with ⟨k, hk, hkM, hkN, hkE⟩
    rw [hk]
    refine indexSelect_alike hrM ht hj hkM hnumbers (hkN hnames) fun p j hp hj' => ?_
    have hplace : (numbers.entry .int64 p).toInt.toNat < m := by
      rw [entry_eq_itemAt hj]
      refine (hnumbers _ ?_).2
      exact Shape.ravel_lt hp
    have hread := hrE [(numbers.entry .int64 p).toInt.toNat] j ⟨hplace, trivial⟩ hj'
    rw [List.singleton_append] at hread
    rw [hread, hkE p hp]

/-- Gathers of any table by integers of any shape. The first number that names no row is
    reported if there is one, and otherwise the rows are gathered if there is room for them;
    what was gathered by a list of numbers may be gathered from by any numbers at all. -/
theorem indexSelect_gathers (ht : t.Matches d (n :: tail)) (hi : indices.Matches .int64 s) :
    (indices.Names n ∨ ∃ k, indices.FirstStray n k) ∧
    (∀ k, indices.FirstStray n k → t.indexSelect indices
      = .error (.indexOutOfBounds (indices.itemAt .int64 k).toInt 0 n)) ∧
    ((∃ r, t.indexSelect indices = .ok r) ↔
      indices.Names n ∧ Shape.Allocatable d.width (s ++ tail)) ∧
    ∀ r, t.indexSelect indices = .ok r →
      r.Matches d (s ++ tail) ∧
      (∀ p j, Shape.Within p s → Shape.Within j tail →
        r.entry d (p ++ j) = t.entry d ((indices.entry .int64 p).toInt.toNat :: j)) ∧
      ∀ m, s = [m] → ∀ numbers : Tensor,
        r.indexSelect numbers = (indices.indexSelect numbers >>= t.indexSelect) ∧
        (numbers.dtype = .int64 → numbers.Names m →
          ∃ k, indices.indexSelect numbers = .ok k ∧ k.Names n) := by
  refine ⟨names_or_stray indices n, fun k hk => ?_, indexSelect_ok_iff ht hi, fun r hr => ?_⟩
  · exact indexSelect_refused ht (rowNumbers_stray hi hk)
  · rcases indexSelect_entries ht hi hr with ⟨hnames, hrM, hrE⟩
    refine ⟨hrM, hrE, ?_⟩
    rintro m rfl numbers
    refine ⟨indexSelect_indexSelect ht hi hr numbers, fun hkind hnumbers => ?_⟩
    rcases indexSelect_numbers hi ⟨hkind, rfl⟩ hnumbers with ⟨k, hk, -, hkN, -⟩
    exact ⟨k, hk, hkN hnames⟩

/-- Three rows of two numbers each. -/
def threeRows : Tensor := ⟨.int64, .generate [3, 2] Int64.ofNat, by decide⟩

/-- Four rows picked among three. -/
def fourPicks : Tensor := ⟨.int64, ⟨[4], #[2, 0, 2, 1], rfl⟩, by decide⟩

/-- Two rows picked among four, one of them twice. -/
def threePicks : Tensor := ⟨.int64, ⟨[3], #[3, 3, 0], rfl⟩, by decide⟩

/-- A row picked among three, and two numbers that name none of them. -/
def strayPicks : Tensor := ⟨.int64, ⟨[3], #[1, -1, 7], rfl⟩, by decide⟩

/-- Rows gathered from gathered rows, and the first of two numbers that name no row. -/
theorem indexSelect_gathers_threeRows :
    (∃ r k, threeRows.indexSelect fourPicks = .ok r ∧
      fourPicks.indexSelect threePicks = .ok k ∧
      r.indexSelect threePicks = threeRows.indexSelect k) ∧
    threeRows.indexSelect strayPicks = .error (.indexOutOfBounds (-1) 0 3) := by
  have ht : threeRows.Matches .int64 [3, 2] := ⟨rfl, rfl⟩
  constructor
  · rcases indexSelect_gathers ht (⟨rfl, rfl⟩ : fourPicks.Matches .int64 [4])
      with ⟨-, -, hok, hgathered⟩
    have hnames : fourPicks.Names 3 := by decide +kernel
    have hnames' : threePicks.Names 4 := by decide +kernel
    rcases hok.mpr ⟨hnames, by decide⟩ with ⟨r, hr⟩
    rcases (hgathered r hr).2.2 4 rfl threePicks with ⟨htwice, hthere⟩
    rcases hthere rfl hnames' with ⟨k, hk, -⟩
    refine ⟨r, k, hr, hk, ?_⟩
    rw [htwice, hk]
    rfl
  · have hstray : strayPicks.FirstStray 3 1 :=
      ⟨by decide, by decide +kernel, by decide +kernel⟩
    rcases indexSelect_gathers ht (⟨rfl, rfl⟩ : strayPicks.Matches .int64 [3])
      with ⟨-, herror, -⟩
    exact herror 1 hstray

/-- Numbers that all name rows are not enough: without elements there may still be no room. -/
theorem not_forall_indexSelect_ok :
    ¬ ∀ (t indices : Tensor) (d : DType) (n : Nat) (tail s : Shape), t.Matches d (n :: tail) →
      indices.Matches .int64 s → ((∃ r, t.indexSelect indices = .ok r) ↔ indices.Names n) := by
  intro h
  let t : Tensor := ⟨.float64, .generate [1, 4] fun _ => 1, by decide⟩
  let indices : Tensor := ⟨.int64, .fill [0, 4611686018427387904] 0, by decide⟩
  have hnames : indices.Names 1 := fun k hk => absurd hk (Nat.not_lt_zero k)
  rcases (h t indices .float64 1 [4] [0, 4611686018427387904] ⟨rfl, rfl⟩ ⟨rfl, rfl⟩).mpr hnames
    with ⟨r, hr⟩
  -- The rows would take the shape of the numbers, which spans too much with a row at its end.
  have hroomless : ¬ Shape.Allocatable DType.float64.width [0, 4611686018427387904, 4] := by decide
  have hresult := (indexSelect_result hr).2
  rcases hresult with ⟨n', tail', hshape, hmatch⟩
  obtain ⟨-, rfl⟩ := List.cons.inj hshape
  exact hroomless hmatch.room

end Tensor

end GraphAttention
