import Mathlib.Data.List.Basic

/-!
# What a Row Receives

Rows that are scattered go to the rows whose numbers they have, one after another, and
what one row receives is a sum over all of them in which only some count. `scatterSum` is
this sum by recursion on the list of numbers, which is how the rows are added.

Nothing here asks addition to be associative or commutative, because floating addition is
not. What can still be said is where a list of numbers may be cut, that terms of other
rows do not matter, and that a sum by recursion is a sum over the places with the right
number, in their order.

## Main definitions

* `scatterSum`: What a row receives.

## Theorems

* `scatterSum_congr`: Terms of other rows do not matter.
* `scatterSum_append`, `scatterSum_shift`: Numbers in two parts.
* `scatterSum_map`: What a row receives, by the things that have its number.
* `scatterSum_of_add`: What is true of every sum is true of what a row receives.
-/

namespace GraphAttention

/-- What a row has after the summands with its number were added to it, in order.
    The summand `k` goes to the row with the `k`-th number. -/
def scatterSum {α : Type} [Add α] (row : Nat) (summand : Nat → α) : List Nat → Nat → α → α
  | [], _, acc => acc
  | r :: rows, k, acc =>
    scatterSum row summand rows (k + 1) (if r = row then acc + summand k else acc)

section Scattered

variable {α β : Type} [Add α] {row : Nat}

/-- Terms of other rows do not matter. -/
theorem scatterSum_congr {f g : Nat → α} (rows : List Nat) {k : Nat} (acc : α)
    (h : ∀ i, rows[i]? = some row → f (k + i) = g (k + i)) :
    scatterSum row f rows k acc = scatterSum row g rows k acc := by
  -- Both the place and what was added up so far move along the list.
  induction rows generalizing k acc with
  | nil => rfl
  | cons r rows ih =>
    have hrest : ∀ i, rows[i]? = some row → f (k + 1 + i) = g (k + 1 + i) := by
      intro i hi
      rw [Nat.add_assoc, Nat.add_comm 1 i]
      exact h (i + 1) (by simpa using hi)
    rw [scatterSum, scatterSum, ih _ hrest]
    by_cases hr : r = row
    · have hhead := h 0 (by simp [hr])
      rw [Nat.add_zero] at hhead
      rw [hhead]
    · rw [if_neg hr, if_neg hr]

/-- Numbers in two parts: what the second part brings is added to what the first left. -/
theorem scatterSum_append (f : Nat → α) (rows rows' : List Nat) (k : Nat) (acc : α) :
    scatterSum row f (rows ++ rows') k acc
      = scatterSum row f rows' (k + rows.length) (scatterSum row f rows k acc) := by
  induction rows generalizing k acc with
  | nil => rfl
  | cons r rows ih =>
    rw [List.cons_append, scatterSum, ih, scatterSum, List.length_cons, Nat.add_assoc,
      Nat.add_comm 1]

/-- Places counted from elsewhere. -/
theorem scatterSum_shift (f : Nat → α) (rows : List Nat) (m k : Nat) (acc : α) :
    scatterSum row f rows (m + k) acc = scatterSum row (fun i => f (m + i)) rows k acc := by
  induction rows generalizing k acc with
  | nil => rfl
  | cons r rows ih =>
    rw [scatterSum, scatterSum, Nat.add_assoc, ih]

/-- If places belong to things that are numbered from the first place on, a row receives the
    sum of what there is for the things that have its key, in their order. -/
theorem scatterSum_map (key number : β → Nat) (f : Nat → α) (things : List β) {k : Nat} (acc : α)
    (h : things.map number = List.range' k things.length) :
    scatterSum row f (things.map key) k acc
      = (things.filter fun x => key x = row).foldl (fun sum x => sum + f (number x)) acc := by
  induction things generalizing k acc with
  | nil => rfl
  | cons x things ih =>
    rw [List.map_cons, List.length_cons, List.range'_succ] at h
    rcases List.cons.inj h with ⟨hx, hrest⟩
    rw [List.map_cons, scatterSum, ih _ hrest]
    by_cases hkey : key x = row
    · simp [hkey, hx]
    · simp [hkey]

/-- What is true of the start and of every sum is true of what a row receives. -/
theorem scatterSum_of_add {P : α → Prop} {f : Nat → α} (hadd : ∀ x y, P (x + y))
    (rows : List Nat) (k : Nat) {acc : α} (hacc : P acc) : P (scatterSum row f rows k acc) := by
  induction rows generalizing k acc with
  | nil => exact hacc
  | cons r rows ih =>
    rw [scatterSum]
    split
    · exact ih _ (hadd _ _)
    · exact ih _ hacc

end Scattered

end GraphAttention
