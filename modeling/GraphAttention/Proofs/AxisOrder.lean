import GraphAttention.Tensor.Layout
import Mathlib.Data.List.Nodup

/-!
# Checking an Order of Axes

A list of axes is walked once, with a table that marks the axes named so far. The
walk looks for two things only, an entry that is out of range and one that was
named before. That no axis is missing is never looked at: a list of the right
length without either fault has to name all of them.

`Shape.scanAxes` carries the named axes as a list. `markAxes` carries them as the
table, where looking or writing beside the table is a case of its own. The table
starts with a place for every axis and keeps its size, and its marks are the named
axes, so the two agree and that case never occurs.

## Main definitions

* `FaultAt`: The entry at a position is out of range or was named before.
* `FirstFault`: The first such position.
* `markAxes`: The walk with a table.
* `Marks`: What a table says of the axes named so far.

## Theorems

* `scanAxes_error_iff`: The scan reports the first fault.
* `checkAxes_ok_iff`: The accepted lists are the orders of all axes.
* `checkAxes_error_iff`: A wrong length is reported before any fault in the list.
* `markAxes_eq`: The walk with a table is the scan.
* `checkAxes_complete`: What the check accepts, and what it reports otherwise.
-/

namespace GraphAttention

namespace Shape

/-- The entry at position `k` names no axis, or one that stands earlier or in `seen`. -/
def FaultAt (rank : Nat) (seen axes : List Nat) (k : Nat) (fault : AxesFault) : Prop :=
  ∃ axis, axes[k]? = some axis ∧
    (rank ≤ axis ∧ fault = .outOfRange axis ∨
      axis < rank ∧ (axis ∈ seen ∨ axis ∈ axes.take k) ∧ fault = .repeated axis)

/-- Position `k` is the first with a fault. -/
structure FirstFault (rank : Nat) (seen axes : List Nat) (k : Nat) (fault : AxesFault) : Prop where
  /-- The fault at the position. -/
  here : FaultAt rank seen axes k fault
  /-- No position before it has one. -/
  before : ∀ j < k, ∀ other, ¬ FaultAt rank seen axes j other

variable {rank : Nat} {seen axes : List Nat} {axis k : Nat} {fault : AxesFault}

@[simp] theorem not_faultAt_nil : ¬ FaultAt rank seen [] k fault := by
  simp [FaultAt]

theorem faultAt_zero :
    FaultAt rank seen (axis :: axes) 0 fault ↔
      rank ≤ axis ∧ fault = .outOfRange axis ∨
        axis < rank ∧ axis ∈ seen ∧ fault = .repeated axis := by
  simp [FaultAt]

/-- After its first entry was named, the rest of a list has the faults that it had. -/
theorem faultAt_succ :
    FaultAt rank seen (axis :: axes) (k + 1) fault ↔ FaultAt rank (axis :: seen) axes k fault := by
  simp only [FaultAt, List.getElem?_cons_succ, List.take_succ_cons, List.mem_cons, or_assoc,
    or_left_comm]

/-- A first entry with a fault is the first fault. -/
theorem firstFault_cons_faulty {at0 : AxesFault}
    (h : ∀ other, FaultAt rank seen (axis :: axes) 0 other ↔ other = at0) :
    (∃ k, FirstFault rank seen (axis :: axes) k fault) ↔ fault = at0 := by
  constructor
  · rintro ⟨k, hk⟩
    cases k with
    | zero => exact (h fault).mp hk.here
    | succ k => exact absurd ((h at0).mpr rfl) (hk.before 0 (Nat.succ_pos k) at0)
  · rintro rfl
    exact ⟨0, (h _).mpr rfl, fun j hj => absurd hj (Nat.not_lt_zero j)⟩

/-- Behind a first entry without a fault the first fault is that of the rest. -/
theorem firstFault_cons_faultless (h : ∀ other, ¬ FaultAt rank seen (axis :: axes) 0 other) :
    (∃ k, FirstFault rank seen (axis :: axes) k fault) ↔
      ∃ k, FirstFault rank (axis :: seen) axes k fault := by
  constructor
  · rintro ⟨k, hk⟩
    cases k with
    | zero => exact absurd hk.here (h fault)
    | succ k =>
      exact ⟨k, faultAt_succ.mp hk.here, fun j hj other hother =>
        hk.before (j + 1) (Nat.succ_lt_succ hj) other (faultAt_succ.mpr hother)⟩
  · rintro ⟨k, hk⟩
    refine ⟨k + 1, faultAt_succ.mpr hk.here, fun j hj other hother => ?_⟩
    cases j with
    | zero => exact h other hother
    | succ j => exact hk.before j (Nat.lt_of_succ_lt_succ hj) other (faultAt_succ.mp hother)

/-- The scan reports the first fault. -/
theorem scanAxes_error_iff :
    scanAxes rank seen axes = .error fault ↔ ∃ k, FirstFault rank seen axes k fault := by
  induction axes generalizing seen with
  | nil =>
    constructor
    · intro h
      cases h
    · rintro ⟨k, hk⟩
      exact absurd hk.here not_faultAt_nil
  | cons axis axes ih =>
    unfold scanAxes
    split
    case isTrue hout =>
      have hfirst : ∀ other, FaultAt rank seen (axis :: axes) 0 other ↔
          other = .outOfRange axis := by
        intro other
        rw [faultAt_zero]
        simp [hout, Nat.not_lt.mpr hout]
      rw [firstFault_cons_faulty hfirst]
      simp [eq_comm]
    case isFalse hrange =>
      split
      case isTrue hseen =>
        have hfirst : ∀ other, FaultAt rank seen (axis :: axes) 0 other ↔
            other = .repeated axis := by
          intro other
          rw [faultAt_zero]
          simp [hrange, Nat.lt_of_not_le hrange, hseen]
        rw [firstFault_cons_faulty hfirst]
        simp [eq_comm]
      case isFalse hnew =>
        have hfirst : ∀ other, ¬ FaultAt rank seen (axis :: axes) 0 other := by
          intro other
          rw [faultAt_zero]
          simp [hrange, hnew]
        rw [ih, firstFault_cons_faultless hfirst]

/-- The accepted lists are the orders of all axes. -/
theorem checkAxes_ok_iff : checkAxes axes rank = .ok () ↔ axes.Perm (List.range rank) :=
  ⟨perm_of_checkAxes, checkAxes_of_perm⟩

/-- A list of another length is reported as such, and else the first fault is. -/
theorem checkAxes_error_iff :
    checkAxes axes rank = .error fault ↔
      axes.length ≠ rank ∧ fault = .wrongLength ∨
        axes.length = rank ∧ ∃ k, FirstFault rank [] axes k fault := by
  unfold checkAxes
  split
  case isTrue hlength => simp [hlength, eq_comm]
  case isFalse hlength =>
    rw [scanAxes_error_iff]
    simp [Decidable.not_not.mp hlength]

/-- An order of all axes names each axis once and nothing else. -/
theorem perm_range_iff_count :
    axes.Perm (List.range rank) ↔ ∀ axis, axes.count axis = if axis < rank then 1 else 0 := by
  rw [List.perm_iff_count]
  refine forall_congr' fun axis => ?_
  by_cases hlt : axis < rank
  · rw [if_pos hlt, List.count_eq_one_of_mem List.nodup_range (List.mem_range.mpr hlt)]
  · rw [if_neg hlt, List.count_eq_zero_of_not_mem (mt List.mem_range.mp hlt)]

/-- The scan with a table of the axes named so far. There is no result if it looks or writes
    beside the table. -/
def markAxes (rank : Nat) (seen : Array Bool) : List Nat → Option (Except AxesFault Unit)
  | [] => some (.ok ())
  | axis :: axes =>
    if rank ≤ axis then some (.error (.outOfRange axis))
    else if h : axis < seen.size then
      if seen[axis] then some (.error (.repeated axis))
      else markAxes rank (seen.set axis true h) axes
    else none

/-- A table has a place for every axis and marks those that were named. -/
structure Marks (rank : Nat) (table : Array Bool) (named : List Nat) : Prop where
  /-- There is a place for every axis. -/
  size : table.size = rank
  /-- The marked places are those of the named axes. -/
  marked : ∀ k (h : k < table.size), table[k] = true ↔ k ∈ named

/-- Before the first axis nothing is marked. -/
theorem marks_empty (rank : Nat) : Marks rank (Array.replicate rank false) [] :=
  ⟨Array.size_replicate, by simp⟩

/-- Marking an axis adds it to the named ones. -/
theorem Marks.mark {table : Array Bool} (h : Marks rank table seen) (hin : axis < table.size) :
    Marks rank (table.set axis true hin) (axis :: seen) := by
  refine ⟨by rw [Array.size_set, h.size], fun k hk => ?_⟩
  rw [Array.size_set] at hk
  rw [Array.getElem_set, List.mem_cons]
  split
  case isTrue hsame => simp [hsame]
  case isFalse hother => simp [h.marked k hk, Ne.symm hother]

/-- The walk with a table never leaves the table, and it is the scan. -/
theorem markAxes_eq {table : Array Bool} (h : Marks rank table seen) :
    markAxes rank table axes = some (scanAxes rank seen axes) := by
  induction axes generalizing seen table with
  | nil => rfl
  | cons axis axes ih =>
    unfold markAxes scanAxes
    split
    case isTrue => rfl
    case isFalse hrange =>
      have hin : axis < table.size := by
        rw [h.size]
        exact Nat.lt_of_not_le hrange
      rw [dif_pos hin]
      by_cases hseen : axis ∈ seen
      · rw [if_pos hseen, if_pos ((h.marked axis hin).mpr hseen)]
      · rw [if_neg hseen, if_neg (mt (h.marked axis hin).mp hseen)]
        exact ih (h.mark hin)

end Shape

namespace Tensor

open Shape (FirstFault markAxes)

/-- The check with a table in place of the named axes. -/
def checkAxesMarking (axes : List Nat) (rank : Nat) : Option (Except TensorError Unit) :=
  if axes.length ≠ rank then some (.error (.invalidOperation (.axesCount axes rank)))
  else (markAxes rank (Array.replicate rank false) axes).map
    (Except.mapError (TensorError.ofAxesFault axes rank))

/-- The check with a table has a result, which is that of the check. -/
theorem checkAxesMarking_eq (axes : List Nat) (rank : Nat) :
    checkAxesMarking axes rank = some (checkAxes axes rank) := by
  unfold checkAxesMarking checkAxes Shape.checkAxes
  split
  case isTrue => rfl
  case isFalse => rw [Shape.markAxes_eq (Shape.marks_empty rank), Option.map_some]

/-- The check accepts exactly the lists that name each axis once. It reports a wrong length
    before anything else, and else the first entry that is out of range or names an axis again.
    With a table of the named axes it never looks beside the table. -/
theorem checkAxes_complete (axes : List Nat) (rank : Nat) :
    (checkAxes axes rank = .ok () ↔ axes.Perm (List.range rank)) ∧
      (checkAxes axes rank = .ok () ↔
        ∀ axis, axes.count axis = if axis < rank then 1 else 0) ∧
      (∀ e, checkAxes axes rank = .error e ↔
        axes.length ≠ rank ∧ e = .invalidOperation (.axesCount axes rank) ∨
          axes.length = rank ∧ ∃ k fault, FirstFault rank [] axes k fault ∧
            e = .ofAxesFault axes rank fault) ∧
      checkAxesMarking axes rank = some (checkAxes axes rank) := by
  have hok : checkAxes axes rank = .ok () ↔ axes.Perm (List.range rank) := by
    rw [← Shape.checkAxes_ok_iff]
    unfold checkAxes
    cases Shape.checkAxes axes rank <;> simp [Except.mapError]
  refine ⟨hok, hok.trans Shape.perm_range_iff_count, fun e => ?_, checkAxesMarking_eq axes rank⟩
  have herror : checkAxes axes rank = .error e ↔
      ∃ fault, Shape.checkAxes axes rank = .error fault ∧ e = .ofAxesFault axes rank fault := by
    unfold checkAxes
    cases Shape.checkAxes axes rank <;> simp [Except.mapError, eq_comm]
  rw [herror]
  simp only [Shape.checkAxes_error_iff]
  constructor
  · rintro ⟨fault, ⟨hlength, rfl⟩ | ⟨hlength, k, hk⟩, rfl⟩
    · exact .inl ⟨hlength, rfl⟩
    · exact .inr ⟨hlength, k, fault, hk, rfl⟩
  · rintro (⟨hlength, rfl⟩ | ⟨hlength, k, fault, hk, rfl⟩)
    · exact ⟨.wrongLength, .inl ⟨hlength, rfl⟩, rfl⟩
    · exact ⟨fault, .inr ⟨hlength, k, hk⟩, rfl⟩

-- The axis named twice stands before the one that is out of range, and before the missing one.
example : checkAxes [0, 0, 3] 3 = .error (.invalidOperation (.axisRepeated 0 [0, 0, 3])) := rfl

end Tensor

end GraphAttention
