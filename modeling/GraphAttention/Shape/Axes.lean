import GraphAttention.Shape.Basic

/-!
# Orders of Axes

A list of axes reorders an array when it names every axis once. The check walks
the list and stops at the first axis that is out of range or was named before;
that the list is also as long as the shape is asked first. No axis can then be
missing, since as many different axes were named as there are.

## Main definitions

* `AxesFault`: What is wrong with a list of axes.
* `checkAxes`: Accepts exactly the orders of the first `rank` axes.
* `swapAxes`: The order that exchanges two axes.

## Theorems

* `scanAxes_ok`: Scanned axes are in range, different and new.
* `scanAxes_of_new`: Axes that are in range, different and new are scanned.
* `perm_of_checkAxes`, `checkAxes_of_perm`: The accepted lists are the orders of the first
  `rank` axes.
* `reordered_perm`: An order of the axes of a shape reorders its lengths.
-/

namespace GraphAttention

namespace Shape

/-- What keeps a list of axes from being an order of all axes. -/
inductive AxesFault where
  /-- The list does not have as many entries as there are axes. -/
  | wrongLength
  /-- An entry names no axis. -/
  | outOfRange (axis : Nat)
  /-- An entry names an axis that an earlier one named. -/
  | repeated (axis : Nat)
deriving DecidableEq, Repr

/-- The first fault among `axes`, where those in `seen` were named before. -/
def scanAxes (rank : Nat) (seen : List Nat) : List Nat → Except AxesFault Unit
  | [] => .ok ()
  | axis :: axes =>
    if rank ≤ axis then .error (.outOfRange axis)
    else if axis ∈ seen then .error (.repeated axis)
    else scanAxes rank (axis :: seen) axes

/-- Accepts a list that names each of the first `rank` axes once. -/
def checkAxes (axes : List Nat) (rank : Nat) : Except AxesFault Unit :=
  if axes.length ≠ rank then .error .wrongLength else scanAxes rank [] axes

/-- The axes with `a` and `b` exchanged. -/
def swapAxes (rank a b : Nat) : List Nat :=
  (List.range rank).map fun k => if k = a then b else if k = b then a else k

/-- Axes that pass the scan are in range, different from each other and from
    those seen before. -/
theorem scanAxes_ok {rank : Nat} {axes seen : List Nat} (h : scanAxes rank seen axes = .ok ()) :
    (∀ axis ∈ axes, axis < rank ∧ axis ∉ seen) ∧ axes.Nodup := by
  induction axes generalizing seen with
  | nil => simp
  | cons axis axes ih =>
    unfold scanAxes at h
    split at h
    · cases h
    · split at h
      · cases h
      · rename_i hlt hseen
        obtain ⟨hrest, hnodup⟩ := ih h
        refine ⟨?_, ?_⟩
        · intro other hmem
          rcases List.mem_cons.mp hmem with rfl | hother
          · exact ⟨Nat.lt_of_not_le hlt, hseen⟩
          · have hnew := hrest other hother
            exact ⟨hnew.1, fun hin => hnew.2 (List.mem_cons_of_mem _ hin)⟩
        · refine List.nodup_cons.mpr ⟨?_, hnodup⟩
          intro hmem
          exact (hrest axis hmem).2 List.mem_cons_self

/-- As many different axes as there are cover all of them. -/
theorem perm_of_checkAxes {axes : List Nat} {rank : Nat} (h : checkAxes axes rank = .ok ()) :
    axes.Perm (List.range rank) := by
  unfold checkAxes at h
  split at h
  · cases h
  · rename_i hlength
    have hlength : axes.length = rank := Decidable.not_not.mp hlength
    obtain ⟨hrange, hnodup⟩ := scanAxes_ok h
    refine (List.perm_ext_iff_of_nodup hnodup List.nodup_range).mpr ?_
    intro axis
    refine ⟨fun hmem => List.mem_range.mpr (hrange axis hmem).1, fun hlt => ?_⟩
    -- A missing axis could be put in front, and the list would be too long.
    refine Decidable.byContradiction fun hmissing => ?_
    have hsubset : axis :: axes ⊆ List.range rank := by
      intro other hmem
      rcases List.mem_cons.mp hmem with rfl | hother
      · exact hlt
      · exact List.mem_range.mpr (hrange other hother).1
    have hle := (List.nodup_cons.mpr ⟨hmissing, hnodup⟩).length_le_of_subset hsubset
    simp only [List.length_cons, List.length_range] at hle
    omega

/-- Axes that are in range, different from each other and from those seen before pass the
    scan. -/
theorem scanAxes_of_new {rank : Nat} {axes seen : List Nat}
    (h : ∀ axis ∈ axes, axis < rank ∧ axis ∉ seen) (hnodup : axes.Nodup) :
    scanAxes rank seen axes = .ok () := by
  induction axes generalizing seen with
  | nil => rfl
  | cons axis axes ih =>
    have hfirst := h axis List.mem_cons_self
    have hrest := List.nodup_cons.mp hnodup
    rw [scanAxes, if_neg (Nat.not_le.mpr hfirst.1), if_neg hfirst.2]
    refine ih (fun other hmem => ?_) hrest.2
    have hother := h other (List.mem_cons_of_mem _ hmem)
    refine ⟨hother.1, fun hseen => ?_⟩
    rcases List.mem_cons.mp hseen with rfl | hseen
    · exact hrest.1 hmem
    · exact hother.2 hseen

/-- Every order of the first `rank` axes is accepted. -/
theorem checkAxes_of_perm {axes : List Nat} {rank : Nat} (h : axes.Perm (List.range rank)) :
    checkAxes axes rank = .ok () := by
  have hlength : axes.length = rank := by rw [h.length_eq, List.length_range]
  rw [checkAxes, if_neg (not_not_intro hlength)]
  refine scanAxes_of_new (fun axis hmem => ?_) (h.nodup_iff.mpr List.nodup_range)
  exact ⟨List.mem_range.mp (h.mem_iff.mp hmem), List.not_mem_nil⟩

/-- Taking the axes in their own order changes nothing. -/
theorem map_getD_range (s : List Nat) :
    (List.range s.length).map (fun axis => s.getD axis 0) = s := by
  refine List.ext_getElem (by simp) ?_
  intro k hk _
  have hk : k < s.length := by simpa using hk
  simp [hk]

/-- The lengths of the axes in another order. -/
theorem reordered_perm {axes : List Nat} {s : Shape} (h : axes.Perm (List.range s.length)) :
    (axes.map fun axis => s.getD axis 0).Perm s := by
  have hmap := h.map fun axis => s.getD axis 0
  rwa [map_getD_range] at hmap

end Shape

end GraphAttention
