import GraphAttention.Proofs.Events
import GraphAttention.Proofs.Gathering
import Mathlib.Data.List.DropRight

/-!
# Gradients Add Up

What is in the buffer of a parameter is a matter of what was carried out on it. A
gradient has an effect where it fits the data, the parameter is learned and no scope is
around; the buffer is the sum of those that had an effect since the gradient was last
forgotten, in the order in which they came, beginning with the first. There is no buffer
if there were none.

The three conditions are not alike. A gradient that does not fit is refused, also where
it would not have had an effect, and nothing else is refused.

That the sum exists at all is part of the statement. Sums are defined for tensors of one
kind and one shape, and these are those of the data, which no operation changes.

## Main definitions

* `Tensor.total`: The sum of some tensors, beginning with the first.
* `Parameter.effect?`: The gradient that had an effect, if one had.
* `Parameter.gathered`: The gradients since the last time they were forgotten.

## Theorems

* `Tensor.total_concat`: One tensor more.
* `perform_mode`, `Steady.perform_keeps`: What every operation keeps.
* `perform_gathers`: What an operation does to the buffer.
* `accumulate_error_iff`: When a gradient is refused.
* `script_gathers`: The buffer after a script.
-/

namespace GraphAttention

open GraphAttention.Action

namespace Tensor

/-- The sum of some tensors, one added after another to the first. -/
def total : List Tensor → Except TensorError (Option Tensor)
  | [] => .ok none
  | t :: ts => (ts.foldlM add t).map some

/-- One tensor more is added to the sum, or is the sum if there is none. -/
theorem total_concat {ts : List Tensor} {sum : Option Tensor} (h : total ts = .ok sum)
    (t : Tensor) : total (ts ++ [t]) = (match sum with
      | some u => u.add t
      | none => .ok t).map some := by
  cases ts with
  | nil =>
    cases h
    rfl
  | cons u ts =>
    rw [total] at h
    rw [List.cons_append, total, List.foldlM_append]
    cases hsum : ts.foldlM add u with
    | error e =>
      rw [hsum] at h
      cases h
    | ok v =>
      rw [hsum] at h
      cases h
      exact congrArg (Except.map some) (bind_pure (v.add t))

end Tensor

namespace Parameter

open Script (Event Trail)

variable {p : Parameter} {g : Tensor} {enabled : Bool}

instance (p : Parameter) (t : Tensor) : Decidable (p.Fits t) :=
  decidable_of_iff (t.dtype = p.data.dtype ∧ t.shape = p.shape)
    ⟨fun h => ⟨h.1, h.2⟩, fun h => ⟨h.dtype, h.shape⟩⟩

/-- Whether an operation forgets the gradient. -/
def Op.forgets : Op → Bool
  | .zeroGrad => true
  | _ => false

/-- The gradient that had an effect: it was to be accumulated and fits, the parameter was
    learned at the time, and no scope was around. -/
def effect? (event : Event Parameter Op) : Option Tensor :=
  match event.op with
  | .accumulate g =>
    if event.found.value.Fits g ∧ event.found.value.requiresGrad = true ∧ event.enclosed = false
    then some g else none
  | _ => none

/-- The gradients that had an effect since they were last forgotten. -/
def gathered (events : List (Event Parameter Op)) : List Tensor :=
  (events.rtakeWhile fun event => !event.op.forgets).filterMap effect?

/-! ### What operations keep -/

/-- No operation on a parameter changes the mode. -/
theorem perform_mode (op : Op) (enabled : Bool) :
    Keeps (perform op) fun s => s.gradEnabled = enabled := by
  cases op with
  | accumulate g =>
    refine Keeps.bind (Keeps.get_bind fun s hs => Keeps.bind (keeps_attempt _) fun _ => ?_)
      fun _ => keeps_get _
    split
    · exact Keeps.bind (fun _ _ => hs) fun _ => Keeps.bind (keeps_attempt _) fun _ _ _ => hs
    · exact keeps_pure _
  | zeroGrad => exact fun _ hs => hs
  | grad => exact keeps_get _
  | setData data =>
    exact Keeps.bind (fun _ hs => hs) fun _ => keeps_get _
  | data => exact keeps_get _
  | setRequiresGrad value => exact fun _ hs => hs
  | gradEnabled => exact keeps_get _

/-- Buffers that fit are forgotten, added to and kept beside other data of the same kind
    and shape, and still fit. -/
theorem bufferFits_steady : Steady BufferFits fun _ => True where
  zeroGrad _ _ _ h := nomatch h
  freeze _ _ h buffer hbuffer := ⟨(h buffer hbuffer).dtype, (h buffer hbuffer).shape⟩
  accumulate g := by
    rintro ⟨enabled, p⟩ hp
    rcases fits_or_misfit p g with hfits | ⟨e, hmisfit⟩
    · rcases accumulate_fits hp hfits enabled with ⟨grad, hrun, hgrad⟩
      rw [hrun]
      exact hgrad
    · rw [accumulate_misfit hmisfit]
      exact hp
  write _ _ h hfits _ buffer hbuffer :=
    ⟨(h buffer hbuffer).dtype.trans hfits.dtype.symm,
      (h buffer hbuffer).shape.trans hfits.shape.symm⟩

/-- What accumulating leaves, and whether it is refused, is as without an answer. -/
theorem perform_accumulate (g : Tensor) (s : Tracked Parameter) :
    perform (.accumulate g) s
      = ((accumulate g s).1.map fun _ => .buffer (accumulate g s).2.value.grad,
        (accumulate g s).2) := by
  rw [perform, run_bind]
  rcases accumulate g s with ⟨_ | _, _⟩ <;> rfl

/-- What is steady whatever is written, every operation keeps. -/
theorem Steady.perform_keeps {Q : Parameter → Prop} (hQ : Steady Q fun _ => True) (op : Op) :
    Keeps (perform op) fun s => Q s.value := by
  cases op with
  | accumulate g => exact Keeps.bind (hQ.accumulate g) fun _ => keeps_get _
  | zeroGrad => exact fun s hs => hQ.zeroGrad s.value hs
  | grad => exact keeps_get _
  | setData data =>
    exact Keeps.bind (Tracked.onValue_keeps (hQ.setData trivial)) fun _ => keeps_get _
  | data => exact keeps_get _
  | setRequiresGrad value => exact fun s hs => hQ.freeze s.value value hs
  | gradEnabled => exact keeps_get _

/-- A gradient is refused exactly when it does not fit, whether it would have had an
    effect or not, and then nothing has changed. -/
theorem accumulate_error_iff (hp : p.BufferFits) (g : Tensor) (enabled : Bool) (e : TensorError)
    (s : Tracked Parameter) :
    perform (.accumulate g) ⟨enabled, p⟩ = (.error e, s) ↔ p.Misfit g e ∧ s = ⟨enabled, p⟩ := by
  refine (outcome_iff _ _ (fits_or_misfit p g) (fun hfits => ?_) fun e hmisfit => ?_).2 e s
  · rcases accumulate_fits hp hfits enabled with ⟨grad, hrun, -⟩
    rw [perform_accumulate, hrun]
    exact ⟨_, _, rfl⟩
  · rw [perform_accumulate, accumulate_misfit hmisfit]
    rfl

/-! ### The buffer -/

variable {before : List (Event Parameter Op)} {event : Event Parameter Op}

/-- An event that does not forget adds its gradient, if it has one. -/
theorem gathered_concat (h : event.op.forgets = false) :
    gathered (before ++ [event]) = gathered before ++ (effect? event).toList := by
  rw [gathered, List.rtakeWhile_concat_pos _ _ _ (by simp [h]), List.filterMap_append, gathered]
  cases heffect : effect? event <;> simp [heffect]

/-- An event without effect adds nothing. -/
theorem gathered_idle (h : event.op.forgets = false) (heffect : effect? event = none) :
    gathered (before ++ [event]) = gathered before := by
  rw [gathered_concat h, heffect, Option.toList_none, List.append_nil]

theorem gathered_forgets (h : event.op.forgets = true) : gathered (before ++ [event]) = [] := by
  rw [gathered, List.rtakeWhile_concat_neg _ _ _ (by simp [h])]
  rfl

/-- Accumulating a gradient adds it if it has an effect, and otherwise does nothing. -/
theorem accumulate_gathers (hp : p.BufferFits) (enclosed : Bool)
    (htotal : Tensor.total (gathered before) = .ok p.grad) :
    Tensor.total (gathered (before ++ [⟨.accumulate g, enclosed, ⟨!enclosed, p⟩⟩]))
      = .ok (accumulate g ⟨!enclosed, p⟩).2.value.grad := by
  rcases fits_or_misfit p g with hfits | ⟨e, hmisfit⟩
  · by_cases hlearned : (p.requiresGrad && !enclosed) = true
    · have heffect : effect? ⟨.accumulate g, enclosed, ⟨!enclosed, p⟩⟩ = some g := by
        simp only [Bool.and_eq_true, Bool.not_eq_true'] at hlearned
        exact if_pos ⟨hfits, hlearned⟩
      rw [gathered_concat rfl, heffect, Option.toList_some, Tensor.total_concat htotal]
      cases hgrad : p.grad with
      | none =>
        rw [accumulate_first hfits hlearned hgrad]
        rfl
      | some buffer =>
        rcases accumulate_again hfits hlearned hgrad (hp buffer hgrad) with ⟨sum, hsum, hrun⟩
        rw [hrun]
        dsimp only
        rw [hsum]
        rfl
    · have heffect : effect? ⟨.accumulate g, enclosed, ⟨!enclosed, p⟩⟩ = none := by
        simp only [Bool.and_eq_true, Bool.not_eq_true'] at hlearned
        exact if_neg fun h => hlearned h.2
      rw [gathered_idle rfl heffect, htotal,
        accumulate_idle hfits (Bool.not_eq_true _ ▸ hlearned)]
  · have heffect : effect? ⟨.accumulate g, enclosed, ⟨!enclosed, p⟩⟩ = none :=
      if_neg fun h => hmisfit.not_fits h.1
    rw [gathered_idle rfl heffect, htotal, accumulate_misfit hmisfit]

/-- After an operation the buffer is the sum of what was gathered with it. -/
theorem perform_gathers (hp : p.BufferFits) (op : Op) (enclosed : Bool)
    (htotal : Tensor.total (gathered before) = .ok p.grad) :
    Tensor.total (gathered (before ++ [⟨op, enclosed, ⟨!enclosed, p⟩⟩]))
      = .ok (perform op ⟨!enclosed, p⟩).2.value.grad := by
  -- Only the first two operations concern the buffer.
  cases op with
  | accumulate g =>
    rw [perform_accumulate]
    exact accumulate_gathers hp enclosed htotal
  | zeroGrad =>
    rw [gathered_forgets rfl]
    rfl
  | setData data =>
    rw [gathered_idle rfl rfl, htotal, perform, run_bind, Tracked.onValue, run_zoom]
    rcases fits_or_misfit p data with hfits | ⟨e, hmisfit⟩
    · rw [setData_ok hfits]
      rfl
    · rw [setData_misfit hmisfit]
  | grad => exact (congrArg Tensor.total (gathered_idle rfl rfl)).trans htotal
  | data => exact (congrArg Tensor.total (gathered_idle rfl rfl)).trans htotal
  | setRequiresGrad value => exact (congrArg Tensor.total (gathered_idle rfl rfl)).trans htotal
  | gradEnabled => exact (congrArg Tensor.total (gathered_idle rfl rfl)).trans htotal

/-- After events that begin without a buffer, the buffer is the sum of what was
    gathered. -/
theorem trail_gathers {q : Parameter} {events : List (Event Parameter Op)}
    (h : Trail perform true p events q) (hgrad : p.grad = none) :
    Tensor.total (gathered events) = .ok q.grad := by
  -- Sums exist because buffers fit, so the two are shown of every event together.
  let I : List (Event Parameter Op) → Parameter → Prop := fun before p =>
    BufferFits p ∧ Tensor.total (gathered before) = .ok p.grad
  have hstep : ∀ before p op enclosed, I before p →
      I (before ++ [⟨op, enclosed, ⟨true && !enclosed, p⟩⟩])
        (perform op ⟨true && !enclosed, p⟩).2.value :=
    fun before p op enclosed hp =>
      ⟨bufferFits_steady.perform_keeps op _ hp.1, perform_gathers hp.1 op enclosed hp.2⟩
  have hp : BufferFits p := fun buffer hbuffer => by simp [hgrad] at hbuffer
  exact (h.preserves hstep [] ⟨hp, congrArg Except.ok hgrad.symm⟩).2

/-- What any script does to a parameter that has no buffer yet. The operations that were
    carried out lead from one state to the next. The buffer afterwards is the sum of the
    gradients that had an effect since they were last forgotten, in their order and
    beginning with the first; there is none if no gradient had. Gradients are off within
    scopes and on outside, and a gradient is refused exactly when it does not fit, in both
    cases, and then changes nothing. After a scope the mode is what it was before it, and
    at the end of its steps it is off, whether they came to an end or not. If no failure
    ends a scope, then all operations of the script are carried out. -/
theorem script_gathers (fatal : TensorError → Bool) (data : Tensor) (learned : Bool)
    (steps : List (Script TensorError Op)) :
    let s : Tracked Parameter := .start ⟨data, learned, none⟩
    let s' := (Script.runAll fatal perform steps s).2
    let events := Script.allEvents fatal perform steps s
    Trail perform true s.value events s'.value ∧
    Tensor.total (gathered events) = .ok s'.value.grad ∧
    (∀ event ∈ events, event.found.gradEnabled = !event.enclosed ∧
      ∀ g e t, perform (.accumulate g) event.found = (.error e, t) ↔
        event.found.value.Misfit g e ∧ t = event.found) ∧
    (∀ body t, (Script.run fatal perform (.noGrad body) t).2.gradEnabled = t.gradEnabled ∧
      (Script.runScope fatal perform body { t with gradEnabled := false }).2.gradEnabled
        = false) ∧
    ((∀ e, fatal e = false) → events.map Event.op = Script.allOps steps) := by
  intro s s' events
  have htrail : Trail perform true s.value events s'.value :=
    Script.runAll_trail perform_mode steps s
  have hstart : BufferFits s.value := fun buffer hbuffer => nomatch hbuffer
  refine ⟨htrail, trail_gathers htrail rfl, fun event hevent => ?_, fun body t => ⟨rfl, ?_⟩,
    fun hfatal => ?_⟩
  · rcases htrail.forall_found bufferFits_steady.perform_keeps hstart event hevent with
      ⟨hmode, hfits⟩
    exact ⟨hmode, fun g e t => accumulate_error_iff hfits g _ e t⟩
  · exact Script.runScope_mode perform_mode body _
  · exact Script.map_op_allEvents hfatal steps s

/-- A tensor with one element. -/
def number (x : Int64) : Tensor := ⟨.int64, .fill [1] x, by change Shape.Allocatable 8 [1]; decide⟩

/-- Of six gradients one is forgotten, one comes within a scope, one within a scope does not
    fit and one comes while the parameter is frozen. The other two add up. -/
def sixGradients : List (Script TensorError Op) :=
  [.act (.accumulate (number 7)), .act .zeroGrad, .act (.accumulate (number 2)),
    .noGrad [.act (.accumulate (number 5)),
      .noGrad [.act (.accumulate ⟨.uint8, .fill [1] 0, by decide⟩)]],
    .act (.setRequiresGrad false), .act (.accumulate (number 1)), .act (.setRequiresGrad true),
    .act (.accumulate (number 3))]

theorem script_gathers_sixGradients :
    (Script.runAll TensorError.isFatal perform sixGradients
      (.start ⟨number 0, true, none⟩)).2.value.grad = some (number 5) := by
  rcases script_gathers TensorError.isFatal (number 0) true sixGradients with ⟨-, htotal, -⟩
  have hgathered : gathered (Script.allEvents TensorError.isFatal perform sixGradients
      (.start ⟨number 0, true, none⟩)) = [number 2, number 3] := rfl
  rw [hgathered] at htotal
  have hsum : Tensor.total [number 2, number 3] = .ok (some (number 5)) := rfl
  exact Except.ok.inj (htotal.symm.trans hsum)

end Parameter

end GraphAttention
