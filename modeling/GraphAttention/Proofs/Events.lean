import GraphAttention.Proofs.Operations

/-!
# What a Script Carries Out

A script is a tree, and what it does to its object is a list: the operations that were
carried out, in the order in which they were. Which ones these are is decided by the run,
because a fatal failure ends every scope around it. For each the list says whether there
was a scope around it, which is a matter of the tree, and in what state it found the
object, which is a matter of the run.

The list is all that matters for the object. Each operation finds what the one before
left, and the last one leaves what the script leaves; a scope has no effect of its own but
on the mode, and the mode is a matter of the tree again: gradients are off within scopes
and nowhere else. This asks of the operations that none of them changes the mode.

A property of the object that speaks of what was done to it is then proved as one of lists,
by adding one operation after another at the end.

## Main definitions

* `Script.Event`: An operation that was carried out.
* `Script.events`, `Script.scopeEvents`, `Script.allEvents`: Those of a step, of the steps
  of a scope, and of steps outside all scopes.
* `Script.Trail`: Events that follow upon one another.

## Theorems

* `Script.allEvents_keep`: What operations keep is true wherever one of them begins.
* `Script.run_mode`, `Script.runAll_mode`: The mode is what it was after every step.
* `Script.runAll_trail`: The events of a run lead from its beginning to its end.
* `Script.Trail.preserves`: What every event preserves.
* `Script.map_op_allEvents`: Without fatal failures all operations are carried out.
-/

namespace GraphAttention

open GraphAttention.Action

namespace Script

variable {σ ε Op R : Type} {fatal : ε → Bool} {perform : Op → Action (Tracked σ) ε R}

/-- An operation that was carried out, whether there was a scope around it, and the state
    that it found. -/
structure Event (σ Op : Type) where
  op : Op
  enclosed : Bool
  found : Tracked σ

mutual

/-- What a step carries out, with or without a scope around it. -/
def events (fatal : ε → Bool) (perform : Op → Action (Tracked σ) ε R) (enclosed : Bool) :
    Script ε Op → Tracked σ → List (Event σ Op)
  | act op, s => [⟨op, enclosed, s⟩]
  | noGrad body, s => scopeEvents fatal perform body { s with gradEnabled := false }
  | failing _, _ => []

/-- What the steps of a scope carry out, up to a fatal failure. -/
def scopeEvents (fatal : ε → Bool) (perform : Op → Action (Tracked σ) ε R) :
    List (Script ε Op) → Tracked σ → List (Event σ Op)
  | [], _ => []
  | step :: steps, s =>
    let (reply, s') := run fatal perform step s
    events fatal perform true step s ++ match reply.fatal? fatal with
      | some _ => []
      | none => scopeEvents fatal perform steps s'

end

/-- What a list of steps outside all scopes carries out. -/
def allEvents (fatal : ε → Bool) (perform : Op → Action (Tracked σ) ε R) :
    List (Script ε Op) → Tracked σ → List (Event σ Op)
  | [], _ => []
  | step :: steps, s =>
    events fatal perform false step s ++ allEvents fatal perform steps (run fatal perform step s).2

/-! ### States that are found -/

section Found

variable {P : σ → Prop}

-- The two follow the recursion of `events` and `scopeEvents`.
mutual

/-- What operations keep is true wherever one of a step begins, if it is true at first. -/
theorem events_keep (hkeeps : ∀ op, Keeps (perform op) fun s => P s.value) :
    (step : Script ε Op) → (enclosed : Bool) → (s : Tracked σ) → P s.value →
      ∀ event ∈ events fatal perform enclosed step s, P event.found.value
  | act op, _, _, hs, event, hevent => by
    obtain rfl := List.mem_singleton.mp hevent
    exact hs
  | noGrad body, _, s, hs, event, hevent =>
    scopeEvents_keep hkeeps body { s with gradEnabled := false } hs event hevent
  | failing _, _, _, _, event, hevent => absurd hevent List.not_mem_nil

theorem scopeEvents_keep (hkeeps : ∀ op, Keeps (perform op) fun s => P s.value) :
    (steps : List (Script ε Op)) → (s : Tracked σ) → P s.value →
      ∀ event ∈ scopeEvents fatal perform steps s, P event.found.value
  | [], _, _, event, hevent => absurd hevent List.not_mem_nil
  | step :: steps, s, hs, event, hevent => by
    have hstep := run_keeps fatal step (fun op _ => hkeeps op) s hs
    rw [scopeEvents] at hevent
    dsimp only at hevent
    rcases List.mem_append.mp hevent with hevent | hevent
    · exact events_keep hkeeps step true s hs event hevent
    · -- After a fatal failure nothing more is carried out.
      cases hfatal : (run fatal perform step s).1.fatal? fatal with
      | some e =>
        rw [hfatal] at hevent
        exact absurd hevent List.not_mem_nil
      | none =>
        rw [hfatal] at hevent
        exact scopeEvents_keep hkeeps steps _ hstep event hevent

end

theorem allEvents_keep (hkeeps : ∀ op, Keeps (perform op) fun s => P s.value)
    (steps : List (Script ε Op)) (s : Tracked σ) (hs : P s.value) :
    ∀ event ∈ allEvents fatal perform steps s, P event.found.value := by
  induction steps generalizing s with
  | nil => exact fun event hevent => absurd hevent List.not_mem_nil
  | cons step steps ih =>
    intro event hevent
    rcases List.mem_append.mp hevent with hevent | hevent
    · exact events_keep hkeeps step false s hs event hevent
    · exact ih _ (run_keeps fatal step (fun op _ => hkeeps op) s hs) event hevent

end Found

/-! ### The mode -/

section Mode

variable (hmode : ∀ op enabled, Keeps (perform op) fun s => s.gradEnabled = enabled)

include hmode

/-- After a step the mode is what it was. -/
theorem run_mode (step : Script ε Op) (s : Tracked σ) :
    (run fatal perform step s).2.gradEnabled = s.gradEnabled := by
  cases step with
  | act op => exact hmode op s.gradEnabled s rfl
  | noGrad body => rfl
  | failing e => rfl

/-- The mode is what it was at the end of a scope, whether its steps came to an end or
    not. -/
theorem runScope_mode (steps : List (Script ε Op)) (s : Tracked σ) :
    (runScope fatal perform steps s).2.gradEnabled = s.gradEnabled := by
  induction steps generalizing s with
  | nil => rfl
  | cons step steps ih =>
    have hstep : (run fatal perform step s).2.gradEnabled = s.gradEnabled :=
      run_mode hmode step s
    rw [runScope]
    dsimp only
    split
    · exact hstep
    · exact (ih _).trans hstep

theorem runAll_mode (steps : List (Script ε Op)) (s : Tracked σ) :
    (runAll fatal perform steps s).2.gradEnabled = s.gradEnabled := by
  induction steps generalizing s with
  | nil => rfl
  | cons step steps ih => exact (ih _).trans (run_mode hmode step s)

end Mode

/-! ### Events in a row -/

/-- Events lead from one object to another: each finds what the one before left, and
    gradients are on unless they were off at first or there is a scope around it. -/
inductive Trail (perform : Op → Action (Tracked σ) ε R) (enabled : Bool) :
    σ → List (Event σ Op) → σ → Prop
  | nil (x : σ) : Trail perform enabled x [] x
  | cons (op : Op) (enclosed : Bool) {x y : σ} {events : List (Event σ Op)}
    (h : Trail perform enabled (perform op ⟨enabled && !enclosed, x⟩).2.value events y) :
    Trail perform enabled x (⟨op, enclosed, ⟨enabled && !enclosed, x⟩⟩ :: events) y

namespace Trail

variable {enabled : Bool} {x y z : σ} {before after : List (Event σ Op)}

theorem append (h : Trail perform enabled x before y) (h' : Trail perform enabled y after z) :
    Trail perform enabled x (before ++ after) z := by
  induction h with
  | nil x => exact h'
  | cons op enclosed _ ih => exact .cons op enclosed (ih h')

/-- What is true at first and what every event preserves is true at the end. It may speak
    of the events so far. -/
theorem preserves {I : List (Event σ Op) → σ → Prop}
    (hstep : ∀ before x op enclosed, I before x →
      I (before ++ [⟨op, enclosed, ⟨enabled && !enclosed, x⟩⟩])
        (perform op ⟨enabled && !enclosed, x⟩).2.value)
    (h : Trail perform enabled x after y) (before : List (Event σ Op)) (hx : I before x) :
    I (before ++ after) y := by
  -- The events so far grow with every event.
  induction h generalizing before with
  | nil x => rwa [List.append_nil]
  | cons op enclosed _ ih =>
    have hrest := ih _ (hstep before _ op enclosed hx)
    rwa [List.append_assoc] at hrest

/-- A property that every operation keeps is one of all states that are found. -/
theorem forall_found {P : σ → Prop} (hkeeps : ∀ op, Keeps (perform op) fun s => P s.value)
    (h : Trail perform enabled x after y) (hx : P x) :
    ∀ event ∈ after, event.found.gradEnabled = (enabled && !event.enclosed) ∧
      P event.found.value := by
  induction h with
  | nil x => exact fun event hevent => absurd hevent List.not_mem_nil
  | cons op enclosed _ ih =>
    intro event hevent
    rcases List.mem_cons.mp hevent with rfl | hevent
    · exact ⟨rfl, hx⟩
    · exact ih (hkeeps op _ hx) event hevent

end Trail

-- The two follow the recursion of `events` and `scopeEvents`, as the run does.
mutual

/-- The events of a step lead from the state before it to the one after it. -/
theorem run_trail {enabled : Bool}
    (hmode : ∀ op enabled, Keeps (perform op) fun s => s.gradEnabled = enabled) :
    (step : Script ε Op) → (enclosed : Bool) → (s : Tracked σ) →
    s.gradEnabled = (enabled && !enclosed) →
      Trail perform enabled s.value (events fatal perform enclosed step s)
        (run fatal perform step s).2.value
  | act op, enclosed, ⟨_, _⟩, rfl => .cons op enclosed (.nil _)
  | noGrad body, _, s, _ =>
    runScope_trail hmode body { s with gradEnabled := false } (Bool.and_false enabled).symm
  | failing _, _, s, _ => .nil s.value

theorem runScope_trail {enabled : Bool}
    (hmode : ∀ op enabled, Keeps (perform op) fun s => s.gradEnabled = enabled) :
    (steps : List (Script ε Op)) → (s : Tracked σ) → s.gradEnabled = (enabled && !true) →
      Trail perform enabled s.value (scopeEvents fatal perform steps s)
        (runScope fatal perform steps s).2.value
  | [], s, _ => .nil s.value
  | step :: steps, s, hs => by
    have hstep := run_trail hmode step true s hs
    rw [scopeEvents, runScope]
    dsimp only
    cases (run fatal perform step s).1.fatal? fatal with
    | some e =>
      rw [List.append_nil]
      exact hstep
    | none =>
      exact hstep.append (runScope_trail hmode steps _ ((run_mode hmode step s).trans hs))

end

/-- What a list of steps carries out leads from its beginning to its end. -/
theorem runAll_trail (hmode : ∀ op enabled, Keeps (perform op) fun s => s.gradEnabled = enabled)
    (steps : List (Script ε Op)) (s : Tracked σ) :
    Trail perform s.gradEnabled s.value (allEvents fatal perform steps s)
      (runAll fatal perform steps s).2.value := by
  induction steps generalizing s with
  | nil => exact .nil s.value
  | cons step steps ih =>
    have hstep : Trail perform s.gradEnabled s.value (events fatal perform false step s) _ :=
      run_trail hmode step false s (Bool.and_true s.gradEnabled).symm
    have hrest := ih (run fatal perform step s).2
    rw [run_mode hmode step s] at hrest
    exact hstep.append hrest

/-! ### Without fatal failures -/

theorem fatal?_eq_none (hfatal : ∀ e, fatal e = false) (reply : Reply ε R) :
    reply.fatal? fatal = none := by
  cases reply with
  | failed e => exact if_neg (by simp [hfatal])
  | answer r => rfl
  | scope replies => rfl

mutual

theorem map_op_events (hfatal : ∀ e, fatal e = false) :
    (step : Script ε Op) → (enclosed : Bool) → (s : Tracked σ) →
    (events fatal perform enclosed step s).map Event.op = ops step
  | act _, _, _ => rfl
  | noGrad body, _, s => map_op_scopeEvents hfatal body { s with gradEnabled := false }
  | failing _, _, _ => rfl

theorem map_op_scopeEvents (hfatal : ∀ e, fatal e = false) :
    (steps : List (Script ε Op)) → (s : Tracked σ) →
    (scopeEvents fatal perform steps s).map Event.op = allOps steps
  | [], _ => rfl
  | step :: steps, s => by
    rw [scopeEvents, allOps]
    simp only [fatal?_eq_none hfatal, List.map_append]
    rw [map_op_events hfatal step true s, map_op_scopeEvents hfatal steps]

end

/-- If no failure is fatal, then all operations are carried out, in their order in the
    tree. -/
theorem map_op_allEvents (hfatal : ∀ e, fatal e = false) (steps : List (Script ε Op))
    (s : Tracked σ) : (allEvents fatal perform steps s).map Event.op = allOps steps := by
  induction steps generalizing s with
  | nil => rfl
  | cons step steps ih =>
    rw [allEvents, allOps, List.map_append, map_op_events hfatal step false s, ih]

end Script

end GraphAttention
