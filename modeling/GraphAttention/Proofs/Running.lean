import GraphAttention.Action
import GraphAttention.Learning.Tracked

/-!
# Running Actions

An action in a row of others is run by running the first and handing its result
and its state to the rest. The equations here say so for each way of building an
action, so that a program written with `do` is computed by rewriting, one
statement after the other, and the two ways in which a statement can end are kept
apart.

Two questions about an action come up again and again and have answers that
follow how the action is put together: what every run of it leaves true of the
state, however it ends, and what is known of the value it hands back, if it hands
one back. `Keeps` and `Yields` are these two.

## Main definitions

* `Action.Keeps`: Every run keeps something true of the state.
* `Action.Yields`: Something is true of every value handed back.

## Theorems

* `Action.run_bind`: Two actions in a row.
* `Action.bind_ok`, `Action.bind_error`: The same where the outcome is known.
* `Action.bind_ok_iff`, `Action.bind_error_iff`, `Action.mapError_ok_iff`: When actions put
  together succeed or fail.
* `Action.run_attempt`, `Action.run_mapError`, `Action.run_zoom`: The other ways.
* `Action.attempt_bind`: Two computations without state in a row.
* `Action.outcome_iff`: Success and errors of an action that is known in all cases.
* `keeps_get`, `keeps_computed`: Actions that only read.
* `Keeps.bind`, `Keeps.get_bind`, `Keeps.zoom`: What actions put together keep.
* `Yields.bind`, `Yields.mapError`: What they yield.
-/

namespace GraphAttention

namespace Action

variable {σ τ ε ε' α β γ : Type}

theorem run_bind (act : Action σ ε α) (next : α → Action σ ε β) (s : σ) :
    (act >>= next) s = match act s with
      | (.ok x, s') => next x s'
      | (.error e, s') => (.error e, s') := by
  change (ExceptT.bindCont next (act s).1) (act s).2 = _
  rcases act s with ⟨_ | _, _⟩ <;> rfl

/-- After an action that succeeds the rest is run on what it left. -/
theorem bind_ok {act : Action σ ε α} {next : α → Action σ ε β} {s s' : σ} {x : α}
    (h : act s = (.ok x, s')) : (act >>= next) s = next x s' := by
  rw [run_bind, h]

/-- After an action that fails the rest is not run. -/
theorem bind_error {act : Action σ ε α} {next : α → Action σ ε β} {s s' : σ} {e : ε}
    (h : act s = (.error e, s')) : (act >>= next) s = (.error e, s') := by
  rw [run_bind, h]

/-- A sequence succeeds when its first action does and the rest does on what that left. -/
theorem bind_ok_iff {act : Action σ ε α} {next : α → Action σ ε β} {s s'' : σ} {y : β} :
    (act >>= next) s = (.ok y, s'') ↔
      ∃ x s', act s = (.ok x, s') ∧ next x s' = (.ok y, s'') := by
  rw [run_bind]
  constructor
  · intro h
    rcases hrun : act s with ⟨_ | x, s'⟩
    · rw [hrun] at h
      cases h
    · rw [hrun] at h
      exact ⟨x, s', rfl, h⟩
  · rintro ⟨x, s', hrun, h⟩
    rw [hrun]
    exact h

/-- A sequence fails where its first action does, or the rest after that has succeeded. -/
theorem bind_error_iff {act : Action σ ε α} {next : α → Action σ ε β} {s s'' : σ} {e : ε} :
    (act >>= next) s = (.error e, s'') ↔ act s = (.error e, s'') ∨
      ∃ x s', act s = (.ok x, s') ∧ next x s' = (.error e, s'') := by
  rw [run_bind]
  constructor
  · intro h
    rcases hrun : act s with ⟨_ | x, s'⟩
    · rw [hrun] at h
      cases h
      exact .inl rfl
    · rw [hrun] at h
      exact .inr ⟨x, s', rfl, h⟩
  · rintro (hrun | ⟨x, s', hrun, h⟩)
    · rw [hrun]
    · rw [hrun]
      exact h

@[simp] theorem run_pure (x : α) (s : σ) : (pure x : Action σ ε α) s = (.ok x, s) := rfl

@[simp] theorem run_throw (e : ε) (s : σ) : (throw e : Action σ ε α) s = (.error e, s) := rfl

@[simp] theorem run_get (s : σ) : (get : Action σ ε σ) s = (.ok s, s) := rfl

@[simp] theorem run_set (s' s : σ) : (set s' : Action σ ε PUnit) s = (.ok ⟨⟩, s') := rfl

@[simp] theorem run_attempt (x : Except ε α) (s : σ) : attempt x s = (x, s) := rfl

theorem run_mapError (f : ε → ε') (act : Action σ ε α) (s : σ) :
    mapError f act s = ((act s).1.mapError f, (act s).2) := rfl

/-- Errors are translated, and successes are what they were. -/
theorem mapError_ok_iff {f : ε → ε'} {act : Action σ ε α} {s s' : σ} {x : α} :
    mapError f act s = (.ok x, s') ↔ act s = (.ok x, s') := by
  rw [run_mapError]
  rcases act s with ⟨_ | y, s''⟩
  · constructor
    · intro h
      cases h
    · intro h
      cases h
  · constructor
    · intro h
      cases h
      rfl
    · intro h
      cases h
      rfl

/-- A computation in two steps may be done in one. -/
theorem attempt_bind (x : Except ε α) (f : α → Except ε β) (next : β → Action σ ε γ) :
    (attempt x >>= fun y => attempt (f y) >>= next) = attempt (x >>= f) >>= next := by
  funext s
  rw [run_bind, run_bind]
  cases x with
  | error e => rfl
  | ok y => rw [run_attempt, run_attempt]; exact run_bind (attempt (f y)) next s

theorem run_zoom (read : σ → τ) (write : τ → σ → σ) (act : Action τ ε α) (s : σ) :
    zoom read write act s = ((act (read s)).1, write (act (read s)).2 s) := rfl

/-- An action that succeeds on what is accepted and reports a reason for the rest,
    where everything is one or the other: success means acceptance, and what is
    reported are the reasons. -/
theorem outcome_iff (act : Action σ ε α) (s : σ) {accepted : Prop} {reason : ε → Prop}
    (hcases : accepted ∨ ∃ e, reason e) (hok : accepted → ∃ x s', act s = (.ok x, s'))
    (herror : ∀ e, reason e → act s = (.error e, s)) :
    ((∃ x s', act s = (.ok x, s')) ↔ accepted) ∧
      ∀ e s', act s = (.error e, s') ↔ reason e ∧ s' = s := by
  rcases hcases with h | ⟨e, h⟩
  · rcases hok h with ⟨x, s', hrun⟩
    refine ⟨⟨fun _ => h, hok⟩, fun e s'' => ⟨fun hfail => ?_, fun he => ?_⟩⟩
    · rw [hrun] at hfail
      cases hfail
    · rw [he.2]
      exact herror e he.1
  · have hrun := herror e h
    refine ⟨⟨fun hsucceed => ?_, hok⟩, fun e' s' => ⟨fun hfail => ?_, fun he => ?_⟩⟩
    · rcases hsucceed with ⟨x, s', hsucceed⟩
      rw [hrun] at hsucceed
      cases hsucceed
    · rw [hrun] at hfail
      cases hfail
      exact ⟨h, rfl⟩
    · rw [he.2]
      exact herror e' he.1

/-- What is true of the state before a run is true of it afterwards, whether the
    run succeeds or fails. -/
def Keeps (act : Action σ ε α) (P : σ → Prop) : Prop := ∀ s, P s → P (act s).2

/-- Something is true of every value that a run hands back. -/
def Yields (act : Action σ ε α) (Q : α → Prop) : Prop := ∀ s x s', act s = (.ok x, s') → Q x

section Keeping

variable {P : σ → Prop} {R : τ → Prop} {act : Action σ ε α} {next : α → Action σ ε β}

theorem keeps_pure (x : α) : Keeps (pure x : Action σ ε α) P := fun _ hs => hs

theorem keeps_throw (e : ε) : Keeps (throw e : Action σ ε α) P := fun _ hs => hs

theorem keeps_attempt (x : Except ε α) : Keeps (attempt x) P := fun _ hs => hs

theorem Keeps.bind (h : Keeps act P) (hnext : ∀ x, Keeps (next x) P) :
    Keeps (act >>= next) P := by
  intro s hs
  have hs' := h s hs
  rw [run_bind]
  rcases hact : act s with ⟨e | x, s'⟩
  · rw [hact] at hs'
    exact hs'
  · rw [hact] at hs'
    exact hnext x s' hs'

/-- What follows a reading of the state may count on what is true of it. -/
theorem Keeps.get_bind {next : σ → Action σ ε β} (h : ∀ s, P s → Keeps (next s) P) :
    Keeps (get >>= next) P := by
  intro s hs
  rw [bind_ok (run_get s)]
  exact h s hs s hs

/-- Reading something off the state changes nothing. -/
theorem keeps_get (f : σ → α) : Keeps (do return f (← get) : Action σ ε α) P :=
  Keeps.get_bind fun _ _ => keeps_pure _

/-- Nor does something that is computed from the state, also where it fails. -/
theorem keeps_computed (f : σ → Except ε α) (g : α → β) :
    Keeps (do return g (← attempt (f (← get))) : Action σ ε β) P :=
  Keeps.get_bind fun _ _ => Keeps.bind (keeps_attempt _) fun _ => keeps_pure _

theorem Keeps.and {Q : σ → Prop} (hP : Keeps act P) (hQ : Keeps act Q) :
    Keeps act fun s => P s ∧ Q s :=
  fun s hs => ⟨hP s hs.1, hQ s hs.2⟩

theorem Keeps.mapError (f : ε → ε') (h : Keeps act P) : Keeps (mapError f act) P :=
  fun s hs => h s hs

theorem Keeps.zoom {read : σ → τ} {write : τ → σ → σ} {act : Action τ ε α} (h : Keeps act R)
    (hread : ∀ s, P s → R (read s)) (hwrite : ∀ s part, P s → R part → P (write part s)) :
    Keeps (zoom read write act) P :=
  fun s hs => hwrite s _ hs (h _ (hread s hs))

end Keeping

section Yielding

variable {Q : β → Prop} {R : α → Prop} {act : Action σ ε α} {next : α → Action σ ε β}

theorem yields_pure {x : β} (h : Q x) : Yields (pure x : Action σ ε β) Q := by
  intro s y s' hrun
  cases hrun
  exact h

theorem yields_throw (e : ε) : Yields (throw e : Action σ ε β) Q := by
  intro s y s' hrun
  cases hrun

theorem yields_attempt {x : Except ε β} (h : ∀ y, x = .ok y → Q y) :
    Yields (attempt x : Action σ ε β) Q := by
  intro s y s' hrun
  exact h y (Prod.mk.inj hrun).1

theorem Yields.bind (h : Yields act R) (hnext : ∀ x, R x → Yields (next x) Q) :
    Yields (act >>= next) Q := by
  intro s y s' hrun
  rcases bind_ok_iff.mp hrun with ⟨x, s'', hact, hrest⟩
  exact hnext x (h s x s'' hact) s'' y s' hrest

/-- What follows an action of which nothing is known. -/
theorem Yields.after (hnext : ∀ x, Yields (next x) Q) : Yields (act >>= next) Q :=
  Yields.bind (R := fun _ => True) (fun _ _ _ _ => trivial) fun x _ => hnext x

theorem Yields.mapError {act : Action σ ε β} (f : ε → ε') (h : Yields act Q) :
    Yields (mapError f act) Q := by
  intro s y s' hrun
  exact h s y s' (mapError_ok_iff.mp hrun)

end Yielding

end Action

end GraphAttention
