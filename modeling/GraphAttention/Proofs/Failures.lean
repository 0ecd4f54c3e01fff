import GraphAttention.Proofs.Running

/-!
# How Actions Fail

An action keeps what it has changed when it fails, so an action that is refused may have
done half of its work. That it has not is a property of the action and of the state that it
is run on, and it is proved along the way in which the action is put together. What is
computed before anything is changed does no harm. What follows a change must not fail, and
this is where something has to be known of the state.

That an action does not fail is proved of one state or, where actions follow one another,
of all states with a property that each of them keeps. Some actions use their state without
depending on it: whether something can be drawn is not a matter of the source that it is
drawn from.

## Main definitions

* `Action.AtomicAt`: A failure leaves the state as it is.
* `Action.SucceedsAt`: There is no failure on a state.
* `Action.Succeeds`: There is none where something is true, which stays true.
* `Action.Decided`: Whether there is a failure does not depend on the state.

## Theorems

* `atomicAt_computed`: Actions that only read.
* `AtomicAt.get_bind`, `AtomicAt.attempt_bind`: What is done before any change.
* `AtomicAt.bind`: What does not fail may follow a change.
* `AtomicAt.zoom`: Work on a part.
* `SucceedsAt.of_bind`: What comes first in an action that does not fail.
* `Succeeds.bind`: Actions in a row that do not fail.
* `Decided.attempt_bind`: What is computed first does not depend on the state.
-/

namespace GraphAttention

namespace Action

variable {σ τ ε ε' α β : Type} {act : Action σ ε α} {next : α → Action σ ε β} {s : σ}

/-- If the action fails on the state, it leaves the state as it is. -/
def AtomicAt (act : Action σ ε α) (s : σ) : Prop := ∀ e s', act s = (.error e, s') → s' = s

/-- The action does not fail on the state. -/
def SucceedsAt (act : Action σ ε α) (s : σ) : Prop := ∃ x s', act s = (.ok x, s')

theorem SucceedsAt.atomicAt (h : SucceedsAt act s) : AtomicAt act s := by
  intro e s' hfail
  rcases h with ⟨x, s'', hrun⟩
  rw [hrun] at hfail
  cases hfail

theorem succeedsAt_pure (x : α) (s : σ) : SucceedsAt (pure x : Action σ ε α) s := ⟨x, s, rfl⟩

/-- Something that is read off a state is there. -/
theorem succeedsAt_get (f : σ → α) (s : σ) :
    SucceedsAt (do return f (← get) : Action σ ε α) s := ⟨f s, s, rfl⟩

/-- An action that is known to fail with the state as it is. -/
theorem AtomicAt.of_error {e : ε} (h : act s = (.error e, s)) : AtomicAt act s := by
  intro e' s' hfail
  rw [h] at hfail
  exact (Prod.mk.inj hfail).2.symm

theorem atomicAt_throw (e : ε) (s : σ) : AtomicAt (throw e : Action σ ε α) s :=
  .of_error (run_throw e s)

theorem AtomicAt.get_bind {next : σ → Action σ ε β} (h : AtomicAt (next s) s) :
    AtomicAt (get >>= next) s := by
  intro e s' hfail
  rw [bind_ok (run_get s)] at hfail
  exact h e s' hfail

/-- A computation without state may come first. -/
theorem AtomicAt.attempt_bind {x : Except ε α} (h : ∀ y, x = .ok y → AtomicAt (next y) s) :
    AtomicAt (attempt x >>= next) s := by
  cases x with
  | error e => exact .of_error (bind_error (run_attempt _ s))
  | ok y =>
    intro e s' hfail
    rw [bind_ok (run_attempt _ _)] at hfail
    exact h y rfl e s' hfail

/-- Something that is computed from the state changes nothing. -/
theorem atomicAt_computed (f : σ → Except ε α) (g : α → β) (s : σ) :
    AtomicAt (do return g (← attempt (f (← get))) : Action σ ε β) s :=
  AtomicAt.get_bind (AtomicAt.attempt_bind fun y _ => (succeedsAt_pure (g y) s).atomicAt)

/-- What does not fail may come afterwards. -/
theorem AtomicAt.bind (h : AtomicAt act s)
    (hnext : ∀ x s', act s = (.ok x, s') → SucceedsAt (next x) s') :
    AtomicAt (act >>= next) s := by
  intro e s' hfail
  rcases bind_error_iff.mp hfail with hact | ⟨x, s'', hact, hrest⟩
  · exact h e s' hact
  · -- The rest was reached, and it does not fail.
    rcases hnext x s'' hact with ⟨y, t, hrun⟩
    rw [hrun] at hrest
    cases hrest

theorem AtomicAt.mapError (f : ε → ε') (h : AtomicAt act s) : AtomicAt (mapError f act) s := by
  intro e s' hfail
  rw [run_mapError] at hfail
  rcases hact : act s with ⟨e' | x, s''⟩
  · rw [hact] at hfail
    cases hfail
    exact h e' s'' hact
  · rw [hact] at hfail
    cases hfail

/-- Work on a part, where a part that is put back unchanged changes nothing. -/
theorem AtomicAt.zoom {read : σ → τ} {write : τ → σ → σ} {act : Action τ ε α}
    (hwrite : write (read s) s = s) (h : AtomicAt act (read s)) :
    AtomicAt (zoom read write act) s := by
  intro e s' hfail
  rw [run_zoom] at hfail
  rcases hact : act (read s) with ⟨e' | x, part⟩
  · rw [hact] at hfail
    cases hfail
    rw [h _ part hact]
    exact hwrite
  · rw [hact] at hfail
    cases hfail

/-! ### Actions that do not fail -/

/-- What comes first in an action that does not fail does not fail. -/
theorem SucceedsAt.of_bind (h : SucceedsAt (act >>= next) s) : SucceedsAt act s := by
  rcases h with ⟨y, s', hrun⟩
  rcases bind_ok_iff.mp hrun with ⟨x, s'', hact, -⟩
  exact ⟨x, s'', hact⟩

theorem SucceedsAt.of_mapError {f : ε → ε'} (h : SucceedsAt (mapError f act) s) :
    SucceedsAt act s := by
  rcases h with ⟨x, s', hrun⟩
  exact ⟨x, s', mapError_ok_iff.mp hrun⟩

theorem SucceedsAt.of_zoom {read : σ → τ} {write : τ → σ → σ} {act : Action τ ε α}
    (h : SucceedsAt (zoom read write act) s) : SucceedsAt act (read s) := by
  rcases h with ⟨x, s', hrun⟩
  exact ⟨x, (act (read s)).2, Prod.ext (Prod.mk.inj hrun).1 rfl⟩

theorem SucceedsAt.mapError (f : ε → ε') (h : SucceedsAt act s) :
    SucceedsAt (mapError f act) s := by
  rcases h with ⟨x, s', hrun⟩
  exact ⟨x, s', mapError_ok_iff.mpr hrun⟩

theorem SucceedsAt.zoom {read : σ → τ} {write : τ → σ → σ} {act : Action τ ε α}
    (h : SucceedsAt act (read s)) : SucceedsAt (zoom read write act) s := by
  rcases h with ⟨x, part, hrun⟩
  refine ⟨x, write part s, ?_⟩
  rw [run_zoom, hrun]

/-- The action does not fail where something is true, and it stays true. -/
def Succeeds (act : Action σ ε α) (P : σ → Prop) : Prop :=
  ∀ s, P s → ∃ x s', act s = (.ok x, s') ∧ P s'

theorem Keeps.succeeds {P : σ → Prop} (h : Keeps act P) (hok : ∀ s, P s → SucceedsAt act s) :
    Succeeds act P := by
  intro s hs
  rcases hok s hs with ⟨x, s', hrun⟩
  have hs' := h s hs
  rw [hrun] at hs'
  exact ⟨x, s', hrun, hs'⟩

theorem Succeeds.bind {P : σ → Prop} (h : Succeeds act P) (hnext : ∀ x, Succeeds (next x) P) :
    Succeeds (act >>= next) P := by
  intro s hs
  rcases h s hs with ⟨x, s', hrun, hs'⟩
  rw [bind_ok hrun]
  exact hnext x s' hs'

/-- Whether the action fails does not depend on the state. -/
def Decided (act : Action σ ε α) : Prop := ∀ s s', SucceedsAt act s → SucceedsAt act s'

theorem decided_throw (e : ε) : Decided (throw e : Action σ ε α) := by
  rintro s s' ⟨x, t, hrun⟩
  cases hrun

theorem Decided.throw_bind (e : ε) (next : α → Action σ ε β) : Decided (throw e >>= next) := by
  intro s s' hs
  rcases hs.of_bind with ⟨x, t, hrun⟩
  cases hrun

theorem decided_attempt (x : Except ε α) : Decided (attempt x : Action σ ε α) := by
  rintro s s' ⟨y, t, hrun⟩
  exact ⟨y, s', Prod.ext (Prod.mk.inj hrun).1 rfl⟩

/-- After a computation without state, it is what follows that decides. -/
theorem Decided.attempt_bind {x : Except ε α} (h : ∀ y, x = .ok y → Decided (next y)) :
    Decided (attempt x >>= next) := by
  intro s s' hs
  cases x with
  | error e =>
    rcases hs with ⟨y, t, hrun⟩
    rw [bind_error (run_attempt _ _)] at hrun
    cases hrun
  | ok y =>
    rw [SucceedsAt, bind_ok (run_attempt _ _)] at hs ⊢
    exact h y rfl s s' hs

end Action

end GraphAttention
