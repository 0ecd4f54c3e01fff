import GraphAttention.Proofs.Operations

/-!
# Two Runs Side by Side

Some properties speak of two runs at once: what is done in them differs in a place that
should not matter, and afterwards the states should still agree elsewhere. The argument
has the shape of one about a single run, with a relation between two states where there
was a property of one. A relation that each pair of operations keeps is kept by two
scripts of one form, and the form has to be the same all the way, because a step that
fails fatally in only one of them would end a scope there and not in the other.

That two runs stay side by side therefore includes that they fail for the same
reason. What they answer may differ.

## Main definitions

* `Action.failure?`: The reason for which a computation failed.
* `Action.Couples`: Two actions keep a relation and fail alike.
* `Script.Alike`, `Script.AllAlike`: Scripts of one form with related operations.
* `Tracked.Beside`: Related objects under one mode.

## Theorems

* `Couples.bind`, `Couples.get_bind`, `Couples.attempt_bind`: Actions put together.
* `Alike.and_left`: What is true of the operations of one script.
* `Script.run_couples`, `Script.runAll_couples`: Scripts of one form.
-/

namespace GraphAttention

namespace Action

variable {σ σ' ε ε' α α' β β' : Type}

/-- The reason for which a computation failed, if it did. -/
def failure? : Except ε α → Option ε
  | .ok _ => none
  | .error e => some e

@[simp] theorem failure?_map (f : α → β) (x : Except ε α) : failure? (x.map f) = failure? x := by
  cases x <;> rfl

@[simp] theorem failure?_mapError (f : ε → ε') (x : Except ε α) :
    failure? (x.mapError f) = (failure? x).map f := by
  cases x <;> rfl

/-- Two actions on related states fail for the same reason or not at all, and leave
    related states in any case. -/
def Couples (act : Action σ ε α) (act' : Action σ' ε α') (R : σ → σ' → Prop) : Prop :=
  ∀ s s', R s s' → failure? (act s).1 = failure? (act' s').1 ∧ R (act s).2 (act' s').2

variable {R : σ → σ' → Prop} {act : Action σ ε α} {act' : Action σ' ε α'}

theorem couples_pure (x : α) (x' : α') :
    Couples (pure x : Action σ ε α) (pure x' : Action σ' ε α') R :=
  fun _ _ hs => ⟨rfl, hs⟩

theorem Couples.bind {next : α → Action σ ε β} {next' : α' → Action σ' ε β'}
    (h : Couples act act' R) (hnext : ∀ x x', Couples (next x) (next' x') R) :
    Couples (act >>= next) (act' >>= next') R := by
  intro s s' hs
  rcases h s s' hs with ⟨hfailure, hstates⟩
  rw [run_bind, run_bind]
  rcases hact : act s with ⟨e | x, t⟩ <;> rcases hact' : act' s' with ⟨e' | x', t'⟩ <;>
    rw [hact, hact'] at hfailure hstates
  · -- Both have failed, for one reason.
    cases hfailure
    exact ⟨rfl, hstates⟩
  · cases hfailure
  · cases hfailure
  · exact hnext x x' t t' hstates

/-- What follows a reading of the states may count on how they are related. -/
theorem Couples.get_bind {next : σ → Action σ ε β} {next' : σ' → Action σ' ε β'}
    (h : ∀ s s', R s s' → Couples (next s) (next' s') R) :
    Couples (get >>= next) (get >>= next') R := by
  intro s s' hs
  rw [bind_ok (run_get s), bind_ok (run_get s')]
  exact h s s' hs s s' hs

/-- One computation without state before both. -/
theorem Couples.attempt_bind {x : Except ε α} {next : α → Action σ ε β}
    {next' : α → Action σ' ε β'} (h : ∀ y, x = .ok y → Couples (next y) (next' y) R) :
    Couples (attempt x >>= next) (attempt x >>= next') R := by
  intro s s' hs
  cases x with
  | error e =>
    rw [bind_error (run_attempt _ s), bind_error (run_attempt _ s')]
    exact ⟨rfl, hs⟩
  | ok y =>
    rw [bind_ok (run_attempt _ s), bind_ok (run_attempt _ s')]
    exact h y rfl s s' hs

theorem Couples.mapError (f : ε → ε') (h : Couples act act' R) :
    Couples (mapError f act) (mapError f act') R := by
  intro s s' hs
  rcases h s s' hs with ⟨hfailure, hstates⟩
  refine ⟨?_, hstates⟩
  rw [run_mapError, run_mapError]
  dsimp only
  rw [failure?_mapError, failure?_mapError, hfailure]

end Action

open GraphAttention.Action

/-- Related objects that are worked on under one mode. -/
def Tracked.Beside {σ σ' : Type} (R : σ → σ' → Prop) (t : Tracked σ) (t' : Tracked σ') : Prop :=
  t.gradEnabled = t'.gradEnabled ∧ R t.value t'.value

namespace Script

variable {σ ε Op A : Type} {Q : Op → Op → Prop} {R : σ → σ → Prop}
  {perform : Op → Action (Tracked σ) ε A}

theorem fatal?_replyOf (fatal : ε → Bool) (x : Except ε A) :
    (replyOf x).fatal? fatal = (failure? x).filter fatal := by
  cases x <;> rfl

theorem fatal?_scopeReply (fatal : ε → Bool) (x : Except ε (List (Reply ε A))) :
    (scopeReply x).fatal? fatal = (failure? x).filter fatal := by
  cases x <;> rfl

mutual

/-- Steps of one form: operations are related, and scopes have steps of one form. -/
inductive Alike (Q : Op → Op → Prop) : Script ε Op → Script ε Op → Prop
  | act {op op' : Op} (h : Q op op') : Alike Q (.act op) (.act op')
  | noGrad {body body' : List (Script ε Op)} (h : AllAlike Q body body') :
    Alike Q (.noGrad body) (.noGrad body')
  | failing (e : ε) : Alike Q (.failing e) (.failing e)

/-- Lists of steps of one form. -/
inductive AllAlike (Q : Op → Op → Prop) : List (Script ε Op) → List (Script ε Op) → Prop
  | nil : AllAlike Q [] []
  | cons {step step' : Script ε Op} {steps steps' : List (Script ε Op)} (h : Alike Q step step')
    (hs : AllAlike Q steps steps') : AllAlike Q (step :: steps) (step' :: steps')

end

mutual

/-- What is true of all operations of one script belongs to the relation. -/
theorem Alike.and_left {P : Op → Prop} : {step step' : Script ε Op} → Alike Q step step' →
    (∀ op ∈ ops step, P op) → Alike (fun op op' => Q op op' ∧ P op) step step'
  | _, _, .act h, hP => .act ⟨h, hP _ (List.mem_singleton_self _)⟩
  | _, _, .noGrad h, hP => .noGrad (AllAlike.and_left h hP)
  | _, _, .failing e, _ => .failing e

theorem AllAlike.and_left {P : Op → Prop} : {steps steps' : List (Script ε Op)} →
    AllAlike Q steps steps' → (∀ op ∈ allOps steps, P op) →
      AllAlike (fun op op' => Q op op' ∧ P op) steps steps'
  | _, _, .nil, _ => .nil
  | _, _, .cons h hs, hP =>
    .cons (Alike.and_left h fun op hop => hP op (List.mem_append_left _ hop))
      (AllAlike.and_left hs fun op hop => hP op (List.mem_append_right _ hop))

end

-- The two follow the recursion of `run` and `runScope`, on two scripts at once.
mutual

/-- Steps of one form leave related states, and either both are fatal or neither is. -/
theorem run_couples (fatal : ε → Bool)
    (h : ∀ op op', Q op op' → Couples (perform op) (perform op') (Tracked.Beside R)) :
    {step step' : Script ε Op} → Alike Q step step' → (t t' : Tracked σ) →
      Tracked.Beside R t t' →
      (run fatal perform step t).1.fatal? fatal = (run fatal perform step' t').1.fatal? fatal ∧
        Tracked.Beside R (run fatal perform step t).2 (run fatal perform step' t').2
  | .act op, .act op', .act hop, t, t', ht => by
    rcases h op op' hop t t' ht with ⟨hfailure, hstates⟩
    refine ⟨?_, hstates⟩
    change (replyOf _).fatal? fatal = (replyOf _).fatal? fatal
    rw [fatal?_replyOf, fatal?_replyOf, hfailure]
  | .noGrad body, .noGrad body', .noGrad hbody, t, t', ht => by
    -- The modes are equal before, and each is back afterwards.
    rcases runScope_couples fatal h hbody { t with gradEnabled := false }
      { t' with gradEnabled := false } ⟨rfl, ht.2⟩ with ⟨hfailure, hstates⟩
    refine ⟨?_, ht.1, hstates.2⟩
    change (scopeReply _).fatal? fatal = (scopeReply _).fatal? fatal
    rw [fatal?_scopeReply, fatal?_scopeReply, hfailure]
  | _, _, .failing e, t, t', ht => ⟨rfl, ht⟩

theorem runScope_couples (fatal : ε → Bool)
    (h : ∀ op op', Q op op' → Couples (perform op) (perform op') (Tracked.Beside R)) :
    {steps steps' : List (Script ε Op)} → AllAlike Q steps steps' → (t t' : Tracked σ) →
      Tracked.Beside R t t' →
      failure? (runScope fatal perform steps t).1 = failure? (runScope fatal perform steps' t').1 ∧
        Tracked.Beside R (runScope fatal perform steps t).2 (runScope fatal perform steps' t').2
  | _, _, .nil, t, t', ht => ⟨rfl, ht⟩
  | _, _, .cons hstep hsteps, t, t', ht => by
    rcases run_couples fatal h hstep t t' ht with ⟨hfatal, hstates⟩
    rw [runScope, runScope]
    dsimp only
    rw [hfatal]
    split
    · exact ⟨rfl, hstates⟩
    · rcases runScope_couples fatal h hsteps _ _ hstates with ⟨hfailure, hrest⟩
      refine ⟨?_, hrest⟩
      dsimp only
      rw [failure?_map, failure?_map, hfailure]

end

/-- Scripts of one form keep a relation that their operations keep. -/
theorem runAll_couples (fatal : ε → Bool)
    (h : ∀ op op', Q op op' → Couples (perform op) (perform op') (Tracked.Beside R))
    {steps steps' : List (Script ε Op)} (hsteps : AllAlike Q steps steps') (t t' : Tracked σ)
    (ht : Tracked.Beside R t t') :
    Tracked.Beside R (runAll fatal perform steps t).2 (runAll fatal perform steps' t').2 := by
  induction steps generalizing steps' t t' with
  | nil =>
    cases hsteps
    exact ht
  | cons step steps ih =>
    cases hsteps with
    | cons hstep hrest => exact ih hrest _ _ (run_couples fatal h hstep t t' ht).2

end Script

end GraphAttention
