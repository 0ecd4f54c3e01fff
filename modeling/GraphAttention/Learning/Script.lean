import GraphAttention.Learning.Tracked

/-!
# Scripts

A script is a tree of steps on an object: single operations, and scopes without
gradients around further steps, nested to any depth. A step that fails ends
neither its scope nor the script; its failure is its reply, and the next step
finds the state that it left. A step whose arguments could not be made fails
before it begins and leaves everything alone.

Some failures are fatal. A fatal failure ends every scope around the step: the
steps that would have followed in the scope are not run, what the earlier ones
replied is lost, and the failure is the reply of the scope. What they changed
stays changed, the mode from before the scope is back, and a list of steps
outside all scopes goes on.

What an operation is, what it replies and which failures are fatal is left
open, so that one definition of running serves a single parameter and every
kind of module.

## Main definitions

* `Script`: A step, a scope of steps, or a step that cannot begin.
* `Reply`: What came of a step.
* `Script.run`, `Script.runScope`: Running a step, and the steps of a scope.
* `Script.runAll`: Running a list of steps outside all scopes.
-/

namespace GraphAttention

/-- A step on an object. -/
inductive Script (ε Op : Type) where
  /-- One operation. -/
  | act (op : Op)
  /-- Steps during which no gradient accumulates. -/
  | noGrad (body : List (Script ε Op))
  /-- A step whose arguments could not be made. -/
  | failing (e : ε)

/-- What came of a step. -/
inductive Reply (ε R : Type) where
  | answer (r : R)
  | failed (e : ε)
  | scope (replies : List (Reply ε R))

/-- The failure of a step, if it is a fatal one. -/
def Reply.fatal? {ε R : Type} (fatal : ε → Bool) : Reply ε R → Option ε
  | .failed e => if fatal e then some e else none
  | _ => none

namespace Script

variable {σ ε Op R : Type}

/-- The outcome of an operation as a reply. -/
def replyOf : Except ε R → Reply ε R
  | .ok r => .answer r
  | .error e => .failed e

/-- The outcome of the steps of a scope as the reply of the scope. -/
def scopeReply : Except ε (List (Reply ε R)) → Reply ε R
  | .ok replies => .scope replies
  | .error e => .failed e

mutual

/-- Runs a step. -/
def run (fatal : ε → Bool) (perform : Op → Action (Tracked σ) ε R) :
    Script ε Op → Tracked σ → Reply ε R × Tracked σ
  | act op, s =>
    let (result, s') := perform op s
    (replyOf result, s')
  | noGrad body, s => Tracked.withoutGrad
      (fun inner =>
        let (result, inner') := runScope fatal perform body inner
        (scopeReply result, inner')) s
  | failing e, s => (.failed e, s)

/-- Runs the steps of a scope, one after another, up to a fatal failure. -/
def runScope (fatal : ε → Bool) (perform : Op → Action (Tracked σ) ε R) :
    List (Script ε Op) → Tracked σ → Except ε (List (Reply ε R)) × Tracked σ
  | [], s => (.ok [], s)
  | step :: steps, s =>
    let (reply, s') := run fatal perform step s
    match reply.fatal? fatal with
    | some e => (.error e, s')
    | none =>
      let (result, s'') := runScope fatal perform steps s'
      (result.map (reply :: ·), s'')

end

/-- Runs a list of steps outside all scopes, one after another to its end. -/
def runAll (fatal : ε → Bool) (perform : Op → Action (Tracked σ) ε R) :
    List (Script ε Op) → Tracked σ → List (Reply ε R) × Tracked σ
  | [], s => ([], s)
  | step :: steps, s =>
    let (reply, s') := run fatal perform step s
    let (replies, s'') := runAll fatal perform steps s'
    (reply :: replies, s'')

end Script

end GraphAttention
