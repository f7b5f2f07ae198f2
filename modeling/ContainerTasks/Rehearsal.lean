import ContainerTasks.Bench
import ContainerTasks.Schedule
import ContainerTasks.Script

/-!
# Rehearsals

A rehearsal is a session, or a number of steps on a bench, against a scripted runtime. Between its
parts the user may ask to stop and may let a call go on that is held back.

## Main definitions

* `Rehearsal`, `Rehearsal.perform`: a session in parts
* `Bench.perform`: steps on a bench
-/

namespace ContainerTasks

/-- A session against a scripted runtime. -/
abbrev Rehearsal := Schedule Script

namespace Rehearsal

/-- What is done from outside. -/
structure Action where
  /-- Ask to stop; this comes first. -/
  cancel : Bool
  /-- Let the next call of a key go on. -/
  release : Option String

/-- What has come of a part. -/
structure Segment where
  happenings : List Happening
  finished : Bool

/-- Plays until all is quiet. -/
def play (r : Rehearsal) : Segment × Rehearsal :=
  let seen := r.session.trace.length
  let r := r.settle
  (⟨r.session.trace.drop seen, r.session.result?.isSome⟩, r)

/-- Lets the next call of a key go on, at once or when it comes. -/
def release (r : Rehearsal) (key : String) : Rehearsal :=
  (r.release? key).getD { r with state := r.state.credit key }

/-- Does something from outside and plays on. -/
def act (r : Rehearsal) (action : Action) : Segment × Rehearsal :=
  let r := if action.cancel then r.cancel else r
  play (match action.release with
    | some key => release r key
    | none => r)

/-- Plays a session with actions, and tells what came before the first of them and after each. -/
def perform (session : Session) (script : Script) (actions : List Action) :
    List Segment × Session :=
  let (first, r) := play (Schedule.start Script.serve script session)
  let (segments, r) := actions.foldl
    (fun (segments, r) action =>
      let (segment, r) := act r action
      (segments ++ [segment], r)) ([first], r)
  (segments, r.session)

end Rehearsal

namespace Bench

/-- What can be asked of a bench with a scripted runtime. -/
inductive Op where
  | run (step : Step)
  | cancel
  | release (key : String)

/-- Does one thing. The number serves for the step that it begins. -/
def apply (b : Bench Script) (number : Nat) : Op → Effect × Bench Script
  | .run step => b.begin number step
  | .cancel => b.cancel
  | .release key => (b.release? key).getD (⟨[], []⟩, { b with state := b.state.credit key })

/-- Does things in turn. A step is numbered by the place where it is begun. -/
def perform (b : Bench Script) (ops : List Op) : List Effect :=
  (ops.foldl
    (fun (effects, b) op =>
      let (effect, b) := b.apply effects.length op
      (effects ++ [effect], b)) ([], b)).1

end Bench

end ContainerTasks
