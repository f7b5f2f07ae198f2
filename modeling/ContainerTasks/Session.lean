import ContainerTasks.Execution
import ContainerTasks.TaskOrder

/-!
# Sessions

A session carries out a task after its prerequisites, one task at a time, and stops at the first
that fails. Between two tasks nothing is left under way.

## Main definitions

* `RunOptions`
* `Session`, `Session.start`, `Session.next?`
* `SessionOutcome`, and `Session.Fault`: why a session came to an early end
* `exitStatus`: the exit status of the program for the exit code of a container
-/

namespace ContainerTasks

/-- What holds for all tasks of a session. -/
structure RunOptions where
  maxParallelism : Option Nat
  cleanupPolicy : CleanupPolicy
  /-- The network to use, if none is to be made. -/
  existingNetwork : Option String
  skipPrerequisites : Bool
  deriving DecidableEq

/-- The options that a configuration asks for. -/
def Settings.runOptions (settings : Settings) : RunOptions where
  maxParallelism := settings.maxParallelism
  cleanupPolicy := ⟨settings.cleanupAfterFailure, settings.cleanupAfterSuccess⟩
  existingNetwork := settings.network
  skipPrerequisites := false

/-- What has become of one task. -/
structure TaskResult where
  task : String
  outcome : Outcome
  deriving DecidableEq

/-- What a session has come to. -/
structure SessionOutcome where
  /-- The tasks that were carried out, in order. -/
  results : List TaskResult
  exitCode : Int
  deriving DecidableEq

/-- A session has succeeded if it gives the exit code zero. -/
def SessionOutcome.succeeded (outcome : SessionOutcome) : Bool := outcome.exitCode = 0

/-- The exit status of the program for the exit code of a container. A code that does not fit into
32 bits becomes a one. -/
def exitStatus (exitCode : Int) : Int :=
  if Int32.minValue.toInt ≤ exitCode ∧ exitCode ≤ Int32.maxValue.toInt then exitCode else 1

/-- Why a session ends early. -/
inductive Session.Fault where
  | order (fault : TaskOrder.Fault)
  | graph (fault : Graph.Fault)
  deriving DecidableEq

/-- The wording of a fault. -/
def Session.Fault.message : Session.Fault → String
  | order fault => fault.message
  | graph fault => fault.message

/-- Where a session stands. -/
inductive SessionState where
  | running (task : Task) (execution : Execution)
  | over (result : Except Session.Fault SessionOutcome)
  /-- The limit on parallel work is too large to be kept. -/
  | crashed

/-- A session. -/
structure Session where
  config : Config
  options : RunOptions
  /-- The tasks that have not begun, in order. -/
  rest : List Task
  /-- What has become of the tasks that are over, oldest first. -/
  results : List TaskResult
  /-- The exit code if no other task changes it. -/
  exitCode : Int
  /-- What the outside has seen of the tasks that are over. -/
  past : List Happening
  state : SessionState

/-- What can happen in a session. -/
inductive SessionMove where
  /-- Something happens in the task that is carried out. -/
  | within (move : Move)
  /-- The task is over, and the session goes on. -/
  | proceed

namespace Session

/-- The session comes to its end. -/
def stop (s : Session) : Session := { s with state := .over (.ok ⟨s.results, s.exitCode⟩) }

/-- The next task begins, or the session ends if there is none. -/
def beginNext (s : Session) (cancelled : Bool) : Session :=
  match s.rest with
  | [] => s.stop
  | task :: rest =>
    match Graph.build task s.config.containers with
    | .error fault => { s with state := .over (.error (.graph fault)) }
    | .ok graph =>
      match Execution.start? (.start graph s.options.cleanupPolicy) s.options.existingNetwork
        s.options.maxParallelism cancelled with
      | none => { s with rest, state := .crashed }
      | some execution => { s with rest, state := .running task execution }

/-- The beginning of a session for a task. -/
def start (config : Config) (options : RunOptions) (task : String) (cancelled : Bool) : Session :=
  let blank (rest : List Task) (state : SessionState) : Session :=
    { config, options, rest, results := [], exitCode := 0, past := [], state }
  match config.taskOrder task options.skipPrerequisites with
  | .error fault => blank [] (.over (.error (.order fault)))
  | .ok tasks => (blank tasks (.over (.ok ⟨[], 0⟩))).beginNext cancelled

/-- The exit code of a session after one more task. A failed task gives a one, and one without an
exit code leaves things as they are. -/
def exitCodeAfter (s : Session) (outcome : Outcome) : Int :=
  if outcome.succeeded then
    match outcome.exitCode with
    | some exitCode => exitStatus exitCode
    | none => s.exitCode
  else 1

/-- A task is over. The session ends unless the exit code is zero and nobody has asked to stop. -/
def conclude (s : Session) (task : Task) (execution : Execution) (outcome : Outcome) : Session :=
  let s : Session := { s with
    results := s.results ++ [⟨task.name, outcome⟩]
    exitCode := s.exitCodeAfter outcome
    past := s.past ++ execution.trace }
  if s.exitCode ≠ 0 || execution.cancelled then s.stop else s.beginNext execution.cancelled

/-- What comes of a move, if it is possible. -/
def next? (s : Session) (move : SessionMove) : Option Session :=
  match s.state, move with
  | .running task execution, .within move => do
    return { s with state := .running task (← execution.next? move) }
  | .running task execution, .proceed => do
    return s.conclude task execution (← execution.outcome?)
  | .over _, _ | .crashed, _ => none

/-- The sessions that moves can lead to from the first one. -/
inductive Reachable (first : Session) : Session → Prop where
  | refl : Reachable first first
  | step {s t : Session} (m : SessionMove) (h : Reachable first s) (hm : s.next? m = some t) :
    Reachable first t

/-- What the outside has seen of a session, oldest first. -/
def trace (s : Session) : List Happening :=
  match s.state with
  | .running _ execution => s.past ++ execution.trace
  | .over _ | .crashed => s.past

/-- What the session has come to, if it is over. -/
def result? (s : Session) : Option (Except Fault SessionOutcome) :=
  match s.state with
  | .over result => some result
  | _ => none

end Session

end ContainerTasks
