import ContainerTasks.Call
import ContainerTasks.Event

/-!
# Step procedures

What it takes to do a step is written down as a tree: post an event, look whether the run has been
cancelled, make a call and go on as its reply says. A procedure does nothing by itself; whoever
carries it out decides when each of its parts happens.

## Main definitions

* `Procedure`
* `Ending`: how a procedure can end, and `Ending.trouble?`: what of it has to be reported
* `Call.progress?`: the event by which a call tells how far it is
* `Step.procedure`: what it takes to do a step
-/

namespace ContainerTasks

/-- How the work on a step can end. -/
inductive Ending where
  | completed
  | error (trouble : Trouble)
  | panicked (message : Option String)
  deriving DecidableEq

namespace Ending

/-- The work ended because the run was cancelled. -/
def cancelled : Ending := error .cancelled

/-- The unexpected error that an ending stands for. A cancellation is not unexpected. -/
def trouble? : Ending → Option Trouble
  | completed => none
  | error trouble => if trouble.isCancellation then none else some trouble
  | panicked message => some (.ofMessage ("step runner panicked: " ++ message.getD "unknown panic"))

end Ending

/-- The work on a step. -/
inductive Procedure where
  | ended (ending : Ending)
  | post (event : Event) (rest : Procedure)
  /-- Continue with the first procedure if the run has been cancelled, and else with the second. -/
  | check (ifCancelled otherwise : Procedure)
  | call (call : Call) (next : Reply call.Value → Procedure)

/-- The event by which a call tells how far it is. -/
def Call.progress? (line : String) : Call → Option Event
  | buildImage container => some (.imageBuildProgress container.name line)
  | pullImage imageName _ => some (.imagePullProgress imageName line)
  | _ => none

theorem Call.isInformational_of_progress? {call : Call} {line : String} {event : Event}
    (h : call.progress? line = some event) : event.isInformational = true := by
  cases call <;> simp only [progress?, Option.some.injEq, reduceCtorEq] at h <;> subst h <;> rfl

namespace Procedure

/-- Nothing more to do. -/
def done : Procedure := ended .completed

/-- Does the rest unless the run has been cancelled. -/
def unlessCancelled (rest : Procedure) : Procedure := check (ended .cancelled) rest

/-- Makes a call. A value and a failure that the runtime reports are dealt with as told; anything
else ends the work. -/
def ask (c : Call) (ifOk : c.Value → Procedure) (ifFailed : String → Procedure) : Procedure :=
  call c fun
    | .ok value => ifOk value
    | .failed message => ifFailed message
    | .cancelled => ended .cancelled
    | .error trouble => ended (.error trouble)
    | .panicked message => ended (.panicked message)

/-- Makes a call and posts one event about its outcome. -/
def askAndPost (c : Call) (ifOk : c.Value → Event) (ifFailed : String → Event) : Procedure :=
  ask c (fun value => post (ifOk value) done) (fun message => post (ifFailed message) done)

end Procedure

open Procedure in
/-- What it takes to do a step. `existing` names the network to use, if it is not to be made.

Work that makes or starts something is not begun in a cancelled run. Taking down does not look at
that. -/
def Step.procedure (existing : Option String) : Step → Procedure
  | prepareNetwork =>
    unlessCancelled <|
      match existing with
      | some identifier =>
        askAndPost (.findNetwork identifier) .networkFound (.networkCheckFailed identifier)
      | none => askAndPost .createNetwork .networkCreated .networkCreationFailed
  | buildImage container =>
    askAndPost (.buildImage container) (.imageBuilt container.name)
      (.imageBuildFailed container.name)
  | pullImage imageName policy =>
    askAndPost (.pullImage imageName policy) (.imagePulled imageName) (.imagePullFailed imageName)
  | createContainer container image network =>
    unlessCancelled <|
      askAndPost (.createContainer container image network) (.containerCreated container.name)
        (.containerCreationFailed container.name)
  | runContainer container reference main =>
    unlessCancelled <|
      ask (.startContainer reference)
        (fun _ => post (.containerStarted container) <|
          if main then
            askAndPost (.awaitExit reference) (.containerExited container)
              (.containerRunFailed container)
          else done)
        (fun message => post (.containerRunFailed container message) done)
  | awaitHealth container reference =>
    askAndPost (.awaitHealth reference) (fun _ => .containerHealthy container)
      (.containerUnhealthy container)
  | runSetupCommand container reference command index =>
    post (.setupCommandStarted container command.command index) <|
      askAndPost (.exec reference command)
        (fun result =>
          if result.exitCode = 0 then .setupCommandCompleted container index
          else .setupCommandFailed container command.command index result.exitCode result.output)
        (.setupCommandError container command.command index)
  | markReady container => post (.containerReady container) done
  | stopContainer container reference =>
    askAndPost (.stopContainer reference) (fun _ => .containerStopped container)
      (.containerStopFailed container)
  | removeContainer container reference =>
    askAndPost (.removeContainer reference) (fun _ => .containerRemoved container)
      (.containerRemovalFailed container)
  | deleteNetwork network =>
    askAndPost (.deleteNetwork network) (fun _ => .networkDeleted) .networkDeletionFailed

/-- The event that reports an unexpected error in the work on a step. -/
def Step.failure (step : Step) (trouble : Trouble) : Event :=
  .executionFailed ("During execution of step of kind '" ++ step.kind ++ "': " ++ trouble.text)

end ContainerTasks
