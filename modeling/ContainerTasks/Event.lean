import ContainerTasks.Step

/-!
# Events

An event says what a step has done or how it has failed. The sequence of events of a task is all
that decides what is done next, and it is what a log of the task holds.

## Main definitions

* `Event`
* `Event.isInformational`: events that only a log is interested in
* `Event.isFailure`, `Event.isCleanupFailure`
* `Event.text`: how an event is shown

## Main results

* `Event.isFailure_of_isCleanupFailure`, `Event.not_isFailure_of_isInformational`
-/

namespace ContainerTasks

/-- Something that happened while a task was run. -/
inductive Event where
  | stepStarting (step : Step)
  | imageBuildProgress (container : String) (progress : String)
  | imagePullProgress (imageName : String) (progress : String)
  | imageBuilt (container : String) (image : ImageReference)
  | imagePulled (imageName : String) (image : ImageReference)
  | networkCreated (network : NetworkReference)
  /-- A network that was there before is used. -/
  | networkFound (network : NetworkReference)
  | networkDeleted
  | containerCreated (container : String) (reference : ContainerReference)
  | containerStarted (container : String)
  | containerHealthy (container : String)
  | setupCommandStarted (container : String) (command : String) (index : Nat)
  | setupCommandCompleted (container : String) (index : Nat)
  | containerReady (container : String)
  | containerExited (container : String) (exitCode : Int)
  | containerStopped (container : String)
  | containerRemoved (container : String)
  /-- A step ended in an unexpected error. -/
  | executionFailed (message : String)
  /-- The user asked for the run to be given up. -/
  | interrupted
  | networkCreationFailed (message : String)
  | networkCheckFailed (identifier : String) (message : String)
  | imageBuildFailed (container : String) (message : String)
  | imagePullFailed (imageName : String) (message : String)
  | containerCreationFailed (container : String) (message : String)
  | containerRunFailed (container : String) (message : String)
  | containerUnhealthy (container : String) (message : String)
  /-- A setup command ran and gave an exit code other than zero. -/
  | setupCommandFailed (container : String) (command : String) (index : Nat) (exitCode : Int)
      (output : String)
  /-- A setup command could not be run. -/
  | setupCommandError (container : String) (command : String) (index : Nat) (message : String)
  | containerStopFailed (container : String) (message : String)
  | containerRemovalFailed (container : String) (message : String)
  | networkDeletionFailed (message : String)
  deriving DecidableEq

namespace Event

/-- The name of the kind of event. -/
def kind : Event → String
  | stepStarting .. => "StepStarting"
  | imageBuildProgress .. => "ImageBuildProgress"
  | imagePullProgress .. => "ImagePullProgress"
  | imageBuilt .. => "ImageBuilt"
  | imagePulled .. => "ImagePulled"
  | networkCreated .. => "TaskNetworkCreated"
  | networkFound .. => "CustomTaskNetworkChecked"
  | networkDeleted => "TaskNetworkDeleted"
  | containerCreated .. => "ContainerCreated"
  | containerStarted .. => "ContainerStarted"
  | containerHealthy .. => "ContainerBecameHealthy"
  | setupCommandStarted .. => "RunningSetupCommand"
  | setupCommandCompleted .. => "SetupCommandCompleted"
  | containerReady .. => "ContainerBecameReady"
  | containerExited .. => "RunningContainerExited"
  | containerStopped .. => "ContainerStopped"
  | containerRemoved .. => "ContainerRemoved"
  | executionFailed .. => "ExecutionFailed"
  | interrupted => "UserInterruptedExecution"
  | networkCreationFailed .. => "TaskNetworkCreationFailed"
  | networkCheckFailed .. => "CustomTaskNetworkCheckFailed"
  | imageBuildFailed .. => "ImageBuildFailed"
  | imagePullFailed .. => "ImagePullFailed"
  | containerCreationFailed .. => "ContainerCreationFailed"
  | containerRunFailed .. => "ContainerRunFailed"
  | containerUnhealthy .. => "ContainerDidNotBecomeHealthy"
  | setupCommandFailed .. => "SetupCommandFailed"
  | setupCommandError .. => "SetupCommandExecutionError"
  | containerStopFailed .. => "ContainerStopFailed"
  | containerRemovalFailed .. => "ContainerRemovalFailed"
  | networkDeletionFailed .. => "TaskNetworkDeletionFailed"

/-- Events for the log alone: no decision is taken on them. -/
def isInformational : Event → Bool
  | stepStarting .. | imageBuildProgress .. | imagePullProgress .. => true
  | _ => false

/-- Events after which a run counts as failed. -/
def isFailure : Event → Bool
  | executionFailed .. | interrupted | networkCreationFailed .. | networkCheckFailed ..
  | imageBuildFailed .. | imagePullFailed .. | containerCreationFailed .. | containerRunFailed ..
  | containerUnhealthy .. | setupCommandFailed .. | setupCommandError ..
  | containerStopFailed .. | containerRemovalFailed .. | networkDeletionFailed .. => true
  | _ => false

/-- Events after which something that should have been taken down may still be there. -/
def isCleanupFailure : Event → Bool
  | containerStopFailed .. | containerRemovalFailed .. | networkDeletionFailed .. => true
  | _ => false

theorem isFailure_of_isCleanupFailure {e : Event} (h : e.isCleanupFailure = true) :
    e.isFailure = true := by
  cases e <;> simp_all [isCleanupFailure, isFailure]

theorem not_isFailure_of_isInformational {e : Event} (h : e.isInformational = true) :
    e.isFailure = false := by
  cases e <;> simp_all [isInformational, isFailure]

/-- How an event is shown. -/
def text : Event → String
  | stepStarting step => "starting step " ++ step.text
  | imageBuildProgress container progress =>
    "building image for " ++ quote container ++ ": " ++ progress
  | imagePullProgress imageName progress => "pulling " ++ quote imageName ++ ": " ++ progress
  | imageBuilt container image => "built image " ++ image.text ++ " for " ++ quote container
  | imagePulled imageName _ => "pulled " ++ quote imageName
  | networkCreated network => "created network " ++ network.text
  | networkFound network => "using existing network " ++ network.text
  | networkDeleted => "deleted task network"
  | containerCreated container reference =>
    "created container " ++ quote container ++ " as " ++ reference.text
  | containerStarted container => "started " ++ quote container
  | containerHealthy container => quote container ++ " became healthy"
  | setupCommandStarted container command index =>
    "running setup command " ++ toString index ++ " in " ++ quote container ++ ": " ++ command
  | setupCommandCompleted container index =>
    "setup command " ++ toString index ++ " in " ++ quote container ++ " completed"
  | containerReady container => quote container ++ " is ready"
  | containerExited container exitCode =>
    quote container ++ " exited with code " ++ toString exitCode
  | containerStopped container => "stopped " ++ quote container
  | containerRemoved container => "removed " ++ quote container
  | executionFailed message => "execution failed: " ++ message
  | interrupted => "execution interrupted by user"
  | networkCreationFailed message => "could not create task network: " ++ message
  | networkCheckFailed identifier message =>
    "could not use network " ++ quote identifier ++ ": " ++ message
  | imageBuildFailed container message =>
    "could not build image for " ++ quote container ++ ": " ++ message
  | imagePullFailed imageName message => "could not pull " ++ quote imageName ++ ": " ++ message
  | containerCreationFailed container message =>
    "could not create " ++ quote container ++ ": " ++ message
  | containerRunFailed container message =>
    "could not run " ++ quote container ++ ": " ++ message
  | containerUnhealthy container message =>
    quote container ++ " did not become healthy: " ++ message
  | setupCommandFailed container command _ exitCode _ =>
    "setup command " ++ quote command ++ " in " ++ quote container ++ " exited with code " ++
      toString exitCode
  | setupCommandError container command _ message =>
    "could not run setup command " ++ quote command ++ " in " ++ quote container ++ ": " ++
      message
  | containerStopFailed container message =>
    "could not stop " ++ quote container ++ ": " ++ message
  | containerRemovalFailed container message =>
    "could not remove " ++ quote container ++ ": " ++ message
  | networkDeletionFailed message => "could not delete task network: " ++ message

end Event

end ContainerTasks
