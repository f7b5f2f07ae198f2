import ContainerTasks.Container

/-!
# Steps

A step is one piece of work on the way through a task: preparing the network, making an image,
creating, starting and checking a container, and taking all of it down again.

## Main definitions

* `Step`
* `Step.isCapped`: whether the limit on parallel work applies to it
* `Step.isCleanup`: whether it takes something down
* `Step.text`: how it is shown
-/

namespace ContainerTasks

/-- One piece of work of a task. -/
inductive Step where
  | prepareNetwork
  | buildImage (container : Container)
  | pullImage (imageName : String) (policy : PullPolicy)
  | createContainer (container : Container) (image : ImageReference) (network : NetworkReference)
  | runContainer (container : String) (reference : ContainerReference) (main : Bool)
  | awaitHealth (container : String) (reference : ContainerReference)
  | runSetupCommand (container : String) (reference : ContainerReference)
      (command : SetupCommand) (index : Nat)
  | markReady (container : String)
  | stopContainer (container : String) (reference : ContainerReference)
  | removeContainer (container : String) (reference : ContainerReference)
  | deleteNetwork (network : NetworkReference)
  deriving DecidableEq

namespace Step

/-- The name of the kind of step. -/
def kind : Step → String
  | prepareNetwork => "PrepareTaskNetwork"
  | buildImage .. => "BuildImage"
  | pullImage .. => "PullImage"
  | createContainer .. => "CreateContainer"
  | runContainer .. => "RunContainer"
  | awaitHealth .. => "WaitForContainerToBecomeHealthy"
  | runSetupCommand .. => "RunSetupCommand"
  | markReady .. => "MarkContainerReady"
  | stopContainer .. => "StopContainer"
  | removeContainer .. => "RemoveContainer"
  | deleteNetwork .. => "DeleteTaskNetwork"

/-- The limit on parallel work applies to every step but those that mostly wait. -/
def isCapped : Step → Bool
  | runContainer .. | awaitHealth .. | markReady .. => false
  | _ => true

/-- The steps that take something down. An interrupt does not keep them from being run. -/
def isCleanup : Step → Bool
  | stopContainer .. | removeContainer .. | deleteNetwork .. => true
  | _ => false

/-- The container that a step is about, if it is about one. -/
def containerName? : Step → Option String
  | buildImage container | createContainer container .. => some container.name
  | runContainer container .. | awaitHealth container .. | runSetupCommand container ..
  | markReady container | stopContainer container .. | removeContainer container .. =>
    some container
  | prepareNetwork | pullImage .. | deleteNetwork .. => none

/-- How a step is shown. -/
def text (step : Step) : String :=
  match step with
  | prepareNetwork => step.kind
  | pullImage imageName _ => step.kind ++ " " ++ quote imageName
  | runSetupCommand container _ _ index =>
    step.kind ++ " #" ++ toString index ++ " for " ++ quote container
  | deleteNetwork network => step.kind ++ " " ++ network.text
  | buildImage container | createContainer container .. =>
    step.kind ++ " for " ++ quote container.name
  | runContainer container .. | awaitHealth container .. | markReady container
  | stopContainer container .. | removeContainer container .. =>
    step.kind ++ " for " ++ quote container

end Step

end ContainerTasks
