import ContainerTasks.History

/-!
# Rules

A rule stands for one step of a plan. Asked about a history it says that the step has come to its
end, that the step can be taken now, or that something it waits for has not happened yet. Only the
history is consulted, so a plan needs no bookkeeping of its own.

## Main definitions

* `Rule`, `Readiness`
* `Rule.evaluate`
* `Rule.text`: how a rule is shown
-/

namespace ContainerTasks

/-- A step that a plan has in mind, with what it has to wait for. -/
inductive Rule where
  | prepareNetwork
  | buildImage (container : Container)
  | pullImage (imageName : String) (policy : PullPolicy)
  | createContainer (container : Container) (dependencies : NameSet)
  | runContainer (container : String) (main : Bool)
  | awaitHealth (container : String)
  | runSetupCommand (container : String) (command : SetupCommand) (index : Nat)
      (afterHealthCheck : Bool)
  | markReady (container : String) (setupCommands : Nat) (healthCheck : Bool)
  | stopContainer (container : String) (reference : ContainerReference) (stopAfter : NameSet)
  | removeContainer (container : String) (reference : ContainerReference) (waitForStop : Bool)
  | deleteNetwork (network : NetworkReference) (containers : List String)
  deriving DecidableEq

/-- What a rule says about a history. -/
inductive Readiness where
  /-- Something that the step waits for has not happened. -/
  | notReady
  /-- The step can be taken. -/
  | ready (step : Step)
  /-- The step has come to its end, well or badly. -/
  | done
  deriving DecidableEq

namespace Readiness

/-- Ready with the step if the condition holds. -/
def readyIf (condition : Bool) (step : Step) : Readiness :=
  if condition then ready step else notReady

end Readiness

namespace History

/-- The image that a container is to be created from. -/
def imageOf? (h : History) (container : Container) : Option ImageReference :=
  match container.imageSource with
  | .build .. => h.builtImage? container.name
  | .pull imageName _ => h.pulledImage? imageName

/-- The first `n` setup commands are through: the last of them completed, or, where there are
none, the container is healthy if it has a health check and has started if not. -/
def preparedUpTo (h : History) (container : String) (n : Nat) (healthCheck : Bool) : Bool :=
  match n with
  | last + 1 => h.setupCompleted container last
  | 0 => if healthCheck then h.isHealthy container else h.hasStarted container

/-- The container does not run any more, or could not be stopped. -/
def stopSettled (h : History) (container : String) : Bool :=
  h.isStopped container || h.stopFailed container

/-- The container is gone, or could not be removed. -/
def removalSettled (h : History) (container : String) : Bool :=
  h.isRemoved container || h.removalFailed container

end History

namespace Rule

/-- What a rule says about a history. -/
def evaluate (rule : Rule) (h : History) : Readiness :=
  match rule with
  | prepareNetwork =>
    if h.network?.isSome || h.networkPreparationFailed then .done else .ready .prepareNetwork
  | buildImage container =>
    if (h.builtImage? container.name).isSome || h.imageBuildFailed container.name then .done
    else .ready (.buildImage container)
  | pullImage imageName policy =>
    if (h.pulledImage? imageName).isSome || h.imagePullFailed imageName then .done
    else .ready (.pullImage imageName policy)
  | createContainer container dependencies =>
    if (h.reference? container.name).isSome || h.creationFailed container.name then .done
    else
      match h.imageOf? container, h.network? with
      | some image, some network =>
        .readyIf (dependencies.toList.all h.isReady) (.createContainer container image network)
      | _, _ => .notReady
  | runContainer container main =>
    if h.hasStarted container || h.runFailed container then .done
    else
      match h.reference? container with
      | some reference => .ready (.runContainer container reference main)
      | none => .notReady
  | awaitHealth container =>
    if h.isHealthy container || h.isUnhealthy container then .done
    else
      match h.reference? container with
      | some reference => .readyIf (h.hasStarted container) (.awaitHealth container reference)
      | none => .notReady
  | runSetupCommand container command index afterHealthCheck =>
    if h.setupCompleted container index || h.setupFailed container index then .done
    else
      match h.reference? container with
      | some reference =>
        .readyIf (h.preparedUpTo container index afterHealthCheck)
          (.runSetupCommand container reference command index)
      | none => .notReady
  | markReady container setupCommands healthCheck =>
    if h.isReady container then .done
    else .readyIf (h.preparedUpTo container setupCommands healthCheck) (.markReady container)
  | stopContainer container reference stopAfter =>
    if h.isStopped container || h.stopFailed container || h.isRemoved container then .done
    else .readyIf (stopAfter.toList.all h.stopSettled) (.stopContainer container reference)
  | removeContainer container reference waitForStop =>
    if h.isRemoved container || h.removalFailed container then .done
    else .readyIf (!waitForStop || h.stopSettled container) (.removeContainer container reference)
  | deleteNetwork network containers =>
    if h.networkDeleted || h.networkDeletionFailed then .done
    else .readyIf (containers.all h.removalSettled) (.deleteNetwork network)

/-- How a rule is shown. -/
def text : Rule → String
  | prepareNetwork => "prepare task network"
  | buildImage container => "build image for " ++ quote container.name
  | pullImage imageName policy => "pull " ++ quote imageName ++ " (" ++ policy.title ++ ")"
  | createContainer container dependencies =>
    "create " ++ quote container.name ++
      if dependencies.isEmpty then ""
      else " once ready: " ++ ", ".intercalate dependencies.toList
  | runContainer container main =>
    if main then "run " ++ quote container ++ " and wait for it to exit"
    else "start " ++ quote container
  | awaitHealth container => "wait for " ++ quote container ++ " to become healthy"
  | runSetupCommand container command index _ =>
    "run setup command #" ++ toString index ++ " in " ++ quote container ++ ": " ++
      command.command
  | markReady container _ _ => "mark " ++ quote container ++ " ready"
  | stopContainer container _ _ => "stop " ++ quote container
  | removeContainer container _ _ => "remove " ++ quote container
  | deleteNetwork network _ => "delete network " ++ network.text

end Rule

end ContainerTasks
