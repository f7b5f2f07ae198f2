import ContainerTasks.NameMap
import ContainerTasks.Reference

/-!
# Containers and tasks

The entries of a configuration: containers that can be run, and tasks that run one of them after
the tasks they list as prerequisites.

## Main definitions

* `Container`, `HealthCheck`, `SetupCommand`
* `Container.imageSource`: where a container's image comes from
* `Task`, `TaskRun`, `Customisation`
* `Container.forTask`: a container as a task wants it
-/

namespace ContainerTasks

/-- How the runtime finds out whether a container is healthy. Durations are passed on as written. -/
structure HealthCheck where
  command : Option String
  interval : Option String
  retries : Option Nat
  startPeriod : Option String
  timeout : Option String
  deriving DecidableEq, Inhabited

/-- A command run inside a started container before it counts as ready. -/
structure SetupCommand where
  command : String
  workingDirectory : Option String
  deriving DecidableEq, Inhabited

/-- A container as the configuration describes it. -/
structure Container where
  name : String
  image : Option String
  imagePullPolicy : PullPolicy
  buildDirectory : Option String
  /-- Relative to the build directory. -/
  dockerfile : Option String
  command : Option String
  environment : NameMap String
  workingDirectory : Option String
  ports : List String
  volumes : List String
  /-- The containers that have to be ready before this one is created. -/
  dependencies : List String
  healthCheck : Option HealthCheck
  /-- Run in order once the container is up. -/
  setupCommands : List SetupCommand
  deriving DecidableEq, Inhabited

/-- Where the image of a container comes from. -/
inductive ImageSource where
  | build (directory : String) (dockerfile : Option String)
  | pull (imageName : String) (policy : PullPolicy)
  deriving DecidableEq

namespace Container

/-- A container with a build directory is built; any other is pulled. -/
def imageSource (c : Container) : ImageSource :=
  match c.buildDirectory with
  | some directory => .build directory c.dockerfile
  | none => .pull (c.image.getD "") c.imagePullPolicy

/-- Whether readiness waits for a health check. -/
def hasHealthCheck (c : Container) : Bool := c.healthCheck.isSome

end Container

/-- The main container of a task, with what the task changes about it. -/
structure TaskRun where
  container : String
  command : Option String
  environment : NameMap String
  workingDirectory : Option String
  deriving DecidableEq, Inhabited

/-- What a task changes about a container that its main container depends on. -/
structure Customisation where
  workingDirectory : Option String
  environment : NameMap String
  deriving DecidableEq, Inhabited

/-- A task: a main container to run, or only a name for the tasks that come before it. -/
structure Task where
  name : String
  description : Option String
  group : Option String
  /-- The tasks that have to succeed first. -/
  prerequisites : List String
  /-- Containers that the main container depends on in this task only. -/
  dependencies : List String
  run : Option TaskRun
  customise : NameMap Customisation
  deriving DecidableEq, Inhabited

/-- The container `name` of the catalogue as the task wants it. The main container takes the
command, the working directory and the environment of the `run` section; any other container takes
those of its entry under `customise`. -/
def Container.forTask (c : Container) (name : String) (task : Task) (main : Bool) : Container :=
  let c := { c with name }
  if main then
    match task.run with
    | some run =>
      { c with
        command := run.command.or c.command
        workingDirectory := run.workingDirectory.or c.workingDirectory
        environment := c.environment.merge run.environment }
    | none => c
  else
    match task.customise.get? name with
    | some changes =>
      { c with
        workingDirectory := changes.workingDirectory.or c.workingDirectory
        environment := c.environment.merge changes.environment }
    | none => c

end ContainerTasks
