import ContainerTasks.Json
import ContainerTasks.Rule

/-!
# Events, steps and rules as JSON

The form in which containers, steps, events and rules are written to logs. A value with cases is an
object whose first field names the case; the fields of the case follow, always all of them and
always in the same order.

## Main definitions

* `Container.toJson`, `Step.toJson`, `Event.toJson`, `Rule.toJson`
-/

namespace ContainerTasks

open Json (ofOption ofStrings)

def ImageReference.toJson (r : ImageReference) : Json := .obj [("id", .str r.id)]

def NetworkReference.toJson (r : NetworkReference) : Json := .obj [("id", .str r.id)]

def ContainerReference.toJson (r : ContainerReference) : Json :=
  .obj [("id", .str r.id), ("name", .str r.name)]

/-- A table of texts is an object with its names as fields. -/
def NameMap.toJson (m : NameMap String) : Json :=
  .obj (m.entries.map fun (name, value) => (name, .str value))

def HealthCheck.toJson (check : HealthCheck) : Json :=
  .obj [
    ("command", ofOption check.command),
    ("interval", ofOption check.interval),
    ("retries", match check.retries with
      | some n => .int n
      | none => .null),
    ("start_period", ofOption check.startPeriod),
    ("timeout", ofOption check.timeout)]

def SetupCommand.toJson (command : SetupCommand) : Json :=
  .obj [("command", .str command.command), ("working_directory", ofOption command.workingDirectory)]

def Container.toJson (c : Container) : Json :=
  .obj [
    ("name", .str c.name),
    ("image", ofOption c.image),
    ("image_pull_policy", .str c.imagePullPolicy.word),
    ("build_directory", ofOption c.buildDirectory),
    ("dockerfile", ofOption c.dockerfile),
    ("command", ofOption c.command),
    ("environment", c.environment.toJson),
    ("working_directory", ofOption c.workingDirectory),
    ("ports", ofStrings c.ports),
    ("volumes", ofStrings c.volumes),
    ("dependencies", ofStrings c.dependencies),
    ("health_check", match c.healthCheck with
      | some check => check.toJson
      | none => .null),
    ("setup_commands", .arr (c.setupCommands.map SetupCommand.toJson))]

namespace Step

/-- The fields of a step besides its kind. -/
def fields : Step → List (String × Json)
  | prepareNetwork => []
  | buildImage container => [("container", container.toJson)]
  | pullImage imageName policy =>
    [("image_name", .str imageName), ("pull_policy", .str policy.word)]
  | createContainer container image network =>
    [("container", container.toJson), ("image", image.toJson), ("network", network.toJson)]
  | runContainer container reference main =>
    [("container", .str container), ("reference", reference.toJson), ("main", .bool main)]
  | runSetupCommand container reference command index =>
    [("container", .str container), ("reference", reference.toJson), ("command", command.toJson),
      ("index", .int index)]
  | markReady container => [("container", .str container)]
  | awaitHealth container reference | stopContainer container reference
  | removeContainer container reference =>
    [("container", .str container), ("reference", reference.toJson)]
  | deleteNetwork network => [("network", network.toJson)]

def toJson (step : Step) : Json := .obj (("kind", .str step.kind) :: step.fields)

end Step

namespace Event

/-- The fields of an event besides its kind. -/
def fields : Event → List (String × Json)
  | stepStarting step => [("step", step.toJson)]
  | imageBuildProgress container progress =>
    [("container", .str container), ("progress", .str progress)]
  | imagePullProgress imageName progress =>
    [("image_name", .str imageName), ("progress", .str progress)]
  | imageBuilt container image => [("container", .str container), ("image", image.toJson)]
  | imagePulled imageName image => [("image_name", .str imageName), ("image", image.toJson)]
  | networkCreated network | networkFound network => [("network", network.toJson)]
  | networkDeleted | interrupted => []
  | containerCreated container reference =>
    [("container", .str container), ("reference", reference.toJson)]
  | containerStarted container | containerHealthy container | containerReady container
  | containerStopped container | containerRemoved container => [("container", .str container)]
  | setupCommandStarted container command index =>
    [("container", .str container), ("command", .str command), ("index", .int index)]
  | setupCommandCompleted container index =>
    [("container", .str container), ("index", .int index)]
  | containerExited container exitCode =>
    [("container", .str container), ("exit_code", .int exitCode)]
  | executionFailed message | networkCreationFailed message | networkDeletionFailed message =>
    [("message", .str message)]
  | networkCheckFailed identifier message =>
    [("network_identifier", .str identifier), ("message", .str message)]
  | imagePullFailed imageName message =>
    [("image_name", .str imageName), ("message", .str message)]
  | imageBuildFailed container message | containerCreationFailed container message
  | containerRunFailed container message | containerUnhealthy container message
  | containerStopFailed container message | containerRemovalFailed container message =>
    [("container", .str container), ("message", .str message)]
  | setupCommandFailed container command index exitCode output =>
    [("container", .str container), ("command", .str command), ("index", .int index),
      ("exit_code", .int exitCode), ("output", .str output)]
  | setupCommandError container command index message =>
    [("container", .str container), ("command", .str command), ("index", .int index),
      ("message", .str message)]

def toJson (e : Event) : Json := .obj (("type", .str e.kind) :: e.fields)

end Event

namespace Rule

/-- The name of the kind of rule. -/
def kind : Rule → String
  | prepareNetwork => "PrepareTaskNetwork"
  | buildImage .. => "BuildImage"
  | pullImage .. => "PullImage"
  | createContainer .. => "CreateContainer"
  | runContainer .. => "RunContainer"
  | awaitHealth .. => "WaitForContainerToBecomeHealthy"
  | runSetupCommand .. => "RunSetupCommand"
  | markReady .. => "MarkContainerReady"
  | stopContainer .. => "StopContainer"
  | removeContainer .. => "RemoveContainer"
  | deleteNetwork .. => "DeleteTaskNetwork"

/-- The fields of a rule besides its kind. -/
def fields : Rule → List (String × Json)
  | prepareNetwork => []
  | buildImage container => [("container", container.toJson)]
  | pullImage imageName policy =>
    [("image_name", .str imageName), ("pull_policy", .str policy.word)]
  | createContainer container dependencies =>
    [("container", container.toJson), ("dependencies", ofStrings dependencies.toList)]
  | runContainer container main => [("container", .str container), ("main", .bool main)]
  | awaitHealth container => [("container", .str container)]
  | runSetupCommand container command index afterHealthCheck =>
    [("container", .str container), ("command", command.toJson), ("index", .int index),
      ("after_health_check", .bool afterHealthCheck)]
  | markReady container setupCommands healthCheck =>
    [("container", .str container), ("setup_commands", .int setupCommands),
      ("health_check", .bool healthCheck)]
  | stopContainer container reference stopAfter =>
    [("container", .str container), ("reference", reference.toJson),
      ("stop_after", ofStrings stopAfter.toList)]
  | removeContainer container reference waitForStop =>
    [("container", .str container), ("reference", reference.toJson),
      ("wait_for_stop", .bool waitForStop)]
  | deleteNetwork network containers =>
    [("network", network.toJson), ("containers", ofStrings containers)]

def toJson (rule : Rule) : Json := .obj (("rule", .str rule.kind) :: rule.fields)

end Rule

def Readiness.toJson : Readiness → Json
  | notReady => .str "NotReady"
  | done => .str "Done"
  | ready step => .obj [("Ready", step.toJson)]

def Task.toJson (task : Task) : Json :=
  .obj [
    ("name", .str task.name),
    ("description", ofOption task.description),
    ("group", ofOption task.group),
    ("prerequisites", ofStrings task.prerequisites),
    ("dependencies", ofStrings task.dependencies),
    ("run", match task.run with
      | some run => .obj [
        ("container", .str run.container),
        ("command", ofOption run.command),
        ("environment", run.environment.toJson),
        ("working_directory", ofOption run.workingDirectory)]
      | none => .null),
    ("customise", .obj (task.customise.entries.map fun (name, changes) =>
      (name, .obj [
        ("working_directory", ofOption changes.workingDirectory),
        ("environment", changes.environment.toJson)])))]

end ContainerTasks
