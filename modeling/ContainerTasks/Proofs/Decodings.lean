import ContainerTasks.Encoding
import ContainerTasks.Proofs.JsonTexts

/-!
# Events, steps and containers can be read back

For each type that is written as JSON there is a reader that looks up the fields by their names, and
it gives back what was written. A step and an event are read by the name of their kind.

## Main definitions

* `JsonText.get?`: the value of a field, read with a reader
* `Container.ofText?`, `Step.ofText?`, `Event.ofText?`

## Main results

* `Container.ofText?_toJson`, `Step.ofText?_toJson`, `Event.ofText?_toJson`
-/

namespace ContainerTasks

open Json (ofOption ofStrings asRead)

namespace JsonText

variable {α : Type}

/-! ### Parts of values -/

/-- The text of a string that has one. -/
def asString? : JsonText → Option String
  | string text => text
  | _ => none

def asBool? : JsonText → Option Bool
  | bool b => some b
  | _ => none

def asInt? : JsonText → Option Int
  | whole n => some n
  | _ => none

/-- A whole number that is not negative. -/
def asNat? : JsonText → Option Nat
  | whole (.ofNat n) => some n
  | _ => none

/-- Nothing, or what is read with a reader. -/
def asOption? (read? : JsonText → Option α) : JsonText → Option (Option α)
  | null => some none
  | value => (read? value).map some

/-- The items of an array, each read with a reader. -/
def asList? (read? : JsonText → Option α) : JsonText → Option (List α)
  | array items => items.mapM read?
  | _ => none

/-- The value of the first field of a name. -/
def field? (name : String) : JsonText → Option JsonText
  | object fields => fields.lookup (some name)
  | _ => none

/-- The value of a field, read with a reader. -/
def get? (name : String) (read? : JsonText → Option α) (value : JsonText) : Option α :=
  (value.field? name).bind read?

/-- The fields of an object are tried in order. -/
theorem get?_obj_cons (name : String) (read? : JsonText → Option α) (field : String)
    (value : Json) (fields : List (String × Json)) :
    get? name read? (asRead (.obj ((field, value) :: fields))) =
      if name = field then read? value.asRead else get? name read? (asRead (.obj fields)) := by
  by_cases h : name = field
  · simp [get?, field?, asRead, Json.fieldsAsRead, h]
  · have : (some name == some field) = false := by simpa using h
    simp [get?, field?, asRead, Json.fieldsAsRead, List.lookup_cons, this, h]

@[simp] theorem asString?_str (s : String) : asString? (asRead (.str s)) = some s := rfl

@[simp] theorem asBool?_bool (b : Bool) : asBool? (asRead (.bool b)) = some b := rfl

@[simp] theorem asNat?_int (n : Nat) : asNat? (asRead (.int n)) = some n := rfl

@[simp] theorem asOption?_ofOption (s : Option String) :
    asOption? asString? (ofOption s).asRead = some s := by
  cases s <;> rfl

@[simp] theorem asOption?_null (read? : JsonText → Option α) :
    asOption? read? Json.null.asRead = some none := rfl

@[simp] theorem asOption?_int (n : Nat) :
    asOption? asNat? (asRead (.int n)) = some (some n) := rfl

theorem asList?_arr {toJson : α → Json} {read? : JsonText → Option α}
    (h : ∀ a, read? (toJson a).asRead = some a) (items : List α) :
    asList? read? (asRead (.arr (items.map toJson))) = some items := by
  rw [asList?.eq_def, asRead, Json.itemsAsRead_eq_map, List.map_map]
  induction items with
  | nil => rfl
  | cons item rest ih => simp_all

@[simp] theorem asList?_ofStrings (names : List String) :
    asList? asString? (ofStrings names).asRead = some names :=
  asList?_arr asString?_str names

end JsonText

open JsonText

/-! ### References -/

def ImageReference.ofText? (value : JsonText) : Option ImageReference := do
  return ⟨← value.get? "id" asString?⟩

@[simp] theorem ImageReference.ofText?_toJson (r : ImageReference) :
    ofText? r.toJson.asRead = some r := by
  simp [ofText?, toJson, get?_obj_cons]

def NetworkReference.ofText? (value : JsonText) : Option NetworkReference := do
  return ⟨← value.get? "id" asString?⟩

@[simp] theorem NetworkReference.ofText?_toJson (r : NetworkReference) :
    ofText? r.toJson.asRead = some r := by
  simp [ofText?, toJson, get?_obj_cons]

def ContainerReference.ofText? (value : JsonText) : Option ContainerReference := do
  return ⟨← value.get? "id" asString?, ← value.get? "name" asString?⟩

@[simp] theorem ContainerReference.ofText?_toJson (r : ContainerReference) :
    ofText? r.toJson.asRead = some r := by
  simp [ofText?, toJson, get?_obj_cons]

def PullPolicy.ofText? (value : JsonText) : Option PullPolicy := do
  PullPolicy.ofWord? (← value.asString?)

@[simp] theorem PullPolicy.ofText?_word (p : PullPolicy) :
    ofText? (asRead (.str p.word)) = some p := by
  simp [ofText?, ofWord?_word]

/-! ### Containers -/

/-- An entry of a table of texts. -/
def NameMap.entryOfText? (field : Option String × JsonText) : Option (String × String) := do
  return (← field.1, ← field.2.asString?)

/-- The table of the fields of an object, if they are in order. -/
def NameMap.ofText? : JsonText → Option (NameMap String)
  | .object fields => do
    let entries ← fields.mapM entryOfText?
    if sorted : entries.Pairwise (fun a b => a.1 < b.1) then some ⟨entries, sorted⟩ else none
  | _ => none

@[simp] theorem NameMap.ofText?_toJson (m : NameMap String) : ofText? m.toJson.asRead = some m := by
  have entries (l : List (String × String)) :
      (Json.fieldsAsRead (l.map fun e => (e.1, .str e.2))).mapM entryOfText? = some l := by
    induction l with
    | nil => rfl
    | cons e rest ih => simp_all [Json.fieldsAsRead, entryOfText?]
  rw [toJson, asRead]
  show ((Json.fieldsAsRead (m.entries.map fun e => (e.1, .str e.2))).mapM entryOfText?).bind _ = _
  rw [entries]
  exact dif_pos m.sorted

def HealthCheck.ofText? (value : JsonText) : Option HealthCheck := do
  return {
    command := ← value.get? "command" (asOption? asString?)
    interval := ← value.get? "interval" (asOption? asString?)
    retries := ← value.get? "retries" (asOption? asNat?)
    startPeriod := ← value.get? "start_period" (asOption? asString?)
    timeout := ← value.get? "timeout" (asOption? asString?) }

@[simp] theorem HealthCheck.ofText?_toJson (check : HealthCheck) :
    ofText? check.toJson.asRead = some check := by
  obtain ⟨command, interval, retries, startPeriod, timeout⟩ := check
  cases retries <;> simp [ofText?, toJson, get?_obj_cons]

@[simp] theorem HealthCheck.asOption?_toJson (check : HealthCheck) :
    asOption? ofText? check.toJson.asRead = some (some check) :=
  congrArg (Option.map some) (ofText?_toJson check)

def SetupCommand.ofText? (value : JsonText) : Option SetupCommand := do
  return ⟨← value.get? "command" asString?,
    ← value.get? "working_directory" (asOption? asString?)⟩

@[simp] theorem SetupCommand.ofText?_toJson (command : SetupCommand) :
    ofText? command.toJson.asRead = some command := by
  simp [ofText?, toJson, get?_obj_cons]

def Container.ofText? (value : JsonText) : Option Container := do
  return {
    name := ← value.get? "name" asString?
    image := ← value.get? "image" (asOption? asString?)
    imagePullPolicy := ← value.get? "image_pull_policy" PullPolicy.ofText?
    buildDirectory := ← value.get? "build_directory" (asOption? asString?)
    dockerfile := ← value.get? "dockerfile" (asOption? asString?)
    command := ← value.get? "command" (asOption? asString?)
    environment := ← value.get? "environment" NameMap.ofText?
    workingDirectory := ← value.get? "working_directory" (asOption? asString?)
    ports := ← value.get? "ports" (asList? asString?)
    volumes := ← value.get? "volumes" (asList? asString?)
    dependencies := ← value.get? "dependencies" (asList? asString?)
    healthCheck := ← value.get? "health_check" (asOption? HealthCheck.ofText?)
    setupCommands := ← value.get? "setup_commands" (asList? SetupCommand.ofText?) }

@[simp] theorem Container.ofText?_toJson (c : Container) : ofText? c.toJson.asRead = some c := by
  have commands := asList?_arr SetupCommand.ofText?_toJson c.setupCommands
  obtain ⟨name, image, imagePullPolicy, buildDirectory, dockerfile, command, environment,
    workingDirectory, ports, volumes, dependencies, healthCheck, setupCommands⟩ := c
  cases healthCheck with
  | none => simp [ofText?, toJson, get?_obj_cons, commands]
  | some check => simp [ofText?, toJson, get?_obj_cons, commands]

/-! ### Steps and events -/

namespace Step

/-- The step that a value tells, by the name of its kind. -/
def ofText? (value : JsonText) : Option Step := do
  match ← value.get? "kind" asString? with
  | "PrepareTaskNetwork" => return prepareNetwork
  | "BuildImage" => return buildImage (← value.get? "container" Container.ofText?)
  | "PullImage" =>
    return pullImage (← value.get? "image_name" asString?)
      (← value.get? "pull_policy" PullPolicy.ofText?)
  | "CreateContainer" =>
    return createContainer (← value.get? "container" Container.ofText?)
      (← value.get? "image" ImageReference.ofText?)
      (← value.get? "network" NetworkReference.ofText?)
  | "RunContainer" =>
    return runContainer (← value.get? "container" asString?)
      (← value.get? "reference" ContainerReference.ofText?) (← value.get? "main" asBool?)
  | "WaitForContainerToBecomeHealthy" =>
    return awaitHealth (← value.get? "container" asString?)
      (← value.get? "reference" ContainerReference.ofText?)
  | "RunSetupCommand" =>
    return runSetupCommand (← value.get? "container" asString?)
      (← value.get? "reference" ContainerReference.ofText?)
      (← value.get? "command" SetupCommand.ofText?) (← value.get? "index" asNat?)
  | "MarkContainerReady" => return markReady (← value.get? "container" asString?)
  | "StopContainer" =>
    return stopContainer (← value.get? "container" asString?)
      (← value.get? "reference" ContainerReference.ofText?)
  | "RemoveContainer" =>
    return removeContainer (← value.get? "container" asString?)
      (← value.get? "reference" ContainerReference.ofText?)
  | "DeleteTaskNetwork" => return deleteNetwork (← value.get? "network" NetworkReference.ofText?)
  | _ => none

@[simp] theorem ofText?_toJson (step : Step) : ofText? step.toJson.asRead = some step := by
  cases step <;> simp [ofText?, toJson, kind, fields, get?_obj_cons]

end Step

namespace Event

/-- The event that a value tells, by the name of its type. -/
def ofText? (value : JsonText) : Option Event := do
  match ← value.get? "type" asString? with
  | "StepStarting" => return stepStarting (← value.get? "step" Step.ofText?)
  | "ImageBuildProgress" =>
    return imageBuildProgress (← value.get? "container" asString?)
      (← value.get? "progress" asString?)
  | "ImagePullProgress" =>
    return imagePullProgress (← value.get? "image_name" asString?)
      (← value.get? "progress" asString?)
  | "ImageBuilt" =>
    return imageBuilt (← value.get? "container" asString?)
      (← value.get? "image" ImageReference.ofText?)
  | "ImagePulled" =>
    return imagePulled (← value.get? "image_name" asString?)
      (← value.get? "image" ImageReference.ofText?)
  | "TaskNetworkCreated" => return networkCreated (← value.get? "network" NetworkReference.ofText?)
  | "CustomTaskNetworkChecked" =>
    return networkFound (← value.get? "network" NetworkReference.ofText?)
  | "TaskNetworkDeleted" => return networkDeleted
  | "ContainerCreated" =>
    return containerCreated (← value.get? "container" asString?)
      (← value.get? "reference" ContainerReference.ofText?)
  | "ContainerStarted" => return containerStarted (← value.get? "container" asString?)
  | "ContainerBecameHealthy" => return containerHealthy (← value.get? "container" asString?)
  | "RunningSetupCommand" =>
    return setupCommandStarted (← value.get? "container" asString?)
      (← value.get? "command" asString?) (← value.get? "index" asNat?)
  | "SetupCommandCompleted" =>
    return setupCommandCompleted (← value.get? "container" asString?)
      (← value.get? "index" asNat?)
  | "ContainerBecameReady" => return containerReady (← value.get? "container" asString?)
  | "RunningContainerExited" =>
    return containerExited (← value.get? "container" asString?) (← value.get? "exit_code" asInt?)
  | "ContainerStopped" => return containerStopped (← value.get? "container" asString?)
  | "ContainerRemoved" => return containerRemoved (← value.get? "container" asString?)
  | "ExecutionFailed" => return executionFailed (← value.get? "message" asString?)
  | "UserInterruptedExecution" => return interrupted
  | "TaskNetworkCreationFailed" => return networkCreationFailed (← value.get? "message" asString?)
  | "CustomTaskNetworkCheckFailed" =>
    return networkCheckFailed (← value.get? "network_identifier" asString?)
      (← value.get? "message" asString?)
  | "ImageBuildFailed" => failed imageBuildFailed
  | "ImagePullFailed" =>
    return imagePullFailed (← value.get? "image_name" asString?) (← value.get? "message" asString?)
  | "ContainerCreationFailed" => failed containerCreationFailed
  | "ContainerRunFailed" => failed containerRunFailed
  | "ContainerDidNotBecomeHealthy" => failed containerUnhealthy
  | "SetupCommandFailed" =>
    return setupCommandFailed (← value.get? "container" asString?)
      (← value.get? "command" asString?) (← value.get? "index" asNat?)
      (← value.get? "exit_code" asInt?) (← value.get? "output" asString?)
  | "SetupCommandExecutionError" =>
    return setupCommandError (← value.get? "container" asString?)
      (← value.get? "command" asString?) (← value.get? "index" asNat?)
      (← value.get? "message" asString?)
  | "ContainerStopFailed" => failed containerStopFailed
  | "ContainerRemovalFailed" => failed containerRemovalFailed
  | "TaskNetworkDeletionFailed" => return networkDeletionFailed (← value.get? "message" asString?)
  | _ => none
where
  /-- Something about a container that did not work. -/
  failed (kind : String → String → Event) : Option Event := do
    return kind (← value.get? "container" asString?) (← value.get? "message" asString?)

theorem ofText?_toJson (e : Event) : ofText? e.toJson.asRead = some e := by
  -- The name of the kind picks the reader by computation. A simp set would have to refute the names
  -- of all the kinds before it.
  cases e with
  | stepStarting step =>
    show (Step.ofText? step.toJson.asRead).bind (fun step => some (stepStarting step)) = _
    rw [Step.ofText?_toJson]
    rfl
  | _ => rfl

end Event

end ContainerTasks
