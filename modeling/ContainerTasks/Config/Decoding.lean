import ContainerTasks.Config
import ContainerTasks.Toml.Document

/-!
# Configurations from TOML

A field that is not there takes its standard value. Where a record is expected, an array gives its
fields in order, and a moment counts as a table with one field that no record has. Fields of a table
that nobody asks for must be readable all the same; further items of an array need not be.

## Main definitions

* `Config.ofToml?`: the configuration that a table describes
* `Config.parse?`: the configuration that a text describes
-/

namespace ContainerTasks

namespace Toml.Value

/-- The field under which the text of a moment is found. -/
def momentField : String := "$__toml_private_datetime"

/-- The fields of a value that stands for a table. -/
def entries? : Value → Option (List (String × Value))
  | table fields => some fields
  | moment text => some [(momentField, .string text)]
  | _ => none

/-- The fields of a value that stands for a record with the given field names. -/
def record? (names : List String) : Value → Option (List (String × Value))
  | array items => some (names.zip items)
  | v => do
    let fields ← v.entries?
    guard (fieldsAreReadable (fields.filter fun (name, _) => !names.contains name))
    return fields

def text? : Value → Option String
  | string s => some s
  | _ => none

def flag? : Value → Option Bool
  | boolean b => some b
  | _ => none

/-- A whole number of at most so many bits. -/
def natural? (bits : Nat) : Value → Option Nat
  | integer (some n) => if 0 ≤ n ∧ n < Nat.pow 2 bits then some n.toNat else none
  | _ => none

def items? : Value → Option (List Value)
  | array items => some items
  | _ => none

/-- The items of an array, each read the same way. -/
def list? {α : Type} (read : Value → Option α) (v : Value) : Option (List α) := do
  (← v.items?).mapM read

/-- The fields of a table, each read the same way. -/
def map? {α : Type} (read : Value → Option α) (v : Value) : Option (NameMap α) := do
  let entries ← (← v.entries?).mapM fun (name, value) => (read value).map (name, ·)
  return .ofList entries

end Toml.Value

open Toml (Value)

namespace Config

/-- Reads a field; if it is not there, the standard value stands. -/
def optional? {α : Type} (fields : List (String × Value)) (name : String) (standard : α)
    (read : Value → Option α) : Option α :=
  match fields.lookup name with
  | some value => read value
  | none => some standard

/-- Reads a field that need not be there. -/
def perhaps? {α : Type} (fields : List (String × Value)) (name : String)
    (read : Value → Option α) : Option (Option α) :=
  optional? fields name none fun value => (read value).map some

/-- Reads a field that has to be there. -/
def required? {α : Type} (fields : List (String × Value)) (name : String)
    (read : Value → Option α) : Option α :=
  (fields.lookup name).bind read

/-- A pull policy: its word, or a table whose only field is the word and is empty. -/
def pullPolicy? : Value → Option PullPolicy
  | .string word => PullPolicy.ofWord? word
  | .table [(word, .table [])] | .table [(word, .array [])] => PullPolicy.ofWord? word
  | _ => none

def healthCheck? (v : Value) : Option HealthCheck := do
  let fields ← v.record? ["command", "interval", "retries", "start_period", "timeout"]
  return {
    command := ← perhaps? fields "command" Value.text?
    interval := ← perhaps? fields "interval" Value.text?
    retries := ← perhaps? fields "retries" (Value.natural? 32)
    startPeriod := ← perhaps? fields "start_period" Value.text?
    timeout := ← perhaps? fields "timeout" Value.text? }

def setupCommand? (v : Value) : Option SetupCommand := do
  let fields ← v.record? ["command", "working_directory"]
  return {
    command := ← required? fields "command" Value.text?
    workingDirectory := ← perhaps? fields "working_directory" Value.text? }

/-- A container; its name is not read. -/
def container? (v : Value) : Option Container := do
  let fields ← v.record? ["image", "image_pull_policy", "build_directory", "dockerfile", "command",
    "environment", "working_directory", "ports", "volumes", "dependencies", "health_check",
    "setup_commands"]
  return {
    name := ""
    image := ← perhaps? fields "image" Value.text?
    imagePullPolicy := ← optional? fields "image_pull_policy" .ifNotPresent pullPolicy?
    buildDirectory := ← perhaps? fields "build_directory" Value.text?
    dockerfile := ← perhaps? fields "dockerfile" Value.text?
    command := ← perhaps? fields "command" Value.text?
    environment := ← optional? fields "environment" .empty (Value.map? Value.text?)
    workingDirectory := ← perhaps? fields "working_directory" Value.text?
    ports := ← optional? fields "ports" [] (Value.list? Value.text?)
    volumes := ← optional? fields "volumes" [] (Value.list? Value.text?)
    dependencies := ← optional? fields "dependencies" [] (Value.list? Value.text?)
    healthCheck := ← perhaps? fields "health_check" healthCheck?
    setupCommands := ← optional? fields "setup_commands" [] (Value.list? setupCommand?) }

def taskRun? (v : Value) : Option TaskRun := do
  let fields ← v.record? ["container", "command", "environment", "working_directory"]
  return {
    container := ← required? fields "container" Value.text?
    command := ← perhaps? fields "command" Value.text?
    environment := ← optional? fields "environment" .empty (Value.map? Value.text?)
    workingDirectory := ← perhaps? fields "working_directory" Value.text? }

def customisation? (v : Value) : Option Customisation := do
  let fields ← v.record? ["working_directory", "environment"]
  return {
    workingDirectory := ← perhaps? fields "working_directory" Value.text?
    environment := ← optional? fields "environment" .empty (Value.map? Value.text?) }

/-- A task; its name is not read. -/
def task? (v : Value) : Option Task := do
  let fields ← v.record? ["description", "group", "prerequisites", "dependencies", "run",
    "customise"]
  return {
    name := ""
    description := ← perhaps? fields "description" Value.text?
    group := ← perhaps? fields "group" Value.text?
    prerequisites := ← optional? fields "prerequisites" [] (Value.list? Value.text?)
    dependencies := ← optional? fields "dependencies" [] (Value.list? Value.text?)
    run := ← perhaps? fields "run" taskRun?
    customise := ← optional? fields "customise" .empty (Value.map? customisation?) }

def settings? (v : Value) : Option Settings := do
  let fields ← v.record? ["max_parallelism", "cleanup_after_failure", "cleanup_after_success",
    "network", "project_name"]
  let standard := Settings.standard
  return {
    maxParallelism := ← perhaps? fields "max_parallelism" (Value.natural? 64)
    cleanupAfterFailure :=
      ← optional? fields "cleanup_after_failure" standard.cleanupAfterFailure Value.flag?
    cleanupAfterSuccess :=
      ← optional? fields "cleanup_after_success" standard.cleanupAfterSuccess Value.flag?
    network := ← perhaps? fields "network" Value.text?
    projectName := ← optional? fields "project_name" standard.projectName Value.text? }

/-- The configuration that a table describes. Nothing about it is checked. -/
def ofToml? (v : Value) : Option Config := do
  let fields ← v.record? ["config", "container", "task"]
  return {
    settings := ← optional? fields "config" .standard settings?
    containers := ← optional? fields "container" .empty (Value.map? container?)
    tasks := ← optional? fields "task" .empty (Value.map? task?) }

/-- The configuration that a text describes. Nothing about it is checked. -/
def parse? (s : String) : Option Config := (Toml.parse? s).bind ofToml?

end Config

end ContainerTasks
