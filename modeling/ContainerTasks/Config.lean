import ContainerTasks.Container

/-!
# Configurations

A configuration has general settings, a catalogue of containers and a catalogue of tasks. Both
catalogues are tables, and the name of an entry is its key: the `name` inside an entry counts only
once it has been filled in from there.

## Main definitions

* `Settings`, `Config`
* `Config.withNames`: fills in the names
-/

namespace ContainerTasks

/-- What holds for every task. -/
structure Settings where
  /-- How many capped steps may be under way at once, if there is a limit. -/
  maxParallelism : Option Nat
  cleanupAfterFailure : Bool
  cleanupAfterSuccess : Bool
  /-- A network to use instead of making one for each task. -/
  network : Option String
  /-- The first part of the names of images, networks and containers in the runtime. -/
  projectName : String
  deriving DecidableEq

/-- The settings of a configuration that says nothing about them. -/
def Settings.standard : Settings where
  maxParallelism := none
  cleanupAfterFailure := true
  cleanupAfterSuccess := true
  network := none
  projectName := "taskrig"

instance : Inhabited Settings := ⟨.standard⟩

/-- A configuration. -/
structure Config where
  settings : Settings
  containers : NameMap Container
  tasks : NameMap Task
  deriving DecidableEq, Inhabited

namespace Config

/-- The configuration with every container and task named by its key. -/
def withNames (config : Config) : Config where
  settings := config.settings
  containers := config.containers.mapWithName fun name c => { c with name }
  tasks := config.tasks.mapWithName fun name t => { t with name }

/-- The file that holds the configuration if no other is named. -/
def defaultPath : String := "taskrig.toml"

end Config

end ContainerTasks
