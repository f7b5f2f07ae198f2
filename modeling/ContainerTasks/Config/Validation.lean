import ContainerTasks.Config
import ContainerTasks.DepthFirst
import ContainerTasks.Text.Blank

/-!
# Valid configurations

A configuration is used only if every name in it refers to something and every entry is complete.
Checks are made in a fixed order, settings first, then containers, then tasks, each in the order of
their names; the first flaw found is the one reported.

## Main definitions

* `Config.Flaw` and `Config.Flaw.message`
* `Config.firstFlaw?`
* `Config.validate`
-/

namespace ContainerTasks.Config

/-- What can be wrong with a configuration. -/
inductive Flaw where
  | noTasks
  | noParallelism
  | blankProjectName
  | imageAndBuildDirectory (container : String)
  | noImage (container : String)
  | selfDependency (container : String)
  | unknownDependency (container dependency : String)
  | blankSetupCommand (container : String) (index : Nat)
  | emptyTask (task : String)
  | dependenciesWithoutRun (task : String)
  | runsUnknown (task container : String)
  | customisesMain (task container : String)
  | unknownTaskDependency (task container : String)
  | customisesUnknown (task container : String)
  | unknownPrerequisite (task prerequisite : String)
  /-- The task is on a cycle of prerequisites. -/
  | prerequisiteCycle (task : String)
  deriving DecidableEq

/-- The wording of a flaw. -/
def Flaw.message : Flaw → String
  | noTasks => fault "config must contain at least one [task.<name>] section"
  | noParallelism => fault "[config].max_parallelism must be >= 1 (got 0)"
  | blankProjectName => fault "[config].project_name must not be empty"
  | imageAndBuildDirectory container =>
    fault ("container " ++ quote container ++ " must not set both `image` and `build_directory`")
  | noImage container =>
    fault ("container " ++ quote container ++ " must set one of `image` or `build_directory`")
  | selfDependency container =>
    fault ("container " ++ quote container ++ " cannot depend on itself in `dependencies`")
  | unknownDependency container dependency =>
    fault ("container " ++ quote container ++ " has unknown dependency " ++ quote dependency ++
      " in `dependencies`")
  | blankSetupCommand container index =>
    fault ("container " ++ quote container ++ " has an empty setup command at index " ++
      toString index)
  | emptyTask task =>
    fault ("task " ++ quote task ++ " must set at least one of `run` or `prerequisites`")
  | dependenciesWithoutRun task =>
    fault ("task " ++ quote task ++ " sets `dependencies` but has no `run` section")
  | runsUnknown task container =>
    fault ("task " ++ quote task ++ " runs unknown container " ++ quote container)
  | customisesMain task container =>
    fault ("task " ++ quote task ++ " cannot customise its main container " ++ quote container ++
      "; set the corresponding properties on `run` instead")
  | unknownTaskDependency task container =>
    fault ("task " ++ quote task ++ " has unknown container " ++ quote container ++
      " in `dependencies`")
  | customisesUnknown task container =>
    fault ("task " ++ quote task ++ " customises unknown container " ++ quote container)
  | unknownPrerequisite task prerequisite =>
    "Task not found: " ++ quote prerequisite ++ " (prerequisite of task " ++ quote task ++ ")"
  | prerequisiteCycle task =>
    "Cycle detected in task prerequisites: cycle detected in task prerequisites involving task " ++
      quote task
where
  /-- A flaw of the configuration itself. -/
  fault (text : String) : String := "Configuration error: " ++ text

/-- A flaw, if the condition holds. -/
def flawIf (condition : Bool) (flaw : Flaw) : Option Flaw := if condition then some flaw else none

/-- A flaw of the settings. -/
def settingsFlaw? (settings : Settings) : Option Flaw :=
  flawIf (settings.maxParallelism = some 0) .noParallelism <|>
  flawIf (isBlankText settings.projectName) .blankProjectName

/-- A flaw of one container. -/
def containerFlaw? (containers : NameMap Container) (name : String) (c : Container) : Option Flaw :=
  flawIf (c.image.isSome && c.buildDirectory.isSome) (.imageAndBuildDirectory name) <|>
  flawIf (c.image.isNone && c.buildDirectory.isNone) (.noImage name) <|>
  (c.dependencies.findSome? fun dependency =>
    flawIf (dependency = name) (.selfDependency name) <|>
    flawIf (!containers.contains dependency) (.unknownDependency name dependency)) <|>
  c.setupCommands.zipIdx.findSome? fun (setup, index) =>
    flawIf (isBlankText setup.command) (.blankSetupCommand name index)

/-- A flaw of the `run` section of a task. -/
def runFlaw? (containers : NameMap Container) (name : String) (task : Task) : Option Flaw :=
  task.run.bind fun run =>
    flawIf (!containers.contains run.container) (.runsUnknown name run.container) <|>
    flawIf (task.customise.contains run.container) (.customisesMain name run.container)

/-- A flaw of one task, its place among the prerequisites of others apart. -/
def taskFlaw? (containers : NameMap Container) (tasks : NameMap Task) (name : String)
    (task : Task) : Option Flaw :=
  flawIf (task.run.isNone && task.prerequisites.isEmpty) (.emptyTask name) <|>
  flawIf (task.run.isNone && !task.dependencies.isEmpty) (.dependenciesWithoutRun name) <|>
  runFlaw? containers name task <|>
  (task.dependencies.findSome? fun container =>
    flawIf (!containers.contains container) (.unknownTaskDependency name container)) <|>
  (task.customise.keys.findSome? fun container =>
    flawIf (!containers.contains container) (.customisesUnknown name container)) <|>
  task.prerequisites.findSome? fun prerequisite =>
    flawIf (!tasks.contains prerequisite) (.unknownPrerequisite name prerequisite)

/-- The prerequisites that a table of tasks lists for a name. -/
def prerequisitesOf (tasks : NameMap Task) (name : String) : List String :=
  match tasks.get? name with
  | some task => task.prerequisites
  | none => []

/-- A cycle of prerequisites. -/
def cycleFlaw? (tasks : NameMap Task) : Option Flaw :=
  match topologicalOrder tasks.keys (prerequisitesOf tasks) with
  | .ok _ => none
  | .error task => some (.prerequisiteCycle task)

/-- The flaw that is reported, if there is any. -/
def firstFlaw? (config : Config) : Option Flaw :=
  flawIf config.tasks.isEmpty .noTasks <|>
  settingsFlaw? config.settings <|>
  (config.containers.entries.findSome? fun (name, c) =>
    containerFlaw? config.containers name c) <|>
  (config.tasks.entries.findSome? fun (name, task) =>
    taskFlaw? config.containers config.tasks name task) <|>
  cycleFlaw? config.tasks

/-- A configuration without flaws, with all names filled in. -/
def validate (config : Config) : Except Flaw Config :=
  match config.firstFlaw? with
  | some flaw => .error flaw
  | none => .ok config.withNames

end ContainerTasks.Config
