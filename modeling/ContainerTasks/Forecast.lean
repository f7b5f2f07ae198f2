import ContainerTasks.Session

/-!
# Forecasts

A forecast says what a session would do, without doing any of it: which tasks it would carry out, in
which order, with which containers and by which rules. It ends at the first task that has no graph.

## Main definitions

* `Forecast`, `Config.forecast`
* `Forecast.lines`, `Forecast.fault?`
-/

namespace ContainerTasks

/-- What a session would do. -/
structure Forecast where
  options : RunOptions
  /-- The tasks in order, with their graphs. -/
  tasks : List (String × Graph)
  /-- The task at which the forecast ends because it has no graph. -/
  broken : Option (String × Graph.Fault)

/-- The graphs of tasks, up to the first that has none. -/
def Config.graphs (config : Config) :
    List Task → List (String × Graph) × Option (String × Graph.Fault)
  | [] => ([], none)
  | task :: rest =>
    match Graph.build task config.containers with
    | .error fault => ([], some (task.name, fault))
    | .ok graph =>
      let (tasks, broken) := config.graphs rest
      ((task.name, graph) :: tasks, broken)

/-- What a session for a task would do. -/
def Config.forecast (config : Config) (options : RunOptions) (task : String) :
    Except TaskOrder.Fault Forecast := do
  let order ← config.taskOrder task options.skipPrerequisites
  let (tasks, broken) := config.graphs order
  return { options, tasks, broken }

namespace Forecast

/-- Why the forecast ends early. -/
def fault? (f : Forecast) : Option Graph.Fault := f.broken.map (·.2)

/-! ### Text -/

/-- How a choice is shown. -/
def choice (b : Bool) : String := if b then "true" else "false"

/-- The lines about the options. -/
def optionLines (options : RunOptions) : List String :=
  ["taskrig dry-run",
    "  max_parallelism = " ++
      match options.maxParallelism with
      | some n => toString n
      | none => "unlimited",
    "  cleanup_after_failure = " ++ choice options.cleanupPolicy.afterFailure ++
      ", cleanup_after_success = " ++ choice options.cleanupPolicy.afterSuccess] ++
  (options.existingNetwork.toList.map ("  network = " ++ ·)) ++ [""]

/-- The line of a container. -/
def nodeLine (node : Graph.Node) : String :=
  "    - " ++ node.container.name ++ (if node.isRoot then " (main)" else "") ++
    if node.dependsOn.isEmpty then "" else " after " ++ ", ".intercalate node.dependsOn.toList

/-- The line that begins a task. -/
def taskLine (task : String) : String := "task " ++ task ++ ":"

/-- The lines of a task. -/
def taskLines (task : String) (graph : Graph) : List String :=
  taskLine task ::
    if graph.isEmpty then ["  (no containers)"]
    else
      "  containers:" :: graph.inOrder.map nodeLine ++
        "  run stage:" :: (Plan.forRun graph).map ("    - " ++ ·.text)

/-- The lines of a forecast. -/
def lines (f : Forecast) : List String :=
  optionLines f.options ++ f.tasks.flatMap (fun (task, graph) => taskLines task graph) ++
    f.broken.toList.map (taskLine ·.1)

end Forecast

end ContainerTasks
