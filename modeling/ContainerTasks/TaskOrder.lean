import ContainerTasks.Config

/-!
# Task orders

A task is run after its prerequisites, and these after theirs. Prerequisites are taken in the order
in which they are listed, and a task that several others list is run once.

## Main definitions

* `TaskOrder.Fault` and `TaskOrder.Fault.message`
* `Config.taskOrder`: the tasks to run for a requested one, in order
-/

namespace ContainerTasks

/-- Why a task cannot be put into an order. -/
inductive TaskOrder.Fault where
  | unknownTask (name : String)
  /-- Each name lists the next one as a prerequisite, and the last is the first. -/
  | cycle (path : List String)
  deriving DecidableEq

/-- The wording of a fault. -/
def TaskOrder.Fault.message : TaskOrder.Fault → String
  | unknownTask name => "Task not found: " ++ name
  | cycle path =>
    "Cycle detected in task prerequisites: cycle detected in task prerequisites: " ++
      " -> ".intercalate path

namespace Config

open TaskOrder (Fault)

/-- The task of a name. -/
def lookUp (config : Config) (name : String) : Except Fault Task :=
  match config.tasks.get? name with
  | some task => .ok task
  | none => .error (.unknownTask name)

/-- Appends a task to an order, after its prerequisites as far as the order does not hold them yet.
`path` leads from the requested task to this one. No path without a cycle is longer than the table
of tasks, which bounds the recursion. -/
def visit (config : Config) :
    Nat → List String → List Task → Task → Except Fault (List Task)
  | 0, _, order, _ => .ok order
  | bound + 1, path, order, task =>
    if order.any (·.name = task.name) then .ok order
    else if task.name ∈ path then
      .error (.cycle (path.dropWhile (· ≠ task.name) ++ [task.name]))
    else do
      let order ← task.prerequisites.foldlM
        (fun order name => do
          config.visit bound (path ++ [task.name]) order (← config.lookUp name)) order
      return order ++ [task]

/-- The tasks to run for a requested one, which comes last. -/
def taskOrder (config : Config) (name : String) (skipPrerequisites : Bool) :
    Except Fault (List Task) := do
  let task ← config.lookUp name
  if skipPrerequisites then return [task]
  else config.visit (config.tasks.size + 1) [] [] task

end Config

end ContainerTasks
