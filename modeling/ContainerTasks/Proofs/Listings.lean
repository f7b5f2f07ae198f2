import ContainerTasks.Forecast
import Mathlib.Data.List.Forall2

/-!
# How forecasts are written out

A forecast is lines of text: some about the options, and then some about each task in turn. Here it
is said what the lines are, text by text, so that the containers of a task and its rules can be read
off them. The relations do not refer to how the lines are made.

## Main definitions

* `Forecast.ShowsNode`, `Forecast.ShowsRule`: the line about a container, and about a rule
* `Forecast.Shows`: the lines about a task tell what its machine begins with
* `Forecast.Tells`: the lines about all tasks, up to the first that has no graph
* `Forecast.heading`: the lines about the options

## Main results

* `Forecast.shows_start`: the lines about a task
* `Forecast.exists_lines`: the lines of a forecast
* `Forecast.Tells.exists_shows`: each task that is told of has lines of its own
-/

namespace ContainerTasks

theorem Graph.inOrder_of_isEmpty {g : Graph} (h : g.isEmpty = true) : g.inOrder = [] := by
  refine List.filterMap_eq_nil_iff.mpr fun name _ => ?_
  rw [node?, NameMap.get?, List.isEmpty_iff.mp h]
  rfl

namespace Forecast

/-! ### What the lines are -/

/-- The line about a container tells its name, whether it is the main one, and what it depends
on. -/
inductive ShowsNode (node : Graph.Node) : String → Prop where
  | free (other : node.isRoot = false) (nothing : node.dependsOn.toList = []) :
    ShowsNode node ("    - " ++ node.container.name)
  | bound (other : node.isRoot = false) (something : node.dependsOn.toList ≠ []) :
    ShowsNode node ("    - " ++ node.container.name ++ " after " ++
      ", ".intercalate node.dependsOn.toList)
  | freeMain (main : node.isRoot = true) (nothing : node.dependsOn.toList = []) :
    ShowsNode node ("    - " ++ node.container.name ++ " (main)")
  | boundMain (main : node.isRoot = true) (something : node.dependsOn.toList ≠ []) :
    ShowsNode node ("    - " ++ node.container.name ++ " (main) after " ++
      ", ".intercalate node.dependsOn.toList)

/-- The line about a rule tells what is done, and to which container. -/
inductive ShowsRule : Rule → String → Prop where
  | prepareNetwork : ShowsRule .prepareNetwork "    - prepare task network"
  | buildImage (container : Container) :
    ShowsRule (.buildImage container) ("    - build image for '" ++ container.name ++ "'")
  | pullAlways (imageName : String) :
    ShowsRule (.pullImage imageName .always) ("    - pull '" ++ imageName ++ "' (Always)")
  | pullIfNotPresent (imageName : String) :
    ShowsRule (.pullImage imageName .ifNotPresent)
      ("    - pull '" ++ imageName ++ "' (IfNotPresent)")
  | create (container : Container) (dependencies : NameSet) (nothing : dependencies.toList = []) :
    ShowsRule (.createContainer container dependencies) ("    - create '" ++ container.name ++ "'")
  | createOnceReady (container : Container) (dependencies : NameSet)
      (something : dependencies.toList ≠ []) :
    ShowsRule (.createContainer container dependencies)
      ("    - create '" ++ container.name ++ "' once ready: " ++
        ", ".intercalate dependencies.toList)
  | run (container : String) :
    ShowsRule (.runContainer container true)
      ("    - run '" ++ container ++ "' and wait for it to exit")
  | start (container : String) :
    ShowsRule (.runContainer container false) ("    - start '" ++ container ++ "'")
  | awaitHealth (container : String) :
    ShowsRule (.awaitHealth container)
      ("    - wait for '" ++ container ++ "' to become healthy")
  | runSetupCommand (container : String) (command : SetupCommand) (index : Nat)
      (afterHealthCheck : Bool) :
    ShowsRule (.runSetupCommand container command index afterHealthCheck)
      ("    - run setup command #" ++ toString index ++ " in '" ++ container ++ "': " ++
        command.command)
  | markReady (container : String) (setupCommands : Nat) (healthCheck : Bool) :
    ShowsRule (.markReady container setupCommands healthCheck)
      ("    - mark '" ++ container ++ "' ready")
  | stopContainer (container : String) (reference : ContainerReference) (stopAfter : NameSet) :
    ShowsRule (.stopContainer container reference stopAfter) ("    - stop '" ++ container ++ "'")
  | removeContainer (container : String) (reference : ContainerReference) (waitForStop : Bool) :
    ShowsRule (.removeContainer container reference waitForStop)
      ("    - remove '" ++ container ++ "'")
  | deleteNetwork (network : NetworkReference) (containers : List String) :
    ShowsRule (.deleteNetwork network containers) ("    - delete network " ++ network.id)

/-- The lines about a task tell the containers of the graph of a machine, in their order, and the
rules of the machine. Without containers there are no rules either. -/
inductive Shows (m : Machine) (task : String) : List String → Prop where
  | empty (nodes : m.graph.inOrder = []) (rules : m.rules = []) :
    Shows m task ["task " ++ task ++ ":", "  (no containers)"]
  | full {nodeLines ruleLines : List String} (something : m.graph.isEmpty = false)
      (nodes : List.Forall₂ ShowsNode m.graph.inOrder nodeLines)
      (rules : List.Forall₂ ShowsRule m.rules ruleLines) :
    Shows m task (("task " ++ task ++ ":") :: "  containers:" :: nodeLines ++
      "  run stage:" :: ruleLines)

/-- The lines about tasks in order tell of the tasks that have graphs, each by what its machine
begins with. They break off at the first that has none, after its name. -/
inductive Tells (config : Config) (policy : CleanupPolicy) :
    List Task → List (String × Graph) → List String → Prop where
  | nil : Tells config policy [] [] []
  | broken {task : Task} {fault : Graph.Fault} (rest : List Task)
      (unbuilt : Graph.build task config.containers = .error fault) :
    Tells config policy (task :: rest) [] ["task " ++ task.name ++ ":"]
  | cons {task : Task} {g : Graph} {rest : List Task} {shown : List (String × Graph)}
      {lines more : List String} (built : Graph.build task config.containers = .ok g)
      (shows : Shows (.start g policy) task.name lines) (later : Tells config policy rest shown more) :
    Tells config policy (task :: rest) ((task.name, g) :: shown) (lines ++ more)

/-- The lines about the options. -/
def heading (options : RunOptions) : List String :=
  "taskrig dry-run" ::
  ("  max_parallelism = " ++ (options.maxParallelism.map toString).getD "unlimited") ::
  ("  cleanup_after_failure = " ++ toString options.cleanupPolicy.afterFailure ++
    ", cleanup_after_success = " ++ toString options.cleanupPolicy.afterSuccess) ::
  (options.existingNetwork.toList.map ("  network = " ++ ·) ++ [""])

/-! ### What is written -/

/-- What is so of a text is so of any text with the same characters. -/
theorem of_toList_eq {P : String → Prop} {text text' : String} (h : P text)
    (heq : text'.toList = text.toList) : P text' :=
  String.toList_inj.mp heq ▸ h

theorem showsNode_nodeLine (node : Graph.Node) : ShowsNode node (nodeLine node) := by
  unfold nodeLine
  by_cases hnone : node.dependsOn.toList = []
  · cases hroot : node.isRoot with
    | true => exact of_toList_eq (.freeMain hroot hnone) (by simp [NameSet.isEmpty, hnone])
    | false => exact of_toList_eq (.free hroot hnone) (by simp [NameSet.isEmpty, hnone])
  · cases hroot : node.isRoot with
    | true => exact of_toList_eq (.boundMain hroot hnone) (by simp [NameSet.isEmpty, hnone])
    | false => exact of_toList_eq (.bound hroot hnone) (by simp [NameSet.isEmpty, hnone])

theorem showsRule_text (r : Rule) : ShowsRule r ("    - " ++ r.text) := by
  unfold Rule.text
  cases r with
  | prepareNetwork => exact .prepareNetwork
  | buildImage container => exact of_toList_eq (.buildImage container) (by simp [quote])
  | pullImage imageName policy =>
    cases policy with
    | always => exact of_toList_eq (.pullAlways imageName) (by simp [quote, PullPolicy.title])
    | ifNotPresent =>
      exact of_toList_eq (.pullIfNotPresent imageName) (by simp [quote, PullPolicy.title])
  | createContainer container dependencies =>
    by_cases hnone : dependencies.toList = []
    · exact of_toList_eq (.create container dependencies hnone)
        (by simp [quote, NameSet.isEmpty, hnone])
    · exact of_toList_eq (.createOnceReady container dependencies hnone)
        (by simp [quote, NameSet.isEmpty, hnone])
  | runContainer container main =>
    cases main with
    | true => exact of_toList_eq (.run container) (by simp [quote])
    | false => exact of_toList_eq (.start container) (by simp [quote])
  | awaitHealth container => exact of_toList_eq (.awaitHealth container) (by simp [quote])
  | runSetupCommand container command index afterHealthCheck =>
    exact of_toList_eq (.runSetupCommand container command index afterHealthCheck)
      (by simp [quote])
  | markReady container setupCommands healthCheck =>
    exact of_toList_eq (.markReady container setupCommands healthCheck) (by simp [quote])
  | stopContainer container reference stopAfter =>
    exact of_toList_eq (.stopContainer container reference stopAfter) (by simp [quote])
  | removeContainer container reference waitForStop =>
    exact of_toList_eq (.removeContainer container reference waitForStop) (by simp [quote])
  | deleteNetwork network containers =>
    exact of_toList_eq (.deleteNetwork network containers) (by simp [NetworkReference.text])

/-- The lines about a task tell what its machine begins with. -/
theorem shows_start (g : Graph) (policy : CleanupPolicy) (task : String) :
    Shows (.start g policy) task (taskLines task g) := by
  rw [taskLines, taskLine]
  cases hempty : g.isEmpty with
  | true => exact .empty (Graph.inOrder_of_isEmpty hempty) (if_pos hempty)
  | false =>
    refine .full hempty ?_ ?_
    · exact List.forall₂_map_right_iff.mpr (List.forall₂_same.mpr fun node _ =>
        showsNode_nodeLine node)
    · exact List.forall₂_map_right_iff.mpr (List.forall₂_same.mpr fun r _ => showsRule_text r)

theorem tells_graphs (config : Config) (policy : CleanupPolicy) (order : List Task) :
    Tells config policy order (config.graphs order).1
      ((config.graphs order).1.flatMap (fun (task, graph) => taskLines task graph) ++
        (config.graphs order).2.toList.map (taskLine ·.1)) := by
  induction order with
  | nil => exact .nil
  | cons task rest ih =>
    cases hbuild : Graph.build task config.containers with
    | error fault =>
      simp only [Config.graphs, hbuild]
      exact .broken rest hbuild
    | ok g =>
      simp only [Config.graphs, hbuild, List.flatMap_cons, List.append_assoc]
      exact .cons hbuild (shows_start g policy task.name) ih

theorem optionLines_eq (options : RunOptions) : optionLines options = heading options := by
  have hchoice : ∀ b, choice b = toString b := by decide
  unfold optionLines heading
  simp only [hchoice]
  cases options.maxParallelism <;> rfl

/-- The lines of a forecast are those about the options and those about the tasks. -/
theorem exists_lines (config : Config) (options : RunOptions) (order : List Task) :
    ∃ lines, Tells config options.cleanupPolicy order (config.graphs order).1 lines ∧
      Forecast.lines ⟨options, (config.graphs order).1, (config.graphs order).2⟩ =
        heading options ++ lines := by
  refine ⟨_, tells_graphs config options.cleanupPolicy order, ?_⟩
  rw [lines, optionLines_eq, List.append_assoc]

/-- Each task that is told of has lines of its own. -/
theorem Tells.exists_shows {config : Config} {policy : CleanupPolicy} {order : List Task}
    {shown : List (String × Graph)} {lines : List String} {place : Nat} {task : String} {g : Graph}
    (h : Tells config policy order shown lines) (hplace : shown[place]? = some (task, g)) :
    ∃ block, Shows (.start g policy) task block ∧ block <:+: lines := by
  induction h generalizing place with
  | nil | broken => cases hplace
  | @cons _ _ _ _ lines more _ shows _ ih =>
    cases place with
    | zero =>
      cases hplace
      exact ⟨lines, shows, (List.prefix_append _ _).isInfix⟩
    | succ place =>
      obtain ⟨block, hshows, hblock⟩ := ih hplace
      exact ⟨block, hshows, hblock.trans (List.suffix_append _ _).isInfix⟩

end Forecast

end ContainerTasks
