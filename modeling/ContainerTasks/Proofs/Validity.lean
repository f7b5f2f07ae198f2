import ContainerTasks.Config.Validation
import ContainerTasks.Proofs.AcyclicOrders
import Mathlib.Data.List.TakeWhile

/-!
# What makes a configuration valid

The checks of a configuration are made one after the other, and the first one that finds something
ends them. What they come to is said here without them: that a configuration is well formed is a
property of each of its entries, beside there being some task, the settings and the absence of
cycles of prerequisites. An entry is looked at together with the names that the catalogues have, and
with nothing else of them.

Cycles of prerequisites are looked for last, by sorting all tasks. The prerequisites have been found
to be tasks by then, and so the sorting fails on a cycle and on nothing else.

## Main definitions

* `Config.Lists`: a task has another among its prerequisites
* `Config.PrerequisitesKnown`: all prerequisites are tasks
* `Container.WellFormed`, `Task.WellFormed`, `Config.WellFormed`
* `Config.NamedAfter`: a configuration with the names filled in, and nothing else changed

## Main results

* `Config.cycleFlaw?_eq_none_iff`: the sorting of all tasks finds the cycles
* `Config.firstFlaw?_eq_none_iff`: there is no flaw if and only if a configuration is well formed
* `Config.WellFormed.withNames`: it stays well formed when names are filled in
* `Config.validate_characterization`
-/

namespace ContainerTasks

open Relation

/-! ### Well-formed entries -/

/-- What is asked of a container of a given name. -/
structure Container.WellFormed (containers : NameMap Container) (name : String) (c : Container) :
    Prop where
  /-- It has an image or a build directory, and not both. -/
  imageXorBuild : c.image.isSome = true ∧ c.buildDirectory = none ∨
    c.image = none ∧ c.buildDirectory.isSome = true
  dependencies : ∀ d ∈ c.dependencies, d ≠ name ∧ containers.contains d = true
  setupCommands : ∀ setup ∈ c.setupCommands, trimmed setup.command ≠ ""

/-- What is asked of a task, its place among the prerequisites of others apart. -/
structure Task.WellFormed (containers : NameMap Container) (tasks : NameMap Task) (task : Task) :
    Prop where
  someWork : task.run.isSome = true ∨ task.prerequisites ≠ []
  /-- Only a task with a `run` section has dependencies. -/
  dependenciesOfRun : task.dependencies ≠ [] → task.run.isSome = true
  runs : ∀ run, task.run = some run → containers.contains run.container = true
  dependencies : ∀ d ∈ task.dependencies, containers.contains d = true
  customises : ∀ c, task.customise.contains c = true → containers.contains c = true
  sparesMain : ∀ run, task.run = some run → task.customise.contains run.container = false
  prerequisites : ∀ name ∈ task.prerequisites, tasks.contains name = true

namespace Config

/-- A task has another among its prerequisites. -/
def Lists (tasks : NameMap Task) (a b : String) : Prop := b ∈ prerequisitesOf tasks a

/-- All prerequisites are tasks. -/
def PrerequisitesKnown (tasks : NameMap Task) : Prop :=
  ∀ entry ∈ tasks.entries, ∀ name ∈ entry.2.prerequisites, tasks.contains name = true

instance (tasks : NameMap Task) : Decidable (PrerequisitesKnown tasks) :=
  inferInstanceAs (Decidable (∀ _ ∈ _, ∀ _ ∈ _, _))

/-- What is asked of a configuration. -/
structure WellFormed (config : Config) : Prop where
  someTask : ∃ name, config.tasks.contains name = true
  parallelism : config.settings.maxParallelism ≠ some 0
  projectName : trimmed config.settings.projectName ≠ ""
  containers : ∀ name c, config.containers.get? name = some c →
    c.WellFormed config.containers name
  tasks : ∀ name task, config.tasks.get? name = some task →
    task.WellFormed config.containers config.tasks
  acyclic : ∀ name, ¬ TransGen (Lists config.tasks) name name

/-- The first configuration is the second one, but for the names of the entries, which are those
that the tables have for them. -/
structure NamedAfter (valid written : Config) : Prop where
  settings_eq : valid.settings = written.settings
  containers_eq : ∀ name, valid.containers.get? name =
    (written.containers.get? name).map fun c => { c with name }
  tasks_eq : ∀ name, valid.tasks.get? name =
    (written.tasks.get? name).map fun task => { task with name }

end Config

/-! ### Blank texts -/

theorem trimmed_eq_empty_iff {s : String} : trimmed s = "" ↔ isBlankText s = true := by
  have hfront : ∀ l : List Char, (l.dropWhile isBlank).reverse.dropWhile isBlank = [] ↔
      l.dropWhile isBlank = [] := by
    intro l
    constructor
    · intro hnil
      by_contra hne
      have hhead := List.head_dropWhile_not isBlank hne
      have hblank := List.dropWhile_eq_nil_iff.mp hnil _
        (List.mem_reverse.mpr (List.head_mem hne))
      rw [hhead] at hblank
      cases hblank
    · intro hnil
      rw [hnil]
      rfl
  rw [trimmed, isBlankText, List.all_eq_true, ← List.dropWhile_eq_nil_iff, ← hfront]
  simp

namespace Config

variable {config : Config} {containers : NameMap Container} {tasks : NameMap Task} {task : Task}
  {name : String}

/-! ### Prerequisites -/

theorem prerequisitesOf_eq (h : tasks.get? name = some task) :
    prerequisitesOf tasks name = task.prerequisites := by
  rw [prerequisitesOf, h]

/-- Only a task has prerequisites. -/
theorem Lists.mem_keys {a b : String} (h : Lists tasks a b) : a ∈ tasks.keys := by
  rw [← NameMap.contains_iff_mem_keys, NameMap.contains]
  cases ha : tasks.get? a with
  | some _ => rfl
  | none => simp [Lists, prerequisitesOf, ha] at h

/-- Said of names instead of entries. -/
theorem prerequisitesKnown_iff :
    PrerequisitesKnown tasks ↔ ∀ a b, Lists tasks a b → tasks.contains b = true := by
  constructor
  · intro hknown a b h
    obtain ⟨task, ha⟩ := Option.isSome_iff_exists.mp (NameMap.contains_iff_mem_keys.mpr h.mem_keys)
    refine hknown _ (NameMap.get?_eq_some_iff_mem.mp ha) b ?_
    rwa [Lists, prerequisitesOf_eq ha] at h
  · intro h entry hentry b hb
    refine h entry.1 b ?_
    rwa [Lists, prerequisitesOf_eq (NameMap.get?_eq_some_iff_mem.mpr hentry)]

theorem mem_keys_of_transGen {a b : String} (h : TransGen (Lists tasks) a b) : a ∈ tasks.keys := by
  obtain ⟨_, hlists, -⟩ := TransGen.head'_iff.mp h
  exact hlists.mem_keys

theorem PrerequisitesKnown.subset_keys (hknown : PrerequisitesKnown tasks) (a : String) :
    prerequisitesOf tasks a ⊆ tasks.keys :=
  fun b h => NameMap.contains_iff_mem_keys.mp (prerequisitesKnown_iff.mp hknown a b h)

/-- Names that are filled in do not change what is listed. -/
theorem prerequisitesOf_withNames (config : Config) :
    prerequisitesOf config.withNames.tasks = prerequisitesOf config.tasks := by
  funext name
  simp only [prerequisitesOf, withNames, NameMap.get?_mapWithName]
  cases config.tasks.get? name <;> rfl

theorem lists_withNames (config : Config) : Lists config.withNames.tasks = Lists config.tasks := by
  funext a b
  rw [Lists, Lists, prerequisitesOf_withNames]

theorem contains_withNames (config : Config) (name : String) :
    config.withNames.tasks.contains name = config.tasks.contains name := by
  simp [NameMap.contains, withNames, NameMap.get?_mapWithName]

theorem prerequisitesKnown_withNames (config : Config) :
    PrerequisitesKnown config.withNames.tasks ↔ PrerequisitesKnown config.tasks := by
  simp only [prerequisitesKnown_iff, lists_withNames, contains_withNames]

/-- The sorting of all tasks fails on a cycle and on nothing else. -/
theorem cycleFlaw?_eq_none_iff (hknown : PrerequisitesKnown tasks) :
    cycleFlaw? tasks = none ↔ ∀ name, ¬ TransGen (Lists tasks) name name := by
  have hsorted : cycleFlaw? tasks = none ↔
      ∃ order, topologicalOrder tasks.keys (prerequisitesOf tasks) = .ok order := by
    rw [cycleFlaw?]
    cases topologicalOrder tasks.keys (prerequisitesOf tasks) <;> simp
  rw [hsorted, exists_topologicalOrder_iff fun name _ => hknown.subset_keys name]
  exact ⟨fun h name hcycle => h name (mem_keys_of_transGen hcycle) hcycle, fun h name _ => h name⟩

/-- A flaw that the sorting of all tasks finds names a task on a cycle. -/
theorem transGen_of_cycleFlaw?_eq_some (hknown : PrerequisitesKnown tasks) {flaw : Flaw}
    (h : cycleFlaw? tasks = some flaw) :
    ∃ name, flaw = .prerequisiteCycle name ∧ tasks.contains name = true ∧
      TransGen (Lists tasks) name name := by
  rw [cycleFlaw?] at h
  split at h
  · cases h
  · next name hname =>
    obtain ⟨hmem, hcycle⟩ :=
      transGen_of_topologicalOrder_eq_error (fun name _ => hknown.subset_keys name) hname
    exact ⟨name, (Option.some.inj h).symm, NameMap.contains_iff_mem_keys.mpr hmem, hcycle⟩

/-! ### Checks that find nothing -/

@[simp] theorem flawIf_eq_none_iff {condition : Bool} {flaw : Flaw} :
    flawIf condition flaw = none ↔ condition = false := by
  cases condition <;> simp [flawIf]

/-- To look at the elements with their places is to look at the elements. -/
theorem forall_mem_zipIdx_iff {α : Type} {p : α → Prop} {l : List α} :
    (∀ a i, (a, i) ∈ l.zipIdx → p a) ↔ ∀ a ∈ l, p a := by
  constructor
  · intro h a ha
    rw [← List.zipIdx_map_fst 0 l] at ha
    obtain ⟨⟨_, i⟩, hi, rfl⟩ := List.mem_map.mp ha
    exact h _ i hi
  · intro h a i hi
    exact h a (List.fst_mem_of_mem_zipIdx hi)

theorem settingsFlaw?_eq_none_iff {settings : Settings} : settingsFlaw? settings = none ↔
    settings.maxParallelism ≠ some 0 ∧ trimmed settings.projectName ≠ "" := by
  simp [settingsFlaw?, trimmed_eq_empty_iff]

theorem containerFlaw?_eq_none_iff {c : Container} :
    containerFlaw? containers name c = none ↔ c.WellFormed containers name := by
  have himage : (c.image.isSome && c.buildDirectory.isSome) = false ∧
      (c.image.isNone && c.buildDirectory.isNone) = false ↔
        c.image.isSome = true ∧ c.buildDirectory = none ∨
          c.image = none ∧ c.buildDirectory.isSome = true := by
    cases c.image <;> cases c.buildDirectory <;> simp
  have hdependencies : (∀ d ∈ c.dependencies,
      decide (d = name) = false ∧ (!containers.contains d) = false) ↔
        ∀ d ∈ c.dependencies, d ≠ name ∧ containers.contains d = true := by simp
  have hsetup : (∀ setup index, (setup, index) ∈ c.setupCommands.zipIdx →
      isBlankText setup.command = false) ↔
        ∀ setup ∈ c.setupCommands, trimmed setup.command ≠ "" := by
    simp [trimmed_eq_empty_iff, forall_mem_zipIdx_iff
      (p := fun setup : SetupCommand => isBlankText setup.command = false)]
  simp only [containerFlaw?, Option.orElse_eq_orElse, Option.orElse_eq_or, Option.or_eq_none_iff,
    List.findSome?_eq_none_iff, flawIf_eq_none_iff, Prod.forall, hdependencies, hsetup]
  rw [← and_assoc, himage]
  exact ⟨fun ⟨hi, hd, hs⟩ => ⟨hi, hd, hs⟩, fun h => ⟨h.1, h.2, h.3⟩⟩

theorem runFlaw?_eq_none_iff {task : Task} : runFlaw? containers name task = none ↔
    ∀ run, task.run = some run →
      containers.contains run.container = true ∧ task.customise.contains run.container = false := by
  simp [runFlaw?]

theorem taskFlaw?_eq_none_iff {task : Task} :
    taskFlaw? containers tasks name task = none ↔ task.WellFormed containers tasks := by
  have hwork : (task.run.isNone && task.prerequisites.isEmpty) = false ↔
      task.run.isSome = true ∨ task.prerequisites ≠ [] := by
    cases task.run <;> simp
  have hofRun : (task.run.isNone && !task.dependencies.isEmpty) = false ↔
      (task.dependencies ≠ [] → task.run.isSome = true) := by
    cases task.run <;> simp
  simp only [taskFlaw?, Option.orElse_eq_orElse, Option.orElse_eq_or, Option.or_eq_none_iff,
    List.findSome?_eq_none_iff, flawIf_eq_none_iff, runFlaw?_eq_none_iff, hwork, hofRun,
    Bool.not_eq_false', ← NameMap.contains_iff_mem_keys]
  constructor
  · rintro ⟨hwork, hofRun, hrun, hdependencies, hcustomise, hprerequisites⟩
    exact ⟨hwork, hofRun, fun run h => (hrun run h).1, hdependencies, hcustomise,
      fun run h => (hrun run h).2, hprerequisites⟩
  · intro h
    exact ⟨h.someWork, h.dependenciesOfRun,
      fun run hrun => ⟨h.runs run hrun, h.sparesMain run hrun⟩,
      h.dependencies, h.customises, h.prerequisites⟩

/-- All prerequisites of well-formed tasks are tasks. -/
theorem prerequisitesKnown_of_wellFormed (h : ∀ name task, tasks.get? name = some task →
    task.WellFormed containers tasks) : PrerequisitesKnown tasks := by
  intro entry hentry
  exact (h entry.1 entry.2 (NameMap.get?_eq_some_iff_mem.mpr hentry)).prerequisites

/-- There is no flaw if and only if the configuration is well formed. -/
theorem firstFlaw?_eq_none_iff : config.firstFlaw? = none ↔ config.WellFormed := by
  have hsome : config.tasks.isEmpty = false ↔ ∃ name, config.tasks.contains name = true := by
    simp only [NameMap.contains_iff_mem_keys, NameMap.keys, NameMap.isEmpty]
    cases config.tasks.entries <;> simp
  have hentries : ∀ {α : Type} {m : NameMap α} {p : String → α → Prop},
      (∀ n a, (n, a) ∈ m.entries → p n a) ↔ ∀ n a, m.get? n = some a → p n a := by
    simp only [NameMap.get?_eq_some_iff_mem, implies_true]
  simp only [firstFlaw?, Option.orElse_eq_orElse, Option.orElse_eq_or, Option.or_eq_none_iff,
    List.findSome?_eq_none_iff, flawIf_eq_none_iff, Prod.forall, containerFlaw?_eq_none_iff,
    taskFlaw?_eq_none_iff, settingsFlaw?_eq_none_iff, hsome, hentries]
  constructor
  · rintro ⟨hsome, ⟨hparallelism, hproject⟩, hcontainers, htasks, hcycle⟩
    have hknown := prerequisitesKnown_of_wellFormed htasks
    exact ⟨hsome, hparallelism, hproject, hcontainers, htasks,
      (cycleFlaw?_eq_none_iff hknown).mp hcycle⟩
  · intro h
    have hknown := prerequisitesKnown_of_wellFormed h.tasks
    exact ⟨h.someTask, ⟨h.parallelism, h.projectName⟩, h.containers, h.tasks,
      (cycleFlaw?_eq_none_iff hknown).mpr h.acyclic⟩

theorem validate_eq_ok_iff {valid : Config} :
    config.validate = .ok valid ↔ config.WellFormed ∧ valid = config.withNames := by
  rw [validate, ← firstFlaw?_eq_none_iff]
  cases config.firstFlaw? with
  | some flaw => simp
  | none => simp [eq_comm]

/-! ### The configuration that comes of it -/

/-- Filling in the names changes nothing else. -/
theorem namedAfter_withNames (config : Config) : config.withNames.NamedAfter config where
  settings_eq := rfl
  containers_eq := fun _ => NameMap.get?_mapWithName
  tasks_eq := fun _ => NameMap.get?_mapWithName

/-- No check looks at the names that are filled in. -/
theorem WellFormed.withNames (h : config.WellFormed) : config.withNames.WellFormed := by
  have hknown : ∀ n, config.withNames.containers.contains n = config.containers.contains n := by
    intro n
    simp [NameMap.contains, Config.withNames, NameMap.get?_mapWithName]
  constructor
  case someTask => simpa only [contains_withNames] using h.someTask
  case parallelism => exact h.parallelism
  case projectName => exact h.projectName
  case acyclic => rw [lists_withNames]; exact h.acyclic
  case containers =>
    intro name c hc
    rw [(namedAfter_withNames config).containers_eq] at hc
    obtain ⟨written, hwritten, rfl⟩ := Option.map_eq_some_iff.mp hc
    obtain ⟨himage, hdependencies, hsetup⟩ := h.containers name written hwritten
    refine ⟨himage, fun d hd => ?_, hsetup⟩
    rw [hknown]
    exact hdependencies d hd
  case tasks =>
    intro name task htask
    rw [(namedAfter_withNames config).tasks_eq] at htask
    obtain ⟨written, hwritten, rfl⟩ := Option.map_eq_some_iff.mp htask
    have hw := h.tasks name written hwritten
    constructor
    case someWork => exact hw.someWork
    case dependenciesOfRun => exact hw.dependenciesOfRun
    case sparesMain => exact hw.sparesMain
    all_goals simp only [hknown, contains_withNames]
    · exact hw.runs
    · exact hw.dependencies
    · exact hw.customises
    · exact hw.prerequisites

/-- **A configuration is accepted exactly if it is well formed**, and then it is what was written,
with each container and each task named by its key. -/
theorem validate_characterization (config : Config) :
    ((∃ valid, config.validate = .ok valid) ↔ config.WellFormed) ∧
      ∀ valid, config.validate = .ok valid → valid.NamedAfter config := by
  constructor
  · constructor
    · rintro ⟨valid, hvalid⟩
      exact (validate_eq_ok_iff.mp hvalid).1
    · intro h
      exact ⟨config.withNames, validate_eq_ok_iff.mpr ⟨h, rfl⟩⟩
  · intro valid hvalid
    rw [(validate_eq_ok_iff.mp hvalid).2]
    exact namedAfter_withNames config

end Config

namespace Sample

/-- Four containers, of which two depend on each other, and four tasks. One of them has no container
of its own, one customises what its main container depends on, and one lists its own main
container. -/
def workshop : Config where
  settings := .standard
  containers := .ofList
    [("app", { (default : Container) with
        buildDirectory := some ".", dependencies := ["db"], setupCommands := [⟨"migrate", none⟩] }),
      ("db", { (default : Container) with image := some "postgres" }),
      ("left", { (default : Container) with image := some "alpine", dependencies := ["right"] }),
      ("right", { (default : Container) with image := some "alpine", dependencies := ["left"] })]
  tasks := .ofList
    [("all", { (default : Task) with prerequisites := ["serve", "tangle"] }),
      ("knot", { (default : Task) with
        run := some ⟨"app", none, .empty, none⟩, dependencies := ["db", "app"] }),
      ("serve", { (default : Task) with
        run := some ⟨"app", none, .empty, none⟩, customise := .ofList [("db", default)] }),
      ("tangle", { (default : Task) with
        run := some ⟨"app", none, .empty, none⟩, dependencies := ["left"],
        prerequisites := ["serve"] })]

theorem validate_workshop : workshop.validate = .ok workshop.withNames := by decide +kernel

end Sample

/-- Containers may depend on each other, and a task may list its own main container, as far as these
checks go. With a project name of blanks the configuration is turned down. -/
theorem Config.validate_characterization_workshop :
    Sample.workshop.WellFormed ∧ Sample.workshop.withNames.NamedAfter Sample.workshop ∧
      ¬ Config.WellFormed { Sample.workshop with
        settings := { Settings.standard with projectName := " \t" } } := by
  obtain ⟨hiff, hnamed⟩ := validate_characterization Sample.workshop
  refine ⟨hiff.mp ⟨_, Sample.validate_workshop⟩, hnamed _ Sample.validate_workshop, fun h => ?_⟩
  exact h.projectName (by decide)

end ContainerTasks
