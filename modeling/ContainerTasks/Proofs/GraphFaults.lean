import ContainerTasks.Proofs.Components
import ContainerTasks.Proofs.Requirements
import ContainerTasks.Proofs.Validity

/-!
# Why a graph cannot be built

A fault makes an assertion about the task and the catalogue: that a container is missing, and who
mentions it; that a container needs itself; that some containers need each other in a circle. Each
assertion is true when the fault is reported. A container is resolved only after it has been come
upon from the main container, so whatever its resolution finds wrong is wrong with something that is
required. A circle is looked for only after everything has been resolved, and then nothing is
missing and nothing needs itself directly.

In a valid configuration the containers that are mentioned exist, and no container declares that it
depends on itself. What is left to go wrong has to do with the task as a whole: it may list its own
main container, and there may be a circle among what it requires.

## Main definitions

* `Mention.Tells`, `Graph.Fault.Tells`: what a fault says about the task is so
* `Task.Circle`: what is said of the containers of a reported circle
* `Task.ListsMain`, `Task.Circular`: what can still be wrong with a task of a valid configuration

## Main results

* `Graph.tells_of_resolve`, `Graph.tells_of_collect`, `Graph.tells_of_order`: the three places where
  a fault comes from
* `Graph.tells_of_build`
* `Config.graph_of_validate`: what comes of the tasks of a valid configuration
-/

namespace ContainerTasks

open Relation

section Telling

variable (task : Task) (catalogue : NameMap Container) (main : String)

/-- Someone who is said to mention a container that is missing mentions it indeed. The task is
blamed for its main container, and for what it lists if the main container does not list it as
well. -/
def Mention.Tells (missing : String) : Mention → Prop
  | .byTask name => name = task.name ∧
      (missing = main ∨ missing ∈ task.dependencies ∧
        ∃ container, catalogue.get? main = some container ∧ missing ∉ container.dependencies)
  | .byContainer name => task.Requires catalogue main name ∧
      ∃ container, catalogue.get? name = some container ∧ missing ∈ container.dependencies

/-- The containers are those of a strongly connected component of what is required, in order, and
there is nothing simpler to complain about. -/
structure Task.Circle (members : List String) : Prop where
  exist : ∀ n, task.Requires catalogue main n → catalogue.contains n = true
  not_needs_self : ∀ n, task.Requires catalogue main n → ¬ task.Needs catalogue main n n
  required : ∀ n ∈ members, task.Requires catalogue main n
  sorted : members.Pairwise (· < ·)
  several : 2 ≤ members.length
  component : IsComponent
    (fun a b => task.Requires catalogue main a ∧ task.Needs catalogue main a b) members

/-- What the fault says about the task and the catalogue is so. -/
def Graph.Fault.Tells : Graph.Fault → Prop
  | .missingContainer missing mention =>
    catalogue.contains missing = false ∧ mention.Tells task catalogue main missing
  | .selfDependency c => task.Requires catalogue main c ∧ task.Needs catalogue main c c
  | .cycle name members => name = task.name ∧ task.Circle catalogue main members

end Telling

namespace Graph

variable {task : Task} {catalogue : NameMap Container} {main name missing : String}
  {container : Container} {bound : Nat} {done : List (String × Node)} {pending : List String}
  {fault : Fault} {run : TaskRun}

/-! ### Faults of one container -/

/-- The blame for what a container of the graph depends on falls on someone who mentions it. -/
theorem tells_blame (hc : catalogue.get? name = some container)
    (hname : task.Requires catalogue main name)
    (hmissing : missing ∈ dependencySet task container (name == main)) :
    (blame task name container (name == main) missing).Tells task catalogue main missing := by
  rw [blame]
  split
  case isTrue honly =>
    -- only the main container has what the task lists among its dependencies
    simp only [Bool.and_eq_true, beq_iff_eq, decide_eq_true_eq] at honly
    obtain ⟨⟨rfl, hlisted⟩, hnot⟩ := honly
    exact ⟨rfl, .inr ⟨hlisted, container, hc, hnot⟩⟩
  case isFalse hboth =>
    refine ⟨hname, container, hc, ?_⟩
    rcases mem_dependencySet.mp hmissing with hdeclared | ⟨hroot, hlisted⟩
    · exact hdeclared
    · simpa [hroot, hlisted] using hboth

theorem tells_of_resolve (hc : catalogue.get? name = some container)
    (hname : task.Requires catalogue main name)
    (h : resolve task main catalogue name container = .error fault) :
    fault.Tells task catalogue main := by
  rcases resolve_eq_error h with ⟨hself, rfl⟩ | ⟨missing, hmem, hmissing, rfl⟩
  · exact ⟨hname, (mem_dependencySet_iff_needs hc).mp hself⟩
  · exact ⟨hmissing, tells_blame hc hname hmem⟩

/-! ### Faults of a task -/

/-- Whatever cannot be resolved has been come upon from the main container. -/
theorem tells_of_collect (h : Frontier task main catalogue bound done pending)
    (hfault : collect task main catalogue bound done pending = .error fault) :
    fault.Tells task catalogue main := by
  rcases h.collect_cases with
    ⟨_, collected, hok, -⟩ | ⟨_, done', name, pending', container, fault', hstuck, hc, hr, herror⟩
  · rw [hok] at hfault
    cases hfault
  · obtain rfl : fault' = fault := Except.error.inj (herror.symm.trans hfault)
    exact tells_of_resolve hc
      (hstuck.requires (List.mem_append_right _ (List.mem_cons_self ..))) hr

/-- If what was collected cannot be put into an order, the component that is found is a circle. -/
theorem tells_of_order (h : Frontier task main catalogue bound done []) {v : String}
    (hfault : topologicalOrder (NameMap.ofList done).keys
      (dependencyList (NameMap.ofList done)) = .error v) :
    task.Circle catalogue main
      (firstCycle (NameMap.ofList done).keys (dependencyList (NameMap.ofList done))) := by
  have hrelation : (fun a b => b ∈ dependencyList (NameMap.ofList done) a) =
      fun a b => task.Requires catalogue main a ∧ task.Needs catalogue main a b := by
    funext a b
    exact propext h.mem_dependencyList_iff
  have hself : ∀ n ∈ (NameMap.ofList done).keys,
      n ∉ dependencyList (NameMap.ofList done) n := by
    intro n hn hdepends
    exact (h.exist_and_not_needs_self (h.mem_keys_iff_requires.mp hn)).2
      (h.mem_dependencyList_iff.mp hdepends).2
  obtain ⟨hcomponent, hseveral, hsub⟩ :=
    isComponent_firstCycle (fun a _ => h.dependencyList_subset_keys a) hself hfault
  constructor
  case exist => exact fun n hn => (h.exist_and_not_needs_self hn).1
  case not_needs_self => exact fun n hn => (h.exist_and_not_needs_self hn).2
  case required => exact fun n hn => h.mem_keys_iff_requires.mp (hsub.subset hn)
  case sorted => exact (NameMap.pairwise_keys _).sublist hsub
  case several => exact hseveral
  case component => exact hrelation ▸ hcomponent

/-- Only a task that runs a container can be without a graph. -/
theorem exists_run_of_build (h : build task catalogue = .error fault) :
    ∃ run, task.run = some run := by
  cases hrun : task.run with
  | none =>
    rw [build_eq_ofNoContainers hrun] at h
    cases h
  | some run => exact ⟨run, rfl⟩

/-- What is reported about a task that runs a container is so. -/
theorem tells_of_build (hrun : task.run = some run) (h : build task catalogue = .error fault) :
    fault.Tells task catalogue run.container := by
  rcases (build_eq_error_iff hrun).mp h with
    ⟨hmain, rfl⟩ | ⟨hmain, hcollect | ⟨collected, v, hcollect, horder, rfl⟩⟩
  · exact ⟨by simp [NameMap.contains, hmain], rfl, .inl rfl⟩
  · exact tells_of_collect (frontier_start hmain) hcollect
  · obtain ⟨bound, hdone⟩ := frontier_of_collect (frontier_start hmain) hcollect
    exact ⟨rfl, tells_of_order hdone horder⟩

/-- **A fault is true, and a circle is reported as a whole.** What is said of the task and the
catalogue when no graph can be built is so, whatever they are. -/
theorem build_error_sound (h : build task catalogue = .error fault) :
    ∃ run, task.run = some run ∧ fault.Tells task catalogue run.container := by
  obtain ⟨run, hrun⟩ := exists_run_of_build h
  exact ⟨run, hrun, tells_of_build hrun h⟩

end Graph

namespace Sample

/-- A task whose main container needs three that need each other in a circle. -/
def roundabout : Task := { task with name := "roundabout", dependencies := ["spare", "east"] }

/-- What the circle leads to is not on it, and neither is what leads to it. -/
def roundaboutCatalogue : NameMap Container :=
  .ofList [("app", container "app" ["spare"]), ("base", container "base" []),
    ("east", container "east" ["north"]), ("north", container "north" ["base", "west"]),
    ("west", container "west" ["east"]), ("spare", container "spare" [])]

end Sample

theorem Graph.build_error_sound_roundabout :
    Graph.build Sample.roundabout Sample.roundaboutCatalogue =
        .error (.cycle "roundabout" ["east", "north", "west"]) ∧
      Sample.roundabout.Circle Sample.roundaboutCatalogue "app" ["east", "north", "west"] := by
  have hbuild : Graph.build Sample.roundabout Sample.roundaboutCatalogue =
      .error (.cycle "roundabout" ["east", "north", "west"]) := by decide +kernel
  obtain ⟨run, hrun, -, hcircle⟩ := Graph.build_error_sound hbuild
  obtain rfl : run = ⟨"app", none, .empty, none⟩ := (Option.some.inj hrun).symm
  exact ⟨hbuild, hcircle⟩

/-! ### Tasks of a valid configuration -/

namespace Task

/-- The container is the main container of the task, and the task lists it among what it depends
on. -/
def ListsMain (task : Task) (c : String) : Prop :=
  ∃ run, task.run = some run ∧ run.container = c ∧ c ∈ task.dependencies

/-- Something that the task requires needs itself, be it by way of others. -/
def Circular (task : Task) (catalogue : NameMap Container) : Prop :=
  ∃ run, task.run = some run ∧ ∃ n, task.Requires catalogue run.container n ∧
    TransGen (task.Needs catalogue run.container) n n

variable {task : Task} {catalogue : NameMap Container} {run : TaskRun} {main c : String}
  {members : List String}

theorem listsMain_iff (hrun : task.run = some run) :
    task.ListsMain c ↔ run.container = c ∧ c ∈ task.dependencies := by
  simp [ListsMain, hrun]

/-- From one container of a circle one gets to another, and back. -/
theorem Circle.exists_transGen (h : task.Circle catalogue main members) :
    ∃ n, task.Requires catalogue main n ∧ TransGen (task.Needs catalogue main) n n := by
  obtain ⟨v, hv, hmembers⟩ := h.component
  have hnodup : members.Nodup := h.sorted.imp String.ne_of_lt
  obtain ⟨w, hw, hne⟩ : ∃ w ∈ members, w ≠ v := by
    by_contra! hall
    have hsub : members ⊆ [v] := fun w hw => List.mem_singleton.mpr (hall w hw)
    have hle : members.length ≤ 1 := (List.subperm_of_subset hnodup hsub).length_le
    have := h.several
    omega
  obtain ⟨hto, hback⟩ := (hmembers w).mp hw
  have hcycle := ((reflTransGen_iff_eq_or_transGen.mp hto).resolve_left hne).trans_left hback
  exact ⟨v, h.required v hv, TransGen.mono (fun _ _ hstep => hstep.2) _ _ hcycle⟩

end Task

namespace Graph

variable {task : Task} {catalogue : NameMap Container} {tasks : NameMap Task} {fault : Fault}
  {run : TaskRun} {g : Graph}

/-- A task that has a graph has neither of the two faults. -/
theorem not_listsMain_and_not_circular (h : build task catalogue = .ok g) :
    (∀ c, ¬ task.ListsMain c) ∧ ¬ task.Circular catalogue := by
  constructor
  · rintro _ ⟨run, hrun, rfl, hlisted⟩
    exact (grounded_of_build hrun h).not_needs_self _ .main (.inr ⟨rfl, hlisted⟩)
  · rintro ⟨run, hrun, n, hn, hcycle⟩
    exact (grounded_of_build hrun h).acyclic n hn hcycle

section WellFormed

variable (hcontainers : ∀ name c, catalogue.get? name = some c → c.WellFormed catalogue name)
include hcontainers

/-- Whoever is in a position to mention a container mentions one that exists. -/
theorem contains_of_tells (htask : task.WellFormed catalogue tasks) (hrun : task.run = some run)
    {mention : Mention} {missing : String}
    (h : mention.Tells task catalogue run.container missing) :
    catalogue.contains missing = true := by
  cases mention with
  | byTask =>
    obtain ⟨-, rfl | ⟨hlisted, -⟩⟩ := h
    · exact htask.runs run hrun
    · exact htask.dependencies _ hlisted
  | byContainer =>
    obtain ⟨-, container, hc, hdeclared⟩ := h
    exact ((hcontainers _ _ hc).dependencies _ hdeclared).2

/-- Only the main container can need itself, and only since the task says so. -/
theorem listsMain_of_needs_self (hrun : task.run = some run) {c : String}
    (h : task.Needs catalogue run.container c c) : task.ListsMain c := by
  obtain ⟨container, hc, hdeclared⟩ | ⟨rfl, hlisted⟩ := h
  · exact absurd rfl ((hcontainers _ _ hc).dependencies _ hdeclared).1
  · exact ⟨run, hrun, rfl, hlisted⟩

/-- One of the two faults is left for a task that has no graph. -/
theorem listsMain_or_circular (htask : task.WellFormed catalogue tasks)
    (h : build task catalogue = .error fault) :
    (∃ c, fault = .selfDependency c ∧ task.ListsMain c) ∨
      ∃ named members, fault = .cycle named members ∧ (∀ c, ¬ task.ListsMain c) ∧
        task.Circular catalogue := by
  obtain ⟨run, hrun⟩ := exists_run_of_build h
  have htells := tells_of_build hrun h
  cases fault with
  | missingContainer missing mention =>
    obtain ⟨hmissing, hmention⟩ := htells
    rw [contains_of_tells hcontainers htask hrun hmention] at hmissing
    cases hmissing
  | selfDependency c =>
    exact .inl ⟨c, rfl, listsMain_of_needs_self hcontainers hrun htells.2⟩
  | cycle named members =>
    obtain ⟨-, hcircle⟩ := htells
    refine .inr ⟨named, members, rfl, fun c hlists => ?_, run, hrun, hcircle.exists_transGen⟩
    obtain ⟨rfl, hlisted⟩ := (Task.listsMain_iff hrun).mp hlists
    exact hcircle.not_needs_self _ .main (.inr ⟨rfl, hlisted⟩)

end WellFormed

end Graph

/-- **In a valid configuration two things can be wrong with the containers of a task**: it lists its
own main container, or, if it does not, there is a circle among what it requires. -/
theorem Config.graph_of_validate {config valid : Config} (hvalid : config.validate = .ok valid)
    {name : String} {task : Task} (htask : valid.tasks.get? name = some task) :
    (∀ missing mention,
        Graph.build task valid.containers ≠ .error (.missingContainer missing mention)) ∧
      (∀ c, Graph.build task valid.containers = .error (.selfDependency c) ↔ task.ListsMain c) ∧
      ((∀ c, ¬ task.ListsMain c) →
        ((∃ named members, Graph.build task valid.containers = .error (.cycle named members)) ↔
            task.Circular valid.containers) ∧
          (¬ task.Circular valid.containers → ∃ g, Graph.build task valid.containers = .ok g)) := by
  obtain ⟨hwritten, rfl⟩ := validate_eq_ok_iff.mp hvalid
  have hwell := hwritten.withNames
  cases hbuild : Graph.build task config.withNames.containers with
  | ok g =>
    obtain ⟨hlists, hcircular⟩ := Graph.not_listsMain_and_not_circular hbuild
    simp [hlists, hcircular]
  | error fault =>
    obtain ⟨c, rfl, hlists⟩ | ⟨named, members, rfl, hlists, hcircular⟩ :=
      Graph.listsMain_or_circular hwell.containers (hwell.tasks name task htask) hbuild
    · have hmain : ∀ c', c = c' ↔ task.ListsMain c' := by
        obtain ⟨run, hrun, rfl, hlisted⟩ := hlists
        intro c'
        rw [Task.listsMain_iff hrun]
        exact ⟨fun heq => ⟨heq, heq ▸ hlisted⟩, And.left⟩
      refine ⟨by simp, by simpa using hmain, fun hnone => absurd hlists (hnone c)⟩
    · simp [hlists, hcircular]

/-- A task of the workshop, as it is once the configuration has been accepted. -/
def Sample.workshopTask (name : String) : Task :=
  (workshop.withNames.tasks.get? name).getD default

/-- Of the tasks that run a container, one lists it, one gets into a circle by what it lists, and
one has nothing wrong with it. -/
theorem Config.graph_of_validate_workshop :
    Graph.build (Sample.workshopTask "knot") Sample.workshop.withNames.containers =
        .error (.selfDependency "app") ∧
      (Sample.workshopTask "tangle").Circular Sample.workshop.withNames.containers ∧
      ¬ (Sample.workshopTask "serve").Circular Sample.workshop.withNames.containers := by
  have htask : ∀ name ∈ ["knot", "tangle", "serve"],
      Sample.workshop.withNames.tasks.get? name = some (Sample.workshopTask name) := by
    decide +kernel
  have hrun : ∀ name ∈ ["knot", "tangle", "serve"],
      (Sample.workshopTask name).run = some ⟨"app", none, .empty, none⟩ := by
    decide +kernel
  have hlists : ∀ name ∈ ["tangle", "serve"], ∀ c, ¬ (Sample.workshopTask name).ListsMain c := by
    intro name hname c hlists
    obtain ⟨rfl, hlisted⟩ := (Task.listsMain_iff (hrun name (.tail _ hname))).mp hlists
    have hspared : ∀ name ∈ ["tangle", "serve"],
        "app" ∉ (Sample.workshopTask name).dependencies := by decide +kernel
    exact hspared name hname hlisted
  have hcycle : Graph.build (Sample.workshopTask "tangle") Sample.workshop.withNames.containers =
      .error (.cycle "tangle" ["left", "right"]) := by decide +kernel
  have hnone : (Graph.build (Sample.workshopTask "serve")
      Sample.workshop.withNames.containers).isOk = true := by decide +kernel
  obtain ⟨-, hknot, -⟩ :=
    graph_of_validate Sample.validate_workshop (htask "knot" (by decide))
  obtain ⟨-, -, htangle⟩ :=
    graph_of_validate Sample.validate_workshop (htask "tangle" (by decide))
  obtain ⟨-, -, hserve⟩ :=
    graph_of_validate Sample.validate_workshop (htask "serve" (by decide))
  refine ⟨(hknot "app").mpr ?_, ?_, fun hcircular => ?_⟩
  · exact (Task.listsMain_iff (hrun "knot" (by decide))).mpr ⟨rfl, by decide +kernel⟩
  · exact (htangle (hlists "tangle" (by decide))).1.mp ⟨_, _, hcycle⟩
  · obtain ⟨named, members, hbuild⟩ := (hserve (hlists "serve" (by decide))).1.mpr hcircular
    rw [hbuild] at hnone
    cases hnone

end ContainerTasks
