import ContainerTasks.Proofs.AcyclicOrders
import ContainerTasks.Proofs.Graphs

/-!
# What a task requires

A container needs others directly: those it declares, and for the main container those of the task
as well. The containers that a task requires are the main container and, step by step, all that they
need. This is said of the task and the catalogue alone. A graph can be built exactly if everything
that is required exists and nothing needs itself, directly or by way of others, and then the graph
holds what is required and nothing else.

While containers are collected, each of them is required, since it was come upon from the main
container. So a container that cannot be resolved shows that something required is missing, or that
it needs itself. All that is left to fail is the order, and it does so only if there is a cycle.

## Main definitions

* `Task.Needs`: what a container needs directly
* `Task.Requires`: what a task requires
* `Task.Grounded`: what is required exists, and none of it needs itself
* `Graph.Represents`: a graph holds what is required

## Main results

* `Graph.Frontier.mem_iff_requires`: what was collected is what is required
* `Graph.Frontier.exists_order_iff`: it has an order if and only if none of it needs itself
* `Graph.exists_build`: a graph can be built of what is grounded
* `Graph.build_characterization`
-/

namespace ContainerTasks

open Relation

namespace Task

variable (task : Task) (catalogue : NameMap Container) (main : String)

/-- A container needs another directly, in a task that runs `main`. -/
def Needs (a b : String) : Prop :=
  (∃ container, catalogue.get? a = some container ∧ b ∈ container.dependencies) ∨
    a = main ∧ b ∈ task.dependencies

/-- The least set that holds the main container and whatever its members need. -/
inductive Requires : String → Prop where
  | main : Requires main
  | needed {a b : String} (required : Requires a) (needs : task.Needs catalogue main a b) :
    Requires b

/-- Everything that is required exists, and none of it needs itself. -/
structure Grounded : Prop where
  exist : ∀ n, task.Requires catalogue main n → catalogue.contains n = true
  not_needs_self : ∀ n, task.Requires catalogue main n → ¬ task.Needs catalogue main n n
  acyclic : ∀ n, task.Requires catalogue main n → ¬ TransGen (task.Needs catalogue main) n n

variable {task catalogue main}

/-- A chain of needs that starts with something required is one among what is required. -/
theorem transGen_of_requires {r : String → String → Prop} {a b : String}
    (hr : ∀ a b, task.Requires catalogue main a → task.Needs catalogue main a b → r a b)
    (ha : task.Requires catalogue main a) (h : TransGen (task.Needs catalogue main) a b) :
    TransGen r a b := by
  suffices task.Requires catalogue main b ∧ TransGen r a b from this.2
  induction h with
  | single hab => exact ⟨.needed ha hab, .single (hr _ _ ha hab)⟩
  | tail _ hlast ih => exact ⟨.needed ih.1 hlast, ih.2.tail (hr _ _ ih.1 hlast)⟩

end Task

namespace Graph

/-- The graph holds what the task requires, and nothing else. -/
structure Represents (g : Graph) (task : Task) (catalogue : NameMap Container) (main : String) :
    Prop where
  root_eq : g.root = some main
  node_iff : ∀ n, g.contains n = true ↔ task.Requires catalogue main n
  node : ∀ n, task.Requires catalogue main n → ∃ node, g.node? n = some node ∧
    (node.isRoot = true ↔ n = main)
  dependencies : ∀ n, task.Requires catalogue main n → ∃ dependencies,
    g.dependenciesOf? n = some dependencies ∧
      ∀ d, d ∈ dependencies ↔ task.Needs catalogue main n d
  /-- The dependents are those that have the container among their dependencies. -/
  dependents : ∀ n, task.Requires catalogue main n → ∃ dependents,
    g.dependentsOf? n = some dependents ∧
      ∀ d, d ∈ dependents ↔ ∃ dependencies, g.dependenciesOf? d = some dependencies ∧ n ∈ dependencies
  /-- There is no answer about anything else. -/
  unknown : ∀ n, ¬ task.Requires catalogue main n →
    g.node? n = none ∧ g.dependenciesOf? n = none ∧ g.dependentsOf? n = none
  nodup_order : g.order.Nodup
  mem_order : ∀ n, n ∈ g.order ↔ g.contains n = true
  /-- The order puts dependencies first. -/
  ordered : ∀ front n rest, g.order = front ++ n :: rest →
    ∀ d, task.Needs catalogue main n d → d ∈ front
  main_last : g.order.getLast? = some main

/-! ### What is collected -/

section Collecting

variable {task : Task} {catalogue : NameMap Container} {main name : String} {container : Container}
  {bound : Nat} {done : List (String × Node)} {pending : List String}

theorem mem_dependencySet {isRoot : Bool} {d : String} : d ∈ dependencySet task container isRoot ↔
    d ∈ container.dependencies ∨ isRoot = true ∧ d ∈ task.dependencies := by
  unfold dependencySet
  cases isRoot <;> simp [or_comm]

/-- The dependencies of a node are what its container needs. -/
theorem mem_dependencySet_iff_needs (hc : catalogue.get? name = some container) {d : String} :
    d ∈ dependencySet task container (name == main) ↔ task.Needs catalogue main name d := by
  simp [mem_dependencySet, Task.Needs, hc]

/-- A container is resolved if and only if it does not need itself and what it needs exists. -/
theorem exists_resolve_iff (hc : catalogue.get? name = some container) :
    (∃ node, resolve task main catalogue name container = .ok node) ↔
      ¬ task.Needs catalogue main name name ∧
        ∀ d, task.Needs catalogue main name d → catalogue.contains d = true := by
  simp only [resolve_eq_ok_iff, mem_dependencySet_iff_needs hc, exists_and_left, exists_eq,
    and_true]

namespace Frontier

/-- Links between containers are needs. -/
theorem links_iff (h : Frontier task main catalogue bound done pending) {a b : String} :
    Links done a b ↔ a ∈ done.map (·.1) ∧ task.Needs catalogue main a b := by
  have hneeds : ∀ {a node}, (a, node) ∈ done →
      (b ∈ node.dependsOn ↔ task.Needs catalogue main a b) := by
    intro a node hmem
    obtain ⟨container, hc, hr⟩ := h.resolved _ hmem
    have hnode : node.dependsOn = dependencySet task container (a == main) :=
      congrArg Node.dependsOn (resolve_eq_ok_iff.mp hr).2.2
    rw [hnode]
    exact mem_dependencySet_iff_needs hc
  constructor
  · rintro ⟨node, hmem, hb⟩
    exact ⟨List.mem_map_of_mem hmem, (hneeds hmem).mp hb⟩
  · rintro ⟨ha, hab⟩
    obtain ⟨⟨_, node⟩, hmem, rfl⟩ := List.mem_map.mp ha
    exact ⟨node, hmem, (hneeds hmem).mpr hab⟩

/-- Whatever is come upon is required. -/
theorem requires (h : Frontier task main catalogue bound done pending) {n : String}
    (hn : n ∈ done.map (·.1) ++ pending) : task.Requires catalogue main n := by
  have hreached := h.reached n hn
  clear hn
  induction hreached with
  | refl => exact .main
  | tail _ hlast ih => exact .needed ih (h.links_iff.mp hlast).2

/-- Once nothing is pending, what was collected is what is required. -/
theorem mem_iff_requires (h : Frontier task main catalogue bound done []) {n : String} :
    n ∈ done.map (·.1) ↔ task.Requires catalogue main n := by
  constructor
  · intro hn
    exact h.requires (List.mem_append_left _ hn)
  · intro hn
    induction hn with
    | main => simpa using h.started
    | needed _ hab ih => simpa using h.covered (h.links_iff.mpr ⟨ih, hab⟩)

/-- Once nothing is pending, everything that is required has been resolved: it exists, and it does
not need itself. -/
theorem exist_and_not_needs_self (h : Frontier task main catalogue bound done []) {n : String}
    (hn : task.Requires catalogue main n) :
    catalogue.contains n = true ∧ ¬ task.Needs catalogue main n n := by
  obtain ⟨e, he, rfl⟩ := List.mem_map.mp (h.mem_iff_requires.mpr hn)
  obtain ⟨container, hc, hr⟩ := h.resolved e he
  exact ⟨Option.isSome_of_eq_some hc, ((exists_resolve_iff hc).mp ⟨_, hr⟩).1⟩

/-- The table of what was collected has what is required. -/
theorem mem_keys_iff_requires (h : Frontier task main catalogue bound done []) {n : String} :
    n ∈ (NameMap.ofList done).keys ↔ task.Requires catalogue main n := by
  have hdistinct : (done.map (·.1)).Nodup := by simpa using h.distinct
  rw [← NameMap.contains_iff_mem_keys, NameMap.contains, NameMap.isSome_get?_ofList_iff hdistinct,
    h.mem_iff_requires]

/-- In the table of what was collected, what is required depends on what it needs. -/
theorem mem_dependencyList_iff (h : Frontier task main catalogue bound done []) {a d : String} :
    d ∈ dependencyList (NameMap.ofList done) a ↔
      task.Requires catalogue main a ∧ task.Needs catalogue main a d := by
  have hdistinct : (done.map (·.1)).Nodup := by simpa using h.distinct
  rw [← h.mem_iff_requires, ← h.links_iff]
  simp only [mem_dependencyList, Links, NameMap.get?_ofList_eq_some_iff hdistinct]

theorem dependencyList_subset_keys (h : Frontier task main catalogue bound done []) (a : String) :
    dependencyList (NameMap.ofList done) a ⊆ (NameMap.ofList done).keys := by
  intro d hd
  obtain ⟨ha, had⟩ := h.mem_dependencyList_iff.mp hd
  exact h.mem_keys_iff_requires.mpr (.needed ha had)

/-- What was collected has an order if and only if nothing that is required needs itself, by however
many steps. -/
theorem exists_order_iff (h : Frontier task main catalogue bound done []) :
    (∃ order, topologicalOrder (NameMap.ofList done).keys
        (dependencyList (NameMap.ofList done)) = .ok order) ↔
      ∀ n, task.Requires catalogue main n → ¬ TransGen (task.Needs catalogue main) n n := by
  rw [exists_topologicalOrder_iff fun a _ => h.dependencyList_subset_keys a]
  constructor
  · intro hacyclic n hn hcycle
    refine hacyclic n (h.mem_keys_iff_requires.mpr hn) (Task.transGen_of_requires ?_ hn hcycle)
    exact fun a d ha had => h.mem_dependencyList_iff.mpr ⟨ha, had⟩
  · intro hacyclic n hn hcycle
    refine hacyclic n (h.mem_keys_iff_requires.mp hn) (TransGen.mono ?_ _ _ hcycle)
    exact fun a d had => (h.mem_dependencyList_iff.mp had).2

end Frontier

/-- Nothing stands in the way of collecting what exists and does not need itself. -/
theorem exists_collect
    (hexist : ∀ n, task.Requires catalogue main n → catalogue.contains n = true)
    (hself : ∀ n, task.Requires catalogue main n → ¬ task.Needs catalogue main n n)
    (h : Frontier task main catalogue bound done pending) :
    ∃ collected, collect task main catalogue bound done pending = .ok collected := by
  rcases h.collect_cases with
    ⟨_, collected, hok, -⟩ | ⟨_, done', name, pending', container, fault, hstuck, hc, hr, -⟩
  · exact ⟨collected, hok⟩
  · have hname := hstuck.requires (List.mem_append_right _ (List.mem_cons_self ..))
    obtain ⟨node, hnode⟩ := (exists_resolve_iff hc).mpr
      ⟨hself name hname, fun d hd => hexist d (.needed hname hd)⟩
    rw [hnode] at hr
    cases hr

end Collecting

/-! ### What is built -/

section Building

variable {task : Task} {catalogue : NameMap Container} {run : TaskRun} {g : Graph}

/-- What a graph that was built holds, and what depends on what in it. -/
theorem contains_iff_and_dependsOn_iff (hrun : task.run = some run)
    (h : build task catalogue = .ok g) :
    (∀ n, g.contains n = true ↔ task.Requires catalogue run.container n) ∧
      ∀ a b, g.DependsOn a b ↔ task.Requires catalogue run.container a ∧
        task.Needs catalogue run.container a b := by
  obtain ⟨hroot, collected, order, hcollect, -, rfl⟩ := (build_eq_ok_iff hrun).mp h
  obtain ⟨bound, hdone⟩ := frontier_of_collect (frontier_start hroot) hcollect
  have hdistinct : (collected.map (·.1)).Nodup := by simpa using hdone.distinct
  constructor
  · intro n
    rw [← hdone.mem_iff_requires, contains, NameMap.contains, get?_enterDependents,
      Option.isSome_map, NameMap.isSome_get?_ofList_iff hdistinct]
  · intro a b
    rw [dependsOn_eq_links hdistinct, hdone.links_iff, hdone.mem_iff_requires]

/-- What a graph is built of exists, and none of it needs itself. -/
theorem grounded_of_build (hrun : task.run = some run) (h : build task catalogue = .ok g) :
    task.Grounded catalogue run.container := by
  obtain ⟨hroot, collected, order, hcollect, horder, -⟩ := (build_eq_ok_iff hrun).mp h
  obtain ⟨bound, hdone⟩ := frontier_of_collect (frontier_start hroot) hcollect
  exact ⟨fun n hn => (hdone.exist_and_not_needs_self hn).1,
    fun n hn => (hdone.exist_and_not_needs_self hn).2, hdone.exists_order_iff.mp ⟨order, horder⟩⟩

/-- A graph can be built of what is grounded. -/
theorem exists_build (hrun : task.run = some run) (hg : task.Grounded catalogue run.container) :
    ∃ g, build task catalogue = .ok g := by
  have hstart : Frontier task run.container catalogue catalogue.size [] [run.container] :=
    frontier_start (hg.exist _ .main)
  obtain ⟨collected, hcollect⟩ := exists_collect hg.exist hg.not_needs_self hstart
  obtain ⟨bound, hdone⟩ := frontier_of_collect hstart hcollect
  obtain ⟨order, horder⟩ := hdone.exists_order_iff.mpr hg.acyclic
  exact ⟨_, (build_eq_ok_iff hrun).mpr ⟨hg.exist _ .main, collected, order, hcollect, horder, rfl⟩⟩

/-- The main container comes last, since all others are needed for it. -/
theorem Sound.getLast?_order (hg : g.Sound) {root : String} (hroot : g.root = some root) :
    g.order.getLast? = some root := by
  have hmem : root ∈ g.order := hg.mem_order.mpr (hg.root_mem hroot)
  rcases List.eq_nil_or_concat' g.order with hnil | ⟨front, last, hsplit⟩
  · simp [hnil] at hmem
  · have hlast : last ∈ g.order := by simp [hsplit]
    have hle := hg.idxOf_le (hg.reached hroot (hg.mem_order.mp hlast))
    have hfresh : last ∉ front := by
      have := hg.nodup_order
      rw [hsplit] at this
      exact fun h => (List.nodup_append.mp this).2.2 last h last (List.mem_singleton_self _) rfl
    rw [hsplit] at hmem hle
    rw [List.idxOf_append_of_notMem hfresh] at hle
    rcases List.mem_append.mp hmem with hfront | hend
    · -- in front of the last one the main container would come before something it needs
      rw [List.idxOf_append_of_mem hfront] at hle
      have := List.idxOf_lt_length_of_mem hfront
      omega
    · rw [hsplit, List.mem_singleton.mp hend, List.getLast?_concat]

theorem exists_dependenciesOf?_iff {a b : String} :
    (∃ dependencies, g.dependenciesOf? a = some dependencies ∧ b ∈ dependencies) ↔
      g.DependsOn a b := by
  simp [dependenciesOf?, DependsOn]

/-- A graph that was built holds what the task requires. -/
theorem represents_of_build (hrun : task.run = some run) (h : build task catalogue = .ok g) :
    g.Represents task catalogue run.container := by
  obtain ⟨hcontains, hdepends⟩ := contains_iff_and_dependsOn_iff hrun h
  have hg := sound_of_build h
  have hroot : g.root = some run.container := by rw [root_of_build h, hrun]; rfl
  have hknown : ∀ n, task.Requires catalogue run.container n → ∃ node, g.node? n = some node :=
    fun n hn => Option.isSome_iff_exists.mp ((hcontains n).mpr hn)
  constructor
  case root_eq => exact hroot
  case node_iff => exact hcontains
  case node =>
    intro n hn
    obtain ⟨node, hnode⟩ := hknown n hn
    exact ⟨node, hnode, by rw [hg.isRoot_iff hnode, hroot, Option.some.injEq, eq_comm]⟩
  case dependencies =>
    intro n hn
    obtain ⟨node, hnode⟩ := hknown n hn
    refine ⟨node.dependsOn, by rw [dependenciesOf?, hnode, Option.map_some], fun d => ?_⟩
    have hd : d ∈ node.dependsOn ↔ g.DependsOn n d := by simp [DependsOn, hnode]
    rw [hd, hdepends, and_iff_right hn]
  case dependents =>
    intro n hn
    obtain ⟨node, hnode⟩ := hknown n hn
    refine ⟨node.dependents, by rw [dependentsOf?, hnode, Option.map_some], fun d => ?_⟩
    rw [hg.mem_dependents_iff hnode, exists_dependenciesOf?_iff]
  case unknown =>
    intro n hn
    have hnone : g.node? n = none := by
      rw [← Option.not_isSome_iff_eq_none]
      exact fun hsome => hn ((hcontains n).mp hsome)
    simp [dependenciesOf?, dependentsOf?, hnone]
  case nodup_order => exact hg.nodup_order
  case mem_order => exact fun n => hg.mem_order
  case ordered =>
    intro front n rest hsplit d hd
    have hn : n ∈ g.order := hsplit ▸ List.mem_append_right _ (List.mem_cons_self ..)
    exact hg.ordered hsplit ((hdepends n d).mpr ⟨(hcontains n).mp (hg.mem_order.mp hn), hd⟩)
  case main_last => exact hg.getLast?_order hroot

end Building

/-- A graph is built exactly if the task runs nothing, or everything that it requires exists and
none of that needs itself; and then the graph holds what the task requires. -/
theorem build_characterization (task : Task) (catalogue : NameMap Container) :
    ((∃ g, build task catalogue = .ok g) ↔
      task.run = none ∨ ∃ run, task.run = some run ∧ task.Grounded catalogue run.container) ∧
    ∀ g run, build task catalogue = .ok g → task.run = some run →
      g.Represents task catalogue run.container := by
  refine ⟨⟨?_, ?_⟩, fun g run h hrun => represents_of_build hrun h⟩
  · rintro ⟨g, h⟩
    cases hrun : task.run with
    | none => exact .inl rfl
    | some run => exact .inr ⟨run, rfl, grounded_of_build hrun h⟩
  · rintro (hrun | ⟨run, hrun, hg⟩)
    · exact ⟨_, build_eq_ofNoContainers hrun⟩
    · exact exists_build hrun hg

end Graph

namespace Sample

/-- A task whose main container needs two others that share what they need, and a third one in this
task only. -/
def gather : Task := { task with name := "gather", dependencies := ["cache", "left"] }

/-- Beside what the task requires there is a container that depends on itself. -/
def gatherCatalogue : NameMap Container :=
  .ofList [("app", container "app" ["right", "left", "right"]), ("left", container "left" ["base"]),
    ("right", container "right" ["base"]), ("base", container "base" []),
    ("cache", container "cache" []), ("knot", container "knot" ["knot"])]

end Sample

/-- Two containers that share what they need are held once each, and so is what they share. -/
theorem Graph.build_characterization_gather : ∃ g,
    Graph.build Sample.gather Sample.gatherCatalogue = .ok g ∧
      g.order = ["cache", "base", "left", "right", "app"] ∧
      g.Represents Sample.gather Sample.gatherCatalogue "app" := by
  have horder : (Graph.build Sample.gather Sample.gatherCatalogue).toOption.map (·.order) =
      some ["cache", "base", "left", "right", "app"] := by decide +kernel
  cases hbuild : Graph.build Sample.gather Sample.gatherCatalogue with
  | error fault =>
    rw [hbuild] at horder
    cases horder
  | ok g =>
    rw [hbuild] at horder
    exact ⟨g, rfl, Option.some.inj horder,
      (Graph.build_characterization _ _).2 g ⟨"app", none, .empty, none⟩ hbuild rfl⟩

end ContainerTasks
