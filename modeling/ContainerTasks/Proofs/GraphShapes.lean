import ContainerTasks.Proofs.Requirements
import Mathlib.Data.List.Find

/-!
# The shape of a graph

Which containers a graph holds, what depends on what and in which order they come is settled by the
sets of dependencies that the task and its containers list. The shape does not depend on the order
in which these are listed, on how often, on what else the containers are made of, or on containers
that the task does not require.

This is shown of two tasks, each with its catalogue, that list the same where the first of them
looks. What is collected for the one and for the other is followed side by side: the same names are
pending, and the nodes have the same outline, which is all that the next step looks at. The bounds
of the two runs are not the same, since the catalogues may differ in size, but neither is met before
nothing is pending.

## Main definitions

* `Task.ListsAlike`: two tasks with their catalogues list the same dependencies
* `SameOutcome`: two computations fail alike or come to related results
* `Graph.Node.outline`: what a node says about the shape of its graph
* `Graph.SameOutline`: two tables have the same names, with nodes of the same outline
* `Graph.SameShape`: two graphs differ at most in what their containers are made of
* `Graph.Customises`: the containers of a graph are those of a catalogue, as a task wants them

## Main results

* `Task.ListsAlike.resolve_alike`, `Task.ListsAlike.collect_alike`: each step, and all of them, go
  alike
* `Graph.SameOutline.sameShape`: nodes of the same outline make graphs of the same shape
* `Graph.customises_of_build`
* `Graph.build_of_listsAlike`
-/

namespace ContainerTasks

namespace NameMap

variable {α β : Type} {m : NameMap α} {n : String} {a : α}

theorem map_insertEntry (f : α → β) (entries : List (String × α)) :
    (insertEntry n a entries).map (fun e => (e.1, f e.2)) =
      insertEntry n (f a) (entries.map fun e => (e.1, f e.2)) := by
  induction entries with
  | nil => rfl
  | cons e rest ih =>
    simp only [insertEntry, List.map_cons]
    split
    · rfl
    · split
      · rfl
      · rw [List.map_cons, ih]

theorem mapWithName_insert (f : α → β) :
    (m.insert n a).mapWithName (fun _ => f) = (m.mapWithName fun _ => f).insert n (f a) := by
  simp only [mapWithName, insert, map_insertEntry]

/-- Values may be changed before the table is made. -/
theorem mapWithName_ofList (f : α → β) (entries : List (String × α)) :
    (ofList entries).mapWithName (fun _ => f) = ofList (entries.map fun e => (e.1, f e.2)) := by
  suffices ∀ m : NameMap α, (m.insertMany entries).mapWithName (fun _ => f) =
      (m.mapWithName fun _ => f).insertMany (entries.map fun e => (e.1, f e.2)) from this empty
  induction entries with
  | nil => exact fun _ => rfl
  | cons e rest ih =>
    intro m
    exact (ih _).trans (by rw [mapWithName_insert]; rfl)

end NameMap

/-- Lists that make the same set have the same members. -/
theorem NameSet.mem_iff_of_ofList_eq {l l' : List String} (h : ofList l = ofList l') {a : String} :
    a ∈ l ↔ a ∈ l' := by
  rw [← mem_ofList, h, mem_ofList]

/-- The dependencies that a container declares, in whatever order and however often. -/
def Container.declared (c : Container) : NameSet := .ofList c.dependencies

/-- Two tasks, each with its catalogue, list the same dependencies: each container that the first
task requires is in both catalogues, with the same declared dependencies, or in neither. The tasks
and the containers may differ in all else. -/
structure Task.ListsAlike (task task' : Task) (catalogue catalogue' : NameMap Container) :
    Prop where
  name_eq : task.name = task'.name
  main_eq : task.run.map (·.container) = task'.run.map (·.container)
  dependencies_eq : NameSet.ofList task.dependencies = NameSet.ofList task'.dependencies
  declared_eq : ∀ run, task.run = some run → ∀ n, task.Requires catalogue run.container n →
    (catalogue.get? n).map (·.declared) = (catalogue'.get? n).map (·.declared)

/-- Two computations fail alike, or they both come to a result, and the results are related. -/
inductive SameOutcome {ε α β : Type} (related : α → β → Prop) :
    Except ε α → Except ε β → Prop where
  | error (fault : ε) : SameOutcome related (.error fault) (.error fault)
  | ok {a : α} {b : β} (h : related a b) : SameOutcome related (.ok a) (.ok b)

namespace Graph

/-- What a node says about the shape of its graph. -/
def Node.outline (node : Node) : NameSet × NameSet × Bool :=
  (node.dependsOn, node.dependents, node.isRoot)

/-- Two graphs differ at most in what their containers are made of. -/
structure SameShape (g g' : Graph) : Prop where
  task_eq : g.task = g'.task
  root_eq : g.root = g'.root
  names_eq : g.nodes.keys = g'.nodes.keys
  dependencies_eq : ∀ n, g.dependenciesOf? n = g'.dependenciesOf? n
  dependents_eq : ∀ n, g.dependentsOf? n = g'.dependentsOf? n
  isRoot_eq : ∀ n, (g.node? n).map (·.isRoot) = (g'.node? n).map (·.isRoot)
  order_eq : g.order = g'.order

/-- A container of the graph is the one of the catalogue, but for the name, which is that of the
entry, the environment, the working directory and, if it is the main container, the command. -/
def Customises (g : Graph) (catalogue : NameMap Container) : Prop :=
  ∀ n node, g.node? n = some node → ∃ container, catalogue.get? n = some container ∧
    node.container = { container with
      name := n
      environment := node.container.environment
      workingDirectory := node.container.workingDirectory
      command := node.container.command } ∧
    (node.isRoot = false → node.container.command = container.command)

/-! ### What a graph takes over from the catalogue -/

/-- A task has a say in some of what a container is made of, and in the command of the main one
only. -/
theorem forTask_eq (c : Container) (name : String) (task : Task) (main : Bool) :
    c.forTask name task main = { c with
      name
      environment := (c.forTask name task main).environment
      workingDirectory := (c.forTask name task main).workingDirectory
      command := (c.forTask name task main).command } ∧
    (main = false → (c.forTask name task main).command = c.command) := by
  unfold Container.forTask
  cases main with
  | true => cases task.run <;> exact ⟨rfl, nofun⟩
  | false => cases task.customise.get? name <;> exact ⟨rfl, fun _ => rfl⟩

theorem customises_of_build {task : Task} {catalogue : NameMap Container} {g : Graph}
    (h : build task catalogue = .ok g) : g.Customises catalogue := by
  intro n node hnode
  cases hrun : task.run with
  | none =>
    rw [build_eq_ofNoContainers hrun] at h
    obtain rfl := Except.ok.inj h
    cases hnode
  | some run =>
    obtain ⟨hroot, collected, order, hcollect, -, rfl⟩ := (build_eq_ok_iff hrun).mp h
    obtain ⟨_, hdone⟩ := frontier_of_collect (frontier_start hroot) hcollect
    obtain ⟨container, _, hc, rfl, -⟩ := hdone.exists_resolved hnode
    exact ⟨container, hc, forTask_eq ..⟩

/-! ### Outlines -/

theorem collect_nil (task : Task) (root : String) (catalogue : NameMap Container) (bound : Nat)
    (done : List (String × Node)) : collect task root catalogue bound done [] = .ok done := by
  cases bound <;> rfl

/-- The names and the outlines of what was collected. -/
def outlines (done : List (String × Node)) : List (String × (NameSet × NameSet × Bool)) :=
  done.map fun e => (e.1, e.2.outline)

theorem isNone_lookup_of_outlines {done done' : List (String × Node)}
    (h : outlines done = outlines done') (d : String) :
    (done.lookup d).isNone = (done'.lookup d).isNone := by
  have hlookup : ∀ l : List (String × Node),
      ((outlines l).lookup d).isNone = (l.lookup d).isNone := by
    intro l
    rw [outlines, NameMap.lookup_map_entries (fun _ => Node.outline), Option.isNone_map]
  rw [← hlookup, h, hlookup]

/-- Two tables of nodes have the same names, with nodes of the same outline. -/
def SameOutline (nodes nodes' : NameMap Node) : Prop :=
  nodes.mapWithName (fun _ => Node.outline) = nodes'.mapWithName (fun _ => Node.outline)

theorem sameOutline_ofList {done done' : List (String × Node)}
    (h : outlines done = outlines done') : SameOutline (.ofList done) (.ofList done') := by
  rw [SameOutline, NameMap.mapWithName_ofList, NameMap.mapWithName_ofList]
  exact congrArg NameMap.ofList h

namespace SameOutline

variable {nodes nodes' : NameMap Node} (h : SameOutline nodes nodes')
include h

theorem keys_eq : nodes.keys = nodes'.keys := by
  simpa only [NameMap.keys_mapWithName] using congrArg NameMap.keys h

/-- Whatever can be told from outlines is the same. -/
theorem map_eq {β : Type} (f : NameSet × NameSet × Bool → β) (n : String) :
    (nodes.get? n).map (f ∘ Node.outline) = (nodes'.get? n).map (f ∘ Node.outline) := by
  have hget := congrArg (fun m : NameMap (NameSet × NameSet × Bool) => (m.get? n).map f) h
  simpa only [NameMap.get?_mapWithName, Option.map_map] using hget

theorem dependencyList_eq : dependencyList nodes = dependencyList nodes' := by
  have hlist : ∀ (m : NameMap Node) (n : String), dependencyList m n =
      ((m.get? n).map ((·.toList) ∘ Prod.fst ∘ Node.outline)).getD [] := by
    intro m n
    rw [dependencyList]
    cases m.get? n <;> rfl
  funext n
  rw [hlist, hlist]
  exact congrArg (·.getD []) (h.map_eq ((·.toList) ∘ Prod.fst) n)

theorem edges_eq : edges nodes = edges nodes' := by
  have hedges : ∀ m : NameMap Node, edges m =
      (m.mapWithName fun _ => Node.outline).entries.flatMap fun (name, outline) =>
        outline.1.toList.map fun d => (d, name) := by
    intro m
    rw [NameMap.mapWithName, List.flatMap_map]
    rfl
  rw [hedges, h, ← hedges]

/-- Entering a dependent goes alike. -/
theorem enterDependent (edge : String × String) :
    SameOutline (Graph.enterDependent nodes edge) (Graph.enterDependent nodes' edge) := by
  have hnode := h.map_eq id edge.1
  unfold Graph.enterDependent
  cases hget : nodes.get? edge.1 with
  | none =>
    cases hget' : nodes'.get? edge.1 with
    | none => exact h
    | some node' => simp [hget, hget'] at hnode
  | some node =>
    cases hget' : nodes'.get? edge.1 with
    | none => simp [hget, hget'] at hnode
    | some node' =>
      have houtline : node.outline = node'.outline := by simpa [hget, hget'] using hnode
      have hdepends : node.dependsOn = node'.dependsOn := congrArg (·.1) houtline
      have hdependents : node.dependents = node'.dependents := congrArg (·.2.1) houtline
      have hroot : node.isRoot = node'.isRoot := congrArg (·.2.2) houtline
      rw [SameOutline, NameMap.mapWithName_insert, NameMap.mapWithName_insert, h]
      simp only [Node.outline, hdepends, hdependents, hroot]

theorem enterDependents :
    SameOutline (Graph.enterDependents nodes) (Graph.enterDependents nodes') := by
  have hfold : ∀ (pairs : List (String × String)) (nodes nodes' : NameMap Node),
      SameOutline nodes nodes' → SameOutline (pairs.foldl Graph.enterDependent nodes)
        (pairs.foldl Graph.enterDependent nodes') := by
    intro pairs
    induction pairs with
    | nil => exact fun _ _ hsame => hsame
    | cons edge pairs ih => exact fun _ _ hsame => ih _ _ (hsame.enterDependent edge)
  rw [Graph.enterDependents, Graph.enterDependents, ← h.edges_eq]
  exact hfold _ _ _ h

/-- Graphs of such tables have the same shape. -/
theorem sameShape (name : String) (root : Option String) (order : List String) :
    SameShape ⟨name, root, nodes, order⟩ ⟨name, root, nodes', order⟩ where
  task_eq := rfl
  root_eq := rfl
  names_eq := h.keys_eq
  dependencies_eq := h.map_eq Prod.fst
  dependents_eq := h.map_eq (·.2.1)
  isRoot_eq := h.map_eq (·.2.2)
  order_eq := rfl

end SameOutline

end Graph

/-! ### Two tasks that list the same -/

namespace Task.ListsAlike

open ContainerTasks.Graph

variable {task task' : Task} {catalogue catalogue' : NameMap Container} {run : TaskRun}
  (h : task.ListsAlike task' catalogue catalogue') (hrun : task.run = some run)
include h

/-- Containers that declare the same depend on the same. -/
theorem dependencySet_eq {c c' : Container} (hc : c.declared = c'.declared) (isRoot : Bool) :
    dependencySet task c isRoot = dependencySet task' c' isRoot := by
  ext d
  rw [mem_dependencySet, mem_dependencySet, NameSet.mem_iff_of_ofList_eq hc,
    NameSet.mem_iff_of_ofList_eq h.dependencies_eq]

theorem blame_eq {c c' : Container} (hc : c.declared = c'.declared) (name : String)
    (isRoot : Bool) (missing : String) :
    blame task name c isRoot missing = blame task' name c' isRoot missing := by
  simp only [blame, NameSet.mem_iff_of_ofList_eq hc,
    NameSet.mem_iff_of_ofList_eq h.dependencies_eq, h.name_eq]

include hrun

theorem contains_eq {n : String} (hn : task.Requires catalogue run.container n) :
    catalogue.contains n = catalogue'.contains n := by
  have hsame := congrArg Option.isSome (h.declared_eq run hrun n hn)
  rwa [Option.isSome_map, Option.isSome_map] at hsame

/-- A required container is resolved alike. -/
theorem resolve_alike {name : String} {c c' : Container}
    (hname : task.Requires catalogue run.container name) (hget : catalogue.get? name = some c)
    (hc : c.declared = c'.declared) :
    SameOutcome (fun node node' => node.outline = node'.outline)
      (resolve task run.container catalogue name c)
      (resolve task' run.container catalogue' name c') := by
  have hcontains : ∀ d ∈ (dependencySet task' c' (name == run.container)).toList,
      (!catalogue.contains d) = !catalogue'.contains d := by
    intro d hd
    rw [← h.dependencySet_eq hc] at hd
    have hneeds := (mem_dependencySet_iff_needs hget).mp hd
    rw [h.contains_eq hrun (.needed hname hneeds)]
  simp only [resolve, h.dependencySet_eq hc, List.find?_congr hcontains, h.blame_eq hc]
  split
  · exact .error _
  · split
    · exact .error _
    · exact .ok rfl

/-- Collecting goes alike, if what has been collected so far has the same outlines. -/
theorem collect_alike {bound bound' : Nat} {done done' : List (String × Node)}
    {pending : List String}
    (hleft : Frontier task run.container catalogue bound done pending)
    (hright : Frontier task' run.container catalogue' bound' done' pending)
    (hdone : outlines done = outlines done') :
    SameOutcome (fun collected collected' => outlines collected = outlines collected')
      (collect task run.container catalogue bound done pending)
      (collect task' run.container catalogue' bound' done' pending) := by
  induction bound generalizing bound' done done' pending with
  | zero =>
    obtain rfl := hleft.pending_eq_nil
    rw [collect_nil, collect_nil]
    exact .ok hdone
  | succ bound ih =>
    cases pending with
    | nil =>
      rw [collect_nil, collect_nil]
      exact .ok hdone
    | cons name pending =>
      -- the bounds may differ, but neither is used up while something is pending
      cases bound' with
      | zero => cases hright.pending_eq_nil
      | succ bound' =>
        have hhead : name ∈ name :: pending := List.mem_cons_self ..
        have hname := hleft.requires (List.mem_append_right _ hhead)
        obtain ⟨c, hc⟩ := Option.isSome_iff_exists.mp (hleft.known name hhead)
        obtain ⟨c', hc'⟩ := Option.isSome_iff_exists.mp (hright.known name hhead)
        have hdeclared : c.declared = c'.declared := by
          simpa [hc, hc'] using h.declared_eq run hrun name hname
        have hresolve := h.resolve_alike hrun hname hc hdeclared
        simp only [collect, hc, hc']
        generalize hr : resolve task run.container catalogue name c = result,
          hr' : resolve task' run.container catalogue' name c' = result' at hresolve
        cases hresolve with
        | error fault => exact .error fault
        | @ok node node' hnode =>
          have hdone' :
              outlines (done ++ [(name, node)]) = outlines (done' ++ [(name, node')]) := by
            rw [outlines, outlines, List.map_append, List.map_append]
            exact congrArg₂ _ hdone (by rw [List.map_singleton, List.map_singleton, hnode])
          have hnext := hright.step hc' hr'
          have hsame : node'.dependsOn = node.dependsOn := congrArg Prod.fst hnode.symm
          simp only [hsame, ← isNone_lookup_of_outlines hdone'] at hnext ⊢
          exact ih (hleft.step hc hr) hnext hdone'

end Task.ListsAlike

/-- **Only the sets of dependencies shape a graph.** Of two tasks that list the same dependencies,
with their catalogues, either none has a graph, for the same reason, or both have one, and the two
graphs have the same names, dependencies, dependents, main container and order. The containers in
each are those of its own catalogue, but for what a task may change about them. -/
theorem Graph.build_of_listsAlike {task task' : Task} {catalogue catalogue' : NameMap Container}
    (h : task.ListsAlike task' catalogue catalogue') :
    SameOutcome (fun g g' => g.SameShape g' ∧ g.Customises catalogue ∧ g'.Customises catalogue')
      (build task catalogue) (build task' catalogue') := by
  suffices SameOutcome SameShape (build task catalogue) (build task' catalogue') by
    generalize hg : build task catalogue = result, hg' : build task' catalogue' = result' at this
    cases this with
    | error fault => exact .error fault
    | ok hshape => exact .ok ⟨hshape, customises_of_build hg, customises_of_build hg'⟩
  cases hrun : task.run with
  | none =>
    have hrun' : task'.run = none := by simpa [hrun] using h.main_eq.symm
    rw [build_eq_ofNoContainers hrun, build_eq_ofNoContainers hrun', h.name_eq]
    exact .ok (SameOutline.sameShape rfl ..)
  | some run =>
    obtain ⟨run', hrun', hmain⟩ :
        ∃ run', task'.run = some run' ∧ run'.container = run.container := by
      simpa [hrun] using h.main_eq.symm
    have hcontains := h.contains_eq hrun .main
    simp only [build, hrun, hrun', hmain, ← hcontains, ← h.name_eq]
    cases hthere : catalogue.contains run.container with
    | false => exact .error _
    | true =>
      have hcollect := h.collect_alike hrun (frontier_start hthere)
        (frontier_start (hcontains.symm.trans hthere)) rfl
      simp only [Bool.not_true, Bool.false_eq_true, if_false]
      generalize collect task run.container catalogue _ _ _ = result,
        collect task' run.container catalogue' _ _ _ = result' at hcollect
      cases hcollect with
      | error fault => exact .error fault
      | @ok collected collected' houtlines =>
        have hsame := (sameOutline_ofList houtlines).enterDependents
        simp only [hsame.keys_eq, hsame.dependencyList_eq]
        split
        · exact .ok (hsame.sameShape ..)
        · exact .error _

namespace Sample

/-- The task `gather` with its dependencies listed in another way, and with more to say about its
containers. -/
def gatherAgain : Task :=
  { gather with
    description := some "once more"
    dependencies := ["left", "cache", "left"]
    run := some ⟨"app", some "serve", .ofList [("MODE", "test")], some "/srv"⟩
    customise := .ofList [("left", ⟨some "/left", .empty⟩)] }

/-- Other containers, with the dependencies of those in `gatherCatalogue` as far as they matter. -/
def otherCatalogue : NameMap Container :=
  .ofList [("app", { container "app" ["left", "right"] with command := some "idle" }),
    ("left", container "left" ["base", "base"]), ("right", container "right" ["base"]),
    ("base", { container "base" [] with image := some "other" }),
    ("cache", { container "cache" [] with healthCheck := none })]

theorem mem_of_requires_gather {n : String} (h : gather.Requires gatherCatalogue "app" n) :
    n ∈ ["app", "base", "cache", "left", "right"] := by
  have hkeys : (Graph.build gather gatherCatalogue).toOption.map (·.nodes.keys) =
      some ["app", "base", "cache", "left", "right"] := by decide +kernel
  obtain ⟨g, hbuild, hkeys⟩ := exists_build_of_toOption hkeys
  have hrun : gather.run = some ⟨"app", none, .empty, none⟩ := rfl
  have hin := ((Graph.represents_of_build hrun hbuild).node_iff n).mpr h
  rw [← hkeys]
  exact NameMap.contains_iff_mem_keys.mp hin

theorem gather_listsAlike : gather.ListsAlike gatherAgain gatherCatalogue otherCatalogue where
  name_eq := rfl
  main_eq := rfl
  dependencies_eq := by decide +kernel
  declared_eq := by
    intro run hrun n hn
    obtain rfl := Option.some.inj hrun
    have hall : ∀ n ∈ ["app", "base", "cache", "left", "right"],
        (gatherCatalogue.get? n).map (·.declared) = (otherCatalogue.get? n).map (·.declared) := by
      decide +kernel
    exact hall n (mem_of_requires_gather hn)

end Sample

/-- A container that depends on itself is in one catalogue only and is not required: the two graphs
have the same shape, with other containers. -/
theorem Graph.build_of_listsAlike_gather :
    Sample.gather.ListsAlike Sample.gatherAgain Sample.gatherCatalogue Sample.otherCatalogue ∧
    ∃ g g', Graph.build Sample.gather Sample.gatherCatalogue = .ok g ∧
      Graph.build Sample.gatherAgain Sample.otherCatalogue = .ok g' ∧
      g.order = ["cache", "base", "left", "right", "app"] ∧ g.nodes ≠ g'.nodes ∧
      g.SameShape g' ∧ g.Customises Sample.gatherCatalogue ∧
      g'.Customises Sample.otherCatalogue := by
  have horder : (Graph.build Sample.gather Sample.gatherCatalogue).toOption.map (·.order) =
      some ["cache", "base", "left", "right", "app"] := by decide +kernel
  have hne : (Graph.build Sample.gather Sample.gatherCatalogue).toOption.map (·.nodes) ≠
      (Graph.build Sample.gatherAgain Sample.otherCatalogue).toOption.map (·.nodes) := by
    decide +kernel
  refine ⟨Sample.gather_listsAlike, ?_⟩
  have halike := build_of_listsAlike Sample.gather_listsAlike
  generalize Graph.build Sample.gather Sample.gatherCatalogue = result,
    Graph.build Sample.gatherAgain Sample.otherCatalogue = result' at halike horder hne ⊢
  cases halike with
  | error fault => cases horder
  | @ok g g' h =>
    exact ⟨g, g', rfl, rfl, Option.some.inj horder, fun heq => hne (congrArg some heq), h⟩

end ContainerTasks
