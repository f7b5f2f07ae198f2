import ContainerTasks.Graph
import ContainerTasks.Proofs.Sorting
import Mathlib.Data.List.Perm.Subperm
import Mathlib.Logic.Relation

/-!
# Graphs that were built

A graph that was built holds the main container and everything that can be reached from it, and
nothing that it lists depends on something it does not hold. Its order puts dependencies first, so
that nobody depends on the main container.

## Main definitions

* `Graph.DependsOn`: one container of a graph depends directly on another
* `Graph.Sound`: what holds of every graph that was built
* `Graph.Frontier`: what holds while containers are collected

## Main results

* `Graph.resolve_eq_ok_iff`, `Graph.resolve_eq_error`: what it takes to resolve a container
* `Graph.Frontier.collect_cases`: how collecting ends
* `Graph.get?_enterDependents`, `Graph.Sound.exists_dependentsOf?_iff`: the dependents that are
  entered are the inverse of the dependencies
* `Graph.build_eq_ok_iff`, `Graph.build_eq_error_iff`: what it takes to build a graph, and what can
  stand in the way
* `Graph.sound_of_build`
* `Graph.root_of_build`: the main container is the one that the task runs
* `Graph.Sound.idxOf_lt`: a dependency comes earlier in the order
* `Graph.Sound.not_dependsOn_root`: nobody depends on the main container
-/

namespace ContainerTasks

namespace NameMap

variable {α : Type} {m : NameMap α} {n : String} {a : α}

/-- A table made of distinct entries has exactly these. -/
theorem get?_ofList_eq_some_iff {entries : List (String × α)} (h : (entries.map (·.1)).Nodup) :
    (ofList entries).get? n = some a ↔ (n, a) ∈ entries := by
  rw [ofList, get?_insertMany h, get?_empty, Option.or_none]
  exact lookup_eq_some_iff_mem h

theorem isSome_get?_ofList_iff {entries : List (String × α)} (h : (entries.map (·.1)).Nodup) :
    ((ofList entries).get? n).isSome = true ↔ n ∈ entries.map (·.1) := by
  simp only [Option.isSome_iff_exists, get?_ofList_eq_some_iff h, List.mem_map, Prod.exists,
    exists_and_right, exists_eq_right]

end NameMap

namespace Graph

/-- One container of the graph depends directly on another. -/
def DependsOn (g : Graph) (a b : String) : Prop :=
  ∃ node, g.node? a = some node ∧ b ∈ node.dependsOn

/-- What holds of every graph that was built. -/
structure Sound (g : Graph) : Prop where
  /-- A container goes by the name that it has in the graph. -/
  name_eq : ∀ {name node}, g.node? name = some node → node.container.name = name
  isRoot_iff : ∀ {name node}, g.node? name = some node → (node.isRoot = true ↔ g.root = some name)
  isEmpty_iff : g.isEmpty = true ↔ g.root = none
  root_mem : ∀ {root}, g.root = some root → (g.node? root).isSome = true
  /-- With a container its dependents have been entered. -/
  mem_dependents_iff : ∀ {name node d}, g.node? name = some node →
    (d ∈ node.dependents ↔ g.DependsOn d name)
  /-- Everything that a container depends on is in the graph. -/
  closed : ∀ {a b}, g.DependsOn a b → (g.node? b).isSome = true
  /-- Everything in the graph is there because the main container needs it. -/
  reached : ∀ {root name}, g.root = some root → (g.node? name).isSome = true →
    Relation.ReflTransGen g.DependsOn root name
  nodup_order : g.order.Nodup
  mem_order : ∀ {name}, name ∈ g.order ↔ (g.node? name).isSome = true
  /-- The order puts dependencies first. -/
  ordered : ∀ {front rest name}, g.order = front ++ name :: rest →
    ∀ {d}, g.DependsOn name d → d ∈ front

/-! ### Collecting containers -/

section Collecting

variable {task : Task} {root : String} {catalogue : NameMap Container}

/-- A container has a node if it does not depend on itself and everything it depends on exists. -/
theorem resolve_eq_ok_iff {name : String} {container : Container} {node : Node} :
    resolve task root catalogue name container = .ok node ↔
      name ∉ dependencySet task container (name == root) ∧
        (∀ d ∈ dependencySet task container (name == root), catalogue.contains d = true) ∧
        node = ⟨container.forTask name task (name == root),
          dependencySet task container (name == root), .empty, name == root⟩ := by
  rw [resolve]
  split
  case isTrue hself => simp [hself]
  case isFalse hself =>
    rw [and_iff_right hself]
    cases hfind : (dependencySet task container (name == root)).toList.find?
        fun d => !catalogue.contains d with
    | none =>
      have hexist : ∀ d ∈ dependencySet task container (name == root),
          catalogue.contains d = true := by
        intro d hd
        simpa using List.find?_eq_none.mp hfind d hd
      rw [and_iff_right hexist, Except.ok.injEq, eq_comm]
    | some missing =>
      have hmissing := List.find?_some hfind
      have hmem := List.mem_of_find?_eq_some hfind
      refine iff_of_false (by simp) ?_
      rintro ⟨hexist, -⟩
      simp [hexist missing hmem] at hmissing

/-- A container that has no node depends on itself, or on something that does not exist. -/
theorem resolve_eq_error {name : String} {container : Container} {fault : Fault}
    (h : resolve task root catalogue name container = .error fault) :
    name ∈ dependencySet task container (name == root) ∧ fault = .selfDependency name ∨
      ∃ missing ∈ dependencySet task container (name == root),
        catalogue.contains missing = false ∧
          fault = .missingContainer missing (blame task name container (name == root) missing) := by
  rw [resolve] at h
  split at h
  case isTrue hself => exact .inl ⟨hself, (Except.error.inj h).symm⟩
  case isFalse =>
    cases hfind : (dependencySet task container (name == root)).toList.find?
        fun d => !catalogue.contains d with
    | none => simp [hfind] at h
    | some missing =>
      rw [hfind] at h
      exact .inr ⟨missing, List.mem_of_find?_eq_some hfind, by simpa using List.find?_some hfind,
        (Except.error.inj h).symm⟩

/-- A container that was resolved depends directly on another. -/
def Links (done : List (String × Node)) (a b : String) : Prop :=
  ∃ node, (a, node) ∈ done ∧ b ∈ node.dependsOn

/-- What holds while containers are collected. -/
structure Frontier (task : Task) (root : String) (catalogue : NameMap Container) (bound : Nat)
    (done : List (String × Node)) (pending : List String) : Prop where
  distinct : (done.map (·.1) ++ pending).Nodup
  known : ∀ n ∈ pending, (catalogue.get? n).isSome = true
  resolved : ∀ e ∈ done, ∃ container, catalogue.get? e.1 = some container ∧
    resolve task root catalogue e.1 container = .ok e.2
  covered : ∀ {a b}, Links done a b → b ∈ done.map (·.1) ++ pending
  started : root ∈ done.map (·.1) ++ pending
  reached : ∀ n ∈ done.map (·.1) ++ pending, Relation.ReflTransGen (Links done) root n
  /-- The bound is the number of containers that can still be resolved. -/
  bounded : done.length + bound = catalogue.size

variable {bound : Nat} {done : List (String × Node)} {pending : List String}

theorem frontier_start (h : (catalogue.get? root).isSome = true) :
    Frontier task root catalogue catalogue.size [] [root] where
  distinct := by simp
  known := by simpa using h
  resolved := by simp
  covered := by rintro a b ⟨node, hnode, -⟩; cases hnode
  started := by simp
  reached := by rintro n hn; simp at hn; subst hn; exact .refl
  bounded := by simp

/-- No container is left to be resolved once the bound is used up. -/
theorem Frontier.pending_eq_nil (h : Frontier task root catalogue 0 done pending) :
    pending = [] := by
  refine List.eq_nil_iff_forall_not_mem.mpr fun n hn => ?_
  obtain ⟨hdone, -, hdisjoint⟩ := List.nodup_append.mp h.distinct
  have hsub : done.map (·.1) ⊆ catalogue.keys := by
    intro m hm
    obtain ⟨e, he, rfl⟩ := List.mem_map.mp hm
    obtain ⟨container, hc, -⟩ := h.resolved e he
    exact NameMap.contains_iff_mem_keys.mp (by simp [NameMap.contains, hc])
  have hperm : (done.map (·.1)).Perm catalogue.keys := by
    refine (List.subperm_of_subset hdone hsub).perm_of_length_le ?_
    have := h.bounded
    simp only [NameMap.keys, NameMap.size, List.length_map] at *
    omega
  have hkey : n ∈ catalogue.keys := NameMap.contains_iff_mem_keys.mp (h.known n hn)
  exact hdisjoint n (hperm.mem_iff.mpr hkey) n hn rfl

/-- Resolving one container keeps everything in order. -/
theorem Frontier.step {name : String} {container : Container} {node : Node}
    (h : Frontier task root catalogue (bound + 1) done (name :: pending))
    (hc : catalogue.get? name = some container)
    (hr : resolve task root catalogue name container = .ok node) :
    Frontier task root catalogue bound (done ++ [(name, node)])
      (pending ++ node.dependsOn.toList.filter fun d =>
        d ∉ pending && ((done ++ [(name, node)]).lookup d).isNone) := by
  set fresh := node.dependsOn.toList.filter fun d =>
    d ∉ pending && ((done ++ [(name, node)]).lookup d).isNone with hfresh
  have hnew : (done ++ [(name, node)]).map (·.1) ++ (pending ++ fresh) =
      (done.map (·.1) ++ name :: pending) ++ fresh := by simp
  have hmem : ∀ {d}, d ∈ fresh ↔ d ∈ node.dependsOn ∧ d ∉ done.map (·.1) ++ name :: pending := by
    intro d
    rw [hfresh, List.mem_filter, NameSet.mem_def, Bool.and_eq_true, Option.isNone_iff_eq_none,
      List.lookup_eq_none_iff]
    grind
  have hlinks : ∀ a b, Links done a b → Links (done ++ [(name, node)]) a b :=
    fun a b ⟨node, hnode, hb⟩ => ⟨node, List.mem_append_left _ hnode, hb⟩
  constructor
  case distinct =>
    rw [hnew, List.nodup_append]
    refine ⟨h.distinct, node.dependsOn.nodup.filter _, ?_⟩
    rintro a ha b hb rfl
    exact (hmem.mp hb).2 ha
  case known =>
    intro n hn
    rcases List.mem_append.mp hn with hn | hn
    · exact h.known n (List.mem_cons_of_mem _ hn)
    · obtain ⟨-, hexist, rfl⟩ := resolve_eq_ok_iff.mp hr
      exact hexist n (hmem.mp hn).1
  case resolved =>
    intro e he
    rcases List.mem_append.mp he with he | he
    · exact h.resolved e he
    · rw [List.mem_singleton.mp he]
      exact ⟨container, hc, hr⟩
  case covered =>
    rintro a b ⟨node', hnode', hb⟩
    rw [hnew, List.mem_append]
    rcases List.mem_append.mp hnode' with hnode' | hnode'
    · exact .inl (h.covered ⟨node', hnode', hb⟩)
    · obtain ⟨rfl, rfl⟩ := Prod.mk.inj (List.mem_singleton.mp hnode')
      by_cases hold : b ∈ done.map (·.1) ++ a :: pending
      · exact .inl hold
      · exact .inr (hmem.mpr ⟨hb, hold⟩)
  case started =>
    rw [hnew]
    exact List.mem_append_left _ h.started
  case reached =>
    intro n hn
    rw [hnew, List.mem_append] at hn
    rcases hn with hn | hn
    · exact Relation.ReflTransGen.mono hlinks _ _ (h.reached n hn)
    · have hname := h.reached name (List.mem_append_right _ (List.mem_cons_self ..))
      exact (Relation.ReflTransGen.mono hlinks _ _ hname).tail
        ⟨node, List.mem_append_right _ (by simp), (hmem.mp hn).1⟩
  case bounded =>
    have := h.bounded
    simp only [List.length_append, List.length_singleton]
    omega

/-- Containers are collected until nothing is pending, or until one of them cannot be resolved. -/
theorem Frontier.collect_cases (h : Frontier task root catalogue bound done pending) :
    (∃ bound' collected, collect task root catalogue bound done pending = .ok collected ∧
      Frontier task root catalogue bound' collected []) ∨
    ∃ bound' done' name pending' container fault,
      Frontier task root catalogue bound' done' (name :: pending') ∧
        catalogue.get? name = some container ∧
        resolve task root catalogue name container = .error fault ∧
        collect task root catalogue bound done pending = .error fault := by
  induction bound generalizing done pending with
  | zero =>
    obtain rfl := h.pending_eq_nil
    exact .inl ⟨0, done, rfl, h⟩
  | succ bound ih =>
    cases pending with
    | nil => exact .inl ⟨bound + 1, done, rfl, h⟩
    | cons name pending =>
      obtain ⟨container, hc⟩ :=
        Option.isSome_iff_exists.mp (h.known name (List.mem_cons_self ..))
      cases hr : resolve task root catalogue name container with
      | error fault =>
        refine .inr ⟨bound + 1, done, name, pending, container, fault, h, hc, hr, ?_⟩
        simp only [collect, hc, hr]
      | ok node =>
        simp only [collect, hc, hr]
        exact ih (h.step hc hr)

/-- When all is collected, nothing is pending. -/
theorem frontier_of_collect {collected : List (String × Node)}
    (h : Frontier task root catalogue bound done pending)
    (hc : collect task root catalogue bound done pending = .ok collected) :
    ∃ bound, Frontier task root catalogue bound collected [] := by
  rcases h.collect_cases with ⟨bound', collected', hok, hdone⟩ | ⟨_, _, _, _, _, _, _, _, _, herror⟩
  · obtain rfl : collected' = collected := Except.ok.inj (hok.symm.trans hc)
    exact ⟨bound', hdone⟩
  · rw [herror] at hc
    cases hc

end Collecting

/-! ### The graph as a whole -/

theorem mem_dependencyList {nodes : NameMap Node} {name d : String} :
    d ∈ dependencyList nodes name ↔ ∃ node, nodes.get? name = some node ∧ d ∈ node.dependsOn := by
  unfold dependencyList
  split
  · next node hnode => simp [hnode, NameSet.mem_def]
  · next hnone => simp [hnone]

/-! ### Dependents -/

section Dependents

variable {nodes : NameMap Node} {edge : String × String} {name d : String}

theorem mem_edges : (d, name) ∈ edges nodes ↔ d ∈ dependencyList nodes name := by
  simp only [edges, List.mem_flatMap, Prod.exists, List.mem_map, Prod.mk.injEq,
    mem_dependencyList, NameMap.get?_eq_some_iff_mem]
  constructor
  · rintro ⟨_, node, hnode, _, hd, rfl, rfl⟩
    exact ⟨node, hnode, hd⟩
  · rintro ⟨node, hnode, hd⟩
    exact ⟨name, node, hnode, d, hd, rfl, rfl⟩

theorem get?_enterDependent : (enterDependent nodes edge).get? name =
    (nodes.get? name).map fun node =>
      if edge.1 = name then { node with dependents := node.dependents.insert edge.2 }
      else node := by
  unfold enterDependent
  split
  case h_1 node hnode =>
    rw [NameMap.get?_insert]
    by_cases hname : edge.1 = name
    · subst hname
      simp [hnode]
    · simp [hname, Ne.symm hname]
  case h_2 hnone =>
    by_cases hname : edge.1 = name
    · subst hname
      simp [hnone]
    · simp [hname]

/-- Entering dependents adds them to the nodes that they go with, and changes nothing else. -/
theorem get?_foldl_enterDependent (pairs : List (String × String)) (nodes : NameMap Node) :
    (pairs.foldl enterDependent nodes).get? name = (nodes.get? name).map fun node =>
      { node with
        dependents := node.dependents.insertMany ((pairs.filter (·.1 = name)).map (·.2)) } := by
  induction pairs generalizing nodes with
  | nil => simp [NameSet.insertMany]
  | cons edge pairs ih =>
    rw [List.foldl_cons, ih, get?_enterDependent, Option.map_map]
    by_cases hname : edge.1 = name
    · simp [hname, NameSet.insertMany, Function.comp_def]
    · simp [hname, Function.comp_def]

theorem get?_enterDependents : (enterDependents nodes).get? name =
    (nodes.get? name).map fun node =>
      { node with
        dependents :=
          node.dependents.insertMany (((edges nodes).filter (·.1 = name)).map (·.2)) } :=
  get?_foldl_enterDependent ..

@[simp] theorem keys_enterDependents : (enterDependents nodes).keys = nodes.keys :=
  NameMap.keys_eq_of_contains fun n => by
    rw [NameMap.contains, get?_enterDependents, Option.isSome_map, NameMap.contains]

@[simp] theorem dependencyList_enterDependents :
    dependencyList (enterDependents nodes) = dependencyList nodes := by
  funext name
  simp only [dependencyList, get?_enterDependents]
  cases nodes.get? name <;> rfl

/-- A node of the table with its dependents is one of the table without them. -/
theorem exists_get?_of_enterDependents {node : Node}
    (h : (enterDependents nodes).get? name = some node) :
    ∃ old dependents, nodes.get? name = some old ∧ node = { old with dependents } ∧
      ∀ d, d ∈ dependents ↔ name ∈ dependencyList nodes d ∨ d ∈ old.dependents := by
  rw [get?_enterDependents] at h
  obtain ⟨old, hold, rfl⟩ := Option.map_eq_some_iff.mp h
  refine ⟨old, _, hold, rfl, fun d => ?_⟩
  simp [← mem_edges]

end Dependents

/-- The links of what was collected are the dependencies of the graph that is made of it. -/
theorem dependsOn_eq_links {collected : List (String × Node)} {task : String}
    {root : Option String} {order : List String} (h : (collected.map (·.1)).Nodup) :
    DependsOn ⟨task, root, enterDependents (.ofList collected), order⟩ = Links collected := by
  funext a b
  have hdepends : DependsOn ⟨task, root, enterDependents (.ofList collected), order⟩ a b ↔
      b ∈ dependencyList (enterDependents (.ofList collected)) a := mem_dependencyList.symm
  rw [hdepends, dependencyList_enterDependents, mem_dependencyList]
  simp only [Links, NameMap.get?_ofList_eq_some_iff h]

/-- A node of the graph that is made of what was collected comes of a container that was resolved,
and its dependents are those that are linked to it. -/
theorem Frontier.exists_resolved {task : Task} {root name : String} {catalogue : NameMap Container}
    {bound : Nat} {collected : List (String × Node)} {node : Node}
    (h : Frontier task root catalogue bound collected [])
    (hnode : (enterDependents (.ofList collected)).get? name = some node) :
    ∃ container dependents, catalogue.get? name = some container ∧
      node = ⟨container.forTask name task (name == root),
        dependencySet task container (name == root), dependents, name == root⟩ ∧
      ∀ d, d ∈ dependents ↔ Links collected d name := by
  have hdistinct : (collected.map (·.1)).Nodup := by simpa using h.distinct
  obtain ⟨old, dependents, hold, rfl, hmem⟩ := exists_get?_of_enterDependents hnode
  obtain ⟨container, hc, hr⟩ :=
    h.resolved _ ((NameMap.get?_ofList_eq_some_iff hdistinct).mp hold)
  have hmade : old = ⟨container.forTask name task (name == root),
      dependencySet task container (name == root), .empty, name == root⟩ :=
    (resolve_eq_ok_iff.mp hr).2.2
  subst hmade
  refine ⟨container, dependents, hc, rfl, fun d => ?_⟩
  -- no dependents are entered while containers are resolved
  rw [hmem, or_iff_left (NameSet.not_mem_empty d), mem_dependencyList]
  simp only [Links, NameMap.get?_ofList_eq_some_iff hdistinct]

theorem sound_ofNoContainers (task : String) : (ofNoContainers task).Sound where
  name_eq h := by cases h
  isRoot_iff h := by cases h
  mem_dependents_iff h := by cases h
  isEmpty_iff := by simp [ofNoContainers, isEmpty, NameMap.isEmpty, NameMap.empty]
  root_mem h := by cases h
  closed := by rintro a b ⟨node, h, -⟩; cases h
  reached h := by cases h
  nodup_order := List.nodup_nil
  mem_order := by intro name; simp [ofNoContainers, node?]
  ordered h := by simp [ofNoContainers] at h

/-- What was collected makes a sound graph, if it can be ordered. -/
theorem sound_of_frontier {task : Task} {root : String} {catalogue : NameMap Container}
    {bound : Nat} {collected : List (String × Node)} {order : List String}
    (h : Frontier task root catalogue bound collected [])
    (horder : topologicalOrder (NameMap.ofList collected).keys
      (dependencyList (NameMap.ofList collected)) = .ok order) :
    Sound ⟨task.name, some root, enterDependents (.ofList collected), order⟩ := by
  have hdistinct : (collected.map (·.1)).Nodup := by simpa using h.distinct
  have hsome : ∀ {name}, ((enterDependents (.ofList collected)).get? name).isSome = true ↔
      name ∈ collected.map (·.1) := by
    intro name
    rw [get?_enterDependents, Option.isSome_map, NameMap.isSome_get?_ofList_iff hdistinct]
  obtain ⟨hnodup, hmem, hbefore⟩ := topologicalOrder_eq_ok horder
  constructor
  case nodup_order => exact hnodup
  case name_eq =>
    intro name node hnode
    obtain ⟨container, _, -, rfl, -⟩ := h.exists_resolved hnode
    simp only [Container.forTask]
    grind
  case isRoot_iff =>
    intro name node hnode
    obtain ⟨container, _, -, rfl, -⟩ := h.exists_resolved hnode
    rw [beq_iff_eq, Option.some.injEq, eq_comm]
  case mem_dependents_iff =>
    intro name node d hnode
    obtain ⟨container, dependents, -, rfl, hlinks⟩ := h.exists_resolved hnode
    rw [dependsOn_eq_links hdistinct]
    exact hlinks d
  case isEmpty_iff =>
    have hroot : root ∈ collected.map (·.1) := by simpa using h.started
    obtain ⟨node, hnode⟩ := Option.isSome_iff_exists.mp (hsome.mpr hroot)
    have := NameMap.get?_eq_some_iff_mem.mp hnode
    simp only [isEmpty, NameMap.isEmpty, List.isEmpty_iff, reduceCtorEq, iff_false]
    exact List.ne_nil_of_mem this
  case root_mem =>
    intro _ hroot
    cases hroot
    exact hsome.mpr (by simpa using h.started)
  case closed =>
    intro a b hab
    rw [dependsOn_eq_links hdistinct] at hab
    exact hsome.mpr (by simpa using h.covered hab)
  case reached =>
    intro _ name hroot hname
    cases hroot
    rw [dependsOn_eq_links hdistinct]
    exact h.reached name (by simpa using hsome.mp hname)
  case mem_order =>
    intro name
    rw [hmem, ← keys_enterDependents, ← NameMap.contains_iff_mem_keys]
    rfl
  case ordered =>
    intro front rest name hsplit d hd
    have hlist : d ∈ dependencyList (enterDependents (.ofList collected)) name :=
      mem_dependencyList.mpr hd
    exact hbefore front name rest hsplit d (by rwa [dependencyList_enterDependents] at hlist)

section Build

variable {task : Task} {catalogue : NameMap Container} {g : Graph} {run : TaskRun}

theorem build_eq_ofNoContainers (hrun : task.run = none) :
    build task catalogue = .ok (ofNoContainers task.name) := by
  simp only [build, hrun]

/-- The graph of a task that runs a container is made of what was collected. -/
theorem build_eq_ok_iff (hrun : task.run = some run) : build task catalogue = .ok g ↔
    (catalogue.get? run.container).isSome = true ∧ ∃ collected order,
      collect task run.container catalogue catalogue.size [] [run.container] = .ok collected ∧
      topologicalOrder (NameMap.ofList collected).keys
        (dependencyList (NameMap.ofList collected)) = .ok order ∧
      g = ⟨task.name, some run.container, enterDependents (.ofList collected), order⟩ := by
  simp only [build, hrun, NameMap.contains, Bool.not_eq_true']
  cases (catalogue.get? run.container).isSome with
  | false => simp
  | true =>
    simp only [Bool.true_eq_false, if_false, true_and]
    cases collect task run.container catalogue catalogue.size [] [run.container] with
    | error => simp
    | ok collected =>
      cases horder : topologicalOrder (NameMap.ofList collected).keys
        (dependencyList (NameMap.ofList collected)) with
      | error => simp [horder]
      | ok order => simp [horder, eq_comm]

/-- No graph is built if the main container is not there, if something cannot be collected, or if
what was collected cannot be put into an order. -/
theorem build_eq_error_iff (hrun : task.run = some run) {fault : Fault} :
    build task catalogue = .error fault ↔
      catalogue.get? run.container = none ∧
          fault = .missingContainer run.container (.byTask task.name) ∨
        (catalogue.get? run.container).isSome = true ∧
          (collect task run.container catalogue catalogue.size [] [run.container] = .error fault ∨
            ∃ collected v,
              collect task run.container catalogue catalogue.size [] [run.container] =
                .ok collected ∧
              topologicalOrder (NameMap.ofList collected).keys
                (dependencyList (NameMap.ofList collected)) = .error v ∧
              fault = .cycle task.name (firstCycle (NameMap.ofList collected).keys
                (dependencyList (NameMap.ofList collected)))) := by
  simp only [build, hrun, NameMap.contains, Bool.not_eq_true', ← Option.not_isSome_iff_eq_none]
  cases (catalogue.get? run.container).isSome with
  | false => simp [eq_comm]
  | true =>
    simp only [Bool.true_eq_false, if_false, true_and, not_true, false_and, false_or]
    cases collect task run.container catalogue catalogue.size [] [run.container] with
    | error fault' => simp
    | ok collected =>
      cases horder : topologicalOrder (NameMap.ofList collected).keys
        (dependencyList (NameMap.ofList collected)) with
      | error v => simp [horder, eq_comm]
      | ok order => simp [horder]

/-- Every graph that was built is sound. -/
theorem sound_of_build (h : build task catalogue = .ok g) : g.Sound := by
  cases hrun : task.run with
  | none =>
    rw [build_eq_ofNoContainers hrun] at h
    cases h
    exact sound_ofNoContainers task.name
  | some run =>
    obtain ⟨hroot, collected, order, hcollect, horder, rfl⟩ := (build_eq_ok_iff hrun).mp h
    obtain ⟨bound, hdone⟩ := frontier_of_collect (frontier_start hroot) hcollect
    exact sound_of_frontier hdone horder

/-- The main container is the one that the task runs. -/
theorem root_of_build (h : build task catalogue = .ok g) :
    g.root = task.run.map (·.container) := by
  cases hrun : task.run with
  | none =>
    rw [build_eq_ofNoContainers hrun] at h
    cases h
    rfl
  | some run =>
    obtain ⟨-, collected, order, -, -, rfl⟩ := (build_eq_ok_iff hrun).mp h
    rfl

end Build

namespace Sound

variable {g : Graph} {a b : String}

theorem dependsOn_left (h : g.DependsOn a b) : (g.node? a).isSome = true := by
  obtain ⟨node, hnode, -⟩ := h
  simp [hnode]

/-- The dependents of a container are those that depend on it. -/
theorem exists_dependentsOf?_iff (hg : g.Sound) :
    (∃ dependents, g.dependentsOf? b = some dependents ∧ a ∈ dependents) ↔ g.DependsOn a b := by
  simp only [dependentsOf?, Option.map_eq_some_iff]
  constructor
  · rintro ⟨_, ⟨node, hnode, rfl⟩, ha⟩
    exact (hg.mem_dependents_iff hnode).mp ha
  · intro hon
    obtain ⟨node, hnode⟩ := Option.isSome_iff_exists.mp (hg.closed hon)
    exact ⟨_, ⟨node, hnode, rfl⟩, (hg.mem_dependents_iff hnode).mpr hon⟩

/-- A dependency comes earlier in the order. -/
theorem idxOf_lt (hg : g.Sound) (h : g.DependsOn a b) : g.order.idxOf b < g.order.idxOf a := by
  obtain ⟨front, rest, hsplit, hfront⟩ := List.eq_append_cons_of_mem
    (hg.mem_order.mpr (dependsOn_left h))
  have hb := hg.ordered hsplit h
  rw [hsplit, List.idxOf_append_of_mem hb, List.idxOf_append_of_notMem hfront]
  have := List.idxOf_lt_length_of_mem hb
  omega

theorem idxOf_le (hg : g.Sound) (h : Relation.ReflTransGen g.DependsOn a b) :
    g.order.idxOf b ≤ g.order.idxOf a := by
  induction h with
  | refl => exact Nat.le_refl _
  | tail _ hlast ih =>
    have := hg.idxOf_lt hlast
    omega

/-- Nobody depends on the main container. -/
theorem not_dependsOn_root (hg : g.Sound) {root : String} (hroot : g.root = some root) :
    ¬ g.DependsOn a root := by
  intro h
  have hlt := hg.idxOf_lt h
  have hle := hg.idxOf_le (hg.reached hroot (dependsOn_left h))
  omega

/-- What somebody depends on is in the graph, beside the main container. -/
theorem side_of_dependsOn (hg : g.Sound) (h : g.DependsOn a b) :
    ∃ node, g.node? b = some node ∧ node.isRoot = false := by
  obtain ⟨node, hnode⟩ := Option.isSome_iff_exists.mp (hg.closed h)
  refine ⟨node, hnode, ?_⟩
  by_contra hroot
  rw [Bool.not_eq_false] at hroot
  exact hg.not_dependsOn_root ((hg.isRoot_iff hnode).mp hroot) h

theorem isRoot_eq_false_iff (hg : g.Sound) {node : Node} (h : g.node? a = some node) :
    node.isRoot = false ↔ g.root ≠ some a := by
  rw [← not_iff_not, Bool.not_eq_false, ne_eq, not_not, hg.isRoot_iff h]

theorem mem_inOrder (hg : g.Sound) {node : Node} :
    node ∈ g.inOrder ↔ ∃ name, g.node? name = some node := by
  simp only [inOrder, List.mem_filterMap]
  constructor
  · rintro ⟨name, -, h⟩
    exact ⟨name, h⟩
  · rintro ⟨name, h⟩
    exact ⟨name, hg.mem_order.mpr (by simp [h]), h⟩

theorem map_name_inOrder (hg : g.Sound) : g.inOrder.map (·.container.name) = g.order := by
  have hall : ∀ name ∈ g.order, (g.node? name).map (·.container.name) = some name := by
    intro name hname
    obtain ⟨node, hnode⟩ := Option.isSome_iff_exists.mp (hg.mem_order.mp hname)
    rw [hnode, Option.map_some, hg.name_eq hnode]
  rw [inOrder, List.map_filterMap, List.filterMap_congr hall, List.filterMap_some]

end Sound

end Graph

/-! ### A small graph -/

namespace Sample

/-- A container with an image of its own name, a health check and one setup command. -/
def container (name : String) (dependencies : List String) : Container where
  name
  image := some name
  imagePullPolicy := .ifNotPresent
  buildDirectory := none
  dockerfile := none
  command := none
  environment := .empty
  workingDirectory := none
  ports := []
  volumes := []
  dependencies
  healthCheck := some ⟨none, none, none, none, none⟩
  setupCommands := [⟨"seed", none⟩]

/-- A task that runs an app on a database. -/
def task : Task where
  name := "serve"
  description := none
  group := none
  prerequisites := []
  dependencies := []
  run := some ⟨"app", none, .empty, none⟩
  customise := .empty

def catalogue : NameMap Container :=
  .ofList [("app", container "app" ["db"]), ("db", container "db" [])]

def graph : Graph where
  task := "serve"
  root := some "app"
  nodes := .ofList [("app", ⟨container "app" ["db"], .ofList ["db"], .empty, true⟩),
    ("db", ⟨container "db" [], .empty, .ofList ["app"], false⟩)]
  order := ["db", "app"]

theorem build_eq : Graph.build task catalogue = .ok graph := by decide +kernel

/-- What is evaluated of a graph is so of the graph that was built. -/
theorem exists_build_of_toOption {task : Task} {catalogue : NameMap Container} {α : Type}
    {f : Graph → α} {a : α} (h : (Graph.build task catalogue).toOption.map f = some a) :
    ∃ g, Graph.build task catalogue = .ok g ∧ f g = a := by
  cases hbuild : Graph.build task catalogue with
  | error fault =>
    rw [hbuild] at h
    cases h
  | ok g =>
    rw [hbuild] at h
    exact ⟨g, rfl, Option.some.inj h⟩

end Sample

end ContainerTasks
