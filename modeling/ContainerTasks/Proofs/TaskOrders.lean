import ContainerTasks.Proofs.Validity
import ContainerTasks.TaskOrder
import Mathlib.Data.List.Chain
import Mathlib.Data.List.Perm.Subperm
import Mathlib.Data.List.TakeWhile

/-!
# Orders of tasks

A search puts names into an order that is under way, each task after its prerequisites. The path
to the names tells what the search may still append: nothing of the path itself, and only what can
be reached from the names. If the search fails, then either it has come upon a name that no task
has, or it is back on its path, and what the path holds from there on is a cycle.

All this is shown of a search without a bound, by induction on what it does. The path holds each
task at most once, so the bound on the depth of a visit is never met: a visit that goes one deeper
has one task more on its path, and the path is never longer than the table.

Prerequisites are looked at twice, when a configuration is checked and when a task is asked for, and
in two different ways: a sorting of all tasks, and a search from the one that is asked for. Both
turn down cycles and nothing else, as long as all prerequisites are tasks.

## Main definitions

* `Config.IsCycle`: a list of names that leads back to its start
* `Config.IsOrder`: known tasks, none twice, each after its prerequisites
* `Config.Grows`: what an order has that goes on from another
* `Config.Puts`: names are put into an order, and this comes to a result
* `Config.Appends`: what comes of putting names into an order

## Main results

* `Config.Puts.appends_ok`, `Config.Puts.explains`: what a search comes to
* `Config.puts_visit`: the bound on the depth of a visit is not met
* `Config.appends_taskOrder`: what comes of asking for a task
* `Config.exists_taskOrder_iff`: which tasks have an order
* `Config.exists_taskOrder_iff_acyclic`: all tasks have an order if and only if there is no cycle
* `Config.cycleFlaw_agrees_with_taskOrder`
-/

namespace ContainerTasks

open Relation
open TaskOrder (Fault)

namespace Config

/-- Each name lists the next one, and the last is the first. -/
def IsCycle (tasks : NameMap Task) (path : List String) : Prop :=
  path.IsChain (Lists tasks) ∧ ∃ name between, path = name :: between ++ [name]

/-- Every task has the name that the table has for it. -/
def Named (config : Config) : Prop :=
  ∀ name task, config.tasks.get? name = some task → task.name = name

/-- Known tasks, none twice, each after its prerequisites. -/
structure IsOrder (config : Config) (order : List Task) : Prop where
  known : ∀ task ∈ order, config.tasks.get? task.name = some task
  nodup : (order.map (·.name)).Nodup
  prerequisitesFirst : DependenciesFirst (prerequisitesOf config.tasks) (order.map (·.name))

/-- An order goes on from another with tasks that are allowed. -/
structure Grows (allowed : String → Prop) (order order' : List Task) : Prop where
  initial : order <+: order'
  fresh : ∀ task ∈ order', task ∈ order ∨ allowed task.name

/-- The name can be reached from one of the names. -/
def Reaches (tasks : NameMap Task) (names : List String) (name : String) : Prop :=
  ∃ a ∈ names, ReflTransGen (Lists tasks) a name

/-- What a fault says that is met while the names are visited at the end of a path. -/
def Explains (tasks : NameMap Task) (path names : List String) : Fault → Prop
  | .unknownTask name => tasks.contains name = false ∧ Reaches tasks names name
  | .cycle cycle => IsCycle tasks cycle ∧ ∀ name ∈ cycle, name ∈ path ∨ Reaches tasks names name

/-- Names are put into an order one after the other, at the end of a path, and this comes to a
result. There is no bound on the depth here, so the result is one that is reached. -/
inductive Puts (config : Config) :
    List String → List Task → List String → Except Fault (List Task) → Prop where
  | nil {path : List String} {order : List Task} : Puts config path order [] (.ok order)
  | unknown {path : List String} {order : List Task} {name : String} {rest : List String}
    (missing : config.tasks.get? name = none) :
    Puts config path order (name :: rest) (.error (.unknownTask name))
  /-- The order holds the task already. -/
  | listed {path : List String} {order : List Task} {name : String} {rest : List String}
    {task : Task} {result : Except Fault (List Task)} (known : config.tasks.get? name = some task)
    (there : task.name ∈ order.map (·.name)) (later : Puts config path order rest result) :
    Puts config path order (name :: rest) result
  /-- The path has come back to the task. -/
  | back {path : List String} {order : List Task} {name : String} {rest : List String}
    {task : Task} (known : config.tasks.get? name = some task)
    (new : task.name ∉ order.map (·.name)) (onPath : task.name ∈ path) :
    Puts config path order (name :: rest)
      (.error (.cycle (path.dropWhile (· ≠ task.name) ++ [task.name])))
  | stuck {path : List String} {order : List Task} {name : String} {rest : List String}
    {task : Task} {fault : Fault} (known : config.tasks.get? name = some task)
    (new : task.name ∉ order.map (·.name)) (offPath : task.name ∉ path)
    (inner : Puts config (path ++ [task.name]) order task.prerequisites (.error fault)) :
    Puts config path order (name :: rest) (.error fault)
  | put {path : List String} {order middle : List Task} {name : String} {rest : List String}
    {task : Task} {result : Except Fault (List Task)} (known : config.tasks.get? name = some task)
    (new : task.name ∉ order.map (·.name)) (offPath : task.name ∉ path)
    (inner : Puts config (path ++ [task.name]) order task.prerequisites (.ok middle))
    (later : Puts config path (middle ++ [task]) rest result) :
    Puts config path order (name :: rest) result

/-- What comes of putting names into an order, at the end of a path. -/
def Appends (config : Config) (path : List String) (order : List Task) (names : List String) :
    Except Fault (List Task) → Prop
  | .ok order' => config.IsOrder order' ∧
      Grows (fun n => n ∉ path ∧ Reaches config.tasks names n) order order' ∧
        names ⊆ order'.map (·.name)
  | .error fault => Explains config.tasks path names fault

variable {config : Config} {tasks : NameMap Task} {path names : List String} {name : String}
  {order order' : List Task} {task : Task}

theorem named_withNames (config : Config) : config.withNames.Named := by
  intro name task h
  rw [withNames, NameMap.get?_mapWithName] at h
  obtain ⟨_, -, rfl⟩ := Option.map_eq_some_iff.mp h
  rfl

/-! ### Cycles and what can be reached -/

/-- A name on a cycle leads back to itself. -/
theorem IsCycle.exists_transGen (h : IsCycle tasks path) :
    ∃ name ∈ path, TransGen (Lists tasks) name name := by
  obtain ⟨hchain, name, between, rfl⟩ := h
  refine ⟨name, by simp, ?_⟩
  have hpairs : (name :: between ++ [name]).Pairwise (TransGen (Lists tasks)) :=
    (hchain.imp fun _ _ => TransGen.single).pairwise
  exact (List.pairwise_append.mp hpairs).2.2 name (List.mem_cons_self ..) name
    (List.mem_singleton_self _)

/-- A path that comes back to one of its names holds a cycle. -/
theorem isCycle_of_mem (hchain : (path ++ [name]).IsChain (Lists tasks)) (hmem : name ∈ path) :
    IsCycle tasks (path.dropWhile (· ≠ name) ++ [name]) := by
  obtain ⟨between, hdrop⟩ : ∃ between, path.dropWhile (· ≠ name) = name :: between := by
    cases hdrop : path.dropWhile (· ≠ name) with
    | nil => simpa using List.dropWhile_eq_nil_iff.mp hdrop name hmem
    | cons first between =>
      have hhead := List.head?_dropWhile_not (fun n => decide (n ≠ name)) path
      rw [hdrop] at hhead
      exact ⟨between, by simpa using hhead⟩
  refine ⟨hchain.suffix ?_, name, between, by rw [hdrop]⟩
  obtain ⟨front, hfront⟩ := path.dropWhile_suffix (· ≠ name)
  exact ⟨front, by rw [← List.append_assoc, hfront]⟩

theorem Reaches.mono {names' : List String} (hsub : names ⊆ names')
    (h : Reaches tasks names name) : Reaches tasks names' name := by
  obtain ⟨a, ha, hreach⟩ := h
  exact ⟨a, hsub ha, hreach⟩

theorem reaches_of_mem (h : name ∈ names) : Reaches tasks names name := ⟨name, h, .refl⟩

/-- What is reached from the prerequisites of a task is reached from the task. -/
theorem Reaches.of_prerequisites (h : Reaches tasks (prerequisitesOf tasks name) n) :
    Reaches tasks [name] n := by
  obtain ⟨a, ha, hreach⟩ := h
  exact ⟨name, List.mem_singleton_self _, .head ha hreach⟩

/-! ### Orders -/

theorem isOrder_nil (config : Config) : config.IsOrder [] where
  known := List.forall_mem_nil _
  nodup := List.nodup_nil
  prerequisitesFirst := DependenciesFirst.nil

/-- A task may come next if it is new and its prerequisites are there. -/
theorem IsOrder.concat (h : config.IsOrder order) (htask : config.tasks.get? task.name = some task)
    (hnew : task.name ∉ order.map (·.name)) (hfirst : task.prerequisites ⊆ order.map (·.name)) :
    config.IsOrder (order ++ [task]) where
  known := by
    intro t ht
    rcases List.mem_append.mp ht with ht | ht
    · exact h.known t ht
    · rw [List.mem_singleton.mp ht]
      exact htask
  nodup := by
    rw [List.map_append]
    exact List.nodup_append.mpr ⟨h.nodup, List.nodup_singleton _, by grind⟩
  prerequisitesFirst := by
    rw [List.map_append]
    exact h.prerequisitesFirst.concat (by rwa [prerequisitesOf_eq htask])

/-- Whatever has a place in an order does not lie on a cycle. -/
theorem IsOrder.not_transGen (h : config.IsOrder order) (hmem : name ∈ order.map (·.name)) :
    ¬ TransGen (Lists config.tasks) name name :=
  h.prerequisitesFirst.not_transGen h.nodup hmem

/-- An order has all that can be reached from what it has. -/
theorem IsOrder.mem_of_reaches (h : config.IsOrder order) (hnames : names ⊆ order.map (·.name))
    {n : String} (hreach : Reaches config.tasks names n) : n ∈ order.map (·.name) := by
  obtain ⟨a, ha, hreach⟩ := hreach
  rcases Relation.reflTransGen_iff_eq_or_transGen.mp hreach with rfl | hreach
  · exact hnames ha
  · obtain ⟨front, rest, hsplit⟩ := List.append_of_mem (hnames ha)
    rw [hsplit]
    exact List.mem_append_left _ (h.prerequisitesFirst.mem_of_transGen hsplit hreach)

section Grows

variable {allowed allowed' : String → Prop} {order'' : List Task}

theorem Grows.refl (allowed : String → Prop) (order : List Task) : Grows allowed order order where
  initial := List.prefix_rfl
  fresh := fun _ => .inl

theorem Grows.trans (first : Grows allowed order order') (second : Grows allowed order' order'') :
    Grows allowed order order'' where
  initial := first.initial.trans second.initial
  fresh := by
    intro t ht
    rcases second.fresh t ht with ht | hallowed
    · exact first.fresh t ht
    · exact .inr hallowed

theorem Grows.mono (h : Grows allowed order order') (himp : ∀ n, allowed n → allowed' n) :
    Grows allowed' order order' where
  initial := h.initial
  fresh := fun t ht => (h.fresh t ht).imp_right (himp _)

theorem Grows.concat (h : Grows allowed order order') (hallowed : allowed task.name) :
    Grows allowed order (order' ++ [task]) where
  initial := h.initial.trans (List.prefix_append ..)
  fresh := by
    intro t ht
    rcases List.mem_append.mp ht with ht | ht
    · exact h.fresh t ht
    · rw [List.mem_singleton.mp ht]
      exact .inr hallowed

end Grows

/-! ### Visits -/

/-- A fault is explained by whatever the names lead to. -/
theorem Explains.mono {path' names' : List String} {fault : Fault}
    (h : Explains tasks path names fault)
    (hnames : ∀ n, Reaches tasks names n → Reaches tasks names' n)
    (hpath : ∀ n ∈ path, n ∈ path' ∨ Reaches tasks names' n) :
    Explains tasks path' names' fault := by
  cases fault with
  | unknownTask n => exact ⟨h.1, hnames n h.2⟩
  | cycle cycle => exact ⟨h.1, fun n hn => (h.2 n hn).elim (hpath n) fun hr => .inr (hnames n hr)⟩

/-- A task that is new comes after its prerequisites, once they have been put into the order. -/
theorem Appends.close {middle : List Task}
    (h : config.Appends (path ++ [task.name]) order task.prerequisites (.ok middle))
    (htask : config.tasks.get? task.name = some task) (hnew : task.name ∉ order.map (·.name))
    (hfresh : task.name ∉ path) :
    config.Appends path order [task.name] (.ok (middle ++ [task])) := by
  obtain ⟨hmiddle, hgrows, hmem⟩ := h
  have hreach : ∀ n, Reaches config.tasks task.prerequisites n →
      Reaches config.tasks [task.name] n := by
    intro n hn
    rw [← prerequisitesOf_eq htask] at hn
    exact hn.of_prerequisites
  have hself : Reaches config.tasks [task.name] task.name :=
    reaches_of_mem (List.mem_singleton_self _)
  have hnew' : task.name ∉ middle.map (·.name) := by
    intro hin
    obtain ⟨t, ht, hname⟩ := List.mem_map.mp hin
    rcases hgrows.fresh t ht with hold | ⟨hoff, -⟩
    · exact hnew (List.mem_map.mpr ⟨t, hold, hname⟩)
    · exact hoff (by simp [hname])
  have hgrows' : Grows (fun n => n ∉ path ∧ Reaches config.tasks [task.name] n) order middle :=
    hgrows.mono fun n hn => ⟨fun hin => hn.1 (List.mem_append_left _ hin), hreach n hn.2⟩
  exact ⟨hmiddle.concat htask hnew' hmem, hgrows'.concat ⟨hfresh, hself⟩, by simp⟩

theorem Appends.cons {middle : List Task} (first : config.Appends path order [name] (.ok middle))
    (later : config.Appends path middle names (.ok order')) :
    config.Appends path order (name :: names) (.ok order') := by
  obtain ⟨-, hgrows, hmem⟩ := first
  obtain ⟨hfinal, hgrows', hmem'⟩ := later
  refine ⟨hfinal, ?_, ?_⟩
  · exact (hgrows.mono fun _ h => ⟨h.1, h.2.mono (by simp)⟩).trans
      (hgrows'.mono fun _ h => ⟨h.1, h.2.mono (List.subset_cons_self ..)⟩)
  · have hname := List.map_subset _ hgrows'.initial.subset (hmem (List.mem_singleton_self _))
    exact List.cons_subset.mpr ⟨hname, hmem'⟩

/-- A search that ends well makes an order of an order. -/
theorem Puts.appends_ok (hnamed : config.Named) (h : config.Puts path order names (.ok order'))
    (horder : config.IsOrder order) : config.Appends path order names (.ok order') := by
  generalize hresult : Except.ok order' = result at h
  induction h generalizing order' with
  | nil =>
    obtain rfl := Except.ok.inj hresult
    exact ⟨horder, Grows.refl _ _, List.nil_subset _⟩
  | @listed path order name _ task _ known there _ ih =>
    obtain rfl := hnamed name task known
    have hfirst : config.Appends path order [task.name] (.ok order) :=
      ⟨horder, Grows.refl _ _, by simpa using there⟩
    subst hresult
    exact hfirst.cons (ih horder rfl)
  | @put path order middle name _ task _ known new offPath _ _ ihInner ihLater =>
    obtain rfl := hnamed name task known
    have hfirst := (ihInner horder rfl).close known new offPath
    subst hresult
    exact hfirst.cons (ihLater hfirst.1 rfl)
  | unknown | back | stuck => cases hresult

/-- A search fails for a reason, if the path leads to each of the names. -/
theorem Puts.explains {fault : Fault} (hnamed : config.Named)
    (h : config.Puts path order names (.error fault))
    (hchain : ∀ name ∈ names, (path ++ [name]).IsChain (Lists config.tasks)) :
    Explains config.tasks path names fault := by
  generalize hresult : Except.error fault = result at h
  induction h with
  | nil => cases hresult
  | unknown missing =>
    obtain rfl := Except.error.inj hresult
    exact ⟨by simp [NameMap.contains, missing], reaches_of_mem (List.mem_cons_self ..)⟩
  | listed _ _ _ ih | put _ _ _ _ _ _ ih =>
    exact (ih (fun n hn => hchain n (List.mem_cons_of_mem _ hn)) hresult).mono
      (fun _ => Reaches.mono (List.subset_cons_self ..)) fun _ => .inl
  | @back path _ name _ task known _ onPath =>
    obtain rfl := Except.error.inj hresult
    obtain rfl := hnamed name task known
    refine ⟨isCycle_of_mem (hchain _ (List.mem_cons_self ..)) onPath, fun n hn => .inl ?_⟩
    rcases List.mem_append.mp hn with hn | hn
    · exact (path.dropWhile_suffix _).subset hn
    · rwa [List.mem_singleton.mp hn]
  | @stuck path _ name rest task _ known _ _ _ ih =>
    obtain rfl := hnamed name task known
    have hprerequisites : ∀ n, n ∈ task.prerequisites ↔ Lists config.tasks task.name n := by
      simp [Lists, prerequisitesOf_eq known]
    have hself : Reaches config.tasks (task.name :: rest) task.name :=
      reaches_of_mem (List.mem_cons_self ..)
    -- the path leads on to the prerequisites, which are reached from the task
    refine (ih (fun n hn => ?_) hresult).mono ?_ fun n hn => ?_
    · have hname := hchain _ (List.mem_cons_self ..)
      refine List.isChain_append.mpr ⟨hname, List.isChain_singleton _, ?_⟩
      simpa using (hprerequisites n).mp hn
    · rintro n ⟨a, ha, hreach⟩
      exact ⟨task.name, List.mem_cons_self .., .head ((hprerequisites a).mp ha) hreach⟩
    · rcases List.mem_append.mp hn with hn | hn
      · exact .inl hn
      · rw [List.mem_singleton.mp hn]
        exact .inr hself

/-! ### The bound on the depth -/

theorem Puts.cons {middle : List Task} {result : Except Fault (List Task)}
    (first : config.Puts path order [name] (.ok middle))
    (later : config.Puts path middle names result) :
    config.Puts path order (name :: names) result := by
  cases first with
  | listed known there rest =>
    cases rest
    exact .listed known there later
  | put known new offPath inner rest =>
    cases rest
    exact .put known new offPath inner later

theorem Puts.cons_error {fault : Fault} (first : config.Puts path order [name] (.error fault)) :
    config.Puts path order (name :: names) (.error fault) := by
  cases first with
  | unknown missing => exact .unknown missing
  | listed _ _ rest => cases rest
  | back known new onPath => exact .back known new onPath
  | stuck known new offPath inner => exact .stuck known new offPath inner
  | put _ _ _ _ rest => cases rest

/-- Names are put into an order one after the other, if each of them is put into any order. -/
theorem puts_foldlM {visit : List Task → String → Except Fault (List Task)}
    (hvisit : ∀ order, ∀ name ∈ names, config.Puts path order [name] (visit order name)) :
    config.Puts path order names (names.foldlM visit order) := by
  induction names generalizing order with
  | nil => exact .nil
  | cons name rest ih =>
    have hfirst := hvisit order name (List.mem_cons_self ..)
    rw [List.foldlM_cons]
    cases hname : visit order name with
    | error fault => exact (hname ▸ hfirst).cons_error
    | ok middle =>
      exact (hname ▸ hfirst).cons (ih fun order n hn => hvisit order n (List.mem_cons_of_mem _ hn))

/-- The bound is not met: the path holds tasks of the table, none of them twice. -/
theorem puts_visit (hnamed : config.Named) (bound : Nat) {path : List String} {task : Task}
    (hbound : config.tasks.size < path.length + bound) (hnodup : path.Nodup)
    (hpath : path ⊆ config.tasks.keys) (htask : config.tasks.get? task.name = some task)
    {order : List Task} :
    config.Puts path order [task.name] (config.visit bound path order task) := by
  induction bound generalizing path task order with
  | zero =>
    have hshort : path.length ≤ config.tasks.keys.length := (hnodup.subperm hpath).length_le
    have hsize : config.tasks.keys.length = config.tasks.size := List.length_map ..
    omega
  | succ bound ih =>
    rw [visit]
    split
    · next hdone => exact .listed htask (by simpa using hdone) .nil
    · next hnew =>
      have hnew : task.name ∉ order.map (·.name) := by simpa using hnew
      split
      · next hback => exact .back htask hnew hback
      · next hfresh =>
        have hkey : task.name ∈ config.tasks.keys :=
          NameMap.contains_iff_mem_keys.mp (Option.isSome_of_eq_some htask)
        have hinner : config.Puts (path ++ [task.name]) order task.prerequisites
            (task.prerequisites.foldlM (fun order name => do
              config.visit bound (path ++ [task.name]) order (← config.lookUp name)) order) := by
          refine puts_foldlM fun order name hname => ?_
          cases hget : config.tasks.get? name with
          | none =>
            simp only [lookUp, hget]
            exact .unknown hget
          | some prerequisite =>
            obtain rfl := hnamed name prerequisite hget
            simp only [lookUp, hget]
            -- the path is longer by one task
            refine ih ?_ ?_ ?_ hget
            · rw [List.length_append, List.length_singleton]
              omega
            · exact List.nodup_append.mpr ⟨hnodup, List.nodup_singleton _, by grind⟩
            · exact List.append_subset.mpr ⟨hpath, by simpa using hkey⟩
        generalize (List.foldlM _ order task.prerequisites : Except Fault (List Task)) = result
          at hinner ⊢
        cases result with
        | error fault => exact .stuck htask hnew hfresh hinner
        | ok middle => exact .put htask hnew hfresh hinner .nil

/-- A task that is asked for is put into an order of its own. -/
theorem puts_taskOrder (hnamed : config.Named) (name : String) :
    config.Puts [] [] [name] (config.taskOrder name false) := by
  cases hget : config.tasks.get? name with
  | none =>
    simp only [taskOrder, lookUp, hget]
    exact .unknown hget
  | some task =>
    obtain rfl := hnamed name task hget
    simp only [taskOrder, lookUp, hget]
    exact puts_visit hnamed _ (by simp) List.nodup_nil (List.nil_subset _) hget

/-- What comes of asking for a task. -/
theorem appends_taskOrder (hnamed : config.Named) (name : String) :
    config.Appends [] [] [name] (config.taskOrder name false) := by
  have hputs := puts_taskOrder hnamed name
  cases horder : config.taskOrder name false with
  | ok order =>
    rw [horder] at hputs
    exact hputs.appends_ok hnamed (isOrder_nil config)
  | error fault =>
    rw [horder] at hputs
    exact hputs.explains hnamed fun _ _ => List.isChain_singleton _

/-- No order is empty, since it has at least the task that is asked for. -/
theorem taskOrder_ne_nil {skipPrerequisites : Bool}
    (h : config.taskOrder name skipPrerequisites = .ok order) : order ≠ [] := by
  cases htask : config.lookUp name with
  | error fault =>
    rw [taskOrder, htask] at h
    cases h
  | ok task =>
    rw [taskOrder, htask] at h
    cases skipPrerequisites with
    | true =>
      obtain rfl := Except.ok.inj h
      simp
    | false =>
      change config.visit (config.tasks.size + 1) [] [] task = .ok order at h
      rw [visit, if_neg (by simp), if_neg List.not_mem_nil] at h
      generalize (List.foldlM _ _ task.prerequisites : Except Fault (List Task)) = front at h
      cases front with
      | error fault => cases h
      | ok front =>
        obtain rfl := Except.ok.inj h
        simp

/-- A task has an order if all that it leads to is known and does not lead back to itself. -/
theorem exists_taskOrder_iff (hnamed : config.Named) (name : String) :
    (∃ order, config.taskOrder name false = .ok order) ↔
      ∀ n, ReflTransGen (Lists config.tasks) name n →
        config.tasks.contains n = true ∧ ¬ TransGen (Lists config.tasks) n n := by
  have happends := appends_taskOrder hnamed name
  constructor
  · rintro ⟨order, horder⟩ n hreach
    rw [horder] at happends
    obtain ⟨horder, -, hname⟩ := happends
    have hmem := horder.mem_of_reaches hname ⟨name, List.mem_singleton_self _, hreach⟩
    refine ⟨?_, horder.not_transGen hmem⟩
    obtain ⟨task, htask, rfl⟩ := List.mem_map.mp hmem
    exact Option.isSome_of_eq_some (horder.known task htask)
  · intro hall
    cases horder : config.taskOrder name false with
    | ok order => exact ⟨order, rfl⟩
    | error fault =>
      rw [horder] at happends
      cases fault with
      | unknownTask unknown =>
        obtain ⟨hunknown, a, ha, hreach⟩ := happends
        rw [List.mem_singleton.mp ha] at hreach
        simp [(hall unknown hreach).1] at hunknown
      | cycle cycle =>
        obtain ⟨hcycle, hwhere⟩ := happends
        obtain ⟨n, hn, hback⟩ := hcycle.exists_transGen
        obtain ⟨a, ha, hreach⟩ := (hwhere n hn).resolve_left List.not_mem_nil
        rw [List.mem_singleton.mp ha] at hreach
        exact absurd hback (hall n hreach).2

/-! ### Two ways to look for cycles -/

/-- All tasks have an order if and only if there is no cycle. -/
theorem exists_taskOrder_iff_acyclic (hnamed : config.Named)
    (hknown : PrerequisitesKnown config.tasks) :
    (∀ name ∈ config.tasks.keys, ∃ order, config.taskOrder name false = .ok order) ↔
      ∀ name, ¬ TransGen (Lists config.tasks) name name := by
  constructor
  · intro h name hcycle
    have hall := (exists_taskOrder_iff hnamed name).mp (h name (mem_keys_of_transGen hcycle))
    exact (hall name .refl).2 hcycle
  · intro hacyclic name hname
    refine (exists_taskOrder_iff hnamed name).mpr fun n hreach => ⟨?_, hacyclic n⟩
    -- the way from a task to its prerequisites never leaves the table
    rw [NameMap.contains_iff_mem_keys]
    cases hreach with
    | refl => exact hname
    | tail _ hlast => exact hknown.subset_keys _ hlast

/-- The prerequisites in a valid configuration are tasks, and there is no cycle of them. -/
theorem prerequisites_of_validate {valid : Config} (h : config.validate = .ok valid) :
    valid = config.withNames ∧ PrerequisitesKnown config.tasks ∧
      cycleFlaw? config.tasks = none := by
  obtain ⟨hwell, rfl⟩ := validate_eq_ok_iff.mp h
  have hknown := prerequisitesKnown_of_wellFormed hwell.tasks
  exact ⟨rfl, hknown, (cycleFlaw?_eq_none_iff hknown).mpr hwell.acyclic⟩

/-- Without its prerequisites a task is an order by itself. -/
theorem taskOrder_skip (h : config.tasks.get? name = some task) :
    config.taskOrder name true = .ok [task] := by
  simp only [taskOrder, lookUp, h]
  rfl

/-- **The check of a configuration and the search for an order agree.** If all prerequisites are
tasks, the check passes exactly if every task has an order, and that is the case exactly if there is
no cycle; if the check fails, it names a task on a cycle. In a configuration that is valid every
task has an order. -/
theorem cycleFlaw_agrees_with_taskOrder (config : Config) :
    (PrerequisitesKnown config.tasks →
      (cycleFlaw? config.tasks = none ↔
        ∀ name, config.tasks.contains name = true →
          ∃ order, config.withNames.taskOrder name false = .ok order) ∧
      (cycleFlaw? config.tasks = none ↔ ∀ name, ¬ TransGen (Lists config.tasks) name name) ∧
      ∀ flaw, cycleFlaw? config.tasks = some flaw →
        ∃ name, flaw = .prerequisiteCycle name ∧ config.tasks.contains name = true ∧
          TransGen (Lists config.tasks) name name) ∧
    ∀ valid, config.validate = .ok valid → ∀ name skipPrerequisites,
      valid.tasks.contains name = true →
        ∃ order, valid.taskOrder name skipPrerequisites = .ok order := by
  have horders : PrerequisitesKnown config.tasks → (cycleFlaw? config.tasks = none ↔
      ∀ name, config.tasks.contains name = true →
        ∃ order, config.withNames.taskOrder name false = .ok order) := by
    intro hknown
    have hnames : config.withNames.tasks.keys = config.tasks.keys := NameMap.keys_mapWithName
    have hknown' : PrerequisitesKnown config.withNames.tasks :=
      (prerequisitesKnown_withNames config).mpr hknown
    rw [cycleFlaw?_eq_none_iff hknown, ← lists_withNames,
      ← exists_taskOrder_iff_acyclic (named_withNames config) hknown', hnames]
    simp only [NameMap.contains_iff_mem_keys]
  constructor
  · intro hknown
    exact ⟨horders hknown, cycleFlaw?_eq_none_iff hknown,
      fun flaw => transGen_of_cycleFlaw?_eq_some hknown⟩
  · intro valid hvalid name skipPrerequisites hname
    obtain ⟨rfl, hknown, hcycle⟩ := prerequisites_of_validate hvalid
    cases skipPrerequisites with
    | true =>
      obtain ⟨task, htask⟩ := Option.isSome_iff_exists.mp hname
      exact ⟨_, taskOrder_skip htask⟩
    | false =>
      rw [contains_withNames] at hname
      exact (horders hknown).mp hcycle name hname

end Config

namespace Sample

/-- A task that runs the only container there is. -/
def runsApp (prerequisites : List String) : Task :=
  { (default : Task) with prerequisites, run := some ⟨"app", none, .empty, none⟩ }

/-- Three tasks with their prerequisites. -/
def threeTasks (all left right : List String) : Config where
  settings := .standard
  containers := .ofList [("app", { (default : Container) with image := some "app" })]
  tasks := .ofList [("all", runsApp all), ("left", runsApp left), ("right", runsApp right)]

end Sample

/-- Of two tasks that list each other one is named, and the first task, from which they are reached,
has no order either. Without the second of these entries all is well. -/
theorem Config.cycleFlaw_agrees_with_taskOrder_threeTasks :
    (PrerequisitesKnown (Sample.threeTasks ["left"] ["right"] ["left"]).tasks ∧
      cycleFlaw? (Sample.threeTasks ["left"] ["right"] ["left"]).tasks =
        some (.prerequisiteCycle "right") ∧
      TransGen (Lists (Sample.threeTasks ["left"] ["right"] ["left"]).tasks) "right" "right" ∧
      ¬ ∀ name, (Sample.threeTasks ["left"] ["right"] ["left"]).tasks.contains name = true →
        ∃ order, (Sample.threeTasks ["left"] ["right"] ["left"]).withNames.taskOrder name false =
          .ok order) ∧
    ∃ valid, (Sample.threeTasks ["left"] ["right"] []).validate = .ok valid ∧
      valid.tasks.contains "all" = true ∧ ∃ order, valid.taskOrder "all" false = .ok order := by
  constructor
  · have hknown : PrerequisitesKnown (Sample.threeTasks ["left"] ["right"] ["left"]).tasks := by
      decide +kernel
    have hflaw : cycleFlaw? (Sample.threeTasks ["left"] ["right"] ["left"]).tasks =
        some (.prerequisiteCycle "right") := by decide +kernel
    obtain ⟨hiff, -, hnamed⟩ := (cycleFlaw_agrees_with_taskOrder _).1 hknown
    obtain ⟨name, hname, -, hcycle⟩ := hnamed _ hflaw
    obtain rfl := Flaw.prerequisiteCycle.inj hname
    refine ⟨hknown, hflaw, hcycle, fun hall => ?_⟩
    rw [hiff.mpr hall] at hflaw
    cases hflaw
  · have hvalid : (Sample.threeTasks ["left"] ["right"] []).validate =
        .ok (Sample.threeTasks ["left"] ["right"] []).withNames := by decide +kernel
    have hknown :
        (Sample.threeTasks ["left"] ["right"] []).withNames.tasks.contains "all" = true := by
      decide +kernel
    exact ⟨_, hvalid, hknown, (cycleFlaw_agrees_with_taskOrder _).2 _ hvalid "all" false hknown⟩

end ContainerTasks
