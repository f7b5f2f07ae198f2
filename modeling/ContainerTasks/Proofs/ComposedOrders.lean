import ContainerTasks.Proofs.TaskOrders

/-!
# Orders made of orders

A search for the order of a task goes into the prerequisites one after the other, and the order
that it has so far decides what it passes over. What it appends is nonetheless what the
prerequisites come to by themselves, less what is there already. The reason is that an order is
closed: with a task it has all that the task leads to. So two searches for the same names, one of
which starts with more, run side by side until the one with more passes a task over, and what the
other appends for this task and its prerequisites is something that the first one has.

It follows that the order of a task is made of the orders of its prerequisites, in the order in
which they are listed, and of the task, with repetitions left out.

## Main definitions

* `Config.IsOrderOf`: what the order of a task is

## Main results

* `Config.Puts.unique`: a search comes to one result only
* `Config.Puts.appends_new`: the same names in a longer order
* `Config.Puts.eq_eraseDups`: names are put into an order by appending the orders that they have
* `Config.taskOrder_characterized`
-/

namespace ContainerTasks

open Relation
open TaskOrder (Fault)

/-! ### First occurrences -/

section FirstOccurrences

variable {α : Type} [DecidableEq α] {l l' : List α}

theorem eraseDups_eq_self (hnodup : l.Nodup) : l.eraseDups = l := by
  induction l with
  | nil => rfl
  | cons a l ih =>
    obtain ⟨ha, hl⟩ := List.nodup_cons.mp hnodup
    have hnone : l.filter (fun b => !b == a) = l := by
      refine List.filter_eq_self.mpr fun b hb => ?_
      have hne : b ≠ a := fun heq => ha (heq ▸ hb)
      simpa using hne
    rw [List.eraseDups_cons, hnone, ih hl]

theorem removeAll_eq_filter : l'.removeAll l = l'.filter (· ∉ l) :=
  List.filter_congr fun a _ => by simp

/-- Of a list that follows another, that is kept which is new. -/
theorem eraseDups_append_eq (hl : l.Nodup) (hl' : l'.Nodup) :
    (l ++ l').eraseDups = l ++ l'.filter (· ∉ l) := by
  rw [List.eraseDups_append, removeAll_eq_filter, eraseDups_eq_self hl,
    eraseDups_eq_self (hl'.filter _)]

/-- What is new may be appended in two parts. -/
theorem append_filter_append {added : List α} (hnodup : (l' ++ added).Nodup) :
    l ++ l'.filter (· ∉ l) ++ added.filter (· ∉ l ++ l'.filter (· ∉ l)) =
      l ++ (l' ++ added).filter (· ∉ l) := by
  have hfresh : added.filter (· ∉ l ++ l'.filter (· ∉ l)) = added.filter (· ∉ l) := by
    refine List.filter_congr fun a ha => ?_
    have hnot : a ∉ l' := fun hmem => (List.nodup_append.mp hnodup).2.2 a hmem a ha rfl
    simp [hnot]
  rw [hfresh, List.filter_append, List.append_assoc]

theorem eraseDups_append_congr {l'' : List α} (h : l.eraseDups = l'.eraseDups) :
    (l ++ l'').eraseDups = (l' ++ l'').eraseDups := by
  have hmem : ∀ a, a ∈ l ↔ a ∈ l' := fun a => by
    rw [← List.mem_eraseDups, h, List.mem_eraseDups]
  simp only [List.eraseDups_append, removeAll_eq_filter, h, hmem]

end FirstOccurrences

namespace Config

variable {config : Config} {path names : List String} {name : String}
  {order order' : List Task} {task : Task} {result result' : Except Fault (List Task)}

/-! ### What is known of a search by its first name -/

section Inversion

variable (known : config.tasks.get? name = some task)
include known

/-- A task that the order holds is passed over. -/
theorem Puts.of_listed (h : config.Puts path order (name :: names) result)
    (there : task.name ∈ order.map (·.name)) : config.Puts path order names result := by
  cases h with
  | unknown missing => simp [missing] at known
  | listed _ _ later => exact later
  | back known' new | stuck known' new | put known' new =>
    obtain rfl := Option.some.inj (known.symm.trans known')
    exact absurd there new

/-- The search ends where the path comes back to a task. -/
theorem Puts.of_back (h : config.Puts path order (name :: names) result)
    (new : task.name ∉ order.map (·.name)) (onPath : task.name ∈ path) :
    result = .error (.cycle (path.dropWhile (· ≠ task.name) ++ [task.name])) := by
  cases h with
  | unknown missing => simp [missing] at known
  | back known' =>
    obtain rfl := Option.some.inj (known.symm.trans known')
    rfl
  | listed known' there =>
    obtain rfl := Option.some.inj (known.symm.trans known')
    exact absurd there new
  | stuck known' _ offPath | put known' _ offPath =>
    obtain rfl := Option.some.inj (known.symm.trans known')
    exact absurd onPath offPath

/-- A task that is new comes after its prerequisites, unless they cannot be put into the order. -/
theorem Puts.of_new (h : config.Puts path order (name :: names) result)
    (new : task.name ∉ order.map (·.name)) (offPath : task.name ∉ path) :
    (∃ fault, config.Puts (path ++ [task.name]) order task.prerequisites (.error fault) ∧
      result = .error fault) ∨
    ∃ middle, config.Puts (path ++ [task.name]) order task.prerequisites (.ok middle) ∧
      config.Puts path (middle ++ [task]) names result := by
  cases h with
  | unknown missing => simp [missing] at known
  | listed known' there =>
    obtain rfl := Option.some.inj (known.symm.trans known')
    exact absurd there new
  | back known' _ onPath =>
    obtain rfl := Option.some.inj (known.symm.trans known')
    exact absurd onPath offPath
  | stuck known' _ _ inner =>
    obtain rfl := Option.some.inj (known.symm.trans known')
    exact .inl ⟨_, inner, rfl⟩
  | put known' _ _ inner later =>
    obtain rfl := Option.some.inj (known.symm.trans known')
    exact .inr ⟨_, inner, later⟩

theorem Puts.of_new_ok (h : config.Puts path order (name :: names) (.ok order'))
    (new : task.name ∉ order.map (·.name)) : task.name ∉ path ∧
      ∃ middle, config.Puts (path ++ [task.name]) order task.prerequisites (.ok middle) ∧
        config.Puts path (middle ++ [task]) names (.ok order') := by
  have offPath : task.name ∉ path := by
    intro onPath
    cases h.of_back known new onPath
  refine ⟨offPath, (h.of_new known new offPath).resolve_left ?_⟩
  rintro ⟨fault, -, hfault⟩
  cases hfault

end Inversion

/-- A search comes to one result only. -/
theorem Puts.unique (h : config.Puts path order names result)
    (h' : config.Puts path order names result') : result = result' := by
  induction h generalizing result' with
  | nil =>
    cases h'
    rfl
  | unknown missing => cases h' <;> simp_all
  | listed known there _ ih => exact ih (h'.of_listed known there)
  | back known new onPath => exact (h'.of_back known new onPath).symm
  | stuck known new offPath _ ih =>
    obtain ⟨fault', inner', rfl⟩ | ⟨middle', inner', -⟩ := h'.of_new known new offPath
    · exact ih inner'
    · cases ih inner'
  | put known new offPath _ _ ihInner ihLater =>
    obtain ⟨fault', inner', -⟩ | ⟨middle', inner', later'⟩ := h'.of_new known new offPath
    · cases ihInner inner'
    · obtain rfl := Except.ok.inj (ihInner inner')
      exact ihLater later'

/-! ### The same names in a longer order -/

theorem IsOrder.mem_of_name_mem (h : config.IsOrder order)
    (htask : config.tasks.get? task.name = some task) (hname : task.name ∈ order.map (·.name)) :
    task ∈ order := by
  obtain ⟨t, ht, heq⟩ := List.mem_map.mp hname
  have hsame := h.known t ht
  rw [heq, htask, Option.some.injEq] at hsame
  exact hsame ▸ ht

theorem IsOrder.nodup_tasks (h : config.IsOrder order) : order.Nodup := h.nodup.of_map

/-- To put names into an order that has more is to append the same tasks, but for those that this
order has already. -/
theorem Puts.appends_new (hnamed : config.Named) {path' : List String} {done more done' : List Task}
    (h : config.Puts path order names (.ok done)) (h' : config.Puts path' more names (.ok done'))
    (horder : config.IsOrder order) (hmore : config.IsOrder more) (hsub : order ⊆ more) :
    ∃ new, done = order ++ new ∧ done' = more ++ new.filter (· ∉ more) := by
  generalize hresult : Except.ok done = result at h
  induction h generalizing path' more done done' with
  | nil =>
    obtain rfl := Except.ok.inj hresult
    cases h'
    exact ⟨[], by simp, by simp⟩
  | @listed path order name _ task _ known there _ ih =>
    have there' := List.map_subset (·.name) hsub there
    exact ih (h'.of_listed known there') horder hmore hsub hresult
  | @put path order middle name rest task _ known new offPath inner later ihInner ihLater =>
    obtain rfl := hnamed name task known
    subst hresult
    have hfirst := (inner.appends_ok hnamed horder).close known new offPath
    by_cases there' : task.name ∈ more.map (·.name)
    · -- the longer order has the task, and with it all that it leads to
      obtain ⟨added, hadded⟩ := hfirst.2.1.initial
      have hsub' : middle ++ [task] ⊆ more := by
        intro t ht
        rcases hfirst.2.1.fresh t ht with hold | ⟨-, hreach⟩
        · exact hsub hold
        · exact hmore.mem_of_name_mem (hfirst.1.known t ht)
            (hmore.mem_of_reaches (by simpa using there') hreach)
      obtain ⟨after, rfl, rfl⟩ := ihLater (h'.of_listed known there') hfirst.1 hmore hsub' rfl
      refine ⟨added ++ after, by rw [← hadded, List.append_assoc], ?_⟩
      have hnone : added.filter (· ∉ more) = [] := by
        refine List.filter_eq_nil_iff.mpr fun t ht => ?_
        simpa using hsub' (hadded ▸ List.mem_append_right _ ht)
      rw [List.filter_append, hnone, List.nil_append]
    · obtain ⟨offPath', middle', inner', later'⟩ := h'.of_new_ok known there'
      have hfirst' := (inner'.appends_ok hnamed hmore).close known there' offPath'
      obtain ⟨before, rfl, rfl⟩ := ihInner inner' horder hmore hsub rfl
      -- the task is new in the longer order too
      have htask : task ∉ more := fun hmem => there' (List.mem_map_of_mem hmem)
      have hfront : more ++ before.filter (· ∉ more) ++ [task] =
          more ++ (before ++ [task]).filter (· ∉ more) := by simp [htask]
      rw [hfront] at hfirst' later'
      have hsub' : order ++ before ++ [task] ⊆ more ++ (before ++ [task]).filter (· ∉ more) := by
        intro t ht
        have := @hsub t
        simp only [List.mem_append, List.mem_filter, decide_eq_true_eq] at ht ⊢
        tauto
      have hdone := (later.appends_ok hnamed hfirst.1).1.nodup_tasks
      obtain ⟨after, rfl, rfl⟩ := ihLater later' hfirst.1 hfirst'.1 hsub' rfl
      rw [List.append_assoc order, List.append_assoc order] at hdone
      exact ⟨before ++ [task] ++ after, by simp, append_filter_append hdone.of_append_right⟩
  | unknown | back | stuck => cases hresult

/-! ### Orders made of orders -/

/-- A search that ends well has put its first name into the order before it goes on. -/
theorem Puts.uncons (h : config.Puts path order (name :: names) (.ok order')) :
    ∃ middle, config.Puts path order [name] (.ok middle) ∧
      config.Puts path middle names (.ok order') := by
  cases h with
  | listed known there later => exact ⟨order, .listed known there .nil, later⟩
  | put known new offPath inner later => exact ⟨_, .put known new offPath inner .nil, later⟩

/-- Names that have orders of their own are put into an order by appending these, with every task
kept where it comes first. -/
theorem Puts.eq_eraseDups (hnamed : config.Named) {lists : List (List Task)}
    (hlists : List.Forall₂ (fun name list => config.taskOrder name false = .ok list) names lists)
    (h : config.Puts path order names (.ok order')) (horder : config.IsOrder order) :
    order' = (order ++ lists.flatten).eraseDups := by
  induction hlists generalizing order with
  | nil =>
    cases h
    rw [List.flatten_nil, List.append_nil, eraseDups_eq_self horder.nodup_tasks]
  | @cons name list names lists hlist _ ih =>
    obtain ⟨middle, hfirst, hlater⟩ := h.uncons
    have halone := puts_taskOrder hnamed name
    rw [hlist] at halone
    have hempty := isOrder_nil config
    have hown := (halone.appends_ok hnamed hempty).1.nodup_tasks
    obtain ⟨new, hnew, hmiddle⟩ :=
      halone.appends_new hnamed hfirst hempty horder (List.nil_subset _)
    rw [List.nil_append] at hnew
    subst hnew
    have hone : middle = (order ++ list).eraseDups := by
      rw [hmiddle, eraseDups_append_eq horder.nodup_tasks hown]
    have hmiddle' := (hfirst.appends_ok hnamed horder).1
    calc order' = (middle ++ lists.flatten).eraseDups := ih hlater hmiddle'
      _ = (order ++ list ++ lists.flatten).eraseDups :=
        eraseDups_append_congr (by rw [eraseDups_eq_self hmiddle'.nodup_tasks, hone])
      _ = (order ++ (list :: lists).flatten).eraseDups := by
        rw [List.flatten_cons, List.append_assoc]

/-! ### The order of a task -/

/-- What the order of a task is: all that the task leads to, none of it twice, each task after its
prerequisites, and the task last. It is made of the orders of the prerequisites. -/
structure IsOrderOf (config : Config) (name : String) (order : List Task) : Prop
    extends config.IsOrder order where
  mem_iff : ∀ n, n ∈ order.map (·.name) ↔ ReflTransGen (Lists config.tasks) name n
  last : order.getLast? = config.tasks.get? name
  composed : ∃ task lists, config.tasks.get? name = some task ∧
    List.Forall₂ (fun prerequisite list => config.taskOrder prerequisite false = .ok list)
      task.prerequisites lists ∧
    order = (lists.flatten ++ [task]).eraseDups

/-- If a task has an order, then so has each of its prerequisites. -/
theorem exists_prerequisiteOrders (hnamed : config.Named)
    (hordered : ∃ order, config.taskOrder name false = .ok order)
    (htask : config.tasks.get? name = some task) :
    ∃ lists, List.Forall₂ (fun prerequisite list => config.taskOrder prerequisite false = .ok list)
      task.prerequisites lists := by
  have hall := (exists_taskOrder_iff hnamed name).mp hordered
  have heach : ∀ p ∈ task.prerequisites, ∃ list, config.taskOrder p false = .ok list := by
    intro p hp
    have hlists : Lists config.tasks name p := by rwa [Lists, prerequisitesOf_eq htask]
    exact (exists_taskOrder_iff hnamed p).mpr fun n hreach => hall n (.head hlists hreach)
  choose! list hlist using heach
  exact ⟨task.prerequisites.map list, by rwa [List.forall₂_map_right_iff, List.forall₂_same]⟩

theorem isOrderOf_taskOrder (hnamed : config.Named)
    (horder : config.taskOrder name false = .ok order) : config.IsOrderOf name order := by
  have hputs := puts_taskOrder hnamed name
  rw [horder] at hputs
  have hempty := isOrder_nil config
  obtain ⟨his, hgrows, hname⟩ := hputs.appends_ok hnamed hempty
  obtain ⟨task, ht, rfl⟩ := List.mem_map.mp (hname (List.mem_singleton_self name))
  have htask := his.known task ht
  obtain ⟨-, middle, hinner, hend⟩ := hputs.of_new_ok htask List.not_mem_nil
  cases hend
  obtain ⟨lists, hlists⟩ := exists_prerequisiteOrders hnamed ⟨_, horder⟩ htask
  have hmiddle : middle = lists.flatten.eraseDups := by
    simpa using hinner.eq_eraseDups hnamed hlists hempty
  refine ⟨his, fun n => ⟨fun hn => ?_, fun hreach => ?_⟩, ?_, task, lists, htask, hlists, ?_⟩
  · obtain ⟨t, ht, rfl⟩ := List.mem_map.mp hn
    obtain hin | ⟨-, a, ha, hreach⟩ := hgrows.fresh t ht
    · cases hin
    · rwa [List.mem_singleton.mp ha] at hreach
  · exact his.mem_of_reaches hname ⟨_, List.mem_singleton_self _, hreach⟩
  · rw [List.getLast?_concat, htask]
  · rw [← eraseDups_eq_self his.nodup_tasks, hmiddle]
    exact eraseDups_append_congr (eraseDups_eq_self (hmiddle ▸ his.nodup_tasks.of_append_left))

/-- **The order of a task.** The search for it comes to an end without a bound on its depth, and to
what is computed. There is an order exactly if all that the task leads to is known and none of it
leads back to itself. The order has exactly these tasks, none twice, each after its prerequisites
and the task itself at the end, and it is made of the orders of the prerequisites, in turn, with
every task kept where it comes first. A cycle that is reported is one, and a task that is reported
as unknown is the one that was asked for or a prerequisite of one that was reached. The message says
so: it shows the cycle task by task, or the name of the unknown task. -/
theorem taskOrder_characterized (hnamed : config.Named) (name : String) :
    (∀ result, config.Puts [] [] [name] result ↔ result = config.taskOrder name false) ∧
    ((∃ order, config.taskOrder name false = .ok order) ↔
      ∀ n, ReflTransGen (Lists config.tasks) name n →
        config.tasks.contains n = true ∧ ¬ TransGen (Lists config.tasks) n n) ∧
    (∀ order, config.taskOrder name false = .ok order → config.IsOrderOf name order) ∧
    (∀ cycle, config.taskOrder name false = .error (.cycle cycle) →
      IsCycle config.tasks cycle ∧
        (Fault.cycle cycle).message =
          "Cycle detected in task prerequisites: cycle detected in task prerequisites: " ++
            " -> ".intercalate cycle) ∧
    ∀ unknown, config.taskOrder name false = .error (.unknownTask unknown) →
      config.tasks.contains unknown = false ∧
        (unknown = name ∨
          ∃ a, ReflTransGen (Lists config.tasks) name a ∧ Lists config.tasks a unknown) ∧
        (Fault.unknownTask unknown).message = "Task not found: " ++ unknown := by
  have hputs := puts_taskOrder hnamed name
  have happends := appends_taskOrder hnamed name
  refine ⟨fun result => ⟨fun h => h.unique hputs, fun h => h ▸ hputs⟩,
    exists_taskOrder_iff hnamed name, fun order => isOrderOf_taskOrder hnamed, ?_, ?_⟩
  · intro cycle hcycle
    rw [hcycle] at happends
    exact ⟨happends.1, rfl⟩
  · intro unknown hunknown
    rw [hunknown] at happends
    obtain ⟨hmissing, a, ha, hreach⟩ := happends
    rw [List.mem_singleton.mp ha] at hreach
    refine ⟨hmissing, ?_, rfl⟩
    cases hreach with
    | refl => exact .inl rfl
    | tail hreach hlast => exact .inr ⟨_, hreach, hlast⟩

/-- The first of three tasks lists the other two, and one of these lists the other as well: each
comes once, and the one that both list comes first. Where two tasks list each other, the path that
is reported starts at the one that it comes back to. A prerequisite that is not a task is reported
also if it is not the requested task that lists it. -/
theorem taskOrder_characterized_threeTasks :
    (Sample.threeTasks ["right", "left"] [] ["left"]).withNames.Named ∧
    (∃ order, (Sample.threeTasks ["right", "left"] [] ["left"]).withNames.taskOrder "all" false =
        .ok order ∧ order.map (·.name) = ["left", "right", "all"] ∧
      (Sample.threeTasks ["right", "left"] [] ["left"]).withNames.IsOrderOf "all" order) ∧
    ((Sample.threeTasks ["left"] ["right"] ["left"]).withNames.taskOrder "all" false =
        .error (.cycle ["left", "right", "left"]) ∧
      IsCycle (Sample.threeTasks ["left"] ["right"] ["left"]).withNames.tasks
        ["left", "right", "left"] ∧
      (Fault.cycle ["left", "right", "left"]).message =
        "Cycle detected in task prerequisites: cycle detected in task prerequisites: " ++
          "left -> right -> left") ∧
    (Sample.threeTasks ["left"] ["gone"] []).withNames.taskOrder "all" false =
        .error (.unknownTask "gone") ∧
      (∃ a, ReflTransGen (Lists (Sample.threeTasks ["left"] ["gone"] []).withNames.tasks) "all" a ∧
        Lists (Sample.threeTasks ["left"] ["gone"] []).withNames.tasks a "gone") ∧
      (Fault.unknownTask "gone").message = "Task not found: gone" := by
  have hcycle : (Sample.threeTasks ["left"] ["right"] ["left"]).withNames.taskOrder "all" false =
      .error (.cycle ["left", "right", "left"]) := by decide +kernel
  have hunknown : (Sample.threeTasks ["left"] ["gone"] []).withNames.taskOrder "all" false =
      .error (.unknownTask "gone") := by decide +kernel
  have horder : ((Sample.threeTasks ["right", "left"] [] ["left"]).withNames.taskOrder "all"
      false).map (·.map (·.name)) = .ok ["left", "right", "all"] := by decide +kernel
  refine ⟨named_withNames _, ?_, ⟨hcycle, ?_⟩, hunknown, ?_, rfl⟩
  · obtain ⟨-, -, hok, -⟩ := taskOrder_characterized
      (named_withNames (Sample.threeTasks ["right", "left"] [] ["left"])) "all"
    cases hfound : (Sample.threeTasks ["right", "left"] [] ["left"]).withNames.taskOrder "all"
        false with
    | error fault =>
      rw [hfound] at horder
      cases horder
    | ok order =>
      rw [hfound] at horder
      exact ⟨order, rfl, Except.ok.inj horder, hok order hfound⟩
  · obtain ⟨-, -, -, herror, -⟩ := taskOrder_characterized
      (named_withNames (Sample.threeTasks ["left"] ["right"] ["left"])) "all"
    exact herror _ hcycle
  · obtain ⟨-, -, -, -, herror⟩ := taskOrder_characterized
      (named_withNames (Sample.threeTasks ["left"] ["gone"] [])) "all"
    obtain ⟨-, hlisted, -⟩ := herror _ hunknown
    exact hlisted.resolve_left (by decide)

end Config

end ContainerTasks
