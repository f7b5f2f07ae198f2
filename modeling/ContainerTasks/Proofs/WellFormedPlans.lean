import ContainerTasks.Proofs.SequentialPlans

/-!
# The plan of the first stage has what the graph asks for

What a plan of the first stage should hold is said from the graph alone, duty by duty: the rules of
a duty, as they stand in the plan, are given as a list, which has one rule or none. So it is said at
once that a rule is there, that it has the right terms and that there is no second one. Setup
commands are the one case in which several rules are given together, since their order counts.

The rules for images do not belong to one container. An image is pulled for the first container that
wants it, and whether it is pulled each time depends on all of them.

## Main definitions

* `Plan.WellFormed`: what is asked of a plan of the first stage

## Main results

* `Plan.filter_duty_of_serves`, `Plan.filter_duty_of_not_serves`: the rules of one duty
* `Plan.filter_checkHealth_forRun`, `Plan.filter_isSetUpOf_forRun`, `Plan.filter_markReady_forRun`:
  the rules by which a container is made ready
* `Plan.eq_buildImage_of_mem_forRun`, `Plan.eq_pullImage_of_mem_forRun`: the rules for images
* `Plan.wellFormed_forRun`
-/

namespace ContainerTasks

/-- The duty is to carry out a setup command of the container. -/
def Duty.isSetUpOf (c : String) : Duty → Bool
  | setUp container _ => container = c
  | _ => false

namespace Plan

/-- What is asked of a plan of the first stage. -/
structure WellFormed (g : Graph) (rules : List Rule) : Prop where
  /-- The network comes first, and nowhere else. -/
  network_first : ∃ rest, rules = .prepareNetwork :: rest ∧ .prepareNetwork ∉ rest
  create_once : ∀ n node, g.node? n = some node →
    rules.filter (·.duty = .create n) = [.createContainer node.container node.dependsOn]
  /-- The main container, and no other, is run to its end. -/
  run_once : ∀ n node, g.node? n = some node →
    rules.filter (·.duty = .run n) = [.runContainer n (g.root = some n)]
  build_once : ∀ n node, g.node? n = some node → rules.filter (·.duty = .build n) =
    if node.container.buildDirectory.isSome then [.buildImage node.container] else []
  /-- An image is pulled once for all containers that want it, and each time if one of them asks for
  that. -/
  pull_once : ∀ imageName,
    (∃ n node policy, g.node? n = some node ∧
      node.container.imageSource = .pull imageName policy) →
    ∃ policy, rules.filter (·.duty = .pull imageName) = [.pullImage imageName policy] ∧
      (policy = .always ↔ ∃ n node, g.node? n = some node ∧
        node.container.imageSource = .pull imageName .always)
  pull_wanted : ∀ imageName policy, .pullImage imageName policy ∈ rules →
    ∃ n node wanted, g.node? n = some node ∧ node.container.imageSource = .pull imageName wanted
  /-- The main container is not checked for its health, even if it has a health check. -/
  health_once : ∀ n node, g.node? n = some node → rules.filter (·.duty = .checkHealth n) =
    if g.root ≠ some n ∧ node.container.hasHealthCheck then [.awaitHealth n] else []
  setUp_inOrder : ∀ n node, g.node? n = some node → rules.filter (·.duty.isSetUpOf n) =
    if g.root ≠ some n then node.container.setupCommands.mapIdx fun index command =>
      .runSetupCommand n command index node.container.hasHealthCheck
    else []
  ready_once : ∀ n node, g.node? n = some node → rules.filter (·.duty = .markReady n) =
    if g.root ≠ some n then
      [.markReady n node.container.setupCommands.length node.container.hasHealthCheck]
    else []
  /-- The plan is about containers of the graph. -/
  within : ∀ r ∈ rules, ∀ n, r.duty.container? = some n → g.contains n = true
  making : ∀ r ∈ rules, r.duty.isCleanup = false
  nodup : rules.Nodup
  /-- Once all rules before it have had success, no rule has to wait. -/
  executable : ∀ front r rest, rules = front ++ r :: rest → ∀ h : History,
    (∀ r' ∈ front, ∃ e ∈ h, r'.Achieves e) → r.evaluate h ≠ .notReady

/-! ### Rules of one duty -/

/-- Where no two elements have the same image, one element has the image it has. -/
theorem filter_eq_singleton {α β : Type} [DecidableEq β] {l : List α} {f : α → β} {a : α}
    (hnodup : (l.map f).Nodup) (ha : a ∈ l) : l.filter (f · = f a) = [a] := by
  induction l with
  | nil => cases ha
  | cons b l ih =>
    obtain ⟨hb, hl⟩ := List.nodup_cons.mp hnodup
    rcases List.mem_cons.mp ha with rfl | ha
    · rw [List.filter_cons_of_pos (by simp), List.filter_eq_nil_iff.mpr]
      intro b hmem heq
      exact hb (List.mem_map.mpr ⟨b, hmem, of_decide_eq_true heq⟩)
    · have hne : f b ≠ f a := fun heq => hb (heq ▸ List.mem_map_of_mem ha)
      rw [List.filter_cons_of_neg (by simpa using hne), ih hl ha]

variable {g : Graph} {n : String} {node : Graph.Node} {r : Rule} {d : Duty}
  {containers : List Container} {pulled : List String} {nodes : List Graph.Node}

section Filter

variable (hg : g.Sound) (hnode : g.node? n = some node)
include hg hnode

theorem filter_duty_of_serves (hserves : Serves node r) (hd : r.duty = d) :
    (forRun g).filter (·.duty = d) = [r] := by
  subst hd
  exact filter_eq_singleton (nodup_duty_forRun hg) (mem_forRun_of_serves hg hnode hserves)

/-- A duty of a container for which it has no rule is not in the plan. -/
theorem filter_duty_of_not_serves (hd : d.container? = some n) (hbuild : d ≠ .build n)
    (hnone : ∀ r, Serves node r → r.duty ≠ d) : (forRun g).filter (·.duty = d) = [] := by
  refine List.filter_eq_nil_iff.mpr fun r hr heq => ?_
  obtain rfl := of_decide_eq_true heq
  obtain ⟨node', hnode', hserves⟩ := serves_of_mem_forRun hg hr hd hbuild
  rw [hnode, Option.some.injEq] at hnode'
  exact hnone r (hnode' ▸ hserves) rfl

/-- All containers but the main one are checked for their health, if they have a health check. -/
theorem filter_checkHealth_forRun : (forRun g).filter (·.duty = .checkHealth n) =
    if g.root ≠ some n ∧ node.container.hasHealthCheck then [.awaitHealth n] else [] := by
  obtain rfl := hg.name_eq hnode
  split
  · next h =>
    exact filter_duty_of_serves hg hnode (.checkHealth ((hg.isRoot_eq_false_iff hnode).mpr h.1) h.2)
      rfl
  · next h =>
    refine filter_duty_of_not_serves hg hnode rfl (by simp) fun r hserves hd => h ?_
    cases hserves <;> simp only [Rule.duty, reduceCtorEq] at hd
    next side has => exact ⟨(hg.isRoot_eq_false_iff hnode).mp side, has⟩

/-- All containers but the main one are made ready. -/
theorem filter_markReady_forRun : (forRun g).filter (·.duty = .markReady n) =
    if g.root ≠ some n then
      [.markReady n node.container.setupCommands.length node.container.hasHealthCheck]
    else [] := by
  obtain rfl := hg.name_eq hnode
  split
  · next h =>
    exact filter_duty_of_serves hg hnode (.markReady ((hg.isRoot_eq_false_iff hnode).mpr h)) rfl
  · next h =>
    refine filter_duty_of_not_serves hg hnode rfl (by simp) fun r hserves hd => h ?_
    cases hserves <;> simp only [Rule.duty, reduceCtorEq] at hd
    next side => exact (hg.isRoot_eq_false_iff hnode).mp side

end Filter

theorem filter_isSetUpOf_imageRules (c : String) (container : Container) :
    (imageRules containers pulled container).filter (·.duty.isSetUpOf c) = [] := by
  refine List.filter_eq_nil_iff.mpr fun r hr => ?_
  rw [(duty_of_mem_imageRules hr).1, Container.imageDuty]
  split <;> simp [Duty.isSetUpOf]

theorem filter_isSetUpOf_containerRules (c : String) (node : Graph.Node) :
    (containerRules node).filter (·.duty.isSetUpOf c) =
      if node.container.name = c ∧ node.isRoot = false then
        node.container.setupCommands.mapIdx fun index command =>
          .runSetupCommand node.container.name command index node.container.hasHealthCheck
      else [] := by
  have hcommands : ∀ r ∈ node.container.setupCommands.mapIdx fun index command =>
      Rule.runSetupCommand node.container.name command index node.container.hasHealthCheck,
      r.duty.isSetUpOf c = decide (node.container.name = c) := by
    intro r hr
    obtain ⟨index, -, rfl⟩ := List.mem_mapIdx.mp hr
    rfl
  have hother : (containerRules node).filter (·.duty.isSetUpOf c) =
      if node.isRoot then [] else (node.container.setupCommands.mapIdx fun index command =>
        .runSetupCommand node.container.name command index
          node.container.hasHealthCheck).filter (·.duty.isSetUpOf c) := by
    unfold containerRules readinessRules
    cases node.isRoot <;> cases node.container.hasHealthCheck <;>
      simp [Rule.duty, Duty.isSetUpOf]
  rw [hother]
  by_cases hname : node.container.name = c
  · rw [List.filter_eq_self.mpr fun r hr => by rw [hcommands r hr, decide_eq_true hname]]
    cases node.isRoot <;> simp [hname]
  · rw [List.filter_eq_nil_iff.mpr fun r hr => by simp [hcommands r hr, hname]]
    simp [hname]

/-- The setup commands of a container are carried out by the rules of that container. -/
theorem filter_isSetUpOf_nodeRules (c : String) :
    (nodeRules containers pulled nodes).filter (·.duty.isSetUpOf c) =
      nodes.flatMap fun node => (containerRules node).filter (·.duty.isSetUpOf c) := by
  induction nodes generalizing pulled with
  | nil => rfl
  | cons node rest ih =>
    rw [nodeRules, List.filter_append, List.filter_append, filter_isSetUpOf_imageRules,
      List.nil_append, ih, List.flatMap_cons]

theorem filter_isSetUpOf_forRun (hg : g.Sound) (hnode : g.node? n = some node) :
    (forRun g).filter (·.duty.isSetUpOf n) =
      (containerRules node).filter (·.duty.isSetUpOf n) := by
  obtain rfl := hg.name_eq hnode
  obtain ⟨front, rest, hsplit⟩ := List.append_of_mem (hg.mem_inOrder.mpr ⟨_, hnode⟩)
  have hnames : (g.inOrder.map (·.container.name)).Nodup := hg.map_name_inOrder ▸ hg.nodup_order
  have hother : ∀ nodes : List Graph.Node,
      (∀ other ∈ nodes, other.container.name ≠ node.container.name) →
      (nodes.flatMap fun other =>
        (containerRules other).filter (·.duty.isSetUpOf node.container.name)) = [] := by
    intro nodes hne
    refine List.flatMap_eq_nil_iff.mpr fun other hmem => ?_
    rw [filter_isSetUpOf_containerRules, if_neg fun h => hne other hmem h.1]
  rw [hsplit, List.map_append, List.map_cons, List.nodup_middle, List.nodup_cons,
    List.mem_append] at hnames
  rw [forRun_eq_cons hnode, List.filter_cons_of_neg (by simp [Rule.duty, Duty.isSetUpOf]),
    filter_isSetUpOf_nodeRules, hsplit, List.flatMap_append, List.flatMap_cons,
    hother front fun other hmem heq => hnames.1 (.inl (heq ▸ List.mem_map_of_mem hmem)),
    hother rest fun other hmem heq => hnames.1 (.inr (heq ▸ List.mem_map_of_mem hmem)),
    List.nil_append, List.append_nil]

/-! ### Images -/

theorem pullPolicy_eq_always_iff {imageName : String} : pullPolicy containers imageName = .always ↔
    ∃ c ∈ containers, c.imageSource = .pull imageName .always := by
  unfold pullPolicy
  split
  · next hany => simpa using hany
  · next hnone => simpa using hnone

/-- An image is built in the plan for a container that is built. -/
theorem eq_buildImage_of_mem_forRun (hg : g.Sound) (hnode : g.node? n = some node)
    (hr : r ∈ forRun g) (hd : r.duty = .build n) :
    r = .buildImage node.container ∧ node.container.buildDirectory.isSome = true := by
  rw [forRun_eq_cons hnode] at hr
  rcases List.mem_cons.mp hr with rfl | hr
  · cases hd
  · obtain ⟨node', hmem, hserves | himage⟩ := mem_nodeRules hr
    · cases hserves <;> cases hd
    · obtain ⟨name, hnode'⟩ := hg.mem_inOrder.mp hmem
      obtain rfl := hg.name_eq hnode'
      unfold imageRules Container.imageSource at himage
      cases hdirectory : node'.container.buildDirectory with
      | some directory =>
        simp only [hdirectory, List.mem_singleton] at himage
        subst himage
        obtain rfl : node'.container.name = n := Duty.build.inj hd
        obtain rfl : node' = node := Option.some.inj (hnode'.symm.trans hnode)
        exact ⟨rfl, by rw [hdirectory]; rfl⟩
      | none =>
        simp only [hdirectory, List.not_mem_nil, if_false, List.mem_singleton] at himage
        subst himage
        cases hd

/-- An image is pulled in the plan for the containers that want it, by the policy that serves all of
them. -/
theorem eq_pullImage_of_mem_forRun (hg : g.Sound) {imageName : String} (hr : r ∈ forRun g)
    (hd : r.duty = .pull imageName) :
    r = .pullImage imageName (pullPolicy (g.inOrder.map (·.container)) imageName) ∧
      ∃ n node wanted, g.node? n = some node ∧
        node.container.imageSource = .pull imageName wanted := by
  unfold forRun at hr
  split at hr
  · cases hr
  · rcases List.mem_cons.mp hr with rfl | hr
    · cases hd
    · obtain ⟨node, hmem, hserves | himage⟩ := mem_nodeRules hr
      · cases hserves <;> cases hd
      · obtain ⟨name, hnode⟩ := hg.mem_inOrder.mp hmem
        unfold imageRules at himage
        cases hsource : node.container.imageSource with
        | build =>
          simp only [hsource, List.mem_singleton] at himage
          subst himage
          cases hd
        | pull imageName' wanted =>
          simp only [hsource, List.not_mem_nil, if_false, List.mem_singleton] at himage
          subst himage
          obtain rfl : imageName' = imageName := Duty.pull.inj hd
          exact ⟨rfl, name, node, wanted, hnode, hsource⟩

/-- The image of a container is built if there is something to build. -/
theorem filter_build_forRun (hg : g.Sound) (hnode : g.node? n = some node) :
    (forRun g).filter (·.duty = .build n) =
      if node.container.buildDirectory.isSome then [.buildImage node.container] else [] := by
  obtain rfl := hg.name_eq hnode
  split
  · next hbuilt =>
    obtain ⟨r, hr, hd⟩ := exists_imageRule_forRun hg hnode
    obtain ⟨directory, hdirectory⟩ := Option.isSome_iff_exists.mp hbuilt
    rw [Container.imageDuty, Container.imageSource, hdirectory] at hd
    obtain ⟨rfl, -⟩ := eq_buildImage_of_mem_forRun hg hnode hr hd
    exact filter_eq_singleton (nodup_duty_forRun hg) hr
  · next hpulled =>
    refine List.filter_eq_nil_iff.mpr fun r hr hd => hpulled ?_
    exact (eq_buildImage_of_mem_forRun hg hnode hr (of_decide_eq_true hd)).2

theorem pullPolicy_forRun_eq_always_iff (hg : g.Sound) {imageName : String} :
    pullPolicy (g.inOrder.map (·.container)) imageName = .always ↔
      ∃ n node, g.node? n = some node ∧ node.container.imageSource = .pull imageName .always := by
  rw [pullPolicy_eq_always_iff]
  constructor
  · rintro ⟨c, hc, hsource⟩
    obtain ⟨node, hmem, rfl⟩ := List.mem_map.mp hc
    obtain ⟨n, hnode⟩ := hg.mem_inOrder.mp hmem
    exact ⟨n, node, hnode, hsource⟩
  · rintro ⟨n, node, hnode, hsource⟩
    exact ⟨_, List.mem_map_of_mem (hg.mem_inOrder.mpr ⟨n, hnode⟩), hsource⟩

/-! ### The whole plan -/

/-- A rule that is about a container is about one of the graph. -/
theorem contains_of_mem_forRun (hg : g.Sound) (hr : r ∈ forRun g)
    (hd : r.duty.container? = some n) : g.contains n = true := by
  rcases mem_forRun hg hr with rfl | ⟨node, hnode, hserves | himage⟩
  · cases hd
  · rw [hserves.container?_duty, Option.some.injEq] at hd
    exact hd ▸ Option.isSome_of_eq_some hnode
  · rw [himage, Container.imageDuty] at hd
    split at hd
    · exact Option.some.inj hd ▸ Option.isSome_of_eq_some hnode
    · cases hd

/-- **The plan of the first stage is well formed.** It has each rule that the graph asks for, once
and with the right terms, and can be carried out in the order in which it is listed. -/
theorem wellFormed_forRun {task : Task} {catalogue : NameMap Container} {main : String}
    (hbuild : Graph.build task catalogue = .ok g) (hroot : g.root = some main) :
    WellFormed g (forRun g) := by
  have hg := Graph.sound_of_build hbuild
  obtain ⟨mainNode, hmain⟩ := Option.isSome_iff_exists.mp (hg.root_mem hroot)
  have hduties := nodup_duty_forRun hg
  constructor
  case network_first =>
    rw [forRun_eq_cons hmain] at hduties ⊢
    exact ⟨_, rfl, fun hmem => (List.nodup_cons.mp hduties).1 (List.mem_map_of_mem hmem)⟩
  case create_once =>
    intro n node hnode
    obtain rfl := hg.name_eq hnode
    exact filter_duty_of_serves hg hnode .create rfl
  case run_once =>
    intro n node hnode
    obtain rfl := hg.name_eq hnode
    have hmainIff : node.isRoot = decide (g.root = some node.container.name) := by
      rw [Bool.eq_iff_iff, decide_eq_true_iff, hg.isRoot_iff hnode]
    rw [← hmainIff]
    exact filter_duty_of_serves hg hnode .run rfl
  case build_once => exact fun n node => filter_build_forRun hg
  case pull_once =>
    rintro imageName ⟨n, node, wanted, hnode, hsource⟩
    obtain ⟨r, hr, hd⟩ := exists_imageRule_forRun hg hnode
    rw [Container.imageDuty, hsource] at hd
    obtain ⟨rfl, -⟩ := eq_pullImage_of_mem_forRun hg hr hd
    exact ⟨_, filter_eq_singleton hduties hr, pullPolicy_forRun_eq_always_iff hg⟩
  case pull_wanted =>
    intro imageName policy hr
    exact (eq_pullImage_of_mem_forRun hg hr rfl).2
  case health_once => exact fun n node => filter_checkHealth_forRun hg
  case setUp_inOrder =>
    intro n node hnode
    obtain rfl := hg.name_eq hnode
    rw [filter_isSetUpOf_forRun hg hnode, filter_isSetUpOf_containerRules]
    simp only [hg.isRoot_eq_false_iff hnode, true_and]
  case ready_once => exact fun n node => filter_markReady_forRun hg
  case within => exact fun r hr n => contains_of_mem_forRun hg hr
  case making => exact fun r => isCleanup_duty_of_mem_forRun hg
  case nodup => exact hduties.of_map
  case executable =>
    intro front r rest hsplit h hfront
    exact (hsplit ▸ executable_forRun hg h).ne_notReady hfront

end Plan

namespace Sample

/-- Two containers share an image, which one of them wants pulled each time. A third one is built,
and is ready once it has started. -/
def sharedImage : NameMap Container :=
  .ofList [("app", { container "app" ["db", "cache"] with image := some "alpine" }),
    ("db", { container "db" ["cache"] with image := some "alpine", imagePullPolicy := .always }),
    ("cache", { container "cache" [] with
      image := none, buildDirectory := some "cache", healthCheck := none, setupCommands := [] })]

end Sample

/-- The image is pulled for the database, which comes before the app. The app has a health check and
a setup command, but they are not planned, since it is the main container. -/
theorem Plan.wellFormed_forRun_sharedImage : ∃ g,
    Graph.build Sample.task Sample.sharedImage = .ok g ∧ g.root = some "app" ∧
      (forRun g).map Rule.duty = [.prepareNetwork, .build "cache", .create "cache", .run "cache",
        .markReady "cache", .pull "alpine", .create "db", .run "db", .checkHealth "db",
        .setUp "db" 0, .markReady "db", .create "app", .run "app"] ∧
      .pullImage "alpine" .always ∈ forRun g ∧ WellFormed g (forRun g) := by
  have hplan : (Graph.build Sample.task Sample.sharedImage).toOption.map (fun g =>
      decide (g.root = some "app" ∧ (forRun g).map Rule.duty = [.prepareNetwork, .build "cache",
        .create "cache", .run "cache", .markReady "cache", .pull "alpine", .create "db", .run "db",
        .checkHealth "db", .setUp "db" 0, .markReady "db", .create "app", .run "app"] ∧
      .pullImage "alpine" .always ∈ forRun g)) = some true := by decide +kernel
  obtain ⟨g, hbuild, hg⟩ := Sample.exists_build_of_toOption hplan
  obtain ⟨hroot, hduties, hpull⟩ := of_decide_eq_true hg
  exact ⟨g, hbuild, hroot, hduties, hpull, wellFormed_forRun hbuild hroot⟩

/-- Not every container beside the main one is checked for its health: the cache has no health
check, and no rule waits for it. -/
theorem Plan.exists_side_not_awaited : ∃ g,
    Graph.build Sample.task Sample.sharedImage = .ok g ∧ g.root = some "app" ∧
      (∃ node, g.node? "cache" = some node ∧ node.isRoot = false) ∧
      ∀ r ∈ forRun g, r ≠ .awaitHealth "cache" := by
  have hplan : (Graph.build Sample.task Sample.sharedImage).toOption.map (fun g =>
      decide (g.root = some "app" ∧ (g.node? "cache").map (·.isRoot) = some false ∧
        ∀ r ∈ forRun g, r ≠ .awaitHealth "cache")) = some true := by decide +kernel
  obtain ⟨g, hbuild, hg⟩ := Sample.exists_build_of_toOption hplan
  obtain ⟨hroot, hcache, hnone⟩ := of_decide_eq_true hg
  exact ⟨g, hbuild, hroot, Option.map_eq_some_iff.mp hcache, hnone⟩

end ContainerTasks
