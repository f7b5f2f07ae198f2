import ContainerTasks.Proofs.Duties
import ContainerTasks.Proofs.Graphs

/-!
# The plan of the first stage

The plan has a rule for the network and, for every container of the graph, the rules that lead from
its image to its end or to the word that it is ready. Nothing is planned twice, not even the pull of
an image that containers share.

## Main definitions

* `Container.imageDuty`: to see to the image of a container
* `Plan.Serves`: the rules of one container, kind by kind

## Main results

* `Plan.mem_forRun`: what is in the plan
* `Plan.nodup_duty_forRun`: no two rules of the plan have the same duty
-/

namespace ContainerTasks

/-- The duty to see to the image of a container. -/
def Container.imageDuty (c : Container) : Duty :=
  match c.imageSource with
  | .build .. => .build c.name
  | .pull imageName _ => .pull imageName

namespace Plan

/-- The rules of a container, kind by kind. The main container has only the first two kinds. -/
inductive Serves (node : Graph.Node) : Rule → Prop where
  | create : Serves node (.createContainer node.container node.dependsOn)
  | run : Serves node (.runContainer node.container.name node.isRoot)
  | checkHealth (side : node.isRoot = false) (has : node.container.hasHealthCheck = true) :
    Serves node (.awaitHealth node.container.name)
  | setUp {index : Nat} {command : SetupCommand} (side : node.isRoot = false)
    (has : node.container.setupCommands[index]? = some command) :
    Serves node
      (.runSetupCommand node.container.name command index node.container.hasHealthCheck)
  | markReady (side : node.isRoot = false) :
    Serves node (.markReady node.container.name node.container.setupCommands.length
      node.container.hasHealthCheck)

theorem mem_containerRules {node : Graph.Node} {r : Rule} :
    r ∈ containerRules node ↔ Serves node r := by
  unfold containerRules readinessRules
  constructor
  · intro h
    rcases List.mem_append.mp h with h | h
    · rcases List.mem_cons.mp h with rfl | h
      · exact .create
      · rcases List.mem_singleton.mp h with rfl
        exact .run
    · split at h
      · cases h
      · next hside =>
        have hside : node.isRoot = false := by simpa using hside
        rcases List.mem_append.mp h with h | h
        · rcases List.mem_append.mp h with h | h
          · split at h
            · next has =>
              rcases List.mem_singleton.mp h with rfl
              exact .checkHealth hside has
            · cases h
          · obtain ⟨index, hindex, rfl⟩ := List.mem_mapIdx.mp h
            exact .setUp hside (List.getElem?_eq_getElem hindex)
        · rcases List.mem_singleton.mp h with rfl
          exact .markReady hside
  · intro h
    cases h with
    | create => simp
    | run => simp
    | checkHealth side has => simp [side, has]
    | markReady side => simp [side]
    | @setUp index command side has =>
      obtain ⟨hindex, rfl⟩ := List.getElem?_eq_some_iff.mp has
      have : Rule.runSetupCommand node.container.name node.container.setupCommands[index] index
          node.container.hasHealthCheck ∈ node.container.setupCommands.mapIdx fun index command =>
            Rule.runSetupCommand node.container.name command index node.container.hasHealthCheck :=
        List.mem_mapIdx.mpr ⟨index, hindex, rfl⟩
      simp [side, this]

theorem mem_nodeRules {containers : List Container} {pulled : List String}
    {nodes : List Graph.Node} {r : Rule} (h : r ∈ nodeRules containers pulled nodes) :
    ∃ node ∈ nodes, Serves node r ∨ r ∈ imageRules containers [] node.container := by
  induction nodes generalizing pulled with
  | nil => cases h
  | cons node rest ih =>
    rcases List.mem_append.mp h with h | h
    · refine ⟨node, List.mem_cons_self .., ?_⟩
      rcases List.mem_append.mp h with h | h
      · right
        unfold imageRules at h ⊢
        split at h
        · exact h
        · split at h
          · cases h
          · simpa using h
      · exact .inl (mem_containerRules.mp h)
    · obtain ⟨node', hnode', hr⟩ := ih h
      exact ⟨node', List.mem_cons_of_mem _ hnode', hr⟩

theorem duty_of_mem_imageRules {containers : List Container} {pulled : List String}
    {container : Container} {r : Rule} (h : r ∈ imageRules containers pulled container) :
    r.duty = container.imageDuty ∧ ∀ n ∈ pulled, r.duty ≠ .pull n := by
  unfold imageRules at h
  unfold Container.imageDuty
  cases hsource : container.imageSource with
  | build directory dockerfile =>
    rw [hsource] at h
    rcases List.mem_singleton.mp h with rfl
    exact ⟨rfl, nofun⟩
  | pull imageName policy =>
    rw [hsource] at h
    dsimp only at h
    split at h
    · cases h
    · next hpulled =>
      rcases List.mem_singleton.mp h with rfl
      refine ⟨rfl, fun n hn hc => hpulled ?_⟩
      cases hc
      exact hn

theorem mem_nodeRules_of_serves {containers : List Container} {pulled : List String}
    {nodes : List Graph.Node} {node : Graph.Node} {r : Rule} (hnode : node ∈ nodes)
    (h : Serves node r) : r ∈ nodeRules containers pulled nodes := by
  induction nodes generalizing pulled with
  | nil => cases hnode
  | cons first rest ih =>
    rcases List.mem_cons.mp hnode with rfl | hnode
    · exact List.mem_append_left _ (List.mem_append_right _ (mem_containerRules.mpr h))
    · exact List.mem_append_right _ (ih hnode)

/-- Every image is seen to, be it for another container. -/
theorem exists_imageRule {containers : List Container} {pulled : List String}
    {nodes : List Graph.Node} {node : Graph.Node} (hnode : node ∈ nodes) :
    (∃ r ∈ nodeRules containers pulled nodes, r.duty = node.container.imageDuty) ∨
      ∃ n ∈ pulled, node.container.imageDuty = .pull n := by
  induction nodes generalizing pulled with
  | nil => cases hnode
  | cons first rest ih =>
    rcases List.mem_cons.mp hnode with rfl | hnode
    · unfold Container.imageDuty
      cases hsource : node.container.imageSource with
      | build directory dockerfile =>
        exact .inl ⟨.buildImage node.container, by simp [nodeRules, imageRules, hsource], rfl⟩
      | pull n policy =>
        by_cases hn : n ∈ pulled
        · exact .inr ⟨n, hn, rfl⟩
        · exact .inl ⟨.pullImage n (pullPolicy containers n),
            by simp [nodeRules, imageRules, hsource, hn], rfl⟩
    · rcases @ih (pulledBy first.container ++ pulled) hnode with ⟨r, hr, hd⟩ | ⟨n, hn, hd⟩
      · exact .inl ⟨r, List.mem_append_right _ hr, hd⟩
      · rcases List.mem_append.mp hn with hn | hn
        · -- the first container has its image pulled here or before
          unfold pulledBy at hn
          split at hn
          · cases hn
          · next policy hsource =>
            rcases List.mem_singleton.mp hn with rfl
            by_cases hn : n ∈ pulled
            · exact .inr ⟨n, hn, hd⟩
            · exact .inl ⟨.pullImage n (pullPolicy containers n),
                by simp [nodeRules, imageRules, hsource, hn], hd.symm⟩
        · exact .inr ⟨n, hn, hd⟩

/-! ### No duty twice -/

theorem Serves.container?_duty {node : Graph.Node} {r : Rule} (h : Serves node r) :
    r.duty.container? = some node.container.name := by
  cases h <;> rfl

theorem Serves.duty_ne_imageDuty {node : Graph.Node} {r : Rule} (h : Serves node r)
    (c : Container) : r.duty ≠ c.imageDuty := by
  unfold Container.imageDuty
  cases h <;> split <;> exact nofun

theorem nodup_duty_containerRules (node : Graph.Node) :
    ((containerRules node).map Rule.duty).Nodup := by
  have hsetUp : (node.container.setupCommands.mapIdx fun index command =>
      Rule.runSetupCommand node.container.name command index node.container.hasHealthCheck).map
        Rule.duty = (List.range node.container.setupCommands.length).map
          (Duty.setUp node.container.name) := by
    rw [List.mapIdx_eq_zipIdx_map, List.map_map, List.range_eq_range', ← List.zipIdx_map_snd 0,
      List.map_map]
    rfl
  have hrange : ((List.range node.container.setupCommands.length).map
      (Duty.setUp node.container.name)).Nodup :=
    List.nodup_range.map fun _ _ h => (Duty.setUp.inj h).2
  unfold containerRules readinessRules
  rw [List.map_append]
  split
  · simp [Rule.duty]
  · rw [List.map_append, List.map_append, hsetUp]
    split <;> simp [List.nodup_append, Rule.duty, hrange]

/-- What the rules of containers in turn are for: one of the containers, or an image that was not
seen to before. -/
theorem duty_nodeRules {containers : List Container} {pulled : List String}
    {nodes : List Graph.Node} {d : Duty}
    (h : d ∈ (nodeRules containers pulled nodes).map Rule.duty) :
    (∃ node ∈ nodes, d.container? = some node.container.name) ∨ ∃ n, n ∉ pulled ∧ d = .pull n := by
  induction nodes generalizing pulled with
  | nil => cases h
  | cons first rest ih =>
    rw [nodeRules, List.map_append, List.mem_append] at h
    rcases h with h | h
    · obtain ⟨r, hr, rfl⟩ := List.mem_map.mp h
      rcases List.mem_append.mp hr with hr | hr
      · obtain ⟨hd, hpulled⟩ := duty_of_mem_imageRules hr
        unfold Container.imageDuty at hd
        split at hd
        · exact .inl ⟨first, List.mem_cons_self .., by rw [hd]; rfl⟩
        · next n _ _ => exact .inr ⟨n, fun hn => hpulled n hn hd, hd⟩
      · exact .inl ⟨first, List.mem_cons_self .., (mem_containerRules.mp hr).container?_duty⟩
    · rcases ih h with ⟨node, hnode, hd⟩ | ⟨n, hn, hd⟩
      · exact .inl ⟨node, List.mem_cons_of_mem _ hnode, hd⟩
      · exact .inr ⟨n, fun h => hn (List.mem_append_right _ h), hd⟩

theorem nodup_duty_nodeRules {containers : List Container} {pulled : List String}
    {nodes : List Graph.Node} (h : (nodes.map (·.container.name)).Nodup) :
    ((nodeRules containers pulled nodes).map Rule.duty).Nodup := by
  induction nodes generalizing pulled with
  | nil => exact List.nodup_nil
  | cons first rest ih =>
    obtain ⟨hfirst, hrest⟩ := List.nodup_cons.mp h
    rw [nodeRules, List.map_append, List.nodup_append]
    refine ⟨?_, ih hrest, ?_⟩
    · rw [List.map_append, List.nodup_append]
      refine ⟨?_, nodup_duty_containerRules first, ?_⟩
      · unfold imageRules
        split
        · simp
        · split <;> simp
      · rintro _ ha _ hb rfl
        obtain ⟨r, hr, hd⟩ := List.mem_map.mp ha
        obtain ⟨r', hr', hd'⟩ := List.mem_map.mp hb
        exact (mem_containerRules.mp hr').duty_ne_imageDuty first.container
          (hd'.trans (hd.symm.trans (duty_of_mem_imageRules hr).1))
    · rintro d ha _ hb rfl
      obtain ⟨r, hr, rfl⟩ := List.mem_map.mp ha
      have hown : r.duty.container? = some first.container.name ∨
          ∃ n ∈ pulledBy first.container, r.duty = .pull n := by
        rcases List.mem_append.mp hr with hr | hr
        · have hd := (duty_of_mem_imageRules hr).1
          unfold Container.imageDuty at hd
          unfold pulledBy
          cases hsource : first.container.imageSource with
          | build directory dockerfile =>
            rw [hsource] at hd
            exact .inl (by rw [hd]; rfl)
          | pull imageName policy =>
            rw [hsource] at hd
            exact .inr ⟨imageName, List.mem_singleton_self _, hd⟩
        · exact .inl (mem_containerRules.mp hr).container?_duty
      rcases duty_nodeRules hb with ⟨node, hnode, hd⟩ | ⟨n, hn, hd⟩
      · rcases hown with hown | ⟨n, -, hown⟩
        · rw [hown, Option.some.injEq] at hd
          exact hfirst (List.mem_map.mpr ⟨node, hnode, hd.symm⟩)
        · rw [hown] at hd
          cases hd
      · rcases hown with hown | ⟨n', hn', hown⟩
        · rw [hd] at hown
          cases hown
        · rw [hown] at hd
          cases hd
          exact hn (List.mem_append_left _ hn')

/-! ### The whole plan -/

variable {g : Graph} {name : String} {node : Graph.Node} {r : Rule}

/-- What is in the plan: the preparation of the network, and for each container the rule for its
image, which others may share, and its own rules. -/
theorem mem_forRun (hg : g.Sound) (h : r ∈ forRun g) :
    r = .prepareNetwork ∨ ∃ node, g.node? node.container.name = some node ∧
      (Serves node r ∨ r.duty = node.container.imageDuty) := by
  unfold forRun at h
  split at h
  · cases h
  · rcases List.mem_cons.mp h with rfl | h
    · exact .inl rfl
    · obtain ⟨node, hmem, h⟩ := mem_nodeRules h
      obtain ⟨name, hnode⟩ := hg.mem_inOrder.mp hmem
      refine .inr ⟨node, by rwa [hg.name_eq hnode], h.imp_right fun h => ?_⟩
      exact (duty_of_mem_imageRules h).1

theorem forRun_eq_cons (hnode : g.node? name = some node) :
    forRun g = .prepareNetwork :: nodeRules (g.inOrder.map (·.container)) [] g.inOrder := by
  have hempty : g.isEmpty = false := by
    have := NameMap.get?_eq_some_iff_mem.mp hnode
    simpa [Graph.isEmpty, NameMap.isEmpty] using List.ne_nil_of_mem this
  rw [forRun, hempty]
  rfl

theorem prepareNetwork_mem_forRun (hnode : g.node? name = some node) :
    .prepareNetwork ∈ forRun g := by
  rw [forRun_eq_cons hnode]
  exact List.mem_cons_self ..

theorem mem_forRun_of_serves (hg : g.Sound) (hnode : g.node? name = some node)
    (h : Serves node r) : r ∈ forRun g := by
  rw [forRun_eq_cons hnode]
  exact List.mem_cons_of_mem _ (mem_nodeRules_of_serves (hg.mem_inOrder.mpr ⟨name, hnode⟩) h)

theorem exists_imageRule_forRun (hg : g.Sound) (hnode : g.node? name = some node) :
    ∃ r ∈ forRun g, r.duty = node.container.imageDuty := by
  rw [forRun_eq_cons hnode]
  rcases @exists_imageRule (g.inOrder.map (·.container)) [] _ _
    (hg.mem_inOrder.mpr ⟨name, hnode⟩) with ⟨r, hr, hd⟩ | ⟨n, hn, -⟩
  · exact ⟨r, List.mem_cons_of_mem _ hr, hd⟩
  · cases hn

/-- The rule of the plan that has a duty about one container serves that container. -/
theorem serves_of_mem_forRun (hg : g.Sound) (h : r ∈ forRun g)
    (hd : r.duty.container? = some name) (hb : r.duty ≠ .build name) :
    ∃ node, g.node? name = some node ∧ Serves node r := by
  rcases mem_forRun hg h with rfl | ⟨node, hnode, hs | hi⟩
  · cases hd
  · have hname : node.container.name = name := by
      simpa [hs.container?_duty] using hd
    exact ⟨node, hname ▸ hnode, hs⟩
  · unfold Container.imageDuty at hi
    split at hi
    · rw [hi] at hd hb
      cases hd
      exact absurd rfl hb
    · rw [hi] at hd
      cases hd

theorem isCleanup_duty_of_mem_forRun (hg : g.Sound) (h : r ∈ forRun g) :
    r.duty.isCleanup = false := by
  rcases mem_forRun hg h with rfl | ⟨node, -, hs | hi⟩
  · rfl
  · cases hs <;> rfl
  · unfold Container.imageDuty at hi
    split at hi <;> rw [hi] <;> rfl

/-- No two rules of the plan have the same duty. -/
theorem nodup_duty_forRun (hg : g.Sound) : ((forRun g).map Rule.duty).Nodup := by
  unfold forRun
  split
  · exact List.nodup_nil
  · rw [List.map_cons, List.nodup_cons]
    refine ⟨fun h => ?_, nodup_duty_nodeRules (hg.map_name_inOrder ▸ hg.nodup_order)⟩
    rcases duty_nodeRules h with ⟨node, -, hd⟩ | ⟨n, -, hd⟩
    · cases hd
    · cases hd

end Plan

end ContainerTasks
