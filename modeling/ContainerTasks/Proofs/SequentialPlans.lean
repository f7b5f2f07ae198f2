import ContainerTasks.Proofs.Progress

/-!
# The plan of the first stage can be carried out in order

The rules of a plan may be carried out side by side, and whatever is ready may come first. But the
order in which they are listed is one in which they can be carried out one by one: when all rules
before it have had success, a rule does not wait. This holds of any history, whatever else it tells,
be it of failures or of things that no rule of the plan is for.

The plan is followed from its front. Once the network is there, containers come in turn, and what
holds before each of them is that the images that earlier ones have wanted were pulled, and that
earlier ones are ready. For a single container, success of one rule is what the next one looks for.

## Main definitions

* `Rule.Achieves`: the events that tell of the success of a rule
* `Plan.Executable`: no rule of a list has to wait for anything but the success of those before it

## Main results

* `Plan.executable_append`: lists of rules one after the other
* `Plan.executable_containerRules`: the rules of one container
* `Plan.executable_nodeRules`: the rules of containers in turn
* `Plan.executable_forRun`: the whole plan
-/

namespace ContainerTasks

/-! ### Success -/

namespace Rule

/-- The event tells that the step of a rule of the first stage has done what it is for. -/
inductive Achieves : Rule → Event → Prop where
  | networkCreated {network : NetworkReference} : Achieves prepareNetwork (.networkCreated network)
  | networkFound {network : NetworkReference} : Achieves prepareNetwork (.networkFound network)
  | imageBuilt {container : Container} {image : ImageReference} :
    Achieves (buildImage container) (.imageBuilt container.name image)
  | imagePulled {imageName : String} {policy : PullPolicy} {image : ImageReference} :
    Achieves (pullImage imageName policy) (.imagePulled imageName image)
  | containerCreated {container : Container} {dependencies : NameSet}
    {reference : ContainerReference} :
    Achieves (createContainer container dependencies) (.containerCreated container.name reference)
  | containerStarted {container : String} {main : Bool} :
    Achieves (runContainer container main) (.containerStarted container)
  | containerHealthy {container : String} :
    Achieves (awaitHealth container) (.containerHealthy container)
  | setupCommandCompleted {container : String} {command : SetupCommand} {index : Nat}
    {afterHealthCheck : Bool} :
    Achieves (runSetupCommand container command index afterHealthCheck)
      (.setupCommandCompleted container index)
  | containerReady {container : String} {setupCommands : Nat} {healthCheck : Bool} :
    Achieves (markReady container setupCommands healthCheck) (.containerReady container)

/-- The history tells that the step of the rule has done what it is for. -/
def Achieved (r : Rule) (h : History) : Prop := ∃ e ∈ h, r.Achieves e

variable {r : Rule} {h : History} {c : String} {container : Container}

/-- A rule waits for nothing if what it refers to is there and all that it waits for besides has
happened. -/
theorem ne_notReady (hstep : (r.step? h).isSome = true) (hclear : r.isClear h = true) :
    r.evaluate h ≠ .notReady := by
  intro hwaits
  rcases (evaluate_eq_notReady_iff.mp hwaits).2 with hnone | hblocked
  · rw [hnone] at hstep
    cases hstep
  · rw [hclear] at hblocked
    cases hblocked

/-- Success of any step but that of running the main container, which has to come to its end as
well, is told by one event. -/
theorem hasSucceeded_of_achieved (hachieved : r.Achieved h)
    (hside : ∀ c, r ≠ .runContainer c true) : r.hasSucceeded h = true := by
  obtain ⟨e, he, hachieves⟩ := hachieved
  cases hachieves with
  | networkCreated | networkFound => exact List.findSome?_isSome_iff.mpr ⟨_, he, rfl⟩
  | imageBuilt | imagePulled | containerCreated =>
    exact List.findSome?_isSome_iff.mpr ⟨_, he, by simp⟩
  | @containerStarted c main =>
    cases main with
    | true => exact absurd rfl (hside c)
    | false =>
      rw [hasSucceeded, History.hasStarted_iff.mpr he]
      rfl
  | containerHealthy => exact History.isHealthy_iff.mpr he
  | setupCommandCompleted => exact History.setupCompleted_iff.mpr he
  | containerReady => exact History.isReady_iff.mpr he

end Rule

/-! ### Plans that can be carried out in order -/

namespace Plan

variable {h : History} {first second front rest tail : List Rule} {r : Rule}

/-- No rule of the list has to wait, in a history that has the success of all rules before it. -/
def Executable (h : History) : List Rule → Prop
  | [] => True
  | r :: rest => r.evaluate h ≠ .notReady ∧ (r.Achieved h → Executable h rest)

theorem executable_append : Executable h (first ++ second) ↔
    Executable h first ∧ ((∀ r ∈ first, r.Achieved h) → Executable h second) := by
  induction first with
  | nil => simp [Executable]
  | cons r first ih =>
    simp only [List.cons_append, Executable, ih, List.forall_mem_cons]
    tauto

theorem Executable.ne_notReady (hplan : Executable h (front ++ r :: rest))
    (hfront : ∀ r' ∈ front, r'.Achieved h) : r.evaluate h ≠ .notReady :=
  ((executable_append.mp hplan).2 hfront).1

/-- The setup commands of a container are carried out one after the other. What comes after them can
rely on all of them. -/
theorem executable_setUp {c : String} {commands : List SetupCommand} {healthCheck : Bool} (k : Nat)
    (hcreated : (h.reference? c).isSome = true)
    (hprepared : h.preparedUpTo c k healthCheck = true)
    (htail : h.preparedUpTo c (k + commands.length) healthCheck = true → Executable h tail) :
    Executable h (commands.mapIdx (fun index command =>
      .runSetupCommand c command (k + index) healthCheck) ++ tail) := by
  induction commands generalizing k with
  | nil => exact htail hprepared
  | cons command commands ih =>
    rw [List.mapIdx_cons, List.cons_append]
    constructor
    · exact Rule.ne_notReady (by rwa [Rule.step?, Option.isSome_map]) hprepared
    · intro hachieved
      have hnext : h.preparedUpTo c (k + 1) healthCheck = true :=
        Rule.hasSucceeded_of_achieved hachieved (by simp)
      have hlater := ih (k + 1) hnext (by
        rwa [Nat.add_assoc, Nat.add_comm 1, ← List.length_cons (a := command)])
      simpa only [Nat.add_assoc, Nat.add_comm 1] using hlater

/-- A container that was started is made ready in order. -/
theorem executable_readinessRules {c : Container} (hcreated : (h.reference? c.name).isSome = true)
    (hstarted : h.hasStarted c.name = true) : Executable h (readinessRules c) := by
  -- the health check, if there is one, is what the setup commands rely on
  suffices hlater : h.preparedUpTo c.name 0 c.hasHealthCheck = true →
      Executable h ((c.setupCommands.mapIdx fun index command =>
        .runSetupCommand c.name command index c.hasHealthCheck) ++
          [.markReady c.name c.setupCommands.length c.hasHealthCheck]) by
    rw [readinessRules, List.append_assoc, executable_append]
    cases has : c.hasHealthCheck with
    | false => exact ⟨trivial, fun _ => has ▸ hlater (has ▸ hstarted)⟩
    | true =>
      refine ⟨⟨Rule.ne_notReady (by rwa [Rule.step?, Option.isSome_map]) hstarted,
        fun _ => trivial⟩, fun hhealthy => has ▸ hlater ?_⟩
      rw [has]
      exact Rule.hasSucceeded_of_achieved (hhealthy _ (List.mem_singleton_self _)) (by simp)
  intro hprepared
  have hlast : h.preparedUpTo c.name (0 + c.setupCommands.length) c.hasHealthCheck = true →
      Executable h [.markReady c.name c.setupCommands.length c.hasHealthCheck] := fun hall =>
    ⟨Rule.ne_notReady rfl (by rwa [Nat.zero_add] at hall), fun _ => trivial⟩
  simpa only [Nat.zero_add] using executable_setUp 0 hcreated hprepared hlast

/-- A container is created, started and made ready in order, once the network and its image are
there and what it depends on is ready. -/
theorem executable_containerRules {node : Graph.Node} (hnetwork : h.network?.isSome = true)
    (himage : (h.imageOf? node.container).isSome = true)
    (hready : ∀ d ∈ node.dependsOn, h.isReady d = true) :
    Executable h (containerRules node) := by
  rw [containerRules, List.cons_append, List.cons_append, List.nil_append]
  refine ⟨Rule.ne_notReady ?_ (List.all_eq_true.mpr hready), fun hcreated => ?_⟩
  · obtain ⟨image, himage⟩ := Option.isSome_iff_exists.mp himage
    simpa [Rule.step?, himage] using hnetwork
  · have hreference : (h.reference? node.container.name).isSome = true :=
      Rule.hasSucceeded_of_achieved hcreated (by simp)
    refine ⟨Rule.ne_notReady (by rwa [Rule.step?, Option.isSome_map]) rfl, fun hran => ?_⟩
    cases hroot : node.isRoot with
    | true => exact trivial
    | false =>
      rw [hroot] at hran
      have hstarted : h.hasStarted node.container.name = true := by
        simpa [Rule.hasSucceeded] using Rule.hasSucceeded_of_achieved hran (by simp)
      exact executable_readinessRules hreference hstarted

/-- To see to an image is to wait for nothing. -/
theorem executable_imageRules {containers : List Container} {pulled : List String}
    {container : Container} : Executable h (imageRules containers pulled container) := by
  unfold imageRules
  split
  · exact ⟨Rule.ne_notReady rfl rfl, fun _ => trivial⟩
  · split
    · exact trivial
    · exact ⟨Rule.ne_notReady rfl rfl, fun _ => trivial⟩

/-- The image of a container is there once its own rule has had success, or if it was pulled for
another container. -/
theorem isSome_imageOf?_of_achieved {containers : List Container} {pulled : List String}
    {container : Container} (hpulled : ∀ n ∈ pulled, (h.pulledImage? n).isSome = true)
    (hachieved : ∀ r ∈ imageRules containers pulled container, r.Achieved h) :
    (h.imageOf? container).isSome = true := by
  rw [imageRules] at hachieved
  rw [History.imageOf?]
  cases hsource : container.imageSource with
  | build =>
    rw [hsource] at hachieved
    exact Rule.hasSucceeded_of_achieved (hachieved _ (List.mem_singleton_self _)) (by simp)
  | pull imageName =>
    rw [hsource] at hachieved
    by_cases hknown : imageName ∈ pulled
    · exact hpulled imageName hknown
    · dsimp only at hachieved
      rw [if_neg hknown] at hachieved
      exact Rule.hasSucceeded_of_achieved (hachieved _ (List.mem_singleton_self _)) (by simp)

/-- Containers are seen to in turn, if each depends only on what is ready and on containers before
it. -/
theorem executable_nodeRules {containers : List Container} {pulled : List String}
    {nodes : List Graph.Node} (hnetwork : h.network?.isSome = true)
    (hpulled : ∀ n ∈ pulled, (h.pulledImage? n).isSome = true)
    (hordered : ∀ front node rest, nodes = front ++ node :: rest → ∀ d ∈ node.dependsOn,
      h.isReady d = true ∨ ∃ dep ∈ front, dep.container.name = d ∧ dep.isRoot = false) :
    Executable h (nodeRules containers pulled nodes) := by
  induction nodes generalizing pulled with
  | nil => exact trivial
  | cons node rest ih =>
    rw [nodeRules, List.append_assoc, executable_append, executable_append]
    refine ⟨executable_imageRules, fun himages => ?_⟩
    have himage := isSome_imageOf?_of_achieved hpulled himages
    have hready : ∀ d ∈ node.dependsOn, h.isReady d = true := fun d hd =>
      (hordered [] node rest rfl d hd).resolve_right (by simp)
    refine ⟨executable_containerRules hnetwork himage hready, fun hcontainer => ih ?_ ?_⟩
    · intro n hn
      rcases List.mem_append.mp hn with hn | hn
      · unfold pulledBy at hn
        unfold History.imageOf? at himage
        split at hn
        · cases hn
        · next hsource =>
          rw [hsource] at himage
          exact (List.mem_singleton.mp hn) ▸ himage
      · exact hpulled n hn
    · intro front node' rest' hsplit d hd
      rcases hordered (node :: front) node' rest' (by rw [hsplit]; rfl) d hd with
        hready | ⟨dep, hdep, rfl, hside⟩
      · exact .inl hready
      · rcases List.mem_cons.mp hdep with rfl | hdep
        · -- the container has just become ready
          have hmark := hcontainer _ (mem_containerRules.mpr (.markReady hside))
          exact .inl (Rule.hasSucceeded_of_achieved hmark (by simp))
        · exact .inr ⟨dep, hdep, rfl, hside⟩

/-- The plan of the first stage can be carried out in order. -/
theorem executable_forRun {g : Graph} (hg : g.Sound) (h : History) : Executable h (forRun g) := by
  unfold forRun
  split
  · exact trivial
  · refine ⟨Rule.ne_notReady rfl rfl, fun hnetwork => ?_⟩
    refine executable_nodeRules (Rule.hasSucceeded_of_achieved hnetwork (by simp)) (by simp) ?_
    intro front node rest hsplit d hd
    obtain ⟨name, hnode⟩ := hg.mem_inOrder.mp (hsplit ▸ List.mem_append_right _ List.mem_cons_self)
    obtain rfl := hg.name_eq hnode
    have hon : g.DependsOn node.container.name d := ⟨node, hnode, hd⟩
    have horder : g.order = front.map (·.container.name) ++ node.container.name ::
        rest.map (·.container.name) := by
      rw [← hg.map_name_inOrder, hsplit, List.map_append, List.map_cons]
    obtain ⟨dep, hdep, rfl⟩ := List.mem_map.mp (hg.ordered horder hon)
    refine .inr ⟨dep, hdep, rfl, ?_⟩
    obtain ⟨name, hname⟩ := hg.mem_inOrder.mp (hsplit ▸ List.mem_append_left _ hdep)
    obtain ⟨dep', hdep', hside⟩ := hg.side_of_dependsOn hon
    obtain rfl := hg.name_eq hname
    exact Option.some.inj (hdep'.symm.trans hname) ▸ hside

end Plan

end ContainerTasks
