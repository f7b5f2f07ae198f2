import ContainerTasks.Proofs.ManagedRuns
import ContainerTasks.Proofs.Walks

/-!
# Dependencies are ready before a container is created

The rule for creating a container looks no further than the direct dependencies, and the rule for
calling one of them ready looks no further than its last setup command. Yet when a container is
created, everything that it depends on, if only through others, has gone through all that makes a
container ready, in order. Each event is traced back to the rule that handed out its step, and this
rule has looked for the event before; along one container this yields the events in order, and along
the graph it yields one dependency after the other.

## Main definitions

* `Graph.Node.eventsUpTo`, `Graph.Node.readinessEvents`: what makes a container ready, in order

## Main results

* `Graph.Grounds.readiness`: a container that is ready has gone through all of it
* `Graph.Grounds.isReady_of_dependsOn`: so is everything it depends on
* `Execution.Manages.ready_before_create`
-/

namespace ContainerTasks

namespace Graph

/-- What makes a container ready as far as the first `n` setup commands, in order. -/
def Node.eventsUpTo (node : Node) (reference : ContainerReference) (n : Nat) : List Event :=
  [.containerCreated node.container.name reference, .containerStarted node.container.name] ++
  (if node.container.hasHealthCheck then [.containerHealthy node.container.name] else []) ++
  (List.range n).map (.setupCommandCompleted node.container.name)

/-- What makes a container ready, in order: it is created, started, and found healthy if it has a
health check; its setup commands are completed, one after the other; and it is called ready. -/
def Node.readinessEvents (node : Node) (reference : ContainerReference) : List Event :=
  node.eventsUpTo reference node.container.setupCommands.length ++
  [.containerReady node.container.name]

theorem Node.eventsUpTo_succ (node : Node) (reference : ContainerReference) (n : Nat) :
    node.eventsUpTo reference (n + 1) =
      node.eventsUpTo reference n ++ [.setupCommandCompleted node.container.name n] := by
  simp [eventsUpTo, List.range_succ]

/-! ### One container -/

variable {g : Graph} {h : History} {c d : String} {node : Node}

/-- Events in order, and a later one. -/
theorem sublist_append_of_prefix {events before after h' : List Event} {e : Event}
    (hevents : events.Sublist h') (hp : h' <+: before) :
    (events ++ [e]).Sublist (before ++ e :: after) :=
  (hevents.trans hp.sublist).append ((List.nil_sublist after).cons_cons e)

theorem Grounds.sublist_of_started (hh : g.Grounds h) (he : .containerStarted c ∈ h) :
    ∃ reference, [.containerCreated c reference, .containerStarted c].Sublist h := by
  obtain ⟨before, after, r, h', s, rfl, hp, -, hd, heval⟩ := hh.origin he rfl rfl
  obtain ⟨reference, hcreated⟩ := History.isSome_reference?_iff.mp
    (Rule.isSome_reference?_of_evaluate heval (.inl hd))
  exact ⟨reference, sublist_append_of_prefix (List.singleton_sublist.mpr hcreated) hp⟩

/-- The rule of a container beside the main one that has a duty of the container. -/
theorem Sound.serves (hg : g.Sound) (hnode : g.node? node.container.name = some node) {r : Rule}
    (hr : r ∈ Plan.forRun g) (hd : r.duty.container? = some node.container.name)
    (hb : r.duty ≠ .build node.container.name) : Plan.Serves node r := by
  obtain ⟨node', hnode', hserves⟩ := Plan.serves_of_mem_forRun hg hr hd hb
  rw [hnode, Option.some.injEq] at hnode'
  exact hnode' ▸ hserves

/-- A container that has come as far as some of its setup commands has gone through all that comes
before. -/
theorem Grounds.sublist_of_preparedUpTo (hh : g.Grounds h) (hg : g.Sound)
    (hnode : g.node? node.container.name = some node) {n : Nat}
    (hprepared : h.preparedUpTo node.container.name n node.container.hasHealthCheck = true) :
    ∃ reference, (node.eventsUpTo reference n).Sublist h := by
  induction n generalizing h with
  | zero =>
    cases has : node.container.hasHealthCheck with
    | false =>
      rw [has] at hprepared
      obtain ⟨reference, hsub⟩ := hh.sublist_of_started (History.hasStarted_iff.mp hprepared)
      exact ⟨reference, by simpa [Node.eventsUpTo, has] using hsub⟩
    | true =>
      rw [has] at hprepared
      obtain ⟨before, after, r, h', s, rfl, hp, hr, hd, heval⟩ :=
        hh.origin (History.isHealthy_iff.mp hprepared) rfl rfl
      have hserves := hg.serves hnode hr (by rw [hd]; rfl) (by simp [hd])
      cases hserves <;> simp only [Rule.duty, reduceCtorEq] at hd
      have hstarted : h'.hasStarted node.container.name = true := Rule.isClear_of_evaluate heval
      have hh' : g.Grounds h' := hh.of_prefix (hp.trans (List.prefix_append _ _))
      obtain ⟨reference, hsub⟩ := hh'.sublist_of_started (History.hasStarted_iff.mp hstarted)
      refine ⟨reference, ?_⟩
      have hlonger : (_ ++ [Event.containerHealthy node.container.name]).Sublist
          (before ++ Event.containerHealthy node.container.name :: after) :=
        sublist_append_of_prefix hsub hp
      simpa [Node.eventsUpTo, has] using hlonger
  | succ n ih =>
    obtain ⟨before, after, r, h', s, rfl, hp, hr, hd, heval⟩ :=
      hh.origin (History.setupCompleted_iff.mp hprepared) rfl rfl
    have hserves := hg.serves hnode hr (by rw [hd]; rfl) (by simp [hd])
    cases hserves with
    | @setUp index command side has =>
      obtain rfl : n = index := ((Duty.setUp.inj hd).2).symm
      have hbefore : h'.preparedUpTo node.container.name n node.container.hasHealthCheck = true :=
        Rule.isClear_of_evaluate heval
      have hh' : g.Grounds h' := hh.of_prefix (hp.trans (List.prefix_append _ _))
      obtain ⟨reference, hsub⟩ := ih hh' hbefore
      exact ⟨reference, node.eventsUpTo_succ reference n ▸ sublist_append_of_prefix hsub hp⟩
    | _ => cases hd

/-- A container that is ready has gone through all that makes it ready, in order. -/
theorem Grounds.readiness (hh : g.Grounds h) (hg : g.Sound) (hready : h.isReady c = true) :
    ∃ node reference, g.node? c = some node ∧ (node.readinessEvents reference).Sublist h := by
  obtain ⟨before, after, r, h', s, rfl, hp, hr, hd, heval⟩ :=
    hh.origin (History.isReady_iff.mp hready) rfl rfl
  obtain ⟨node, hnode, hserves⟩ := Plan.serves_of_mem_forRun hg hr
    (show r.duty.container? = some c by rw [hd]; rfl) (by simp [hd])
  have hname := hg.name_eq hnode
  subst hname
  cases hserves <;> simp only [Rule.duty, reduceCtorEq] at hd
  have hprepared : h'.preparedUpTo node.container.name node.container.setupCommands.length
      node.container.hasHealthCheck = true := Rule.isClear_of_evaluate heval
  have hh' : g.Grounds h' := hh.of_prefix (hp.trans (List.prefix_append _ _))
  obtain ⟨reference, hsub⟩ := hh'.sublist_of_preparedUpTo hg hnode hprepared
  exact ⟨node, reference, hnode, sublist_append_of_prefix hsub hp⟩

/-! ### One dependency after the other -/

/-- A rule that creates a container has looked whether its dependencies are ready. -/
theorem isReady_of_evaluate (hg : g.Sound) {r : Rule} {s : Step} (hr : r ∈ Plan.forRun g)
    (hd : r.duty = .create c) (heval : r.evaluate h = .ready s) (hon : g.DependsOn c d) :
    h.isReady d = true := by
  obtain ⟨node, hnode, hmem⟩ := hon
  have hname := hg.name_eq hnode
  subst hname
  have hserves := hg.serves hnode hr (by rw [hd]; rfl) (by simp [hd])
  cases hserves <;> simp only [Rule.duty, reduceCtorEq] at hd
  have hall : node.dependsOn.toList.all h.isReady = true := Rule.isClear_of_evaluate heval
  exact List.all_eq_true.mp hall d hmem

/-- What a container depends on is ready once the container was created. -/
theorem Grounds.isReady_of_created {reference : ContainerReference} (hh : g.Grounds h)
    (hg : g.Sound) (hmade : .containerCreated c reference ∈ h) (hon : g.DependsOn c d) :
    h.isReady d = true := by
  obtain ⟨before, after, r, h', s, rfl, hp, hr, hd, heval⟩ := hh.origin hmade rfl rfl
  exact History.isReady_mono (hp.trans (List.prefix_append _ _)).subset
    (isReady_of_evaluate hg hr hd heval hon)

/-- A container that is ready was created and started. -/
theorem Grounds.made_of_isReady (hh : g.Grounds h) (hg : g.Sound) (hready : h.isReady c = true) :
    (∃ reference, .containerCreated c reference ∈ h) ∧ .containerStarted c ∈ h := by
  obtain ⟨node, reference, hnode, hsub⟩ := hh.readiness hg hready
  rw [← hg.name_eq hnode]
  exact ⟨⟨reference, hsub.subset (by simp [Node.readinessEvents, Node.eventsUpTo])⟩,
    hsub.subset (by simp [Node.readinessEvents, Node.eventsUpTo])⟩

theorem Grounds.isReady_of_dependsOn (hh : g.Grounds h) (hg : g.Sound) (hready : h.isReady c = true)
    (hon : g.DependsOn c d) : h.isReady d = true := by
  obtain ⟨⟨reference, hmade⟩, -⟩ := hh.made_of_isReady hg hready
  exact hh.isReady_of_created hg hmade hon

/-- When a container can be created, all that it depends on is ready, if only through others. -/
theorem Warrants.isReady {container : Container} {image : ImageReference}
    {network : NetworkReference} (hg : g.Sound) (hh : g.Grounds h)
    (hs : g.Warrants h (.createContainer container image network))
    (hon : Relation.TransGen g.DependsOn container.name d) : h.isReady d = true := by
  obtain ⟨r, h', hr, hp, heval⟩ := hs.exists_forRun rfl
  have hd : r.duty = .create container.name := (Rule.duty_of_evaluate heval).symm
  induction hon with
  | single hon => exact History.isReady_mono hp.subset (isReady_of_evaluate hg hr hd heval hon)
  | tail _ hon ih => exact hh.isReady_of_dependsOn hg ih hon

end Graph

/-! ### Managed runs -/

/-- Whenever the call is made that creates a container, everything the container depends on, if only
through others, has gone through all that makes it ready, in order. -/
theorem Execution.Manages.ready_before_create {existing : Option String} {g : Graph}
    {policy : CleanupPolicy} {x y : Execution} {move : Move} {job : Nat} {container : Container}
    {image : ImageReference} {network : NetworkReference} {d : String}
    (h : x.Manages existing g policy) (hy : x.next? move = some y)
    (hcall : y.trace = x.trace ++ [.began job (.createContainer container image network)])
    (hd : Relation.TransGen g.DependsOn container.name d) :
    ∃ node reference, g.node? d = some node ∧
      (node.readinessEvents reference).Sublist x.machine.history := by
  have hg := h.sound_graph
  have hl := h.sound.ledger
  have hm := hl.run.sound hg
  obtain ⟨s, o, next, hjob⟩ := (h.continuesTo hy).began job _ hcall
  have hmem := List.mem_of_getElem? hjob
  -- the job of the call works on the step that creates the container
  have hstep : s = .createContainer container image network := by
    obtain ⟨-, hc | ⟨-, hstart⟩⟩ := (hl.follows _ hmem).working
    · exact Step.eq_of_canCall_createContainer (hc.canCall (.inl rfl))
    · cases hstart
  have hwarrants := hm.warranted s (List.mem_map.mpr ⟨_, hmem, rfl⟩)
  rw [hstep] at hwarrants
  exact hm.grounded.readiness hg (hwarrants.isReady hg hm.grounded hd)

/-- The call that a job is about to make. -/
def Job.nextCall? (j : Job) : Option Call :=
  match j.phase with
  | .working rest => rest.nextCall?
  | .handed | .arriving | .inLine | .admitted | .calling .. | .failing _ | .reporting _ | .leaving
  | .released | .gone => none

theorem Job.exists_of_nextCall? {j : Job} {c : Call} (h : j.nextCall? = some c) :
    ∃ next, j.phase = .working (.call c next) := by
  obtain ⟨s, phase, o⟩ := j
  cases phase <;> simp only [Job.nextCall?, reduceCtorEq] at h
  next rest =>
    cases rest <;> simp only [Procedure.nextCall?, reduceCtorEq, Option.some.injEq] at h
    subst h
    exact ⟨_, rfl⟩

/-- A job that is about to make a call that is always awaited can make it. -/
theorem Execution.next?_work_of_nextCall? {x : Execution} {job : Nat} {j : Job} {c : Call}
    (hj : x.jobs[job]? = some j) (hnext : j.nextCall? = some c) (hkept : c.isAbandonable = false) :
    ∃ y, x.next? (.work job) = some y ∧ y.trace = x.trace ++ [.began job c] := by
  obtain ⟨next, hphase⟩ := Job.exists_of_nextCall? hnext
  refine ⟨(x.saw (.began job c)).setPhase job (.calling c next), ?_, rfl⟩
  simp [next?, work?, phase?_eq hj, hphase, hkept]

/-- The app is created when the database is ready. -/
theorem Execution.Manages.ready_before_create_app : ∃ x y : Execution,
    x.Manages none Sample.graph ⟨true, true⟩ ∧
    y.trace = x.trace ++ [.began 8
      (.createContainer (Sample.container "app" ["db"]) ⟨"image"⟩ ⟨"network"⟩)] ∧
    ∃ node reference, Sample.graph.node? "db" = some node ∧
      (node.readinessEvents reference).Sublist x.machine.history := by
  obtain ⟨x, hx, hp⟩ := Sample.exists_manages Sample.reply 8
    [.dispatch, .place 8, .enter 8, .begin 8, .log (.job 8), .work 8]
    (p := fun x => (x.jobs[8]?.bind Job.nextCall?) =
      some (.createContainer (Sample.container "app" ["db"]) ⟨"image"⟩ ⟨"network"⟩))
    (by decide +kernel)
  obtain ⟨j, hj, hnext⟩ := Option.bind_eq_some_iff.mp (of_decide_eq_true hp)
  obtain ⟨y, hy, hcall⟩ := Execution.next?_work_of_nextCall? hj hnext rfl
  have hd : Sample.graph.DependsOn "app" "db" := ⟨_, rfl, by decide +kernel⟩
  exact ⟨x, y, hx, hcall, Execution.Manages.ready_before_create hx hy hcall (.single hd)⟩

end ContainerTasks
