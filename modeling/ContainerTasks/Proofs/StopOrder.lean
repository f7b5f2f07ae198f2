import ContainerTasks.Proofs.Readiness
import ContainerTasks.Proofs.Teardown

/-!
# Containers are stopped in reverse order

The rule for stopping a container looks no further than the containers that depend on it directly
and were left running. Yet when a container is stopped, everything that depends on it, if only
through others, has been stopped, or could not be, or had come to its end by itself.

What carries this along the graph is that the containers that were started are closed under
dependencies: a container is created only when those it depends on are ready, and those were
started before. So between a container that was started and one further down there is no gap, and
each container in between still ran when the second stage began: it is not the main one, and no
other container is run to its end.

## Main results

* `Graph.Grounds.started_of_dependsOn`: what was started is closed under dependencies
* `Machine.Run.eq_root_of_exited`: only the main container comes to its end by itself
* `Machine.TakesDown.stopSettled_of_dependsOn`: reverse order, through others too
* `Execution.Manages.stopped_after_dependents`
-/

namespace ContainerTasks

/-! ### What the first stage leaves running -/

namespace Graph.Grounds

variable {g : Graph} {h : History} {c d : String}

/-- A container that was started was created before. -/
theorem exists_created_of_started (hh : g.Grounds h) (hstarted : .containerStarted c ∈ h) :
    ∃ reference, .containerCreated c reference ∈ h := by
  obtain ⟨reference, hsub⟩ := hh.sublist_of_started hstarted
  exact ⟨reference, hsub.subset (by simp)⟩

/-- What a container that was started depends on was started, if only through others. -/
theorem started_of_dependsOn (hh : g.Grounds h) (hg : g.Sound)
    (hstarted : .containerStarted c ∈ h) (hon : Relation.TransGen g.DependsOn c d) :
    .containerStarted d ∈ h := by
  have hnext : ∀ {a b}, .containerStarted a ∈ h → g.DependsOn a b → .containerStarted b ∈ h := by
    intro a b ha hab
    obtain ⟨reference, hmade⟩ := hh.exists_created_of_started ha
    exact (hh.made_of_isReady hg (hh.isReady_of_created hg hmade hab)).2
  induction hon with
  | single hon => exact hnext hstarted hon
  | tail _ hon ih => exact hnext ih hon

end Graph.Grounds

namespace Machine

variable {existing : Option String} {g : Graph} {policy : CleanupPolicy} {m : Machine}
  {handed : List Step} {e : Event} {c : String}

/-- An event with a duty was posted by the work on a step that was handed out. -/
theorem Run.exists_canPost (run : Run existing g policy m handed) (he : e ∈ m.history)
    (hd : e.duty?.isSome = true) : ∃ s ∈ handed, (s.procedure existing).CanPost e := by
  induction run with
  | start => cases he
  | handOut _ _ ih =>
    obtain ⟨s, hs, hpost⟩ := ih he
    exact ⟨s, List.mem_append_left _ hs, hpost⟩
  | advance _ ends ih => exact ih (ends.history_eq ▸ he)
  | post _ may ih =>
    rw [history_post] at he
    rcases List.mem_append.mp he with he | he
    · exact ih he
    · rcases List.mem_singleton.mp he with rfl
      rcases may with hlog | ⟨message, rfl⟩ | rfl | hpost
      · rw [Event.duty?_eq_none_of_isInformational hlog] at hd
        cases hd
      · cases hd
      · cases hd
      · exact hpost
  | finishStep _ _ ih => exact ih he

/-- Only the main container comes to its end by itself. -/
theorem Run.eq_root_of_exited (run : Run existing g policy m handed) (hg : g.Sound)
    {exitCode : Int} (he : .containerExited c exitCode ∈ m.history) : g.root = some c := by
  obtain ⟨s, hs, hpost⟩ := run.exists_canPost he rfl
  obtain ⟨reference, rfl⟩ := Step.eq_of_canPost_exited hpost
  obtain ⟨r, h, hr, -, heval⟩ := ((run.sound hg).warranted _ hs).exists_forRun rfl
  have hd : r.duty = .run c := (Rule.duty_of_evaluate heval).symm
  obtain ⟨node, hnode, hserves⟩ := Plan.serves_of_mem_forRun hg hr
    (show r.duty.container? = some c by rw [hd]; rfl) (by simp [hd])
  refine (hg.isRoot_iff hnode).mp ?_
  cases hserves <;> simp only [Rule.duty, reduceCtorEq] at hd
  generalize node.isRoot = main at heval
  cases Rule.standsFor_of_evaluate heval
  rfl

end Machine

/-! ### Along the graph -/

namespace Machine.TakesDown

variable {g : Graph} {first h : History} {m : Machine} {b c d : String} {s : Step}
  {reference : ContainerReference}

/-- Nothing was started after the first stage. -/
theorem started_first (hm : m.TakesDown g first) (hstarted : .containerStarted d ∈ m.history) :
    .containerStarted d ∈ first := by
  obtain ⟨later, hgrows, hlate⟩ := hm.grows
  rw [hgrows] at hstarted
  refine (List.mem_append.mp hstarted).resolve_right fun hlater => ?_
  cases hlate _ hlater

/-- A container that was started still runs at the end of the first stage if it has not come to its
end by itself. -/
theorem needsStop_first (hm : m.TakesDown g first) (hh : g.Grounds first)
    (hstarted : .containerStarted d ∈ first)
    (hruns : ∀ exitCode, .containerExited d exitCode ∉ first) :
    Plan.needsStop first d = true := by
  obtain ⟨reference, hmade⟩ := hh.exists_created_of_started hstarted
  exact Plan.needsStop_of_making hm.making hmade hstarted hruns

variable (hm : m.TakesDown g first) (hg : g.Sound) (hh : g.Grounds first)
include hm hg hh

/-- When a container can be stopped, those that were started and depend on it directly do not run
any more, or could not be stopped. -/
theorem stopSettled_of_direct (hp : h <+: m.history)
    (heval : (Rule.stopContainer c reference (Plan.stopAfter g first c)).evaluate h = .ready s)
    (hon : g.DependsOn d c) (hstarted : .containerStarted d ∈ first) :
    m.history.stopSettled d = true := by
  have hall : (Plan.stopAfter g first c).toList.all h.stopSettled = true :=
    Rule.isClear_of_evaluate heval
  by_cases hexited : ∃ exitCode, .containerExited d exitCode ∈ first
  · obtain ⟨exitCode, he⟩ := hexited
    exact Bool.or_eq_true_iff.mpr
      (.inl (History.isStopped_iff.mpr (.inr ⟨exitCode, hm.mem_history he⟩)))
  · have hneeds := hm.needsStop_first hh hstarted (not_exists.mp hexited)
    have hmem : d ∈ Plan.stopAfter g first c :=
      (Plan.mem_stopAfter_iff_dependsOn hg).mpr ⟨hon, hneeds⟩
    exact History.stopSettled_mono hp.subset (List.all_eq_true.mp hall d hmem)

/-- The same holds of those that depend on it through others. -/
theorem stopSettled_of_dependsOn
    (hroot : ∀ c exitCode, .containerExited c exitCode ∈ first → g.root = some c)
    (hp : h <+: m.history)
    (heval : (Rule.stopContainer c reference (Plan.stopAfter g first c)).evaluate h = .ready s)
    (hon : Relation.TransGen g.DependsOn d c) (hstarted : .containerStarted d ∈ first) :
    m.history.stopSettled d = true := by
  induction hon generalizing h s reference with
  | single hon => exact hm.stopSettled_of_direct hg hh hp heval hon hstarted
  | @tail b c hdb hbc ih =>
    -- the one in between has an outcome, so its own rule was ready before
    have hstarted' : .containerStarted b ∈ first := hh.started_of_dependsOn hg hstarted hdb
    obtain ⟨reference', hmade⟩ := hh.exists_created_of_started hstarted'
    have hneeds : Plan.needsStop first b = true := by
      refine hm.needsStop_first hh hstarted' fun exitCode he => ?_
      obtain ⟨a, -, hab⟩ := Relation.TransGen.tail'_iff.mp hdb
      exact hg.not_dependsOn_root (hroot b exitCode he) hab
    have htold := hm.tellsOf_stop_of_stopSettled hneeds
      (hm.stopSettled_of_direct hg hh hp heval hbc hstarted')
    obtain ⟨h', s', hp', heval'⟩ := hm.ready_of_handedOut
      (hm.handedOut_of_tellsOf (hm.mem_rules.mpr (.stop hmade hneeds)) htold)
    exact ih hp' heval'

end Machine.TakesDown

/-! ### Managed runs -/

namespace Execution

variable {existing : Option String} {g : Graph} {policy : CleanupPolicy} {x y : Execution}
  {j : Job}

/-- A step that takes something down and has not been handed back was handed out for a rule of the
second stage. -/
theorem Manages.exists_rule (h : x.Manages existing g policy) (hj : j ∈ x.jobs)
    (hs : j.step.isCleanup = true) (hgone : j.isGone = false) :
    ∃ first r, x.machine.TakesDown g first ∧ x.machine.HandedOut r ∧ r.duty = j.step.duty := by
  have hl := h.sound.ledger
  have hstage : x.ledger.machine.stage = .cleanup := hl.stage_eq_cleanup h.sound_graph hj hs hgone
  obtain ⟨first, hsealed⟩ := h.sealed fun hrun => by
    rw [show x.machine.stage = .cleanup from hstage] at hrun
    cases hrun
  obtain ⟨r, hr, hd⟩ := (hl.run.sound h.sound_graph).rule_of_step
    (fun hfinished => by rw [hstage] at hfinished; cases hfinished) j.step
    (List.mem_map_of_mem hj) (by rw [Step.isCleanup_duty, hs, hstage]; rfl)
  exact ⟨first, r, hl.takesDown h.sound_graph hsealed hstage, hr, hd⟩

/-- Whenever a step is handed out that stops a container, every container that was started and
depends on it, if only through others, has been stopped, has come to its end, or could not be
stopped. -/
theorem Manages.stopped_after_dependents {move : Move} {c d : String}
    {reference : ContainerReference} (h : x.Manages existing g policy)
    (hy : x.next? move = some y)
    (hout : y.jobs = x.jobs ++ [.new (.stopContainer c reference)])
    (hon : Relation.TransGen g.DependsOn d c)
    (hstarted : .containerStarted d ∈ y.machine.history) :
    .containerStopped d ∈ y.machine.history ∨
      (∃ exitCode, .containerExited d exitCode ∈ y.machine.history) ∨
      ∃ message, .containerStopFailed d message ∈ y.machine.history := by
  have h' := h.next? hy
  have hg := h'.sound_graph
  have hrun := h'.sound.ledger.run
  obtain ⟨first, r, htakes, hr, hd⟩ := h'.exists_rule (j := .new (.stopContainer c reference))
    (by simp [hout]) rfl rfl
  obtain ⟨history, s, hp, heval⟩ := htakes.ready_of_handedOut hr
  refine History.stopSettled_iff.mp ?_
  cases htakes.mem_rules.mp hr.mem_rules with
  | stop =>
    cases hd
    exact htakes.stopSettled_of_dependsOn hg (htakes.grounds_first (hrun.sound hg).grounded)
      (fun c exitCode he => hrun.eq_root_of_exited hg (htakes.mem_history he)) hp heval hon
      (htakes.started_first hstarted)
  | remove | deleteNetwork => cases hd

/-- A manager that is through with the steps it has got hands out what the machine has ready. -/
theorem next?_dispatch {step : Step} (hmanager : x.manager = .dispatching)
    (hfree : x.jobs.all (!·.isHanded) = true) (hpop : x.machine.pop.1 = .step step) :
    ∃ y, x.next? .dispatch = some y ∧ y.machine = x.machine.pop.2 ∧
      y.jobs = x.jobs ++ [.new step] := by
  refine ⟨{ x with machine := x.machine.pop.2, jobs := x.jobs ++ [.new step] }, ?_, rfl, rfl⟩
  have hsplit : x.machine.pop = (.step step, x.machine.pop.2) := Prod.ext hpop rfl
  simp only [next?, dispatch?, hmanager, hfree]
  rw [hsplit]
  rfl

/-- The database is stopped when the app has come to its end. -/
theorem Manages.stopped_after_dependents_app : ∃ x y : Execution,
    x.Manages none Sample.graph ⟨true, true⟩ ∧ x.next? .dispatch = some y ∧
      y.jobs = x.jobs ++ [.new (.stopContainer "db" ⟨"id-db", "db"⟩)] ∧
      (.containerStopped "app" ∈ y.machine.history ∨
        (∃ exitCode, .containerExited "app" exitCode ∈ y.machine.history) ∨
        ∃ message, .containerStopFailed "app" message ∈ y.machine.history) := by
  obtain ⟨x, hx, hp⟩ := Sample.exists_manages Sample.reply 11 []
    (p := fun x => decide (x.manager = .dispatching ∧ x.jobs.all (!·.isHanded) = true ∧
      x.machine.pop.1 = .step (.stopContainer "db" ⟨"id-db", "db"⟩) ∧
      Event.containerStarted "app" ∈ x.machine.pop.2.history))
    (by decide +kernel)
  obtain ⟨hmanager, hfree, hpop, hstarted⟩ := of_decide_eq_true hp
  obtain ⟨y, hy, hmachine, hout⟩ := next?_dispatch hmanager hfree hpop
  have hon : Sample.graph.DependsOn "app" "db" := ⟨_, rfl, by decide +kernel⟩
  exact ⟨x, y, hx, hy, hout,
    Manages.stopped_after_dependents hx hy hout (.single hon) (hmachine ▸ hstarted)⟩

end Execution

end ContainerTasks
