import ContainerTasks.Config.Validation
import ContainerTasks.Proofs.Successes
import ContainerTasks.Session

/-!
# What a session reports

A session carries out one task after the other, and its report can be held against what it has
done. Every task that it has carried out was managed as it should be, on the graph of that task, and
the tasks before the last one have passed: they had no failures, no exit code but zero, and nobody
asked to stop.

A session that gives the exit code zero has carried out all tasks, unless somebody asked to stop,
and none of them has failures. Still there may be a main container that was not run to its end, if
the runtime said that a call was given up. A session that gives an error has done nothing of the
task that has no graph. As graphs are built one at a time, the tasks before it were carried out.

## Main definitions

* `Episode`: a task that a session has carried out
* `Session.Runs`: a session after some moves, with the tasks that it has carried out
* `Session.Sound`: what holds of a session all along

## Main results

* `Session.Runs.sound`
* `Session.Reachable.exitCode_eq_zero`: what the exit code zero means
* `Session.Reachable.error_cases`: what an error means
-/

namespace ContainerTasks

/-- A task that a session has carried out. -/
structure Episode where
  task : Task
  execution : Execution
  outcome : Outcome

/-- What has become of the task lets a session go on: it has no failures and, if its main container
was run to its end, the exit code zero. -/
structure Outcome.Passes (outcome : Outcome) : Prop where
  failures_eq : outcome.failures = []
  exitCode_eq : ∀ exitCode, outcome.exitCode = some exitCode → exitCode = 0

namespace Episode

/-- What a session keeps of the task. -/
def result (e : Episode) : TaskResult := ⟨e.task.name, e.outcome⟩

/-- The task was carried out on its graph, and this is what has become of it. -/
structure Managed (config : Config) (options : RunOptions) (e : Episode) : Prop where
  outcome_eq : e.execution.outcome? = some e.outcome
  manages : ∃ g, Graph.build e.task config.containers = .ok g ∧
    e.execution.Manages options.existingNetwork g options.cleanupPolicy

/-- A task that passes, and whose main container the runtime has not given up, has run it to the
exit code zero. -/
theorem Managed.exitCode_eq {config : Config} {options : RunOptions} {e : Episode}
    (h : e.Managed config options) (hpasses : e.outcome.Passes) (hrun : e.task.run.isSome = true)
    (hkept : e.execution.trace.any Happening.leavesUndone = false) :
    e.outcome.exitCode = some 0 := by
  obtain ⟨g, hbuild, hmanages⟩ := h.manages
  have hroot : g.root.isSome = true := by simpa [Graph.root_of_build hbuild] using hrun
  obtain ⟨exitCode, hexit⟩ := Option.isSome_iff_exists.mp
    (hmanages.isSome_exitCode h.outcome_eq hpasses.failures_eq hkept hroot)
  rw [hexit, hpasses.exitCode_eq exitCode hexit]

end Episode

namespace Session

/-- A session after some moves from the first one, with the tasks that it has carried out on the
way. -/
inductive Runs (first : Session) : Session → List Episode → Prop where
  | refl : Runs first first []
  | within {s t : Session} {done : List Episode} {move : Move} (run : Runs first s done)
    (hm : s.next? (.within move) = some t) : Runs first t done
  | proceed {s t : Session} {done : List Episode} {task : Task} {execution : Execution}
    {outcome : Outcome} (run : Runs first s done) (hs : s.state = .running task execution)
    (hout : execution.outcome? = some outcome) (hm : s.next? .proceed = some t) :
    Runs first t (done ++ [⟨task, execution, outcome⟩])

variable {first s t : Session} {done : List Episode} {task : Task} {x y : Execution}
  {outcome : Outcome}

/-- Something happens within the task that is carried out. -/
theorem of_next?_within {move : Move} (h : s.next? (.within move) = some t) :
    ∃ task x y, s.state = .running task x ∧ x.next? move = some y ∧
      t = { s with state := .running task y } := by
  rcases hs : s.state with ⟨task, x⟩ | _ | _ <;> simp only [next?, hs, reduceCtorEq] at h
  obtain ⟨y, hy, ht⟩ := Option.bind_eq_some_iff.mp h
  exact ⟨task, x, y, rfl, hy, (Option.some.inj ht).symm⟩

/-- A task is over. -/
theorem of_next?_proceed (h : s.next? .proceed = some t) :
    ∃ task x outcome, s.state = .running task x ∧ x.outcome? = some outcome ∧
      t = s.conclude task x outcome := by
  rcases hs : s.state with ⟨task, x⟩ | _ | _ <;> simp only [next?, hs, reduceCtorEq] at h
  obtain ⟨outcome, hout, ht⟩ := Option.bind_eq_some_iff.mp h
  exact ⟨task, x, outcome, rfl, hout, (Option.some.inj ht).symm⟩

theorem result?_eq_some_iff {result : Except Fault SessionOutcome} :
    s.result? = some result ↔ s.state = .over result := by
  unfold result?
  split <;> simp_all

/-- Whatever a session comes to, it has carried out some tasks on the way. -/
theorem Reachable.exists_runs (h : first.Reachable s) : ∃ done, first.Runs s done := by
  induction h with
  | refl => exact ⟨[], .refl⟩
  | step move _ hm ih =>
    obtain ⟨done, hrun⟩ := ih
    cases move with
    | within => exact ⟨done, hrun.within hm⟩
    | proceed =>
      obtain ⟨task, x, outcome, hs, hout, -⟩ := of_next?_proceed hm
      exact ⟨_, hrun.proceed hs hout hm⟩

/-- A session that is over at once has carried out nothing. -/
theorem Runs.eq_of_over {result : Except Fault SessionOutcome} (h : first.Runs s done)
    (hover : first.state = .over result) : s = first ∧ done = [] := by
  induction h with
  | refl => exact ⟨rfl, rfl⟩
  | within _ hm ih =>
    obtain ⟨rfl, -⟩ := ih
    obtain ⟨task, x, y, hs, -⟩ := of_next?_within hm
    rw [hover] at hs
    cases hs
  | proceed _ hs _ _ ih =>
    obtain ⟨rfl, -⟩ := ih
    rw [hover] at hs
    cases hs

/-! ### What holds all along -/

/-- What a session keeps of the tasks that it has carried out. -/
structure Keeps (config : Config) (options : RunOptions) (s : Session) (done : List Episode) :
    Prop where
  config_eq : s.config = config
  options_eq : s.options = options
  results_eq : s.results = done.map Episode.result
  past_eq : s.past = done.flatMap (·.execution.trace)
  managed : ∀ e ∈ done, e.Managed config options

/-- Where a session stands, in view of the tasks that it was to carry out and of those that it has
carried out. -/
inductive Stands (order : List Task) (s : Session) (done : List Episode) : SessionState → Prop where
  | running {task : Task} {x : Execution} {g : Graph}
    (order_eq : order = done.map (·.task) ++ task :: s.rest)
    (built : Graph.build task s.config.containers = .ok g)
    (managed : x.Manages s.options.existingNetwork g s.options.cleanupPolicy)
    (passed : ∀ e ∈ done, e.outcome.Passes ∧ e.execution.cancelled = false) :
    Stands order s done (.running task x)
  /-- If tasks are left that were to be carried out, then one has failed, or somebody has asked to
  stop. -/
  | ended {rest : List Task} (order_eq : order = done.map (·.task) ++ rest)
    (passed : s.exitCode = 0 → (∀ e ∈ done, e.outcome.Passes) ∧
      (rest = [] ∨ ∃ e, done.getLast? = some e ∧ e.execution.cancelled = true)) :
    Stands order s done (.over (.ok ⟨s.results, s.exitCode⟩))
  | refused {task : Task} {rest : List Task} {fault : Graph.Fault}
    (order_eq : order = done.map (·.task) ++ task :: rest)
    (unbuilt : Graph.build task s.config.containers = .error fault)
    (passed : ∀ e ∈ done, e.outcome.Passes ∧ e.execution.cancelled = false) :
    Stands order s done (.over (.error (.graph fault)))
  | crashed : Stands order s done .crashed

/-- What holds of a session all along, once its tasks are in order. -/
structure Sound (config : Config) (options : RunOptions) (order : List Task) (s : Session)
    (done : List Episode) : Prop extends s.Keeps config options done where
  stands : s.Stands order done s.state

variable {config : Config} {options : RunOptions} {order : List Task}

/-- The exit code is zero after a task only if the task passes. -/
theorem passes_of_exitCodeAfter (hzero : s.exitCodeAfter outcome = 0) : outcome.Passes := by
  unfold exitCodeAfter at hzero
  split at hzero
  · next hsucceeded =>
    refine ⟨List.isEmpty_iff.mp hsucceeded, fun exitCode hexit => ?_⟩
    simp only [hexit, exitStatus] at hzero
    split at hzero <;> simp_all
  · cases hzero

/-- What a session keeps does not depend on what it is about to do. -/
theorem Keeps.goOn (h : s.Keeps config options done) (rest : List Task) (state : SessionState) :
    Keeps config options { s with rest, state } done :=
  ⟨h.config_eq, h.options_eq, h.results_eq, h.past_eq, h.managed⟩

/-- The session keeps what has become of one more task. -/
theorem Keeps.append (h : s.Keeps config options done) {e : Episode}
    (he : e.Managed config options) (exitCode : Int) :
    Keeps config options { s with
      results := s.results ++ [e.result]
      exitCode
      past := s.past ++ e.execution.trace } (done ++ [e]) where
  config_eq := h.config_eq
  options_eq := h.options_eq
  results_eq := by simp [h.results_eq]
  past_eq := by simp [h.past_eq]
  managed := List.forall_mem_append.mpr ⟨h.managed, List.forall_mem_singleton.mpr he⟩

/-- The next task begins, if all have passed. -/
theorem Keeps.sound_beginNext (h : s.Keeps config options done) (cancelled : Bool)
    (order_eq : order = done.map (·.task) ++ s.rest)
    (passed : ∀ e ∈ done, e.outcome.Passes ∧ e.execution.cancelled = false) :
    (s.beginNext cancelled).Sound config options order done := by
  unfold beginNext
  split
  · next hrest =>
    rw [hrest] at order_eq
    exact ⟨h.goOn _ _, .ended order_eq fun _ => ⟨fun e he => (passed e he).1, .inl rfl⟩⟩
  · next task rest hrest =>
    rw [hrest] at order_eq
    split
    · next fault hbuild => exact ⟨h.goOn _ _, .refused order_eq hbuild passed⟩
    · next g hbuild =>
      split
      · exact ⟨h.goOn _ _, .crashed⟩
      · next x hx =>
        have hmanages := Execution.manages_of_start? hbuild hx
        exact ⟨h.goOn _ _, .running order_eq hbuild hmanages passed⟩

/-- A task is over, and the session goes on or not. -/
theorem Sound.conclude (h : s.Sound config options order done) (hs : s.state = .running task x)
    (hout : x.outcome? = some outcome) :
    (s.conclude task x outcome).Sound config options order (done ++ [⟨task, x, outcome⟩]) := by
  have hstands := h.stands
  rw [hs] at hstands
  cases hstands with
  | running order_eq built managed passed =>
    rw [h.config_eq] at built
    rw [h.options_eq] at managed
    let e : Episode := ⟨task, x, outcome⟩
    have hkeeps := h.toKeeps.append (e := e) ⟨hout, _, built, managed⟩ (s.exitCodeAfter outcome)
    have horder : order = (done ++ [e]).map (·.task) ++ s.rest := by simpa using order_eq
    unfold Session.conclude
    dsimp only
    split
    · next hstop =>
      refine ⟨hkeeps.goOn _ _, .ended horder fun hzero => ⟨?_, .inr ⟨_, List.getLast?_concat, ?_⟩⟩⟩
      · exact List.forall_mem_append.mpr ⟨fun e he => (passed e he).1,
          List.forall_mem_singleton.mpr (passes_of_exitCodeAfter hzero)⟩
      · replace hzero : s.exitCodeAfter outcome = 0 := hzero
        simpa [hzero] using hstop
    · next hgo =>
      obtain ⟨hzero, hcancelled⟩ : s.exitCodeAfter outcome = 0 ∧ x.cancelled = false := by
        simpa using hgo
      exact hkeeps.sound_beginNext _ horder (List.forall_mem_append.mpr ⟨passed,
        List.forall_mem_singleton.mpr ⟨passes_of_exitCodeAfter hzero, hcancelled⟩⟩)

/-- What holds of a session holds all along. -/
theorem Runs.sound {name : String} {cancelled : Bool}
    (h : (start config options name cancelled).Runs s done)
    (horder : config.taskOrder name options.skipPrerequisites = .ok order) :
    s.Sound config options order done := by
  induction h with
  | refl =>
    unfold start
    rw [horder]
    have hnone : ∀ P : Episode → Prop, ∀ e ∈ [], P e := List.forall_mem_nil
    have hkeeps : Keeps config options
        ⟨config, options, order, [], 0, [], .over (.ok ⟨[], 0⟩)⟩ [] :=
      ⟨rfl, rfl, rfl, rfl, hnone _⟩
    exact hkeeps.sound_beginNext cancelled rfl (hnone _)
  | within _ hm ih =>
    obtain ⟨task, x, y, hs, hy, rfl⟩ := of_next?_within hm
    refine ⟨ih.toKeeps.goOn _ _, ?_⟩
    have hstands := ih.stands
    rw [hs] at hstands
    cases hstands with
    | running order_eq built managed passed =>
      exact .running order_eq built (managed.next? hy) passed
  | proceed _ hs hout hm ih =>
    obtain ⟨task, x, outcome, hs', hout', rfl⟩ := of_next?_proceed hm
    cases hs.symm.trans hs'
    cases hout.symm.trans hout'
    exact ih.conclude hs hout

/-- A session whose tasks cannot be put into an order is over at once. -/
theorem Runs.of_order_fault {name : String} {cancelled : Bool} {fault : TaskOrder.Fault}
    (h : (start config options name cancelled).Runs s done)
    (horder : config.taskOrder name options.skipPrerequisites = .error fault) :
    s.state = .over (.error (.order fault)) ∧ s.trace = [] ∧ done = [] := by
  have hstart : (start config options name cancelled).state = .over (.error (.order fault)) ∧
      (start config options name cancelled).trace = [] := by
    unfold start
    rw [horder]
    exact ⟨rfl, rfl⟩
  obtain ⟨rfl, hdone⟩ := h.eq_of_over hstart.1
  exact ⟨hstart.1, hstart.2, hdone⟩

/-! ### Concrete sessions -/

/-- What happens within a task that a session carries out happens in the session. -/
theorem Reachable.within (h : first.Reachable s) (hs : s.state = .running task x)
    (hy : x.Reachable y) : first.Reachable { s with state := .running task y } := by
  induction hy with
  | refl => rwa [← hs]
  | step move _ hm ih => exact ih.step (.within move) (by simp [next?, hm])

/-- The session after the task that it carries out, if the task goes through some steps, each done
before the next one is handed out, and is over after some more moves. -/
def afterTask? (reply : (c : Call) → Reply c.Value) (steps : Nat) (moves : List Move)
    (s : Session) : Option Session :=
  match s.state with
  | .running task x => do
    let y ← (← x.inTurn? reply steps).after? moves
    { s with state := .running task y }.next? .proceed
  | .over _ | .crashed => none

theorem Reachable.afterTask? {reply : (c : Call) → Reply c.Value} {steps : Nat}
    {moves : List Move} (h : first.Reachable s)
    (ht : s.afterTask? reply steps moves = some t) : first.Reachable t := by
  unfold Session.afterTask? at ht
  split at ht <;> try cases ht
  next task x hs =>
    obtain ⟨x', hx', ht⟩ := Option.bind_eq_some_iff.mp ht
    obtain ⟨y, hy, ht⟩ := Option.bind_eq_some_iff.mp ht
    have hreach : x.Reachable y := (Execution.Reachable.refl.inTurn? hx').after? hy
    exact (h.within hs hreach).step .proceed ht

end Session

namespace Sample

/-- A container that is made of an image of its own name. -/
def plain (name : String) (dependencies : List String) : Container :=
  { container name dependencies with healthCheck := none, setupCommands := [] }

/-- A task that runs a container after some other tasks. -/
def taskAfter (prerequisites : List String) (main : String) : Task :=
  { task with prerequisites, run := some ⟨main, none, .empty, none⟩ }

/-- Three tasks: one by itself, and two after it, of which the second runs a container that depends
on itself through another one. -/
def config : Config :=
  .withNames {
    settings := .standard
    containers := .ofList [("app", plain "app" []), ("left", plain "left" ["right"]),
      ("right", plain "right" ["left"])]
    tasks := .ofList [("prepare", taskAfter [] "app"), ("serve", taskAfter ["prepare"] "app"),
      ("tangle", taskAfter ["prepare"] "left")] }

/-- The beginning of a session for one of the three tasks. -/
def session (name : String) : Session := .start config config.settings.runOptions name false

/-- The configuration has no flaws. -/
theorem validate_config : config.validate = .ok config := by decide +kernel

/-- What can be seen of a session after its first task is seen of a session that can come about. -/
theorem exists_reachable (name : String) (reply : (c : Call) → Reply c.Value) (moves : List Move)
    {p : Session → Bool}
    (h : ((session name).afterTask? reply 6 moves).map p = some true) :
    ∃ s : Session, (session name).Reachable s ∧ p s = true := by
  obtain ⟨s, hs, hp⟩ := Option.map_eq_some_iff.mp h
  exact ⟨s, Session.Reachable.refl.afterTask? hs, hp⟩

end Sample

namespace Session

variable {first s t : Session} {done : List Episode} {config : Config} {options : RunOptions}

/-! ### What a session reports -/

/-- If a session gives the exit code zero, it has carried out the tasks of the order, all of them
unless somebody has asked to stop by the end of the last one that it has carried out. None of them
has failures or another exit code, and the main container of each was run to the exit code zero, as
long as the runtime did not say that a call of the first stage was given up. -/
theorem Reachable.exitCode_eq_zero {name : String} {cancelled : Bool} {report : SessionOutcome}
    (h : (start config options name cancelled).Reachable s)
    (hresult : s.result? = some (.ok report)) (hzero : report.exitCode = 0) :
    ∃ order done, config.taskOrder name options.skipPrerequisites = .ok order ∧
      (start config options name cancelled).Runs s done ∧
      report.results = done.map Episode.result ∧ done.map (·.task) <+: order ∧
      (done.map (·.task) = order ∨
        ∃ e, done.getLast? = some e ∧ e.execution.cancelled = true) ∧
      ∀ e ∈ done, e.outcome.Passes ∧
        (e.task.run.isSome = true → e.execution.trace.any Happening.leavesUndone = false →
          e.outcome.exitCode = some 0) := by
  obtain ⟨done, hruns⟩ := h.exists_runs
  have hs : s.state = .over (.ok report) := result?_eq_some_iff.mp hresult
  cases horder : config.taskOrder name options.skipPrerequisites with
  | error fault =>
    rw [(hruns.of_order_fault horder).1] at hs
    cases hs
  | ok order =>
    have hsound := hruns.sound horder
    have hstands := hsound.stands
    rw [hs] at hstands
    cases hstands with
    | @ended rest order_eq passed =>
      obtain ⟨hpasses, hrest⟩ := passed hzero
      refine ⟨order, done, rfl, hruns, hsound.results_eq, ⟨rest, order_eq.symm⟩, ?_, ?_⟩
      · exact hrest.imp_left fun hnil => by rw [order_eq, hnil, List.append_nil]
      · exact fun e he => ⟨hpasses e he, (hsound.managed e he).exitCode_eq (hpasses e he)⟩

/-- A task that runs its container to the end is a session with the exit code zero. -/
theorem Reachable.exitCode_eq_zero_prepare : ∃ s report,
    (Sample.session "prepare").Reachable s ∧ s.result? = some (.ok report) ∧
    report.exitCode = 0 ∧
    ∃ order done, Sample.config.taskOrder "prepare" false = .ok order ∧
      (Sample.session "prepare").Runs s done ∧
      report.results = done.map Episode.result ∧ done.map (·.task) <+: order ∧
      (done.map (·.task) = order ∨
        ∃ e, done.getLast? = some e ∧ e.execution.cancelled = true) ∧
      ∀ e ∈ done, e.outcome.Passes ∧
        (e.task.run.isSome = true → e.execution.trace.any Happening.leavesUndone = false →
          e.outcome.exitCode = some 0) := by
  obtain ⟨s, hs, hp⟩ := Sample.exists_reachable "prepare" Sample.reply
    [.dispatch, .conclude, .deliver]
    (p := fun s => decide (s.result? = some (.ok ⟨[⟨"prepare", ⟨[], some 0, []⟩⟩], 0⟩)))
    (by decide +kernel)
  have hresult := of_decide_eq_true hp
  exact ⟨s, _, hs, hresult, rfl, hs.exitCode_eq_zero hresult rfl⟩

/-- The exit code zero does not mean that every main container was run to its end: the runtime may
say that the start of one was given up. Nor does it mean that every task of the order was carried
out: somebody may ask to stop when a task is over and before the next one begins. -/
theorem exists_exitCode_eq_zero_undone : Sample.config.validate = .ok Sample.config ∧
    ((Sample.config.tasks.get? "prepare").bind Task.run).isSome = true ∧
    (∃ s, (Sample.session "prepare").Reachable s ∧
      s.result? = some (.ok ⟨[⟨"prepare", ⟨[], none, []⟩⟩], 0⟩)) ∧
    (Sample.config.taskOrder "serve" false).map (·.map Task.name) = .ok ["prepare", "serve"] ∧
    ∃ s, (Sample.session "serve").Reachable s ∧
      s.result? = some (.ok ⟨[⟨"prepare", ⟨[], some 0, []⟩⟩], 0⟩) := by
  obtain ⟨s, hs, hp⟩ := Sample.exists_reachable "prepare"
    (Sample.replyBut (.startContainer ⟨"id-app", "app"⟩) fun _ => .cancelled)
    [.dispatch, .conclude, .deliver]
    (p := fun s => decide (s.result? = some (.ok ⟨[⟨"prepare", ⟨[], none, []⟩⟩], 0⟩)))
    (by decide +kernel)
  obtain ⟨t, ht, hq⟩ := Sample.exists_reachable "serve" Sample.reply
    [.dispatch, .conclude, .cancel, .deliver]
    (p := fun s => decide (s.result? = some (.ok ⟨[⟨"prepare", ⟨[], some 0, []⟩⟩], 0⟩)))
    (by decide +kernel)
  exact ⟨Sample.validate_config, by decide +kernel, ⟨s, hs, of_decide_eq_true hp⟩,
    by decide +kernel, t, ht, of_decide_eq_true hq⟩

/-- If a session gives an error, nothing was done of the task whose graph could not be built, nor of
any later one; what the outside has seen is what it has seen of the tasks before, which have all
passed. If the tasks could not be put into an order, nothing was done at all. -/
theorem Reachable.error_cases {name : String} {cancelled : Bool} {fault : Fault}
    (h : (start config options name cancelled).Reachable s)
    (hresult : s.result? = some (.error fault)) :
    (∃ f, fault = .order f ∧ config.taskOrder name options.skipPrerequisites = .error f ∧
      s.trace = []) ∨
    ∃ f done task rest, fault = .graph f ∧
      config.taskOrder name options.skipPrerequisites =
        .ok (done.map Episode.task ++ task :: rest) ∧
      (start config options name cancelled).Runs s done ∧
      Graph.build task config.containers = .error f ∧
      s.trace = done.flatMap (·.execution.trace) ∧
      ∀ e ∈ done, e.outcome.Passes ∧ e.execution.cancelled = false := by
  obtain ⟨done, hruns⟩ := h.exists_runs
  have hs : s.state = .over (.error fault) := result?_eq_some_iff.mp hresult
  cases horder : config.taskOrder name options.skipPrerequisites with
  | error f =>
    obtain ⟨hstate, htrace, -⟩ := hruns.of_order_fault horder
    rw [hstate] at hs
    cases hs
    exact .inl ⟨f, rfl, rfl, htrace⟩
  | ok order =>
    have hsound := hruns.sound horder
    have hstands := hsound.stands
    rw [hs] at hstands
    cases hstands with
    | @refused task rest f order_eq unbuilt passed =>
      have htrace : s.trace = s.past := by
        unfold trace
        rw [hs]
      rw [hsound.config_eq] at unbuilt
      exact .inr ⟨f, done, task, rest, rfl, congrArg _ order_eq, hruns, unbuilt,
        htrace.trans hsound.past_eq, passed⟩

/-- The second of two tasks has no graph; the first one was carried out before that was found. -/
theorem Reachable.error_cases_tangle : ∃ s done task rest,
    (Sample.session "tangle").Reachable s ∧
    s.result? = some (.error (.graph (.cycle "tangle" ["left", "right"]))) ∧
    Sample.config.taskOrder "tangle" false = .ok (done.map Episode.task ++ task :: rest) ∧
    (Sample.session "tangle").Runs s done ∧
    Graph.build task Sample.config.containers = .error (.cycle "tangle" ["left", "right"]) ∧
    s.trace = done.flatMap (·.execution.trace) ∧
    ∀ e ∈ done, e.outcome.Passes ∧ e.execution.cancelled = false := by
  obtain ⟨s, hs, hp⟩ := Sample.exists_reachable "tangle" Sample.reply
    [.dispatch, .conclude, .deliver]
    (p := fun s => decide
      (s.result? = some (.error (.graph (.cycle "tangle" ["left", "right"])))))
    (by decide +kernel)
  have hresult := of_decide_eq_true hp
  obtain ⟨f, hf, -⟩ | ⟨f, done, task, rest, hf, horder, hruns, hbuild, htrace, hpassed⟩ :=
    hs.error_cases hresult
  · cases hf
  · cases hf
    exact ⟨s, done, task, rest, hs, hresult, horder, hruns, hbuild, htrace, hpassed⟩

/-- A session that gives an error may have had effects: a container of an earlier task was made. -/
theorem exists_error_after_effect : ∃ s, (Sample.session "tangle").Reachable s ∧
    s.result? = some (.error (.graph (.cycle "tangle" ["left", "right"]))) ∧
    .containerCreated "app" ⟨"id-app", "app"⟩ ∈ s.trace.filterMap Happening.creation? := by
  obtain ⟨s, hs, hp⟩ := Sample.exists_reachable "tangle" Sample.reply
    [.dispatch, .conclude, .deliver]
    (p := fun s => decide
      (s.result? = some (.error (.graph (.cycle "tangle" ["left", "right"]))) ∧
        Event.containerCreated "app" ⟨"id-app", "app"⟩ ∈
          s.trace.filterMap Happening.creation?))
    (by decide +kernel)
  exact ⟨s, hs, of_decide_eq_true hp⟩

end Session

end ContainerTasks
