import ContainerTasks.Proofs.Sessions
import ContainerTasks.Proofs.TaskOrders

/-!
# What a session carries out, and its exit code

A session that comes to its end without an error has carried out one task after the other, from the
front of the order. A task is not begun before the machine of the task before has finished and all
its steps are handed back. Only the last task may have failures or an exit code other than zero, and
if the order holds more tasks, it has, or somebody has asked to stop.

While a task is carried out, the exit code of the session is zero. So the exit code of the session
can be told from what has become of its tasks: it is one if the last of them has failures, and else
the exit code that was recorded last. One that does not fit into 32 bits becomes a one and not a
zero, however it would be cut off.

## Main definitions

* `latestExitCode?`: the exit code that was recorded last
* `Session.CarriesOut`: which tasks a session has carried out, and in which way
* `SessionOutcome.Tells`: the exit code that goes with the results

## Main results

* `exitStatus_eq_zero_iff`: no exit code but zero becomes zero
* `Session.Runs.exitCode_of_running`: the exit code is zero while a task is carried out
* `Session.Runs.exists_last`: a session without an error ends with the end of a task
* `Session.Reachable.carriesOut_and_tells`
-/

namespace ContainerTasks

/-- The exit code of a main container that was recorded last. -/
def latestExitCode? (results : List TaskResult) : Option Int :=
  results.reverse.findSome? (·.outcome.exitCode)

/-- The exit code of the report is that of its results. -/
structure SessionOutcome.Tells (report : SessionOutcome) : Prop where
  failed : ∀ last, report.results.getLast? = some last → last.outcome.failures ≠ [] →
    report.exitCode = 1
  unrecorded : ∀ last, report.results.getLast? = some last → last.outcome.failures = [] →
    latestExitCode? report.results = none → report.exitCode = 0
  recorded : ∀ last, report.results.getLast? = some last → last.outcome.failures = [] →
    ∀ code, latestExitCode? report.results = some code →
      report.exitCode = if -2147483648 ≤ code ∧ code ≤ 2147483647 then code else 1
  /-- No exit code but zero is told as zero. -/
  zero : report.exitCode = 0 → ∀ result ∈ report.results, ∀ code,
    result.outcome.exitCode = some code → code = 0

/-- No exit code but zero becomes zero. -/
theorem exitStatus_eq_zero_iff {code : Int} : exitStatus code = 0 ↔ code = 0 := by
  unfold exitStatus
  split
  · rfl
  · next h =>
    have : ¬ code = 0 := by
      rintro rfl
      exact h (by decide)
    simpa using this

theorem exitStatus_eq (code : Int) :
    exitStatus code = if -2147483648 ≤ code ∧ code ≤ 2147483647 then code else 1 := rfl

/-- A task is over when its machine has finished and all steps are handed back. -/
theorem Episode.Managed.finished {config : Config} {options : RunOptions} {e : Episode}
    (h : e.Managed config options) :
    e.execution.machine.stage = .finished ∧ e.execution.machine.inFlight = 0 := by
  obtain ⟨g, -, hmanages⟩ := h.manages
  have hfinished : e.execution.machine.stage = .finished := by
    refine hmanages.candid.finished ?_
    rw [Execution.returned_of_outcome? h.outcome_eq]
    exact nofun
  have hsound := hmanages.sound.ledger.run.sound hmanages.sound_graph
  exact ⟨hfinished, hsound.idle_finished hfinished⟩

/-- What lets a session go on, said of the exit code that was recorded. -/
theorem Outcome.Passes.exitCode_cases {outcome : Outcome} (h : outcome.Passes) :
    outcome.exitCode = none ∨ outcome.exitCode = some 0 := by
  cases hcode : outcome.exitCode with
  | none => exact .inl rfl
  | some code =>
    rw [h.exitCode_eq code hcode]
    exact .inr rfl

theorem latestExitCode?_concat (results : List TaskResult) (result : TaskResult) :
    latestExitCode? (results ++ [result]) =
      result.outcome.exitCode.or (latestExitCode? results) := by
  rw [latestExitCode?, List.reverse_concat, List.findSome?_cons]
  cases result.outcome.exitCode <;> rfl

/-- Of tasks that have passed no exit code but zero was recorded. -/
theorem eq_zero_of_latestExitCode? {results : List TaskResult} {code : Int}
    (hpasses : ∀ result ∈ results, result.outcome.Passes)
    (h : latestExitCode? results = some code) : code = 0 := by
  obtain ⟨result, hmem, hcode⟩ := List.exists_of_findSome?_eq_some h
  exact (hpasses result (List.mem_reverse.mp hmem)).exitCode_eq code hcode

namespace Session

/-- The tasks that a session has carried out when it ends without an error. -/
structure CarriesOut (first : Session) (order : List Task) (done : List Episode) : Prop where
  ne_nil : done ≠ []
  front : done.map (·.task) <+: order
  /-- While a task is carried out, the machines of all tasks before it have finished, with no step
  in flight, and what the outside sees of the task comes after what it has seen of them. -/
  oneByOne : ∀ s task x earlier, first.Runs s earlier → s.state = .running task x →
    (∃ rest, order = earlier.map (·.task) ++ task :: rest) ∧
      s.trace = earlier.flatMap (·.execution.trace) ++ x.trace ∧
      ∀ e ∈ earlier, e.execution.machine.stage = .finished ∧ e.execution.machine.inFlight = 0
  passed : ∀ e ∈ done.dropLast, e.outcome.failures = [] ∧
    (e.outcome.exitCode = none ∨ e.outcome.exitCode = some 0)
  stopped : done.map (·.task) ≠ order → ∃ e, done.getLast? = some e ∧
    (e.outcome.failures ≠ [] ∨ (∃ code, e.outcome.exitCode = some code ∧ code ≠ 0) ∨
      e.execution.cancelled = true)

variable {first s t : Session} {done : List Episode} {config : Config} {options : RunOptions}
  {order : List Task} {task : Task} {x : Execution} {outcome : Outcome} {name : String}
  {cancelled : Bool} {report : SessionOutcome}

/-! ### Where a session stands -/

/-- While a task is carried out, the tasks before it have passed, and what the outside has seen of
them comes first. -/
theorem Sound.of_running (h : s.Sound config options order done)
    (hs : s.state = .running task x) :
    order = done.map (·.task) ++ task :: s.rest ∧
      s.trace = done.flatMap (·.execution.trace) ++ x.trace ∧
      ∀ e ∈ done, e.outcome.Passes := by
  have hstands := h.stands
  rw [hs] at hstands
  obtain ⟨order_eq, -, -, passed⟩ := hstands
  refine ⟨order_eq, ?_, fun e he => (passed e he).1⟩
  simp only [trace, hs, h.past_eq]

/-- What is reported at the end are the results of the tasks. -/
theorem Sound.results_of_over (h : s.Sound config options order done)
    (hs : s.state = .over (.ok report)) : report.results = done.map Episode.result := by
  have hstands := h.stands
  rw [hs] at hstands
  cases hstands with
  | ended => exact h.results_eq

/-! ### The exit code while tasks are carried out -/

theorem exitCodeAfter_of_failures (h : outcome.failures ≠ []) : s.exitCodeAfter outcome = 1 := by
  rw [exitCodeAfter, if_neg]
  simpa [Outcome.succeeded] using h

theorem exitCodeAfter_of_none (h : outcome.failures = []) (hcode : outcome.exitCode = none) :
    s.exitCodeAfter outcome = s.exitCode := by
  rw [exitCodeAfter, if_pos (by simp [Outcome.succeeded, h]), hcode]

theorem exitCodeAfter_of_some {code : Int} (h : outcome.failures = [])
    (hcode : outcome.exitCode = some code) : s.exitCodeAfter outcome = exitStatus code := by
  rw [exitCodeAfter, if_pos (by simp [Outcome.succeeded, h]), hcode]

/-- What begins does not change the exit code. -/
theorem exitCode_beginNext (s : Session) (cancelled : Bool) :
    (s.beginNext cancelled).exitCode = s.exitCode := by
  unfold beginNext stop
  split
  · rfl
  · split
    · rfl
    · split <;> rfl

/-- If another task is begun, the exit code is zero. -/
theorem exitCode_of_running_conclude {task' : Task} {y : Execution}
    (h : (s.conclude task x outcome).state = .running task' y) :
    (s.conclude task x outcome).exitCode = 0 := by
  unfold conclude at h ⊢
  dsimp only at h ⊢
  split at h
  · cases h
  · next hgo =>
    rw [if_neg hgo, exitCode_beginNext]
    simp only [Bool.or_eq_true, not_or, decide_eq_true_eq, ne_eq, not_not] at hgo
    exact hgo.1

/-- The exit code is zero while a task is carried out. -/
theorem Runs.exitCode_of_running (h : (start config options name cancelled).Runs s done)
    (hs : s.state = .running task x) : s.exitCode = 0 := by
  induction h generalizing task x with
  | refl =>
    unfold start at hs ⊢
    dsimp only at hs ⊢
    split at hs
    · cases hs
    · exact exitCode_beginNext _ _
  | within _ hm ih =>
    obtain ⟨task, x, y, hbefore, -, rfl⟩ := of_next?_within hm
    exact ih hbefore
  | proceed _ _ _ hm =>
    obtain ⟨task, x, outcome, -, -, rfl⟩ := of_next?_proceed hm
    exact exitCode_of_running_conclude hs

/-! ### The end of the last task -/

/-- A session ends without an error when no task is left to begin. -/
theorem over_beginNext (h : (s.beginNext cancelled).state = .over (.ok report)) :
    s.rest = [] ∧ report = ⟨s.results, s.exitCode⟩ := by
  unfold beginNext at h
  split at h
  · next hrest =>
    cases h
    exact ⟨hrest, rfl⟩
  · split at h
    · cases h
    · split at h <;> cases h

/-- What a session reports that ends with the end of a task, and why it ends. -/
theorem over_conclude (h : (s.conclude task x outcome).state = .over (.ok report)) :
    report = ⟨s.results ++ [⟨task.name, outcome⟩], s.exitCodeAfter outcome⟩ ∧
      (s.rest = [] ∨ s.exitCodeAfter outcome ≠ 0 ∨ x.cancelled = true) := by
  unfold conclude at h
  dsimp only at h
  split at h
  · next hstop =>
    cases h
    exact ⟨rfl, .inr (by simpa using hstop)⟩
  · obtain ⟨hrest, rfl⟩ := over_beginNext h
    exact ⟨rfl, .inl hrest⟩

/-- A session that ends without an error ends with the end of a task. -/
theorem Runs.exists_last (h : (start config options name cancelled).Runs t done)
    (horder : config.taskOrder name options.skipPrerequisites = .ok order)
    (ht : t.state = .over (.ok report)) :
    ∃ s earlier task x outcome, (start config options name cancelled).Runs s earlier ∧
      s.state = .running task x ∧ x.outcome? = some outcome ∧
      done = earlier ++ [⟨task, x, outcome⟩] ∧
      report = ⟨s.results ++ [⟨task.name, outcome⟩], s.exitCodeAfter outcome⟩ ∧
      (s.rest = [] ∨ s.exitCodeAfter outcome ≠ 0 ∨ x.cancelled = true) := by
  cases h with
  | refl =>
    unfold start at ht
    rw [horder] at ht
    exact absurd (over_beginNext ht).1 (Config.taskOrder_ne_nil horder)
  | within _ hm =>
    obtain ⟨task, x, y, -, -, rfl⟩ := of_next?_within hm
    cases ht
  | @proceed s _ earlier task x outcome hruns hs hout hm =>
    obtain ⟨task', x', outcome', hs', hout', rfl⟩ := of_next?_proceed hm
    cases hs.symm.trans hs'
    cases hout.symm.trans hout'
    exact ⟨s, earlier, task, x, outcome, hruns, hs, hout, rfl, over_conclude ht⟩

/-! ### What is carried out -/

/-- What a session without an error has carried out. -/
theorem Runs.carriesOut (h : (start config options name cancelled).Runs t done)
    (horder : config.taskOrder name options.skipPrerequisites = .ok order)
    (ht : t.state = .over (.ok report)) :
    (start config options name cancelled).CarriesOut order done := by
  obtain ⟨s, earlier, task, x, outcome, hruns, hs, hout, rfl, -, hwhy⟩ := h.exists_last horder ht
  obtain ⟨order_eq, -, hpasses⟩ := (hruns.sound horder).of_running hs
  have hzero := hruns.exitCode_of_running hs
  constructor
  case ne_nil => simp
  case front => exact ⟨s.rest, by simp [order_eq]⟩
  case oneByOne =>
    intro s task x earlier hruns hs
    have hsound := hruns.sound horder
    obtain ⟨order_eq, htrace, -⟩ := hsound.of_running hs
    exact ⟨⟨s.rest, order_eq⟩, htrace, fun e he => (hsound.managed e he).finished⟩
  case passed =>
    rw [List.dropLast_concat]
    exact fun e he => ⟨(hpasses e he).failures_eq, (hpasses e he).exitCode_cases⟩
  case stopped =>
    intro hstrict
    refine ⟨_, List.getLast?_concat, ?_⟩
    obtain hrest | hcode | hcancelled := hwhy
    · exact absurd (by simp [order_eq, hrest]) hstrict
    · by_cases hfailed : outcome.failures = []
      · cases hexit : outcome.exitCode with
        | none => exact absurd ((exitCodeAfter_of_none hfailed hexit).trans hzero) hcode
        | some code =>
          rw [exitCodeAfter_of_some hfailed hexit, Ne, exitStatus_eq_zero_iff] at hcode
          exact .inr (.inl ⟨code, rfl, hcode⟩)
      · exact .inl hfailed
    · exact .inr (.inr hcancelled)

/-! ### What is reported -/

/-- The exit code goes with what has become of the tasks. -/
theorem Runs.tells (h : (start config options name cancelled).Runs t done)
    (horder : config.taskOrder name options.skipPrerequisites = .ok order)
    (ht : t.state = .over (.ok report)) : report.Tells := by
  obtain ⟨s, earlier, task, x, outcome, hruns, hs, -, -, rfl, -⟩ := h.exists_last horder ht
  have hsound := hruns.sound horder
  have hzero := hruns.exitCode_of_running hs
  have hpasses : ∀ result ∈ s.results, result.outcome.Passes := by
    rw [hsound.results_eq]
    exact List.forall_mem_map.mpr (hsound.of_running hs).2.2
  have hlast : ∀ last, (s.results ++ [TaskResult.mk task.name outcome]).getLast? = some last →
      last = ⟨task.name, outcome⟩ := by
    intro last hlast
    rw [List.getLast?_concat] at hlast
    exact (Option.some.inj hlast).symm
  constructor
  case failed =>
    intro last hmem hfailed
    obtain rfl := hlast last hmem
    exact exitCodeAfter_of_failures hfailed
  case unrecorded =>
    intro last hmem hfailed hnone
    obtain rfl := hlast last hmem
    rw [latestExitCode?_concat, Option.or_eq_none_iff] at hnone
    exact (exitCodeAfter_of_none hfailed hnone.1).trans hzero
  case recorded =>
    intro last hmem hfailed code hcode
    obtain rfl := hlast last hmem
    rw [← exitStatus_eq]
    rw [latestExitCode?_concat] at hcode
    cases hexit : outcome.exitCode with
    | some own =>
      obtain rfl : own = code := by simpa [hexit] using hcode
      exact exitCodeAfter_of_some hfailed hexit
    | none =>
      -- the task before was let pass with this exit code
      obtain rfl : code = 0 := eq_zero_of_latestExitCode? hpasses (by simpa [hexit] using hcode)
      rw [exitStatus_eq_zero_iff.mpr rfl]
      exact (exitCodeAfter_of_none hfailed hexit).trans hzero
  case zero =>
    intro hcode result hresult code hexit
    rcases List.mem_append.mp hresult with hmem | hmem
    · exact (hpasses result hmem).exitCode_eq code hexit
    · rw [List.mem_singleton.mp hmem] at hexit
      exact (passes_of_exitCodeAfter hcode).exitCode_eq code hexit

/-- **What a session carries out, and its exit code.** A session that ends without an error has
carried out tasks from the front of the order, at least one, one after the other, and has stopped
early only with a reason; its results are theirs, and its exit code goes with them. -/
theorem Reachable.carriesOut_and_tells (h : (start config options name cancelled).Reachable s)
    (hresult : s.result? = some (.ok report)) :
    ∃ order done, config.taskOrder name options.skipPrerequisites = .ok order ∧
      (start config options name cancelled).Runs s done ∧
      report.results = done.map Episode.result ∧
      (start config options name cancelled).CarriesOut order done ∧ report.Tells := by
  obtain ⟨done, hruns⟩ := h.exists_runs
  have hs : s.state = .over (.ok report) := result?_eq_some_iff.mp hresult
  cases horder : config.taskOrder name options.skipPrerequisites with
  | error fault =>
    rw [(hruns.of_order_fault horder).1] at hs
    cases hs
  | ok order =>
    exact ⟨order, done, rfl, hruns, (hruns.sound horder).results_of_over hs,
      hruns.carriesOut horder hs, hruns.tells horder hs⟩

end Session

/-- A runtime that does what it is asked to do, and in which main containers exit with the code. -/
def Sample.replyExit (code : Int) : (c : Call) → Reply c.Value
  | .awaitExit _ => .ok code
  | c => reply c

/-- The first of two tasks gives an exit code of which the last 32 bits are zero. It is told as a
one, and the second task is not begun. -/
theorem Session.Reachable.carriesOut_and_tells_serve : ∃ s order done,
    (Sample.session "serve").Reachable s ∧
    s.result? = some (.ok ⟨[⟨"prepare", ⟨[], some 4294967296, []⟩⟩], 1⟩) ∧
    Sample.config.taskOrder "serve" false = .ok order ∧
    (Sample.session "serve").Runs s done ∧
    [⟨"prepare", ⟨[], some 4294967296, []⟩⟩] = done.map Episode.result ∧
    (Sample.session "serve").CarriesOut order done ∧
    SessionOutcome.Tells ⟨[⟨"prepare", ⟨[], some 4294967296, []⟩⟩], 1⟩ := by
  obtain ⟨s, hs, hp⟩ := Sample.exists_reachable "serve" (Sample.replyExit 4294967296)
    [.dispatch, .conclude, .deliver]
    (p := fun s => decide
      (s.result? = some (.ok ⟨[⟨"prepare", ⟨[], some 4294967296, []⟩⟩], 1⟩)))
    (by decide +kernel)
  have hresult := of_decide_eq_true hp
  obtain ⟨order, done, horder, hruns, hresults, hcarries, htells⟩ := hs.carriesOut_and_tells hresult
  exact ⟨s, order, done, hs, hresult, horder, hruns, hresults, hcarries, htells⟩

end ContainerTasks
