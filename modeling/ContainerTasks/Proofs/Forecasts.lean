import ContainerTasks.Command
import ContainerTasks.Proofs.Listings
import ContainerTasks.Proofs.SmoothSessions

/-!
# Forecasts come true

A forecast goes through the tasks in the same order as a session, and builds their graphs, but that
is all it does. Still it says what a session would come to.

It ends well if and only if no session can give an error: no answer of the runtime and no request to
stop can make a session err, as all it ever errs about are the order of the tasks and their graphs.
And if the forecast gives an error, then a session in which all goes well comes to the same one,
since each task before the one without a graph passes.

What is printed about a task is what a session that gets to the task begins with: the containers of
its graph in order, and the first rules of its machine. What is printed is given as bytes, whose
lines are those that `Forecast.Tells` is about.

## Main definitions

* `Command.Report.ComesTrue`

## Main results

* `Config.exists_graphs_append`: graphs are built one task at a time
* `Command.comesTrue_perform`
-/

namespace ContainerTasks

/-! ### Graphs in order -/

namespace Config

variable {config : Config} {task : Task} {front : List Task} {rest : List Task}

theorem graphs_cons_of_error {fault : Graph.Fault}
    (h : Graph.build task config.containers = .error fault) :
    config.graphs (task :: rest) = ([], some (task.name, fault)) := by
  simp only [graphs, h]

theorem graphs_cons_of_ok {g : Graph} (h : Graph.build task config.containers = .ok g) :
    config.graphs (task :: rest) =
      ((task.name, g) :: (config.graphs rest).1, (config.graphs rest).2) := by
  simp only [graphs, h]

/-- Tasks that have graphs are not in the way of the tasks after them. -/
theorem exists_graphs_append (h : ∀ t ∈ front, ∃ g, Graph.build t config.containers = .ok g)
    (rest : List Task) :
    ∃ built : List (String × Graph), built.map (·.1) = front.map (·.name) ∧
      config.graphs (front ++ rest) =
        (built ++ (config.graphs rest).1, (config.graphs rest).2) := by
  induction front with
  | nil => exact ⟨[], rfl, rfl⟩
  | cons t front ih =>
    obtain ⟨⟨g, hg⟩, hfront⟩ := List.forall_mem_cons.mp h
    obtain ⟨built, hnames, hgraphs⟩ := ih hfront
    refine ⟨(t.name, g) :: built, by simp [hnames], ?_⟩
    rw [List.cons_append, graphs_cons_of_ok hg, hgraphs, List.cons_append]

end Config

/-! ### Forecasts and sessions -/

namespace Session

variable {config : Config} {options : RunOptions} {name : String} {s : Session} {task : Task}
  {x : Execution} {order : List Task}

/-- The task that a session carries out is in the forecast, in the same place. -/
theorem Reachable.exists_getElem?_graphs {cancelled : Bool}
    (h : (start config options name cancelled).Reachable s) (hs : s.state = .running task x)
    (horder : config.taskOrder name options.skipPrerequisites = .ok order) :
    ∃ g, (config.graphs order).1[s.results.length]? = some (task.name, g) ∧
      Hosts config options task g x := by
  obtain ⟨g, hhosts⟩ := h.carries.hosts task x hs
  refine ⟨g, ?_, hhosts⟩
  obtain ⟨done, hruns⟩ := h.exists_runs
  have hsound := hruns.sound horder
  have hstands := hsound.stands
  rw [hs] at hstands
  cases hstands with
  | running order_eq =>
    obtain ⟨built, hnames, hgraphs⟩ :=
      Config.exists_graphs_append hsound.exists_build (task :: s.rest)
    have hlength : s.results.length = built.length := by
      simpa [hsound.results_eq] using (congrArg List.length hnames).symm
    rw [order_eq, hgraphs, Config.graphs_cons_of_ok hhosts.built, hlength,
      List.getElem?_append_right (Nat.le_refl _), Nat.sub_self]
    rfl

/-- If a session errs about the graph of a task, then so does the forecast. -/
theorem Reachable.graphs_ne_none {cancelled : Bool} {fault : Fault}
    (h : (start config options name cancelled).Reachable s)
    (hresult : s.result? = some (.error fault))
    (horder : config.taskOrder name options.skipPrerequisites = .ok order) :
    (config.graphs order).2 ≠ none := by
  obtain ⟨f, rfl, hfault, -⟩ | ⟨f, done, task, rest, rfl, hok, hruns, hbuild, -⟩ :=
    h.error_cases hresult
  · rw [horder] at hfault
    cases hfault
  · obtain ⟨built, -, hgraphs⟩ :=
      Config.exists_graphs_append (hruns.sound horder).exists_build (task :: rest)
    rw [horder] at hok
    obtain rfl := Except.ok.inj hok
    rw [hgraphs, Config.graphs_cons_of_error hbuild]
    exact Option.some_ne_none _

/-- If all goes well, a session carries out the tasks of the forecast and errs as it does. -/
theorem SmoothlyReachable.forecast (hlimit : options.HasUsableLimit)
    (h : (start config options name false).SmoothlyReachable s) (hover : s.result?.isSome = true)
    (horder : config.taskOrder name options.skipPrerequisites = .ok order) :
    s.results.map (·.task) = (config.graphs order).1.map (·.1) ∧
      ∀ broken, (config.graphs order).2 = some broken →
        s.result? = some (.error (.graph broken.2)) := by
  obtain ⟨result, hresult⟩ := Option.isSome_iff_exists.mp hover
  obtain ⟨done, hresults, hdone, hcases⟩ := h.over_cases hlimit hresult horder
  have hnames : s.results.map (·.task) = (done.map (·.task)).map (·.name) := by
    rw [hresults, List.map_map, List.map_map]
    rfl
  rw [hnames, hresult]
  rcases hcases with ⟨rfl, -⟩ | ⟨task, rest, fault, rfl, hbuild, rfl⟩
  · obtain ⟨built, hbuilt, hgraphs⟩ := Config.exists_graphs_append hdone []
    rw [List.append_nil] at hgraphs
    rw [hgraphs, ← hbuilt]
    exact ⟨by simp [Config.graphs], fun broken hbroken => by cases hbroken⟩
  · obtain ⟨built, hbuilt, hgraphs⟩ := Config.exists_graphs_append hdone (task :: rest)
    rw [hgraphs, ← hbuilt, Config.graphs_cons_of_error hbuild]
    refine ⟨by simp, fun broken hbroken => ?_⟩
    obtain rfl := Option.some.inj hbroken
    rfl

end Session

/-- No more than two steps at a time. -/
def Sample.inPairs : RunOptions := { config.settings.runOptions with maxParallelism := some 2 }

namespace Command

/-- The report of a forecast comes true.

It has no fault if and only if no session for the task can give an error, whatever the runtime
answers, however the jobs take turns, and whenever somebody asks to stop. If it has a fault, then a
session in which all goes well comes to the same one. And if tasks are printed, then a session that
gets to one of them has set up the machine that is printed, and if all goes well it gets to all. The
bytes that are printed are those of lines about the options and about each task in turn. -/
structure Report.ComesTrue (report : Report) (config : Config) (options : RunOptions)
    (name : String) : Prop where
  ok_iff : report.result = some (.ok 0) ↔
    ∀ cancelled s, (Session.start config options name cancelled).Reachable s →
      ∀ fault, s.result? ≠ some (.error fault)
  fault : ∀ fault, report.result = some (.error fault) → ∃ f, fault = .session f ∧
    (Session.start config options name false).ComesTo fun s => s.result? = some (.error f)
  printed : ∀ order, config.taskOrder name options.skipPrerequisites = .ok order →
    ∃ shown lines, Forecast.Tells config options.cleanupPolicy order shown lines ∧
      report.stdout = (String.join
        ((Forecast.heading options ++ lines).map (· ++ "\n"))).toUTF8.toList ∧
      (Session.start config options name false).ComesTo
        (fun s => s.results.map (·.task) = shown.map (·.1)) ∧
      ∀ cancelled s task x, (Session.start config options name cancelled).Reachable s →
        s.state = .running task x → ∃ g block, shown[s.results.length]? = some (task.name, g) ∧
          Session.Hosts config options task g x ∧
          Forecast.Shows (.start g options.cleanupPolicy) task.name block ∧ block <:+: lines
  silent : ∀ fault, config.taskOrder name options.skipPrerequisites = .error fault →
    report.stdout = []

variable {config : Config} {options : RunOptions} {name process : String}
  {program : Docker.Program} {created : Except Fault Unit} {order : List Task}

/-! ### What is reported of a forecast -/

theorem perform_forecast_of_error {fault : TaskOrder.Fault}
    (h : config.taskOrder name options.skipPrerequisites = .error fault) :
    (perform process program created (.forecast config options name)).result =
      some (.error (.session (.order fault))) := by
  simp [perform, Config.forecast, h, Report.quick]

theorem forecast_of_ok (h : config.taskOrder name options.skipPrerequisites = .ok order) :
    config.forecast options name =
      .ok ⟨options, (config.graphs order).1, (config.graphs order).2⟩ := by
  simp [Config.forecast, h]

/-- A forecast ends well, and no session can err; or else a session in which all goes well comes to
the fault of the forecast. -/
theorem perform_forecast_cases (config : Config) (name process : String)
    (program : Docker.Program) (created : Except Fault Unit) (hlimit : options.HasUsableLimit) :
    ((perform process program created (.forecast config options name)).result = some (.ok 0) ∧
      ∀ cancelled s, (Session.start config options name cancelled).Reachable s →
        ∀ fault, s.result? ≠ some (.error fault)) ∨
    ∃ f, (perform process program created (.forecast config options name)).result =
        some (.error (.session f)) ∧
      (Session.start config options name false).ComesTo fun s => s.result? = some (.error f) := by
  cases horder : config.taskOrder name options.skipPrerequisites with
  | error fault =>
    refine .inr ⟨.order fault, perform_forecast_of_error horder, Session.comesTo hlimit ?_⟩
    intro s hs _
    obtain ⟨done, hruns, -⟩ := hs.calm hlimit
    exact Session.result?_eq_some_iff.mpr (hruns.of_order_fault horder).1
  | ok order =>
    have hforecast := forecast_of_ok horder
    cases hbroken : (config.graphs order).2 with
    | none =>
      refine .inl ⟨?_, fun cancelled s hs fault hresult => ?_⟩
      · simp [perform, hforecast, hbroken, Forecast.fault?, Report.quick]
      · exact hs.graphs_ne_none hresult horder hbroken
    | some broken =>
      refine .inr ⟨.graph broken.2, ?_, Session.comesTo hlimit fun s hs hover => ?_⟩
      · simp [perform, hforecast, hbroken, Forecast.fault?, Report.quick]
      · exact (hs.forecast hlimit hover horder).2 broken hbroken

/-- A forecast comes true, if a limit on parallel work can be used. -/
theorem comesTrue_perform (config : Config) (name process : String) (program : Docker.Program)
    (created : Except Fault Unit) (hlimit : options.HasUsableLimit) :
    (perform process program created (.forecast config options name)).ComesTrue config options
      name := by
  have hcases := perform_forecast_cases config name process program created hlimit
  constructor
  case ok_iff =>
    obtain ⟨hok, hnever⟩ | ⟨f, herror, hcomes⟩ := hcases
    · exact ⟨fun _ => hnever, fun _ => hok⟩
    · -- one session errs, so that both sides are false
      refine iff_of_false (by rw [herror]; nofun) fun hnever => ?_
      obtain ⟨s, hs, -, hresult⟩ := hcomes.exists_over Sample.reply Sample.isClean_reply
      exact absurd hresult (hnever false s hs.reachable f)
  case fault =>
    intro fault hfault
    obtain ⟨hok, -⟩ | ⟨f, herror, hcomes⟩ := hcases
    · rw [hok] at hfault
      cases hfault
    · rw [herror] at hfault
      cases hfault
      exact ⟨f, rfl, hcomes⟩
  case printed =>
    intro order horder
    have hforecast := forecast_of_ok horder
    obtain ⟨lines, htells, hlines⟩ := Forecast.exists_lines config options order
    refine ⟨_, lines, htells, ?_, Session.comesTo hlimit fun s hs hover => ?_, ?_⟩
    · simp only [perform, hforecast, Report.quick, printed, hlines]
    · exact (hs.forecast hlimit hover horder).1
    · intro cancelled s task x hs hstate
      obtain ⟨g, hplace, hhosts⟩ := hs.exists_getElem?_graphs hstate horder
      obtain ⟨block, hshows, hblock⟩ := htells.exists_shows hplace
      exact ⟨g, block, hplace, hhosts, hshows, hblock⟩
  case silent =>
    intro fault horder
    simp [perform, Config.forecast, horder, Report.quick, printed]

/-- The forecast errs about the containers of the second task, and so does a session after it has
carried out the first one. -/
theorem comesTrue_perform_tangle : Sample.inPairs.HasUsableLimit ∧
    (perform "1" .absent (.ok ()) (.forecast Sample.config Sample.inPairs "tangle")).ComesTrue
      Sample.config Sample.inPairs "tangle" ∧
    (perform "1" .absent (.ok ()) (.forecast Sample.config Sample.inPairs "tangle")).result =
      some (.error (.session (.graph (.cycle "tangle" ["left", "right"])))) ∧
    ∃ s, (Session.start Sample.config Sample.inPairs "tangle" false).SmoothlyReachable s ∧
      s.result? = some (.error (.graph (.cycle "tangle" ["left", "right"]))) := by
  have hlimit : Sample.inPairs.HasUsableLimit := by
    intro n hn
    cases hn
    decide
  have htrue := comesTrue_perform Sample.config "tangle" "1" .absent (.ok ()) hlimit
  have herror : (perform "1" .absent (.ok ())
      (.forecast Sample.config Sample.inPairs "tangle")).result =
        some (.error (.session (.graph (.cycle "tangle" ["left", "right"])))) := by
    decide +kernel
  obtain ⟨f, hf, hcomes⟩ := htrue.fault _ herror
  obtain ⟨s, hs, -, hresult⟩ := hcomes.exists_over Sample.reply Sample.isClean_reply
  cases hf
  exact ⟨hlimit, htrue, herror, s, hs, hresult⟩

end Command

end ContainerTasks
