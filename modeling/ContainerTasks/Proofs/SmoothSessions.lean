import ContainerTasks.Proofs.Burdens
import ContainerTasks.Proofs.Deadlocks
import ContainerTasks.Proofs.SmoothRuns

/-!
# Sessions in which all goes well

No session goes on for ever, whatever happens: it has only so many tasks, and there is only so much
to do in each. And no session is stuck before it is over, if a limit on parallel work leaves a permit
and can be kept. So, if all goes well, a session comes to its end.

Each task passes then. This is why the session carries out all tasks in order, up to the first one
that has no graph, and gives the exit code zero or the fault of that graph.

## Main definitions

* `RunOptions.HasUsableLimit`
* `Session.Hosts`: where the execution of a task has come from
* `Session.burden`: what a session has still to do
* `Session.SmoothlyReachable`, `Session.ComesTo`: what a session can come to and comes to, if all
  goes well

## Main results

* `Session.burden_lt`
* `Session.comesTo`
* `Session.SmoothlyReachable.over_cases`
-/

namespace ContainerTasks

/-- If there is a limit on parallel work, then it leaves a permit and can be kept. -/
def RunOptions.HasUsableLimit (options : RunOptions) : Prop :=
  ∀ n, options.maxParallelism = some n → 0 < n ∧ n ≤ Execution.mostPermits

namespace Move

variable {reply : (c : Call) → Reply c.Value} {move : Move}

theorem Obeys.isIdle_eq (h : move.Obeys reply) : move.isIdle = false := by
  cases move <;> first | rfl | exact h.elim

theorem Obeys.isSmooth (h : move.Obeys reply)
    (hreply : ∀ c, Answer.isClean ⟨c, reply c⟩ = true) : move.isSmooth = true := by
  cases move with
  | reply job answer =>
    obtain ⟨c, given⟩ := answer
    obtain rfl : given = reply c := h
    exact hreply c
  | progress | cancel => exact h.elim
  | _ => rfl

end Move

namespace SessionMove

/-- The move brings nothing nearer to its end. -/
def isIdle : SessionMove → Bool
  | within move => move.isIdle
  | proceed => false

/-- If the move answers a call, then the runtime has done what it was asked to do; and it is not
that the user asks to stop. -/
def isSmooth : SessionMove → Bool
  | within move => move.isSmooth
  | proceed => true

/-- The move brings something nearer to its end, and if it answers a call, then as told. -/
def Obeys (reply : (c : Call) → Reply c.Value) : SessionMove → Prop
  | within move => move.Obeys reply
  | proceed => True

variable {reply : (c : Call) → Reply c.Value} {move : SessionMove}

theorem Obeys.isIdle_eq (h : move.Obeys reply) : move.isIdle = false := by
  cases move with
  | within => exact Move.Obeys.isIdle_eq h
  | proceed => rfl

theorem Obeys.isSmooth (h : move.Obeys reply)
    (hreply : ∀ c, Answer.isClean ⟨c, reply c⟩ = true) : move.isSmooth = true := by
  cases move with
  | within => exact Move.Obeys.isSmooth h hreply
  | proceed => rfl

end SessionMove

namespace Execution

theorem smooth_of_start? {m : Machine} {existing : Option String} {limit : Option Nat}
    {x : Execution} (h : start? m existing limit false = some x) (hm : m.history = []) :
    x.Smooth := by
  obtain rfl := eq_of_start? h
  exact ⟨rfl, List.forall_mem_nil _, hm ▸ List.forall_mem_nil _, nofun⟩

end Execution

namespace Session

variable {config : Config} {options : RunOptions} {name : String} {cancelled : Bool}
  {first s t : Session} {done : List Episode} {task : Task} {x : Execution} {g : Graph}

/-! ### The executions of a session -/

/-- A session for a configuration carries out a task: it has set up the machine for the graph of the
task, and the execution has come from there. -/
structure Hosts (config : Config) (options : RunOptions) (task : Task) (g : Graph)
    (x : Execution) : Prop where
  built : Graph.build task config.containers = .ok g
  reached : ∃ cancelled first, Execution.start? (.start g options.cleanupPolicy)
    options.existingNetwork options.maxParallelism cancelled = some first ∧ first.Reachable x

theorem Hosts.manages (h : Hosts config options task g x) :
    x.Manages options.existingNetwork g options.cleanupPolicy := by
  obtain ⟨cancelled, first, hfirst, hreach⟩ := h.reached
  exact (Execution.manages_of_start? h.built hfirst).reachable hreach

theorem Hosts.limit_eq (h : Hosts config options task g x) :
    x.limit = options.maxParallelism := by
  obtain ⟨cancelled, first, hfirst, hreach⟩ := h.reached
  obtain rfl := Execution.eq_of_start? hfirst
  exact hreach.limit_eq

/-- A session and the task that it carries out. -/
structure Carries (config : Config) (options : RunOptions) (s : Session) : Prop where
  config_eq : s.config = config
  options_eq : s.options = options
  hosts : ∀ task x, s.state = .running task x → ∃ g, Hosts config options task g x

theorem Carries.beginNext (h : s.Carries config options) (cancelled : Bool) :
    (s.beginNext cancelled).Carries config options := by
  obtain ⟨rfl, rfl, -⟩ := h
  unfold Session.beginNext
  split
  · exact ⟨rfl, rfl, fun _ _ => nofun⟩
  · split
    · exact ⟨rfl, rfl, fun _ _ => nofun⟩
    · next g hbuild =>
      split
      · exact ⟨rfl, rfl, fun _ _ => nofun⟩
      · next first hfirst =>
        refine ⟨rfl, rfl, fun task x hs => ?_⟩
        cases hs
        exact ⟨g, hbuild, cancelled, first, hfirst, .refl⟩

theorem Carries.conclude (h : s.Carries config options) (task : Task) (x : Execution)
    (outcome : Outcome) : (s.conclude task x outcome).Carries config options := by
  have hkept (results : List TaskResult) (exitCode : Int) (past : List Happening) :
      Carries config options { s with results, exitCode, past } :=
    ⟨h.config_eq, h.options_eq, h.hosts⟩
  unfold Session.conclude
  dsimp only
  split
  · exact ⟨h.config_eq, h.options_eq, fun _ _ => nofun⟩
  · exact (hkept ..).beginNext _

theorem Reachable.carries (h : (start config options name cancelled).Reachable s) :
    s.Carries config options := by
  induction h with
  | refl =>
    unfold start
    split
    · exact ⟨rfl, rfl, fun _ _ => nofun⟩
    · exact Carries.beginNext (by exact ⟨rfl, rfl, fun _ _ => nofun⟩) cancelled
  | step move _ hm ih =>
    cases move with
    | within move =>
      obtain ⟨task, x, y, hs, hy, rfl⟩ := of_next?_within hm
      refine ⟨ih.config_eq, ih.options_eq, fun task' x' hs' => ?_⟩
      cases hs'
      obtain ⟨g, hbuilt, c, first, hfirst, hreach⟩ := ih.hosts task x hs
      exact ⟨g, hbuilt, c, first, hfirst, hreach.step move hy⟩
    | proceed =>
      obtain ⟨task, x, outcome, -, -, rfl⟩ := of_next?_proceed hm
      exact ih.conclude task x outcome

/-! ### How much a session has to do -/

/-- How many tasks are not over. -/
def tasksLeft (s : Session) : Nat :=
  match s.state with
  | .running _ _ => s.rest.length + 1
  | .over _ | .crashed => 0

/-- What is still to come: the tasks count first. -/
noncomputable def burden (s : Session) : ℕ ×ₗ ((ℕ ×ₗ ℕ) ×ₗ ℕ) :=
  match s.state with
  | .running _ x => toLex (s.tasksLeft, x.burden)
  | .over _ | .crashed => toLex (s.tasksLeft, toLex (toLex (0, 0), 0))

theorem burden_lt_of_tasksLeft (h : t.tasksLeft < s.tasksLeft) : t.burden < s.burden := by
  have hfst (s : Session) : (ofLex s.burden).1 = s.tasksLeft := by
    unfold burden
    split <;> rfl
  rw [Prod.Lex.lt_iff, hfst, hfst]
  exact .inl h

theorem tasksLeft_beginNext (s : Session) (cancelled : Bool) :
    (s.beginNext cancelled).tasksLeft ≤ s.rest.length := by
  unfold beginNext
  split
  · exact Nat.zero_le _
  · next hrest =>
    rw [hrest]
    split
    · exact Nat.zero_le _
    · split
      · exact Nat.zero_le _
      · exact Nat.le_refl _

theorem tasksLeft_conclude (s : Session) (task : Task) (x : Execution) (outcome : Outcome) :
    (s.conclude task x outcome).tasksLeft ≤ s.rest.length := by
  unfold conclude
  dsimp only
  split
  · exact Nat.zero_le _
  · exact tasksLeft_beginNext ..

theorem burden_running (hs : s.state = .running task x) :
    s.burden = toLex (s.rest.length + 1, x.burden) := by
  simp only [burden, tasksLeft, hs]

/-- Each move but an idle one takes something off the burden of a session, whatever happens. -/
theorem burden_lt (h : (start config options name cancelled).Reachable s) {move : SessionMove}
    (hm : s.next? move = some t) (hbusy : move.isIdle = false) : t.burden < s.burden := by
  cases move with
  | within move =>
    obtain ⟨task, x, y, hs, hy, rfl⟩ := of_next?_within hm
    obtain ⟨g, hhosts⟩ := h.carries.hosts task x hs
    rw [burden_running hs, burden_running (x := y) rfl]
    exact Prod.Lex.toLex_lt_toLex.mpr (.inr ⟨rfl, hhosts.manages.burden_lt hy hbusy⟩)
  | proceed =>
    obtain ⟨task, x, outcome, hs, -, rfl⟩ := of_next?_proceed hm
    refine burden_lt_of_tasksLeft ((tasksLeft_conclude ..).trans_lt ?_)
    simp [tasksLeft, hs]

/-- An idle move leaves the burden as it is. -/
theorem burden_eq {move : SessionMove} (hm : s.next? move = some t)
    (hidle : move.isIdle = true) : t.burden = s.burden := by
  cases move with
  | within move =>
    obtain ⟨task, x, y, hs, hy, rfl⟩ := of_next?_within hm
    rw [burden_running hs, burden_running (x := y) rfl, Execution.burden_eq hy hidle]
  | proceed => cases hidle

/-- A session that is carrying out a task can go on, whatever answers there are for its calls. -/
theorem exists_next? (h : (start config options name cancelled).Reachable s)
    (hlimit : options.HasUsableLimit) (hs : s.state = .running task x)
    (reply : (c : Call) → Reply c.Value) :
    ∃ move : SessionMove, move.Obeys reply ∧ (s.next? move).isSome = true := by
  obtain ⟨g, hhosts⟩ := h.carries.hosts task x hs
  cases hout : x.outcome? with
  | some outcome => exact ⟨.proceed, trivial, by simp [next?, hs, hout]⟩
  | none =>
    have hpermit : x.limit ≠ some 0 := by
      rw [hhosts.limit_eq]
      exact fun hzero => Nat.lt_irrefl 0 (hlimit 0 hzero).1
    obtain ⟨move, hobeys, hnext⟩ := hhosts.manages.canGoOn hpermit hout reply
    obtain ⟨y, hy⟩ := Option.isSome_iff_exists.mp hnext
    exact ⟨.within move, hobeys, by simp [next?, hs, hy]⟩

/-! ### Smooth sessions -/

/-- The sessions that can be come to as long as all goes well. -/
inductive SmoothlyReachable (first : Session) : Session → Prop where
  | refl : SmoothlyReachable first first
  | step {s t : Session} (move : SessionMove) (h : SmoothlyReachable first s)
    (hmove : move.isSmooth = true) (hm : s.next? move = some t) : SmoothlyReachable first t

theorem SmoothlyReachable.reachable (h : first.SmoothlyReachable s) : first.Reachable s := by
  induction h with
  | refl => exact .refl
  | step move _ _ hm ih => exact ih.step move hm

/-- What a session comes to if all goes well. As long as it is not over, it can go on, whatever good
answers there are for its calls. It does not go on for ever, unless from some time on calls do
nothing but tell how far they are. And when it is over, it is as it is said to be. -/
structure ComesTo (first : Session) (P : Session → Prop) : Prop where
  goesOn : ∀ s, first.SmoothlyReachable s → s.result? = none →
    ∀ reply : (c : Call) → Reply c.Value, (∀ c, Answer.isClean ⟨c, reply c⟩ = true) →
      ∃ move : SessionMove, move.Obeys reply ∧ (s.next? move).isSome = true
  ends : ∀ (run : Nat → Session) (moves : Nat → SessionMove), run 0 = first →
    (∀ n, (moves n).isSmooth = true ∧ (run n).next? (moves n) = some (run (n + 1))) →
      ∃ k, ∀ n, k ≤ n → (moves n).isIdle = true
  arrives : ∀ s, first.SmoothlyReachable s → s.result?.isSome = true → P s

/-- A session does not go on for ever. -/
theorem exists_forall_isIdle {run : Nat → Session} {moves : Nat → SessionMove}
    (hrun : ∀ n, (start config options name cancelled).Reachable (run n))
    (hmoves : ∀ n, (run n).next? (moves n) = some (run (n + 1))) :
    ∃ k, ∀ n, k ≤ n → (moves n).isIdle = true := by
  refine exists_forall_of_lt (f := fun n => (run n).burden) (fun n hbusy => ?_) fun n hidle => ?_
  · exact burden_lt (hrun n) (hmoves n) hbusy
  · exact burden_eq (hmoves n) hidle

/-! ### All goes well -/

/-- All has gone well in a session so far. -/
structure Calm (s : Session) (done : List Episode) : Prop where
  exitCode_eq : s.exitCode = 0
  kept : s.state ≠ .crashed
  smooth : ∀ task x, s.state = .running task x → x.Smooth
  going : ∀ e ∈ done, e.execution.cancelled = false

theorem Calm.beginNext (h : s.Calm done) (hlimit : s.options.HasUsableLimit) :
    (s.beginNext false).Calm done := by
  unfold Session.beginNext
  split
  · exact ⟨h.exitCode_eq, nofun, fun _ _ => nofun, h.going⟩
  · split
    · exact ⟨h.exitCode_eq, nofun, fun _ _ => nofun, h.going⟩
    · next g hbuild =>
      split
      · next hnone =>
        have hkept : s.options.maxParallelism.getD 0 ≤ Execution.mostPermits := by
          cases hn : s.options.maxParallelism with
          | none => exact Nat.zero_le _
          | some n => exact (hlimit n hn).2
        simp [Execution.start?, hkept] at hnone
      · next hfirst =>
        refine ⟨h.exitCode_eq, nofun, fun task x hs => ?_, h.going⟩
        cases hs
        exact Execution.smooth_of_start? hfirst rfl

theorem exitCodeAfter_eq_zero {outcome : Outcome} (h : outcome.Passes) (hs : s.exitCode = 0) :
    s.exitCodeAfter outcome = 0 := by
  rw [exitCodeAfter, if_pos (by simp [Outcome.succeeded, h.failures_eq])]
  cases hexit : outcome.exitCode with
  | none => exact hs
  | some exitCode =>
    rw [h.exitCode_eq exitCode hexit]
    rfl

/-- A task is over that has gone well, and the session goes on. -/
theorem Calm.conclude (h : s.Calm done) (hlimit : s.options.HasUsableLimit)
    (hs : s.state = .running task x) {outcome : Outcome} (hout : x.outcome? = some outcome) :
    (s.conclude task x outcome).Calm (done ++ [⟨task, x, outcome⟩]) := by
  have hx := h.smooth task x hs
  have hzero := exitCodeAfter_eq_zero (hx.passes outcome hout) h.exitCode_eq
  have hcalm : Calm { s with
      results := s.results ++ [⟨task.name, outcome⟩]
      exitCode := s.exitCodeAfter outcome
      past := s.past ++ x.trace } (done ++ [⟨task, x, outcome⟩]) :=
    ⟨hzero, h.kept, h.smooth,
      List.forall_mem_append.mpr ⟨h.going, List.forall_mem_singleton.mpr hx.going⟩⟩
  unfold Session.conclude
  rw [if_neg (by simp [hzero, hx.going]), hx.going]
  exact hcalm.beginNext hlimit

/-- If all goes well, then all has gone well so far. -/
theorem SmoothlyReachable.calm (hlimit : options.HasUsableLimit)
    (h : (start config options name false).SmoothlyReachable s) :
    ∃ done, (start config options name false).Runs s done ∧ s.Calm done := by
  induction h with
  | refl =>
    refine ⟨[], .refl, ?_⟩
    unfold start
    split
    · exact ⟨rfl, nofun, fun _ _ => nofun, List.forall_mem_nil _⟩
    · exact Calm.beginNext (by exact ⟨rfl, nofun, fun _ _ => nofun, List.forall_mem_nil _⟩) hlimit
  | @step s t move hs hmove hm ih =>
    obtain ⟨done, hruns, hcalm⟩ := ih
    have hcarries := hs.reachable.carries
    cases move with
    | within move =>
      refine ⟨done, hruns.within hm, ?_⟩
      obtain ⟨task, x, y, hstate, hy, rfl⟩ := of_next?_within hm
      obtain ⟨g, hhosts⟩ := hcarries.hosts task x hstate
      refine ⟨hcalm.exitCode_eq, nofun, fun task' y' hs' => ?_, hcalm.going⟩
      cases hs'
      exact Execution.Smooth.next? hhosts.manages (hcalm.smooth task x hstate) hy hmove
    | proceed =>
      obtain ⟨task, x, outcome, hstate, hout, rfl⟩ := of_next?_proceed hm
      exact ⟨_, hruns.proceed hstate hout hm,
        hcalm.conclude (hcarries.options_eq ▸ hlimit) hstate hout⟩

/-- If all goes well, a session comes to its end. -/
theorem comesTo {P : Session → Prop} (hlimit : options.HasUsableLimit)
    (hover : ∀ s, (start config options name false).SmoothlyReachable s →
      s.result?.isSome = true → P s) :
    (start config options name false).ComesTo P where
  goesOn s hs hresult reply _ := by
    obtain ⟨done, -, hcalm⟩ := hs.calm hlimit
    rcases hstate : s.state with ⟨task, x⟩ | result | _
    · exact exists_next? hs.reachable hlimit hstate reply
    · simp [result?, hstate] at hresult
    · exact absurd hstate hcalm.kept
  ends run moves hstart hmoves := by
    have hrun (n : Nat) : (start config options name false).Reachable (run n) := by
      induction n with
      | zero => exact hstart ▸ .refl
      | succ n ih => exact ih.step (moves n) (hmoves n).2
    exact exists_forall_isIdle hrun fun n => (hmoves n).2
  arrives := hover

/-- There is a session that has come to its end, as one can always go on and not do so for ever. -/
theorem ComesTo.exists_over {P : Session → Prop}
    (h : (start config options name cancelled).ComesTo P) (reply : (c : Call) → Reply c.Value)
    (hreply : ∀ c, Answer.isClean ⟨c, reply c⟩ = true) :
    ∃ s, (start config options name cancelled).SmoothlyReachable s ∧ s.result?.isSome = true ∧
      P s := by
  suffices hend : ∀ s, (start config options name cancelled).SmoothlyReachable s →
      ∃ t, (start config options name cancelled).SmoothlyReachable t ∧ t.result?.isSome = true by
    obtain ⟨t, ht, hresult⟩ := hend _ .refl
    exact ⟨t, ht, hresult, h.arrives t ht hresult⟩
  intro s
  induction hb : s.burden using WellFoundedLT.induction generalizing s with
  | ind b ih =>
  intro hs
  cases hresult : s.result? with
  | some result => exact ⟨s, hs, by simp [hresult]⟩
  | none =>
    obtain ⟨move, hobeys, hnext⟩ := h.goesOn s hs hresult reply hreply
    obtain ⟨t, ht⟩ := Option.isSome_iff_exists.mp hnext
    exact ih _ (hb ▸ burden_lt hs.reachable ht hobeys.isIdle_eq) t rfl
      (hs.step move (hobeys.isSmooth hreply) ht)

/-- The tasks that a session has carried out have graphs. -/
theorem Keeps.exists_build (h : s.Keeps config options done) :
    ∀ t ∈ done.map (·.task), ∃ g, Graph.build t config.containers = .ok g :=
  List.forall_mem_map.mpr fun e he => (h.managed e he).manages.imp fun _ hg => hg.1

/-- If all goes well and a session is over, then it has carried out all tasks in order, up to the
first one that has no graph. -/
theorem SmoothlyReachable.over_cases (hlimit : options.HasUsableLimit)
    (h : (start config options name false).SmoothlyReachable s)
    {result : Except Fault SessionOutcome} (hresult : s.result? = some result)
    {order : List Task} (horder : config.taskOrder name options.skipPrerequisites = .ok order) :
    ∃ done : List Episode, s.results = done.map Episode.result ∧
      (∀ t ∈ done.map (·.task), ∃ g, Graph.build t config.containers = .ok g) ∧
      (order = done.map (·.task) ∧ result = .ok ⟨s.results, 0⟩ ∨
        ∃ task rest fault, order = done.map (·.task) ++ task :: rest ∧
          Graph.build task config.containers = .error fault ∧ result = .error (.graph fault)) := by
  obtain ⟨done, hruns, hcalm⟩ := h.calm hlimit
  have hsound := hruns.sound horder
  refine ⟨done, hsound.results_eq, hsound.exists_build, ?_⟩
  have hstands := hsound.stands
  rw [result?_eq_some_iff.mp hresult] at hstands
  cases hstands with
  | @ended rest order_eq passed =>
    -- nobody has asked to stop, so no tasks are left
    have hrest : rest = [] := by
      refine (passed hcalm.exitCode_eq).2.resolve_right ?_
      rintro ⟨e, he, hstopped⟩
      simp [hcalm.going e (List.mem_of_getLast? he)] at hstopped
    rw [hrest, List.append_nil] at order_eq
    exact .inl ⟨order_eq, by rw [hcalm.exitCode_eq]⟩
  | @refused task rest fault order_eq unbuilt =>
    exact .inr ⟨task, rest, fault, order_eq, hsound.config_eq ▸ unbuilt, rfl⟩

end Session

end ContainerTasks
