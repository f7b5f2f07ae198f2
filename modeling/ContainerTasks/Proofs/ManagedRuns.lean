import ContainerTasks.Proofs.Courses
import ContainerTasks.Proofs.Effects

/-!
# Managed runs

A manager drives a task: it takes steps from the machine, has jobs work on them, and posts what
comes of it. Whatever the runtime answers, however the jobs take turns, and whenever the user asks
to stop, the machine is run as it should be, and the jobs give account of the history: an event of a
step was posted by the one job of that step, on the course of its work, and what calls have made is
in the history, or is about to be posted.

## Main definitions

* `Execution.Manages`: an execution of a task by its manager
* `Job.Follows`: how far a job is, in view of the events that it has posted
* `Job.owed`: what a job has made and not said
* `Ledger.Sound`: what holds all along a managed run

## Main results

* `Ledger.Sound.effect`: effects keep what holds
* `Execution.Manages.induction`, `Execution.Manages.moves_induction`: what effects or moves keep
  holds all along
* `Execution.Manages.sound`
* `Ledger.Sound.nodup_created`: no container is created twice
-/

namespace ContainerTasks

/-- An execution of a task by its manager, after any number of moves. -/
structure Execution.Manages (existing : Option String) (g : Graph) (policy : CleanupPolicy)
    (x : Execution) : Prop where
  built : ∃ task catalogue, Graph.build task catalogue = .ok g
  reached : ∃ limit cancelled first,
    start? (.start g policy) existing limit cancelled = some first ∧ first.Reachable x

/-- What the outside sees being made. -/
def Happening.creation? : Happening → Option Event
  | answered _ answer => answer.creation?
  | _ => none

namespace Job

/-- How far a job is, in view of the events that it has posted. A job that has come to an end
without having begun was given up in a cancelled run; this does not happen to steps that take
something down. -/
def Follows (existing : Option String) (posted : List Event) (j : Job) : Prop :=
  let course := (j.step.procedure existing).Course posted
  match j.phase with
  | .handed | .arriving | .inLine | .admitted => posted = [] ∧ j.ending = none
  | .working rest => j.ending = none ∧
    (course rest ∨ posted = [] ∧ rest = .post (.stepStarting j.step) (j.step.procedure existing))
  | .calling c next => j.ending = none ∧ course (.call c next)
  | .failing _ | .reporting _ => ∃ ending, j.ending = some ending ∧ course (.ended ending)
  | .leaving | .released | .gone =>
    (∃ ending, j.ending = some ending ∧ course (.ended ending)) ∨
      (posted = [] ∧ j.ending = none ∧ j.step.isCleanup = false)

/-- What a job has made and not said. -/
def owed (j : Job) : List Event :=
  match j.phase with
  | .working rest => rest.owed
  | _ => []

variable {existing : Option String} {cancelled : Bool} {index : Nat} {j j' : Job}
  {seen : List Happening} {posted : List Event}

/-! ### Jobs that glide -/

theorem Glides.step_eq (on : j.Glides existing cancelled index j' seen) : j'.step = j.step := by
  cases on <;> rfl

theorem Glides.isGone_eq (on : j.Glides existing cancelled index j' seen) :
    j.isGone = false ∧ j'.isGone = false := by
  cases on <;> exact ⟨rfl, rfl⟩

theorem Follows.working {s : Step} {rest : Procedure} {o : Option Ending}
    (hj : Follows existing posted ⟨s, .working rest, o⟩) : o = none ∧
      ((s.procedure existing).Course posted rest ∨
        posted = [] ∧ rest = .post (.stepStarting s) (s.procedure existing)) :=
  hj

/-- The work on a step posts nothing for the log alone. -/
theorem not_isInformational_of_course {s : Step} {e : Event} {rest : Procedure}
    (h : (s.procedure existing).Course posted (.post e rest)) : e.isInformational = false := by
  by_contra hlog
  rw [Bool.not_eq_false] at hlog
  have hduty := Step.duty_of_canPost (h.canPost (.inl rfl))
  rw [Event.duty?_eq_none_of_isInformational hlog] at hduty
  cases hduty

theorem Glides.follows (on : j.Glides existing cancelled index j' seen)
    (hj : j.Follows existing posted) : j'.Follows existing posted := by
  cases on with
  | arrive | joinLine | enter | leaveLine => exact hj
  | giveUp _ making => exact .inr ⟨hj.1, hj.2, making⟩
  | begin => exact ⟨hj.2, .inr ⟨hj.1, rfl⟩⟩
  | log forLog =>
    obtain ⟨ho, hc | ⟨rfl, h⟩⟩ := hj.working
    · rw [not_isInformational_of_course hc] at forLog
      cases forLog
    · cases h
      exact ⟨ho, .inl .refl⟩
  | ifCancelled =>
    obtain ⟨ho, hc | ⟨-, h⟩⟩ := hj
    · exact ⟨ho, .inl hc.ifCancelled⟩
    · cases h
  | otherwise =>
    obtain ⟨ho, hc | ⟨-, h⟩⟩ := hj
    · exact ⟨ho, .inl hc.otherwise⟩
    · cases h
  | skip =>
    obtain ⟨ho, hc | ⟨-, h⟩⟩ := hj
    · exact ⟨ho, .inl (hc.reply _)⟩
    · cases h
  | call =>
    obtain ⟨ho, hc | ⟨-, h⟩⟩ := hj
    · exact ⟨ho, hc⟩
    · cases h
  | answer | abandon => exact ⟨hj.1, .inl (hj.2.reply _)⟩
  | settle =>
    obtain ⟨ho, hc | ⟨-, h⟩⟩ := hj
    · exact .inl ⟨_, rfl, hc⟩
    · cases h
  | fail =>
    obtain ⟨ho, hc | ⟨-, h⟩⟩ := hj
    · exact ⟨_, rfl, hc⟩
    · cases h
  | report => exact .inl hj
  | release => exact hj

/-- What is left of the work on a step settles what it makes. -/
theorem settles_of_course {s : Step} {rest : Procedure}
    (h : (s.procedure existing).Course posted rest) : rest.Settles :=
  h.settles (s.settles existing).2

/-- What a job comes to owe is what the outside has just seen being made. -/
theorem Glides.owed (on : j.Glides existing cancelled index j' seen)
    (hj : j.Follows existing posted) :
    j.owed = [] ∧ j'.owed = seen.filterMap Happening.creation? := by
  cases on with
  | log forLog =>
    obtain ⟨-, hc | ⟨-, h⟩⟩ := hj.working
    · rw [not_isInformational_of_course hc] at forLog
      cases forLog
    · cases h
      exact ⟨rfl, (Step.settles _ existing).1⟩
  | ifCancelled | otherwise =>
    obtain ⟨-, hc | ⟨-, h⟩⟩ := hj
    · obtain ⟨⟨hleft, hright⟩, -⟩ := settles_of_course hc
      first | exact ⟨rfl, hleft⟩ | exact ⟨rfl, hright⟩
    · cases h
  | skip =>
    obtain ⟨-, hc | ⟨-, h⟩⟩ := hj
    · have hsettles := settles_of_course hc .cancelled
      rw [Answer.creation?_eq_none (by simp)] at hsettles
      exact ⟨rfl, hsettles.1⟩
    · cases h
  | @answer s o a next =>
    refine ⟨rfl, (settles_of_course hj.2 a.reply).1.trans ?_⟩
    show a.creation?.toList = [Happening.answered index a].filterMap Happening.creation?
    cases ha : a.creation? <;> simp [Happening.creation?, ha]
  | abandon =>
    have hsettles := settles_of_course hj.2 .cancelled
    rw [Answer.creation?_eq_none (by simp)] at hsettles
    exact ⟨rfl, hsettles.1⟩
  | arrive | joinLine | enter | leaveLine | giveUp | begin | call | settle | fail | report
  | release => exact ⟨rfl, rfl⟩

/-! ### Jobs that post -/

/-- An event of the step, or one for the log alone, is next on the course. -/
theorem Follows.post {s : Step} {o : Option Ending} {e : Event} {rest : Procedure}
    (hj : Follows existing posted ⟨s, .working (.post e rest), o⟩) :
    (e.isInformational = true ∨ (s.procedure existing).CanPost e) ∧
    Follows existing (posted ++ if e.duty? = some s.duty then [e] else []) ⟨s, .working rest, o⟩ ∧
    rest.owed = [] := by
  obtain ⟨ho, hc | ⟨rfl, h⟩⟩ := hj.working
  · have hpost := hc.canPost (.inl rfl)
    rw [if_pos (Step.duty_of_canPost hpost)]
    exact ⟨.inr hpost, ⟨ho, .inl hc.post⟩, (settles_of_course hc).1⟩
  · cases h
    exact ⟨.inl rfl, ⟨ho, .inl .refl⟩, (s.settles existing).1⟩

/-- A job of a step that posts once has posted at most one event. -/
theorem Follows.length_le_one (hj : j.Follows existing posted) (hs : j.step.postsOnce = true) :
    posted.length ≤ 1 := by
  have hcourse : ∀ {rest}, (j.step.procedure existing).Course posted rest → posted.length ≤ 1 := by
    intro rest hc
    obtain ⟨all, ending, hp, honce⟩ := (hc.ends (Step.ends_of_postsOnce existing hs)).exists
    have hle := hp.length_le
    unfold Procedure.PostsOnce at honce
    split at honce <;> omega
  obtain ⟨s, phase, o⟩ := j
  cases phase with
  | handed | arriving | inLine | admitted => simp [hj.1]
  | working rest =>
    obtain ⟨-, hc | ⟨hnil, -⟩⟩ := hj
    · exact hcourse hc
    · simp [hnil]
  | calling c next => exact hcourse hj.2
  | failing | reporting =>
    obtain ⟨ending, -, hc⟩ := hj
    exact hcourse hc
  | leaving | released | gone =>
    obtain ⟨ending, -, hc⟩ | ⟨hnil, -⟩ := hj
    · exact hcourse hc
    · simp [hnil]

/-- The job of a step that takes something down, if it is over, has posted an event if the work was
completed, and none if not. -/
theorem Follows.completed_iff (hj : j.Follows existing posted) (hs : j.step.isCleanup = true)
    (hgone : j.isGone = true) : j.ending = some .completed ↔ posted ≠ [] := by
  obtain ⟨s, phase, o⟩ := j
  have honce : s.postsOnce = true := by cases s <;> first | rfl | cases hs
  cases phase <;> simp only [isGone, Bool.false_eq_true] at hgone
  obtain ⟨ending, rfl, hc⟩ | ⟨-, -, hmaking⟩ := hj
  · have hends : posted.length = if ending = .completed then 1 else 0 :=
      hc.ends (Step.ends_of_postsOnce existing honce)
    rw [Option.some.injEq, ← List.length_pos_iff]
    split at hends
    · next hcompleted => simp [hcompleted, hends]
    · next hcompleted => simp [hcompleted, hends]
  · rw [show s.isCleanup = true from hs] at hmaking
    cases hmaking

end Job

/-! ### What holds all along -/

namespace Ledger

/-- What holds of the ledger of a managed run. -/
structure Sound (existing : Option String) (g : Graph) (policy : CleanupPolicy) (l : Ledger) :
    Prop where
  run : Machine.Run existing g policy l.machine (l.jobs.map (·.step))
  inFlight_eq : l.machine.inFlight = l.jobs.countP (!·.isGone)
  nodup_duty : (l.jobs.map (·.step.duty)).Nodup
  follows : ∀ j ∈ l.jobs, j.Follows existing (l.machine.history.about j.step.duty)
  /-- What was made is in the history, or owed. -/
  accounted : (l.trace.filterMap Happening.creation?).Perm
    (l.machine.history.filter Event.isCreation ++ l.jobs.flatMap Job.owed)
  /-- Once the first stage is over, only steps that take something down are worked on. -/
  late : l.machine.stage ≠ .run → ∀ j ∈ l.jobs, j.isGone = false → j.step.isCleanup = true

variable {existing : Option String} {g : Graph} {policy : CleanupPolicy} {m m' : Machine}
  {jobs front back : List Job} {j j' : Job} {trace seen : List Happening} {e : Event}
  {cancelled : Bool} {index : Nat} {step : Step}

theorem sound_start (g : Graph) (policy : CleanupPolicy) :
    Sound existing g policy ⟨.start g policy, [], []⟩ where
  run := .start
  inFlight_eq := rfl
  nodup_duty := List.nodup_nil
  follows := by simp
  accounted := .nil
  late h := absurd rfl h

/-- When no step is in flight, all jobs are over. -/
theorem Sound.isGone_of_idle {l : Ledger} (hl : l.Sound existing g policy)
    (hidle : l.machine.inFlight = 0) : ∀ j ∈ l.jobs, j.isGone = true := by
  have hcount : l.jobs.countP (!·.isGone) = 0 := hl.inFlight_eq.symm.trans hidle
  simpa using List.countP_eq_zero.mp hcount

/-- A step that posts once has posted at most one event. -/
theorem Sound.length_about_le_one {l : Ledger} (hl : l.Sound existing g policy) (hg : g.Sound)
    {d : Duty} (hd : ∀ s : Step, s.duty = d → s.postsOnce = true) :
    (l.machine.history.about d).length ≤ 1 := by
  by_cases htold : l.machine.history.TellsOf d
  · obtain ⟨s, hs, rfl⟩ := (hl.run.sound hg).told htold
    obtain ⟨j, hj, rfl⟩ := List.mem_map.mp hs
    exact (hl.follows j hj).length_le_one (hd _ rfl)
  · have hnil : l.machine.history.about d = [] := by
      by_contra hne
      exact htold (History.tellsOf_iff_about_ne_nil.mpr hne)
    simp [hnil]

/-- No container is created twice. -/
theorem Sound.nodup_created {l : Ledger} (hl : l.Sound existing g policy) (hg : g.Sound) :
    (l.machine.history.created.map (·.1)).Nodup := by
  refine List.nodup_iff_count_le_one.mpr fun c => ?_
  refine Nat.le_trans (History.count_created_le _ c) (hl.length_about_le_one hg fun s hs => ?_)
  cases s <;> first | rfl | cases hs

/-- No two rules of a plan have the same duty. -/
theorem Sound.nodup_duty_rules {l : Ledger} (hl : l.Sound existing g policy) (hg : g.Sound) :
    (l.machine.rules.map Rule.duty).Nodup := by
  have hm := hl.run.sound hg
  cases hs : l.machine.stage with
  | run =>
    rw [hm.rules_run hs]
    exact Plan.nodup_duty_forRun hg
  | cleanup =>
    obtain ⟨h, hp, hrules⟩ := hm.rules_cleanup hs
    rw [hrules]
    refine Plan.nodup_duty_forCleanup ((hl.nodup_created hg).sublist ?_)
    exact (List.Sublist.filterMap _ hp.sublist).map _
  | finished =>
    rw [hm.rules_finished hs]
    exact List.nodup_nil

/-! ### Effects one by one -/

theorem Sound.advance (hl : Sound existing g policy ⟨m, jobs, trace⟩) (hover : m.AdvancesTo m') :
    Sound existing g policy ⟨m', jobs, trace⟩ := by
  have hgone := hl.isGone_of_idle hover.idle
  exact {
    run := hl.run.advance hover
    inFlight_eq := hover.inFlight_eq.trans hl.inFlight_eq
    nodup_duty := hl.nodup_duty
    follows := hover.history_eq ▸ hl.follows
    accounted := hover.history_eq ▸ hl.accounted
    late := fun _ j hj hwork => by
      rw [hgone j hj] at hwork
      cases hwork }

theorem Sound.handOut (hl : Sound existing g policy ⟨m, jobs, trace⟩) (hg : g.Sound)
    (hready : m.nextReady? = some (index, step)) :
    Sound existing g policy ⟨m.handOut index, jobs ++ [.new step], trace⟩ := by
  have hm : m.Sound g policy (jobs.map (·.step)) := hl.run.sound hg
  have hfresh : step.duty ∉ (jobs.map (·.step)).map Step.duty :=
    hm.duty_notMem hg (hl.nodup_duty_rules hg) hready
  constructor
  case run =>
    rw [List.map_append]
    exact hl.run.handOut hready
  case inFlight_eq =>
    show m.inFlight + 1 = _
    rw [List.countP_append, ← hl.inFlight_eq]
    rfl
  case nodup_duty =>
    rw [List.map_append, List.nodup_append]
    refine ⟨hl.nodup_duty, List.nodup_singleton _, ?_⟩
    rintro d hd _ hd' rfl
    rcases List.mem_singleton.mp hd' with rfl
    exact hfresh (by rwa [List.map_map])
  case follows =>
    intro j hj
    rcases List.mem_append.mp hj with hj | hj
    · exact hl.follows j hj
    · -- nothing has been heard of the duty, since no step had it before
      rcases List.mem_singleton.mp hj with rfl
      refine ⟨?_, rfl⟩
      by_contra htold
      obtain ⟨s, hs, hd⟩ := hm.told (History.tellsOf_iff_about_ne_nil.mpr htold)
      exact hfresh (List.mem_map.mpr ⟨s, hs, hd⟩)
  case accounted =>
    rw [List.flatMap_append]
    exact (List.append_nil (jobs.flatMap Job.owed)).symm ▸ hl.accounted
  case late =>
    intro hstage j hj hwork
    rcases List.mem_append.mp hj with hj | hj
    · exact hl.late hstage j hj hwork
    · rcases List.mem_singleton.mp hj with rfl
      obtain ⟨-, r, hr, heval⟩ := Machine.of_nextReady? hready
      have hmem : r ∈ m.rules := List.mem_of_getElem? hr
      show step.isCleanup = true
      rw [← Step.isCleanup_duty, Rule.duty_of_evaluate heval, hm.isCleanup_duty hg hmem]
      cases hs : m.stage with
      | run => exact absurd hs hstage
      | cleanup => rfl
      | finished => exact absurd hs (hm.stage_ne_finished hmem)

/-- One job glides. -/
theorem Sound.glide (hl : Sound existing g policy ⟨m, front ++ j :: back, trace⟩)
    (on : j.Glides existing cancelled index j' seen) :
    Sound existing g policy ⟨m, front ++ j' :: back, trace ++ seen⟩ := by
  have hj : j ∈ front ++ j :: back := by simp
  obtain ⟨howed, howed'⟩ := on.owed (hl.follows j hj)
  obtain ⟨hgone, hgone'⟩ := on.isGone_eq
  constructor
  case run =>
    simpa [on.step_eq] using hl.run
  case inFlight_eq =>
    simpa [hgone, hgone'] using hl.inFlight_eq
  case nodup_duty =>
    simpa [on.step_eq] using hl.nodup_duty
  case follows =>
    have := hl.follows
    simp only [List.forall_mem_append, List.forall_mem_cons] at this ⊢
    exact ⟨this.1, by rw [on.step_eq]; exact on.follows this.2.1, this.2.2⟩
  case accounted =>
    have := hl.accounted
    simp only [List.perm_iff_count, List.filterMap_append, List.flatMap_append, List.flatMap_cons,
      List.count_append, howed, howed', List.count_nil] at this ⊢
    intro e
    have := this e
    omega
  case late =>
    have := hl.late
    simp only [List.forall_mem_append, List.forall_mem_cons] at this ⊢
    exact fun hstage => ⟨(this hstage).1, fun _ => on.step_eq ▸ (this hstage).2.1 hgone,
      (this hstage).2.2⟩

/-- One job hands its step back. -/
theorem Sound.finishStep (hl : Sound existing g policy ⟨m, front ++ j :: back, trace⟩)
    (hstep : j'.step = j.step) (hgone : j.isGone = false) (hgone' : j'.isGone = true)
    (hfollows : ∀ posted, j.Follows existing posted → j'.Follows existing posted)
    (howed : j.owed = []) (howed' : j'.owed = []) :
    Sound existing g policy ⟨m.finishStep, front ++ j' :: back, trace⟩ := by
  have hcount : m.inFlight = (front ++ j :: back).countP (!·.isGone) := hl.inFlight_eq
  simp only [List.countP_append, List.countP_cons, hgone, Bool.not_false, if_true] at hcount
  constructor
  case run =>
    have hrun : Machine.Run existing g policy m.finishStep ((front ++ j :: back).map (·.step)) :=
      hl.run.finishStep (by show m.inFlight ≠ 0; omega)
    simpa [hstep] using hrun
  case inFlight_eq =>
    show m.inFlight - 1 = _
    simp only [List.countP_append, List.countP_cons, hgone', Bool.not_true, Bool.false_eq_true,
      if_false]
    omega
  case nodup_duty =>
    simpa [hstep] using hl.nodup_duty
  case follows =>
    have := hl.follows
    simp only [List.forall_mem_append, List.forall_mem_cons] at this ⊢
    exact ⟨this.1, by rw [hstep]; exact hfollows _ this.2.1, this.2.2⟩
  case accounted =>
    have := hl.accounted
    simp only [List.flatMap_append, List.flatMap_cons, howed, howed'] at this ⊢
    exact this
  case late =>
    have := hl.late
    simp only [List.forall_mem_append, List.forall_mem_cons] at this ⊢
    refine fun hstage => ⟨(this hstage).1, fun hwork => ?_, (this hstage).2.2⟩
    rw [hgone'] at hwork
    cases hwork

/-- One job posts an event, of its step or of none. -/
theorem Sound.record (hl : Sound existing g policy ⟨m, front ++ j :: back, trace⟩)
    (hstep : j'.step = j.step) (hgone : j.isGone = false) (hgone' : j'.isGone = false)
    (hmay : Machine.MayPost existing ((front ++ j :: back).map (·.step)) e)
    (hduty : e.duty? = none ∨ e.duty? = some j.step.duty)
    (hfollows : ∀ posted, j.Follows existing posted →
      j'.Follows existing (posted ++ if e.duty? = some j.step.duty then [e] else []))
    (howed : j.owed = if e.isCreation then [e] else []) (howed' : j'.owed = []) :
    Sound existing g policy ⟨m.post e, front ++ j' :: back, trace⟩ := by
  have hnodup : ((front ++ j :: back).map (·.step.duty)).Nodup := hl.nodup_duty
  -- the event is about none of the other jobs
  have hothers : ∀ j₀ ∈ front ++ back, (m.history ++ [e]).about j₀.step.duty =
      m.history.about j₀.step.duty := by
    intro j₀ hj₀
    have hne : j₀.step.duty ≠ j.step.duty := by
      rw [List.map_append, List.map_cons, List.nodup_middle, List.nodup_cons] at hnodup
      intro heq
      exact hnodup.1 (by rw [← List.map_append, ← heq]; exact List.mem_map_of_mem hj₀)
    rw [History.about_append, if_neg, List.append_nil]
    rcases hduty with hduty | hduty <;> rw [hduty]
    · simp
    · exact fun heq => hne (Option.some.inj heq).symm
  constructor
  case run =>
    have hrun : Machine.Run existing g policy (m.post e) ((front ++ j :: back).map (·.step)) :=
      hl.run.post hmay
    simpa [hstep] using hrun
  case inFlight_eq =>
    simpa [hgone, hgone'] using hl.inFlight_eq
  case nodup_duty =>
    simpa [hstep] using hnodup
  case follows =>
    have := hl.follows
    simp only [List.forall_mem_append, List.forall_mem_cons, Machine.history_post] at this ⊢
    refine ⟨fun j₀ hj₀ => ?_, ?_, fun j₀ hj₀ => ?_⟩
    · rw [hothers j₀ (List.mem_append_left _ hj₀)]
      exact this.1 j₀ hj₀
    · rw [hstep, History.about_append]
      exact hfollows _ this.2.1
    · rw [hothers j₀ (List.mem_append_right _ hj₀)]
      exact this.2.2 j₀ hj₀
  case accounted =>
    have hfilter : [e].filter Event.isCreation = j.owed := by
      rw [howed]
      cases he : e.isCreation <;> simp [he]
    have := hl.accounted
    simp only [List.perm_iff_count, Machine.history_post, List.filter_append, hfilter,
      List.flatMap_append, List.flatMap_cons, List.count_append, howed', List.count_nil] at this ⊢
    intro e
    have := this e
    omega
  case late =>
    have := hl.late
    simp only [List.forall_mem_append, List.forall_mem_cons, Machine.stage_post] at this ⊢
    exact fun hstage => ⟨(this hstage).1, fun _ => hstep ▸ (this hstage).2.1 hgone,
      (this hstage).2.2⟩

theorem Sound.interrupt (hl : Sound existing g policy ⟨m, jobs, trace⟩) :
    Sound existing g policy ⟨m.post .interrupted, jobs, trace⟩ where
  run := hl.run.post (.inr (.inr (.inl rfl)))
  inFlight_eq := by simpa using hl.inFlight_eq
  nodup_duty := hl.nodup_duty
  follows := by simpa [History.about_append, Event.duty?] using hl.follows
  accounted := by simpa [Event.isCreation] using hl.accounted
  late := by simpa using hl.late

/-- Effects keep what holds. -/
theorem Sound.effect {l l' : Ledger} (hl : l.Sound existing g policy) (hg : g.Sound)
    (h : l.Effect existing cancelled l') : l'.Sound existing g policy := by
  cases h with
  | advance ends => exact hl.advance ends
  | handOut ready => exact hl.handOut hg ready
  | glide on => exact hl.glide on
  | drop _ making =>
    refine hl.finishStep rfl rfl rfl (fun posted hj => ?_) rfl rfl
    exact .inr ⟨hj.1, hj.2, making⟩
  | handBack => exact hl.finishStep rfl rfl rfl (fun _ hj => hj) rfl rfl
  | @record m front back s o e rest trace =>
    obtain ⟨hevent, -, howed⟩ := (hl.follows ⟨s, .working (.post e rest), o⟩ (by simp)).post
    refine hl.record rfl rfl rfl ?_ ?_ (fun _ hj => hj.post.2.1) rfl howed
    · rcases hevent with hlog | hpost
      · exact .inl hlog
      · exact .inr (.inr (.inr ⟨s, by simp, hpost⟩))
    · rcases hevent with hlog | hpost
      · exact .inl (Event.duty?_eq_none_of_isInformational hlog)
      · exact .inr (Step.duty_of_canPost hpost)
  | recordFailure =>
    refine hl.record rfl rfl rfl (.inr (.inl ⟨_, rfl⟩)) (.inl rfl) (fun posted hj => ?_) rfl rfl
    rw [if_neg (by simp [Event.duty?_failure]), List.append_nil]
    exact hj
  | interrupt => exact hl.interrupt
  | log =>
    refine { hl with accounted := ?_ }
    rw [List.filterMap_append]
    exact (List.append_nil _).symm ▸ hl.accounted

end Ledger

namespace Execution

variable {existing : Option String} {g : Graph} {policy : CleanupPolicy} {x y : Execution}

/-- What holds of an execution besides its ledger. -/
structure Sound (existing : Option String) (g : Graph) (policy : CleanupPolicy) (x : Execution) :
    Prop where
  inOrder : x.InOrder
  existingNetwork_eq : x.existingNetwork = existing
  ledger : x.ledger.Sound existing g policy

theorem ledger_of_start? {m : Machine} {limit : Option Nat} {cancelled : Bool}
    (h : start? m existing limit cancelled = some x) : x.ledger = ⟨m, [], []⟩ := by
  obtain rfl := eq_of_start? h
  rfl

theorem sound_start {limit : Option Nat} {cancelled : Bool}
    (h : start? (.start g policy) existing limit cancelled = some x) :
    x.Sound existing g policy := by
  obtain rfl := eq_of_start? h
  exact ⟨⟨List.nodup_nil, nofun, nofun, recordable_of_isNone rfl⟩, rfl, Ledger.sound_start g policy⟩

/-- What holds is kept by a move, and so is whatever is kept by effects. -/
theorem Sound.next? {move : Move} {P : Ledger → Prop} (hg : g.Sound)
    (hx : x.Sound existing g policy) (hP : P x.ledger)
    (heffect : ∀ l l' : Ledger, l.Sound existing g policy → P l →
      l.Effect existing x.cancelled l' → P l') (h : x.next? move = some y) :
    y.Sound existing g policy ∧ P y.ledger := by
  obtain ⟨horder, hnetwork, heffects, -⟩ := continuesTo_of_next? hx.inOrder h
  rw [hx.existingNetwork_eq] at hnetwork heffects
  suffices y.ledger.Sound existing g policy ∧ P y.ledger from
    ⟨⟨horder, hnetwork, this.1⟩, this.2⟩
  generalize y.ledger = l at heffects
  induction heffects with
  | refl => exact ⟨hx.ledger, hP⟩
  | tail _ hlast ih => exact ⟨ih.1.effect hg hlast, heffect _ _ ih.1 ih.2 hlast⟩

/-- A move takes nothing back. -/
theorem Sound.grows {move : Move} (hg : g.Sound) (hx : x.Sound existing g policy)
    (h : x.next? move = some y) :
    x.machine.history <+: y.machine.history ∧ x.trace <+: y.trace :=
  (hx.next? (P := fun l => x.machine.history <+: l.machine.history ∧ x.trace <+: l.trace) hg
    ⟨List.prefix_rfl, List.prefix_rfl⟩
    (fun _ _ _ hP heffect => ⟨hP.1.trans heffect.grows.1, hP.2.trans heffect.grows.2⟩) h).2

theorem Sound.reachable {P : Ledger → Prop} (hg : g.Sound) (hx : x.Sound existing g policy)
    (hP : P x.ledger) (heffect : ∀ (l l' : Ledger) (c : Bool), l.Sound existing g policy → P l →
      l.Effect existing c l' → P l') (h : x.Reachable y) :
    y.Sound existing g policy ∧ P y.ledger := by
  induction h with
  | refl => exact ⟨hx, hP⟩
  | step move _ hm ih => exact ih.1.next? hg ih.2 (fun l l' => heffect l l' _) hm

variable (h : x.Manages existing g policy)
include h

theorem Manages.sound_graph : g.Sound := by
  obtain ⟨task, catalogue, hbuild⟩ := h.built
  exact Graph.sound_of_build hbuild

theorem Manages.sound : x.Sound existing g policy := by
  obtain ⟨limit, cancelled, first, hfirst, hreach⟩ := h.reached
  exact ((sound_start hfirst).reachable (P := fun _ => True) h.sound_graph trivial
    (fun _ _ _ _ _ _ => trivial) hreach).1

/-- What holds of an execution and is kept by effects holds from then on. -/
theorem Manages.holds_of_reachable {P : Ledger → Prop} (hP : P x.ledger)
    (heffect : ∀ (l l' : Ledger) (c : Bool), l.Sound existing g policy → P l →
      l.Effect existing c l' → P l')
    (hy : x.Reachable y) : P y.ledger :=
  (h.sound.reachable h.sound_graph hP heffect hy).2

/-- What holds at the beginning and is kept by effects holds all along. -/
theorem Manages.induction {P : Ledger → Prop} (hP : P ⟨.start g policy, [], []⟩)
    (heffect : ∀ (l l' : Ledger) (c : Bool), l.Sound existing g policy → P l →
      l.Effect existing c l' → P l') :
    P x.ledger := by
  obtain ⟨limit, cancelled, first, hfirst, hreach⟩ := h.reached
  rw [← ledger_of_start? hfirst] at hP
  exact ((sound_start hfirst).reachable h.sound_graph hP heffect hreach).2

/-- What holds of an execution at the beginning and is kept by moves holds all along. -/
theorem Manages.moves_induction {P : Execution → Prop}
    (start : ∀ limit cancelled first,
      start? (.start g policy) existing limit cancelled = some first → P first)
    (step : ∀ (x y : Execution) (move : Move), x.Manages existing g policy → P x →
      x.next? move = some y → P y) : P x := by
  obtain ⟨limit, cancelled, first, hfirst, hreach⟩ := h.reached
  have hbuilt := h.built
  clear h
  induction hreach with
  | refl => exact start limit cancelled first hfirst
  | @step x y move hreach hm ih =>
    exact step x y move ⟨hbuilt, limit, cancelled, first, hfirst, hreach⟩ ih hm

/-- A move from an execution that has come about. -/
theorem Manages.continuesTo {move : Move} (hm : x.next? move = some y) : x.ContinuesTo y :=
  continuesTo_of_next? h.sound.inOrder hm

theorem Manages.effects {move : Move} (hm : x.next? move = some y) :
    Relation.ReflTransGen (Ledger.Effect existing x.cancelled) x.ledger y.ledger :=
  h.sound.existingNetwork_eq ▸ (h.continuesTo hm).effects

omit h in
/-- A cancellation is not taken back. -/
theorem ContinuesTo.cancelled (hxy : x.ContinuesTo y) (hstopped : x.cancelled = true) :
    y.cancelled = true := by
  cases hxy.steers with
  | cancel _ control => exact (control_eq_iff.mp control).2.2
  | keep control | join _ control | wake control | say _ control | conclude _ control
  | deliver _ _ control => exact (control_eq_iff.mp control).2.2.trans hstopped

omit h in
theorem ContinuesTo.going (hxy : x.ContinuesTo y) (hgoing : y.cancelled = false) :
    x.cancelled = false := by
  by_contra hstopped
  rw [hxy.cancelled (Bool.of_not_eq_false hstopped)] at hgoing
  cases hgoing

omit h in
/-- The manager returns how the machine stands, and what it has returned stays. -/
theorem ContinuesTo.returned_or_eq_outcome (hxy : x.ContinuesTo y) {o : Outcome}
    (hreturned : y.manager = .returned o) :
    x.manager = .returned o ∨ x.manager ≠ .dispatching ∧ o = x.machine.outcome := by
  cases hxy.steers with
  | keep control | cancel _ control | wake control | say _ control =>
    exact .inl ((control_eq_iff.mp control).1.symm.trans hreturned)
  | join _ control =>
    rw [(control_eq_iff.mp control).1] at hreturned
    cases hreturned
  | conclude _ control =>
    rw [(control_eq_iff.mp control).1] at hreturned
    split at hreturned <;> cases hreturned
  | deliver heard _ control =>
    rw [(control_eq_iff.mp control).1] at hreturned
    exact .inr ⟨by rcases heard with ⟨hwaits, -⟩ | hwaits <;> simp [hwaits],
      (Manager.returned.inj hreturned).symm⟩

/-- All that has happened in a run that is not cancelled has happened while it was not. -/
theorem Manages.effects_of_going (hgoing : x.cancelled = false) :
    Relation.ReflTransGen (Ledger.Effect existing false) ⟨.start g policy, [], []⟩ x.ledger := by
  refine h.moves_induction (P := fun x => x.cancelled = false →
    Relation.ReflTransGen (Ledger.Effect existing false) ⟨.start g policy, [], []⟩ x.ledger)
    ?_ ?_ hgoing
  · intro limit cancelled first hfirst _
    rw [ledger_of_start? hfirst]
  · intro x y move hx ih hm hgoing
    have hbefore := (hx.continuesTo hm).going hgoing
    exact (ih hbefore).trans (hbefore ▸ hx.effects hm)

omit h in
theorem manages_of_start? {task : Task} {catalogue : NameMap Container}
    (hbuild : Graph.build task catalogue = .ok g) {limit : Option Nat} {cancelled : Bool}
    (hfirst : start? (.start g policy) existing limit cancelled = some x) :
    x.Manages existing g policy :=
  ⟨⟨task, catalogue, hbuild⟩, limit, cancelled, x, hfirst, .refl⟩

theorem Manages.next? {move : Move} (hy : x.next? move = some y) :
    y.Manages existing g policy := by
  obtain ⟨limit, cancelled, first, hfirst, hreach⟩ := h.reached
  exact ⟨h.built, limit, cancelled, first, hfirst, hreach.step move hy⟩

theorem Manages.reachable (hy : x.Reachable y) : y.Manages existing g policy := by
  induction hy with
  | refl => exact h
  | step move _ hm ih => exact ih.next? hm

/-- What happens after a cancellation happens in a cancelled run. -/
theorem Manages.effects_of_cancelled (hstopped : x.cancelled = true) (hy : x.Reachable y) :
    y.cancelled = true ∧ Relation.ReflTransGen (Ledger.Effect existing true) x.ledger y.ledger := by
  induction hy with
  | refl => exact ⟨hstopped, .refl⟩
  | @step y z move hreach hm ih =>
    have hy := h.reachable hreach
    exact ⟨(hy.continuesTo hm).cancelled ih.1, ih.2.trans (ih.1 ▸ hy.effects hm)⟩

theorem Manages.trace_initial (hy : x.Reachable y) : x.trace <+: y.trace :=
  h.holds_of_reachable (P := fun l => x.trace <+: l.trace) List.prefix_rfl
    (fun _ _ _ _ hP heffect => hP.trans heffect.grows.2) hy

end Execution

/-! ### Jobs that take turns -/

/-- What a job does to carry out a procedure on its own, if calls are answered by `reply`. -/
def Procedure.moves (reply : (c : Call) → Reply c.Value) (job : Nat) : Procedure → List Move
  | ended ending =>
    .work job :: if ending.trouble?.isSome then [.log (.job job), .record, .work job] else []
  | post e rest =>
    .log (.job job) :: (if e.isInformational then [] else [.record]) ++ rest.moves reply job
  | check _ otherwise => .work job :: otherwise.moves reply job
  | call c next => .work job :: .reply job ⟨c, reply c⟩ :: (next (reply c)).moves reply job

/-- The whole way of a job. -/
def Step.moves (existing : Option String) (reply : (c : Call) → Reply c.Value) (job : Nat)
    (s : Step) : List Move :=
  [.place job, .enter job, .begin job] ++
    (Procedure.post (.stepStarting s) (s.procedure existing)).moves reply job ++
    [.release job, .finish job]

namespace Execution

variable {existing : Option String} {g : Graph} {policy : CleanupPolicy} {x y : Execution}

/-- The execution after some moves, if they are possible. -/
def after? (x : Execution) : List Move → Option Execution
  | [] => some x
  | move :: moves => (x.next? move).bind (·.after? moves)

/-- The execution after some steps, each done before the next one is handed out. -/
def inTurn? (reply : (c : Call) → Reply c.Value) : Nat → Execution → Option Execution
  | 0, x => some x
  | steps + 1, x => do
    let y ← x.next? .dispatch
    let job ← y.jobs[x.jobs.length]?
    (← y.after? (job.step.moves x.existingNetwork reply x.jobs.length)).inTurn? reply steps

theorem Reachable.after? {first : Execution} {moves : List Move} (h : first.Reachable x)
    (hy : x.after? moves = some y) : first.Reachable y := by
  induction moves generalizing x with
  | nil => exact Option.some.inj hy ▸ h
  | cons move moves ih =>
    obtain ⟨x', hx', hy⟩ := Option.bind_eq_some_iff.mp hy
    exact ih (h.step move hx') hy

theorem Reachable.inTurn? {first : Execution} {reply : (c : Call) → Reply c.Value} {steps : Nat}
    (h : first.Reachable x) (hy : x.inTurn? reply steps = some y) : first.Reachable y := by
  induction steps generalizing x with
  | zero => exact Option.some.inj hy ▸ h
  | succ steps ih =>
    obtain ⟨x', hx', hy⟩ := Option.bind_eq_some_iff.mp hy
    obtain ⟨job, -, hy⟩ := Option.bind_eq_some_iff.mp hy
    obtain ⟨x'', hx'', hy⟩ := Option.bind_eq_some_iff.mp hy
    exact ih ((h.step _ hx').after? hx'') hy

end Execution

namespace Sample

/-- A runtime that does what it is asked to do. -/
def reply : (c : Call) → Reply c.Value
  | .buildImage _ | .pullImage .. => .ok ⟨"image"⟩
  | .createNetwork | .findNetwork _ => .ok ⟨"network"⟩
  | .createContainer c _ _ => .ok ⟨"id-" ++ c.name, c.name⟩
  | .awaitExit _ => .ok 0
  | .exec .. => .ok ⟨0, ""⟩
  | .startContainer _ | .awaitHealth _ | .stopContainer _ | .removeContainer _
  | .deleteNetwork _ => .ok ()

/-- A runtime that does all but one thing. -/
def replyBut (bad : Call) (how : (α : Type) → Reply α) (c : Call) : Reply c.Value :=
  if c = bad then how _ else reply c

/-- The small task after some steps and some more moves. -/
def run? (reply : (c : Call) → Reply c.Value) (steps : Nat) (moves : List Move) :
    Option Execution :=
  ((Execution.start? (.start graph ⟨true, true⟩) none none false).bind
    (·.inTurn? reply steps)).bind (·.after? moves)

variable {reply : (c : Call) → Reply c.Value} {steps : Nat} {moves : List Move}

theorem manages_of_run? {x : Execution} (h : run? reply steps moves = some x) :
    x.Manages none graph ⟨true, true⟩ := by
  simp only [run?, Option.bind_eq_some_iff] at h
  obtain ⟨y, ⟨first, hfirst, hy⟩, h⟩ := h
  have hreach : first.Reachable x := (Execution.Reachable.refl.inTurn? hy).after? h
  exact ⟨⟨task, catalogue, build_eq⟩, none, false, first, hfirst, hreach⟩

/-- What can be seen of the task is seen of an execution that its manager can come to. -/
theorem exists_manages (reply : (c : Call) → Reply c.Value) (steps : Nat) (moves : List Move)
    {p : Execution → Bool} (h : (run? reply steps moves).map p = some true) :
    ∃ x : Execution, x.Manages none graph ⟨true, true⟩ ∧ p x = true := by
  obtain ⟨x, hx, hp⟩ := Option.map_eq_some_iff.mp h
  exact ⟨x, manages_of_run? hx, hp⟩

end Sample

end ContainerTasks
