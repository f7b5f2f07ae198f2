import ContainerTasks.Proofs.Accounts
import ContainerTasks.Proofs.Sealing

/-!
# What comes of a step can be foreseen

Suppose it is known what each call is answered that the work on a step makes. Then the events that
come of the step are known before it is begun, as long as the run is not cancelled. So at any time
the history together with what the jobs have still to post is what can be foreseen of all steps
that were handed out. Only the order in which the events are recorded is left open.

## Main definitions

* `Answers`: what each call is answered
* `Procedure.results`, `Step.results`: the events that come of the work
* `Job.pending`: what a job has still to post
* `Ledger.Foreseen`: the history is what could be foreseen of it
* `Ledger.Goes`: an effect in a run that goes by the answers and is not cancelled

## Main results

* `Ledger.Foreseen.effect`
* `Ledger.Foreseen.history_perm`: when no step is in flight, all has happened that was to happen
* `Execution.Manages.goes`: how a run that is not cancelled has come about
-/

namespace ContainerTasks

/-- What each call is answered that is made in the work on a step. -/
abbrev Answers := Step → (c : Call) → Reply c.Value

instance : (c : Call) → DecidableEq c.Value
  | .buildImage _ | .pullImage .. => inferInstanceAs (DecidableEq ImageReference)
  | .createNetwork | .findNetwork _ => inferInstanceAs (DecidableEq NetworkReference)
  | .createContainer .. => inferInstanceAs (DecidableEq ContainerReference)
  | .awaitExit _ => inferInstanceAs (DecidableEq Int)
  | .exec .. => inferInstanceAs (DecidableEq ExecResult)
  | .startContainer _ | .awaitHealth _ | .stopContainer _ | .removeContainer _
  | .deleteNetwork _ => inferInstanceAs (DecidableEq Unit)

namespace Procedure

/-- The events for the history that come of the work if the run is not cancelled. -/
def results (answers : (c : Call) → Reply c.Value) (failure : Trouble → Event) :
    Procedure → List Event
  | ended ending => (ending.trouble?.map failure).toList
  | post e rest =>
    (if e.isInformational then [] else [e]) ++ rest.results answers failure
  | check _ otherwise => otherwise.results answers failure
  | call c next => (next (answers c)).results answers failure

/-- What comes of the work is posted on some course of it, or reports an unexpected error. -/
theorem canPost_of_mem_results {answers : (c : Call) → Reply c.Value} {failure : Trouble → Event}
    {p : Procedure} {e : Event} (he : e ∈ p.results answers failure) :
    p.CanPost e ∨ ∃ trouble, e = failure trouble := by
  induction p with
  | ended ending =>
    obtain ⟨trouble, -, rfl⟩ := Option.map_eq_some_iff.mp (Option.mem_toList.mp he)
    exact .inr ⟨trouble, rfl⟩
  | post posted rest ih =>
    rcases List.mem_append.mp he with he | he
    · split at he
      · cases he
      · exact .inl (.inl (List.mem_singleton.mp he))
    · exact (ih he).imp_left .inr
  | check _ _ _ ih => exact (ih he).imp_left .inr
  | call c next ih => exact (ih (answers c) he).imp_left fun h => ⟨answers c, h⟩

/-- The step that is said to be begun, if this is what comes next. -/
def starting? : Procedure → Option Step
  | post (.stepStarting s) _ => some s
  | _ => none

end Procedure

/-- The events for the history that come of a step if the run is not cancelled. -/
def Step.results (answers : Answers) (existing : Option String) (s : Step) : List Event :=
  (s.procedure existing).results (answers s) s.failure

/-- An exit code that comes of a step is what the wait for the exit is answered. -/
theorem Step.answers_of_exited {answers : Answers} {existing : Option String} {c : String}
    {reference : ContainerReference} {n : Int}
    (hn : .containerExited c n ∈ (runContainer c reference true).results answers existing) :
    answers (.runContainer c reference true) (.awaitExit reference) = .ok n := by
  simp only [results, procedure, Procedure.unlessCancelled, Procedure.ask, Procedure.askAndPost,
    Procedure.results, if_true] at hn
  cases hstart : answers (.runContainer c reference true) (.startContainer reference) with
  | ok =>
    cases hexit : answers (.runContainer c reference true) (.awaitExit reference) <;>
      simp_all [Procedure.results, Procedure.done, failure, Event.isInformational]
  | _ => simp_all [Procedure.results, Procedure.done, failure, Event.isInformational]

theorem Step.eq_of_exited {answers : Answers} {existing : Option String} {s : Step} {c : String}
    {n : Int} (hn : .containerExited c n ∈ s.results answers existing) :
    ∃ reference, s = .runContainer c reference true := by
  rcases Procedure.canPost_of_mem_results hn with hpost | ⟨trouble, h⟩
  · exact eq_of_canPost_exited hpost
  · cases h

namespace Happening

/-- The step that is seen to be begun. -/
def started? : Happening → Option Step
  | logged (.stepStarting s) => some s
  | _ => none

/-- A call is answered as was to be expected, if one is answered. -/
def IsExpected (answers : Answers) (jobs : List Job) : Happening → Prop
  | answered i a => ∀ j ∈ jobs[i]?, a.reply = answers j.step a.call
  | logged _ | began .. | abandoned .. | reported .. => True

instance (answers : Answers) (jobs : List Job) : DecidablePred (IsExpected answers jobs)
  | answered i a => inferInstanceAs (Decidable (∀ j ∈ jobs[i]?, a.reply = answers j.step a.call))
  | logged _ | began .. | abandoned .. | reported .. => .isTrue trivial

end Happening

namespace Job

/-- What a job has still to post. -/
def pending (answers : Answers) (existing : Option String) (j : Job) : List Event :=
  match j.phase with
  | .handed | .arriving | .inLine | .admitted => j.step.results answers existing
  | .working rest => rest.results (answers j.step) j.step.failure
  | .calling c next => (next (answers j.step c)).results (answers j.step) j.step.failure
  | .failing trouble => [j.step.failure trouble]
  | .reporting _ | .leaving | .released | .gone => []

/-- The step of a job that has not been said to be begun. -/
def unstarted? (j : Job) : Option Step :=
  match j.phase with
  | .handed | .arriving | .inLine | .admitted => some j.step
  | .working rest => rest.starting?
  | _ => none

variable {answers : Answers} {existing : Option String} {index : Nat} {j j' : Job}
  {seen : List Happening} {posted : List Event}

theorem starting?_eq_none_of_course {s : Step} {rest : Procedure}
    (h : (s.procedure existing).Course posted rest) : rest.starting? = none := by
  cases rest with
  | post e rest =>
    cases e with
    | stepStarting => exact absurd (not_isInformational_of_course h) (by simp [Event.isInformational])
    | _ => rfl
  | _ => rfl

theorem unstarted?_eq_none_of_isGone (hj : j.isGone = true) : j.unstarted? = none := by
  obtain ⟨s, phase, o⟩ := j
  cases phase <;> first | rfl | cases hj

/-- What a job has still to post stays the same while it glides. -/
theorem Glides.pending_eq (on : j.Glides existing false index j' seen)
    (hanswer : ∀ a : Answer, .answered index a ∈ seen → a.reply = answers j.step a.call) :
    j'.pending answers existing = j.pending answers existing := by
  cases on with
  | arrive | joinLine | enter | leaveLine | begin | otherwise | call | report | release => rfl
  | giveUp stopped | ifCancelled stopped | skip stopped | abandon stopped => cases stopped
  | log forLog => simp [pending, Procedure.results, forLog]
  | @answer s o a next =>
    have hreply : a.reply = answers s a.call := hanswer a (List.mem_singleton_self _)
    simp [pending, hreply]
  | settle quiet => simp [pending, Procedure.results, quiet]
  | fail loud => simp [pending, Procedure.results, loud]

/-- A job that glides says at most that its step is begun. -/
theorem Glides.started_eq (on : j.Glides existing false index j' seen)
    (hj : j.Follows existing posted) :
    seen.filterMap Happening.started? ++ j'.unstarted?.toList = j.unstarted?.toList := by
  have hworking : ∀ {s rest o}, Follows existing posted ⟨s, .working rest, o⟩ →
      (∀ e after, rest ≠ .post e after) → unstarted? ⟨s, .working rest, o⟩ = none := by
    intro s rest o hj hrest
    obtain ⟨-, hc | ⟨-, h⟩⟩ := hj.working
    · exact starting?_eq_none_of_course hc
    · exact absurd h (hrest _ _)
  cases on with
  | arrive | joinLine | enter | leaveLine | begin | report | release => rfl
  | giveUp stopped | ifCancelled stopped | skip stopped | abandon stopped => cases stopped
  | @log s o e rest forLog =>
    obtain ⟨-, hc | ⟨-, h⟩⟩ := hj.working
    · rw [not_isInformational_of_course hc] at forLog
      cases forLog
    · cases h
      have hbegun : (s.procedure existing).starting? = none := starting?_eq_none_of_course .refl
      show [s] ++ (s.procedure existing).starting?.toList = [s]
      rw [hbegun]
      rfl
  | @otherwise s o =>
    obtain ⟨-, hc | ⟨-, h⟩⟩ := hj
    · exact congrArg Option.toList (starting?_eq_none_of_course hc.otherwise)
    · cases h
  | call | settle | fail => exact congrArg Option.toList (hworking hj (by simp)).symm
  | answer => exact congrArg Option.toList (starting?_eq_none_of_course (hj.2.reply _))

end Job

namespace Ledger

/-- The steps that were handed out, oldest first. -/
def steps (l : Ledger) : List Step := l.jobs.map (·.step)

/-- Whatever a call was answered is what was to be expected. -/
def Heeds (answers : Answers) (l : Ledger) : Prop := ∀ e ∈ l.trace, e.IsExpected answers l.jobs

instance (answers : Answers) (l : Ledger) : Decidable (l.Heeds answers) :=
  inferInstanceAs (Decidable (∀ e ∈ l.trace, e.IsExpected answers l.jobs))

theorem Heeds.reply_eq {answers : Answers} {l : Ledger} {i : Nat} {a : Answer} {j : Job}
    (hl : l.Heeds answers) (ha : .answered i a ∈ l.trace) (hj : l.jobs[i]? = some j) :
    a.reply = answers j.step a.call :=
  hl _ ha j hj

/-- What has happened and what jobs have still to do is what could be foreseen of the steps that
were handed out. -/
structure Foreseen (answers : Answers) (existing : Option String) (l : Ledger) : Prop where
  history : (l.machine.history ++ l.jobs.flatMap (·.pending answers existing)).Perm
    (l.steps.flatMap (·.results answers existing))
  started : (l.trace.filterMap Happening.started? ++ l.jobs.filterMap Job.unstarted?).Perm l.steps

variable {answers : Answers} {existing : Option String} {g : Graph} {policy : CleanupPolicy}
  {l l' : Ledger} {m m' : Machine} {front back : List Job} {j j' : Job}
  {trace trace' seen : List Happening}

/-- No two steps that were handed out have the same duty. -/
theorem Sound.nodup_duty_steps (hl : l.Sound existing g policy) : (l.steps.map Step.duty).Nodup := by
  rw [steps, List.map_map]
  exact hl.nodup_duty

theorem foreseen_start (m : Machine) (hm : m.history = []) :
    Foreseen answers existing ⟨m, [], []⟩ := by
  refine ⟨?_, .nil⟩
  rw [hm]
  exact .nil

/-- One job goes on. It posts some of what it has still to post, or says that its step is begun. -/
theorem Foreseen.of_job {posted : List Event}
    (hl : Foreseen answers existing ⟨m, front ++ j :: back, trace⟩) (hstep : j'.step = j.step)
    (hhistory : m'.history = m.history ++ posted) (htrace : trace' = trace ++ seen)
    (hpending : posted ++ j'.pending answers existing = j.pending answers existing)
    (hstarted : seen.filterMap Happening.started? ++ j'.unstarted?.toList = j.unstarted?.toList) :
    Foreseen answers existing ⟨m', front ++ j' :: back, trace'⟩ := by
  subst htrace
  obtain ⟨hhist, hstart⟩ := hl
  constructor
  · simp only [steps, List.map_append, List.map_cons, hstep, hhistory, List.perm_iff_count,
      List.flatMap_append, List.flatMap_cons, List.count_append, ← hpending] at hhist ⊢
    intro e
    have := hhist e
    omega
  · have hunstarted : ∀ k : Job, ∀ rest, (k :: rest).filterMap Job.unstarted? =
        k.unstarted?.toList ++ rest.filterMap Job.unstarted? := by
      intro k rest
      cases hk : k.unstarted? <;> simp [hk]
    simp only [steps, List.map_append, List.map_cons, hstep, List.perm_iff_count,
      List.filterMap_append, hunstarted, List.count_append, ← hstarted] at hstart ⊢
    intro s
    have := hstart s
    omega

/-- What could be foreseen comes about, one effect after the other. -/
theorem Foreseen.effect (hl : l.Foreseen answers existing) (hsound : l.Sound existing g policy)
    (hheeds : l'.Heeds answers) (h : l.Effect existing false l') : l'.Foreseen answers existing := by
  cases h with
  | advance ends => exact ⟨ends.history_eq ▸ hl.history, hl.started⟩
  | @handOut m jobs trace index step ready =>
    obtain ⟨hhist, hstart⟩ := hl
    constructor
    · simpa [steps, Job.pending, Job.new, Machine.handOut] using hhist.append_right _
    · simpa [steps, Job.unstarted?, Job.new] using hstart.append_right [step]
  | @glide m front back j j' trace seen on =>
    refine hl.of_job on.step_eq (List.append_nil _).symm rfl ?_ ?_
    · refine on.pending_eq fun a ha => ?_
      rw [← on.step_eq]
      exact hheeds.reply_eq (List.mem_append_right _ ha) (getElem?_length_append ..)
    · exact on.started_eq (hsound.follows j (by simp))
  | drop stopped | interrupt stopped => cases stopped
  | handBack =>
    exact hl.of_job rfl (List.append_nil _).symm (List.append_nil _).symm rfl rfl
  | @record m front back s o e rest trace forHistory =>
    refine hl.of_job rfl (Machine.history_post ..) (List.append_nil _).symm ?_ ?_
    · simp [Job.pending, Procedure.results, forHistory]
    · -- what goes on record is not the note that the step is begun, and no such note follows
      have hnone : rest.starting? = none := by
        obtain ⟨-, hc | ⟨-, h⟩⟩ :=
          (hsound.follows ⟨s, .working (.post e rest), o⟩ (by simp)).working
        · exact Job.starting?_eq_none_of_course hc.post
        · cases h
          cases forHistory
      have hother : (Procedure.post e rest).starting? = none := by
        cases e <;> first | rfl | cases forHistory
      exact congrArg Option.toList (hnone.trans hother.symm)
  | recordFailure => exact hl.of_job rfl (Machine.history_post ..) (List.append_nil _).symm rfl rfl
  | @log m jobs trace e other =>
    refine ⟨hl.history, ?_⟩
    have hnone : [Happening.logged e].filterMap Happening.started? = [] := by
      cases e with
      | stepStarting s => exact absurd rfl (other s)
      | _ => rfl
    rw [List.filterMap_append, hnone, List.append_nil]
    exact hl.started

/-- What is on record has come of a step that was handed out. -/
theorem Foreseen.exists_step (hl : l.Foreseen answers existing) {e : Event}
    (he : e ∈ l.machine.history) : ∃ s ∈ l.steps, e ∈ s.results answers existing :=
  List.mem_flatMap.mp (hl.history.subset (List.mem_append_left _ he))

/-- A container has no two exit codes. -/
theorem Foreseen.exitCode_unique (hl : l.Foreseen answers existing)
    (hsound : l.Sound existing g policy) {c : String} {n n' : Int}
    (hn : .containerExited c n ∈ l.machine.history)
    (hn' : .containerExited c n' ∈ l.machine.history) : n = n' := by
  obtain ⟨s, hs, hn⟩ := hl.exists_step hn
  obtain ⟨s', hs', hn'⟩ := hl.exists_step hn'
  obtain ⟨reference, rfl⟩ := Step.eq_of_exited hn
  obtain ⟨reference', rfl⟩ := Step.eq_of_exited hn'
  cases List.inj_on_of_nodup_map hsound.nodup_duty_steps hs hs' rfl
  exact Reply.ok.inj ((Step.answers_of_exited hn).symm.trans (Step.answers_of_exited hn'))

/-- When all steps are handed back, what could be foreseen has happened. -/
theorem Foreseen.history_perm (hl : l.Foreseen answers existing)
    (hgone : ∀ j ∈ l.jobs, j.isGone = true) :
    l.machine.history.Perm (l.steps.flatMap (·.results answers existing)) := by
  have hnone : l.jobs.flatMap (·.pending answers existing) = [] := by
    refine List.flatMap_eq_nil_iff.mpr fun j hj => ?_
    obtain ⟨s, phase, o⟩ := j
    cases phase <;> first | rfl | cases hgone _ hj
  simpa [hnone] using hl.history

theorem Foreseen.started_perm (hl : l.Foreseen answers existing)
    (hgone : ∀ j ∈ l.jobs, j.isGone = true) :
    (l.trace.filterMap Happening.started?).Perm l.steps := by
  have hnone : l.jobs.filterMap Job.unstarted? = [] :=
    List.filterMap_eq_nil_iff.mpr fun j hj => Job.unstarted?_eq_none_of_isGone (hgone j hj)
  simpa [hnone] using hl.started

/-! ### Runs that go by the answers -/

/-- An effect in a run that goes by the answers and is not cancelled. -/
def Goes (answers : Answers) (existing : Option String) (l l' : Ledger) : Prop :=
  l.Effect existing false l' ∧ l'.Heeds answers

/-- What holds all along such a run. -/
structure OnTrack (answers : Answers) (existing : Option String) (g : Graph)
    (policy : CleanupPolicy) (l : Ledger) : Prop where
  sound : l.Sound existing g policy
  foreseen : l.Foreseen answers existing
  isSealed : l.machine.stage ≠ .run → ∃ first, l.Sealed g first

theorem onTrack_start (answers : Answers) (existing : Option String) (g : Graph)
    (policy : CleanupPolicy) : OnTrack answers existing g policy ⟨.start g policy, [], []⟩ :=
  ⟨sound_start g policy, foreseen_start _ rfl, fun hs => absurd rfl hs⟩

theorem OnTrack.goes (hl : l.OnTrack answers existing g policy) (hg : g.Sound)
    (h : l.Goes answers existing l') : l'.OnTrack answers existing g policy :=
  ⟨hl.sound.effect hg h.1, hl.foreseen.effect hl.sound h.2 h.1,
    sealed_of_effect hl.sound hg hl.isSealed h.1⟩

theorem OnTrack.reflTransGen (hl : l.OnTrack answers existing g policy) (hg : g.Sound)
    (h : Relation.ReflTransGen (Goes answers existing) l l') :
    l'.OnTrack answers existing g policy := by
  induction h with
  | refl => exact hl
  | tail _ hgoes ih => exact ih.goes hg hgoes

theorem OnTrack.advance (hl : l.OnTrack answers existing g policy) (hg : g.Sound)
    (ends : l.machine.AdvancesTo m) : OnTrack answers existing g policy ⟨m, l.jobs, l.trace⟩ := by
  have heffect : l.Effect existing false ⟨m, l.jobs, l.trace⟩ := .advance ends
  exact ⟨hl.sound.advance ends, ⟨ends.history_eq ▸ hl.foreseen.history, hl.foreseen.started⟩,
    sealed_of_effect hl.sound hg hl.isSealed heffect⟩

theorem precedes_of_goes (h : Relation.ReflTransGen (Goes answers existing) l l') :
    l.Precedes l' := by
  induction h with
  | refl => exact .refl l
  | tail _ hgoes ih => exact ih.trans hgoes.1.precedes.1

theorem Heeds.of_precedes (hl' : l'.Heeds answers) (h : l.Precedes l') : l.Heeds answers := by
  intro e he
  cases e with
  | answered i a =>
    intro j hj
    obtain ⟨j', hj', hstep⟩ := h.step_eq hj
    rw [← hstep]
    exact hl'.reply_eq (h.trace.subset he) hj'
  | logged | began | abandoned | reported => trivial

theorem goes_of_effects (h : Relation.ReflTransGen (Effect existing false) l l')
    (hl' : l'.Heeds answers) : Relation.ReflTransGen (Goes answers existing) l l' := by
  induction h with
  | refl => exact .refl
  | tail _ heffect ih => exact (ih (hl'.of_precedes heffect.precedes.1)).tail ⟨heffect, hl'⟩

end Ledger

/-- How a run that goes by the answers and is not cancelled has come about. -/
theorem Execution.Manages.goes {answers : Answers} {existing : Option String} {g : Graph}
    {policy : CleanupPolicy} {x : Execution} (h : x.Manages existing g policy)
    (hgoing : x.cancelled = false) (hheeds : x.ledger.Heeds answers) :
    Relation.ReflTransGen (Ledger.Goes answers existing) ⟨.start g policy, [], []⟩ x.ledger :=
  Ledger.goes_of_effects (h.effects_of_going hgoing) hheeds

end ContainerTasks
