import ContainerTasks.Proofs.ManagedRuns
import ContainerTasks.Proofs.Progress

/-!
# Runs without failures

A run that has no failures on record should have done what it was for, and have run its main
container to its end. There are two ways in which work of the first stage can be left undone without
a failure: the run is cancelled, or the runtime itself says that a call was given up. The first one
leaves a trace: the watcher records that the user has asked to stop, and that counts as a failure.
The second one does not.

So in a run without failures, in which no call was given up but one that takes something down, every
step of the first stage was completed with success, and the exit code of the main container is
known.

## Main definitions

* `Happening.leavesUndone`: the runtime says that a call was given up
* `Procedure.Keen`: work that is given up only if the run or a call is
* `Step.hasSucceeded`: a step has done what it is for
* `Job.Earnest`: a job that has not left its work undone
* `Execution.Candid`: what holds all along

## Main results

* `Step.keen`
* `Step.ends_fulfils`: work that is completed has success, or a failure was posted
* `Ledger.Sound.hasSucceeded`: what the first stage has handed out has success
* `Execution.Manages.isSome_exitCode`
-/

namespace ContainerTasks

/-- The call was given up, or so the runtime says. -/
def Reply.isCancellation {α : Type} : Reply α → Bool
  | cancelled => true
  | error trouble => trouble.isCancellation
  | ok _ | failed _ | panicked _ => false

/-- The call takes something down. -/
def Call.takesDown : Call → Bool
  | stopContainer _ | removeContainer _ | deleteNetwork _ => true
  | buildImage _ | pullImage .. | createNetwork | findNetwork _ | createContainer ..
  | startContainer _ | awaitExit _ | awaitHealth _ | exec .. => false

/-- The runtime says that a call was given up, and the call was not one that takes something
down. -/
def Happening.leavesUndone : Happening → Bool
  | answered _ answer => !answer.call.takesDown && answer.reply.isCancellation
  | logged _ | began .. | abandoned .. | reported .. => false

/-! ### Work that is not given up -/

namespace Procedure

/-- As long as neither the run nor a call is given up, the work comes to its end, or ends in an
error that is reported. It takes nothing down. -/
def Keen : Procedure → Prop
  | ended ending => ending.trouble? = none → ending = .completed
  | post _ rest => rest.Keen
  | check _ otherwise => otherwise.Keen
  | call c next => c.takesDown = false ∧
    ∀ reply : Reply c.Value, reply.isCancellation = false → (next reply).Keen

theorem keen_ask {c : Call} {ifOk : c.Value → Procedure} {ifFailed : String → Procedure}
    (hc : c.takesDown = false) (hok : ∀ value, (ifOk value).Keen)
    (hfailed : ∀ message, (ifFailed message).Keen) : (ask c ifOk ifFailed).Keen := by
  refine ⟨hc, fun reply hkept => ?_⟩
  cases reply with
  | ok value => exact hok value
  | failed message => exact hfailed message
  | cancelled => cases hkept
  | error trouble =>
    intro hquiet
    rw [Ending.trouble?, show trouble.isCancellation = false from hkept] at hquiet
    cases hquiet
  | panicked message => exact fun hquiet => by cases hquiet

theorem keen_done : done.Keen := fun _ => rfl

theorem keen_askAndPost {c : Call} {ifOk : c.Value → Event} {ifFailed : String → Event}
    (hc : c.takesDown = false) : (askAndPost c ifOk ifFailed).Keen :=
  keen_ask hc (fun _ => keen_done) (fun _ => keen_done)

end Procedure

open Procedure in
/-- The work on a step of the first stage is given up only if the run or a call is. -/
theorem Step.keen {s : Step} (hs : s.isCleanup = false) (existing : Option String) :
    (s.procedure existing).Keen := by
  cases s with
  | prepareNetwork => cases existing <;> exact keen_askAndPost rfl
  | runContainer c reference main =>
    refine keen_ask rfl (fun _ => ?_) (fun _ => keen_done)
    cases main with
    | true => exact keen_askAndPost rfl
    | false => exact keen_done
  | markReady => exact keen_done
  | createContainer | runSetupCommand | buildImage | pullImage | awaitHealth =>
    exact keen_askAndPost rfl
  | stopContainer | removeContainer | deleteNetwork => cases hs

/-! ### Success -/

/-- The step has done what it is for. -/
def Step.hasSucceeded (s : Step) (h : History) : Bool :=
  match s with
  | prepareNetwork => h.network?.isSome
  | buildImage container => (h.builtImage? container.name).isSome
  | pullImage imageName _ => (h.pulledImage? imageName).isSome
  | createContainer container _ _ => (h.reference? container.name).isSome
  | runContainer container _ main =>
    h.hasStarted container && (!main || (h.exitCode? container).isSome)
  | awaitHealth container _ => h.isHealthy container
  | runSetupCommand container _ _ index => h.setupCompleted container index
  | markReady container => h.isReady container
  | stopContainer container _ => h.isStopped container
  | removeContainer container _ => h.isRemoved container
  | deleteNetwork _ => h.networkDeleted

theorem Rule.hasSucceeded_of_evaluate {r : Rule} {h : History} {s : Step}
    (hr : r.evaluate h = .ready s) (h' : History) : r.hasSucceeded h' = s.hasSucceeded h' := by
  cases standsFor_of_evaluate hr <;> rfl

/-- Success is kept. -/
theorem Step.hasSucceeded_mono {s : Step} {h h' : History} (hsub : h ⊆ h')
    (hs : s.hasSucceeded h = true) : s.hasSucceeded h' = true := by
  cases s with
  | prepareNetwork | buildImage | pullImage | createContainer =>
    exact isSome_findSome?_mono hsub hs
  | runContainer c reference main =>
    obtain ⟨hstarted, hexited⟩ := Bool.and_eq_true_iff.mp hs
    refine Bool.and_eq_true_iff.mpr ⟨any_mono hsub hstarted, ?_⟩
    exact Bool.or_eq_true_iff.mpr
      ((Bool.or_eq_true_iff.mp hexited).imp_right (isSome_findSome?_mono hsub))
  | awaitHealth | runSetupCommand | markReady | stopContainer | removeContainer | deleteNetwork =>
    exact any_mono hsub hs

/-- Either the step has success, or a failure was posted, if the work was completed. -/
def Step.Fulfils (s : Step) (posted : List Event) (ending : Ending) : Prop :=
  ending = .completed → History.hasFailures posted = true ∨ s.hasSucceeded posted = true

theorem Step.fulfils_of_ne {s : Step} {posted : List Event} {ending : Ending}
    (hne : ending ≠ .completed) : s.Fulfils posted ending := fun h => absurd h hne

theorem Step.ends_askAndPost_of_succeeds {s : Step} {posted : List Event} {c : Call}
    {ifOk : c.Value → Event} {ifFailed : String → Event}
    (hok : ∀ value, (ifOk value).isFailure = true ∨ s.hasSucceeded (posted ++ [ifOk value]) = true)
    (hfailed : ∀ message, (ifFailed message).isFailure = true) :
    (Procedure.askAndPost c ifOk ifFailed).Ends s.Fulfils posted := by
  have hfails : ∀ e : Event, e.isFailure = true → History.hasFailures (posted ++ [e]) = true :=
    fun e he => by simp [History.hasFailures, he]
  exact Procedure.ends_askAndPost_of (fun value _ => (hok value).imp_left (hfails _))
    (fun message _ => .inl (hfails _ (hfailed message))) fun _ => fulfils_of_ne

/-- The work on a step is completed with success, or with a failure that was posted. -/
theorem Step.ends_fulfils (s : Step) (existing : Option String) :
    (s.procedure existing).Ends s.Fulfils [] := by
  have hcancelled : s.Fulfils [] .cancelled := fulfils_of_ne (by simp [Ending.cancelled])
  cases s with
  | prepareNetwork =>
    refine ⟨hcancelled, ?_⟩
    cases existing <;> exact ends_askAndPost_of_succeeds (fun _ => .inr rfl) fun _ => rfl
  | createContainer container image network =>
    refine ⟨hcancelled, ends_askAndPost_of_succeeds (fun _ => .inr ?_) fun _ => rfl⟩
    simp [hasSucceeded, History.reference?]
  | runContainer c reference main =>
    refine ⟨hcancelled, fun reply => ?_⟩
    cases reply with
    | ok value =>
      cases main with
      | true =>
        refine ends_askAndPost_of_succeeds (fun _ => .inr ?_) fun _ => rfl
        simp [hasSucceeded, History.hasStarted, History.exitCode?]
      | false => exact fun _ => .inr (by simp [hasSucceeded, History.hasStarted])
    | failed message => exact fun _ => .inl rfl
    | cancelled | error | panicked => exact fulfils_of_ne (by simp [Ending.cancelled])
  | runSetupCommand c reference command index =>
    refine ends_askAndPost_of_succeeds (fun result => ?_) fun _ => rfl
    by_cases hcode : result.exitCode = 0
    · exact .inr (by simp [hasSucceeded, History.setupCompleted, hcode])
    · exact .inl (by simp [hcode, Event.isFailure])
  | markReady => exact fun _ => .inr (by simp [hasSucceeded, History.isReady])
  | pullImage | buildImage | awaitHealth | stopContainer | removeContainer | deleteNetwork =>
    refine ends_askAndPost_of_succeeds (fun _ => .inr ?_) fun _ => rfl
    simp [hasSucceeded, History.builtImage?, History.pulledImage?, History.isHealthy,
      History.isStopped, History.isRemoved, History.networkDeleted]

/-! ### Jobs -/

/-- A job that has not left its work undone, unless a failure is on record. -/
def Job.Earnest (h : History) (j : Job) : Prop :=
  match j.phase with
  | .handed | .arriving | .inLine | .admitted | .failing _ => True
  | .working rest => rest.Keen
  | .calling c next => (Procedure.call c next).Keen
  | .reporting _ => h.hasFailures = true
  | .leaving | .released | .gone => j.ending = some .completed ∨ h.hasFailures = true

namespace Job

variable {existing : Option String} {index : Nat} {j j' : Job} {seen : List Happening}
  {h h' : History}

theorem Earnest.mono (hj : j.Earnest h) (hsub : h ⊆ h') : j.Earnest h' := by
  obtain ⟨s, phase, o⟩ := j
  cases phase with
  | handed | arriving | inLine | admitted | failing | working | calling => exact hj
  | reporting => exact any_mono hsub hj
  | leaving | released | gone => exact hj.imp_right (any_mono hsub)

/-- In a run that is not cancelled, a job of the first stage that glides does not leave its work
undone, unless the runtime says that its call was given up. -/
theorem Glides.earnest (on : j.Glides existing false index j' seen) (hj : j.Earnest h)
    (hs : j.step.isCleanup = false) :
    seen.any Happening.leavesUndone = true ∨ j'.Earnest h := by
  cases on with
  | giveUp stopped | ifCancelled stopped | skip stopped | abandon stopped => cases stopped
  | arrive | joinLine | enter | leaveLine => exact .inr trivial
  | begin => exact .inr (Step.keen hs existing)
  | log | otherwise | call | release => exact .inr hj
  | @answer s o a next =>
    obtain ⟨hc, hkeen⟩ : a.call.takesDown = false ∧ _ := hj
    cases hkept : a.reply.isCancellation with
    | true => exact .inl (by simp [Happening.leavesUndone, hc, hkept])
    | false => exact .inr (hkeen a.reply hkept)
  | settle quiet => exact .inr (.inl (congrArg some (hj quiet)))
  | fail => exact .inr trivial
  | report => exact .inr (.inr hj)

/-- A job that has come to its end with its work done has posted its success, or a failure is on
record. -/
theorem Earnest.hasSucceeded {posted : List Event} (hj : j.Earnest h) (hgone : j.isGone = true)
    (hfollows : j.Follows existing posted) (hsub : posted ⊆ h) :
    h.hasFailures = true ∨ j.step.hasSucceeded h = true := by
  obtain ⟨s, phase, o⟩ := j
  cases phase <;> simp only [isGone, Bool.false_eq_true] at hgone
  rcases hj with hcompleted | hfailed
  · obtain ⟨ending, hending, hcourse⟩ | ⟨-, hnone, -⟩ := hfollows
    · have hends : s.Fulfils posted ending := hcourse.ends (s.ends_fulfils existing)
      exact (hends (Option.some.inj (hending.symm.trans hcompleted))).imp
        (any_mono hsub) (Step.hasSucceeded_mono hsub)
    · rw [show o = some .completed from hcompleted] at hnone
      cases hnone
  · exact .inl hfailed

end Job

/-! ### Effects -/

namespace Ledger

/-- No job of the first stage has left its work undone, unless the runtime has said that a call was
given up. -/
def Earnest (l : Ledger) : Prop :=
  l.trace.any Happening.leavesUndone = true ∨
    ∀ j ∈ l.jobs, j.step.isCleanup = false → j.Earnest l.machine.history

/-- The exit code of the main container is known, unless something has failed, or the runtime has
said that a call was given up. -/
def ExitKnown (g : Graph) (l : Ledger) : Prop := g.root.isSome = true →
  l.trace.any Happening.leavesUndone = true ∨ l.machine.history.hasFailures = true ∨
    (g.root.bind l.machine.history.exitCode?).isSome = true

variable {existing : Option String} {g : Graph} {policy : CleanupPolicy} {l l' : Ledger}
  {cancelled : Bool}

theorem ExitKnown.effect (hl : l.ExitKnown g) (h : l.Effect existing cancelled l') :
    l'.ExitKnown g := by
  obtain ⟨hhistory, htrace⟩ := h.grows
  intro hroot
  refine (hl hroot).imp (any_mono htrace.subset)
    (Or.imp (any_mono hhistory.subset) fun hexit => ?_)
  obtain ⟨root, hroot⟩ := Option.isSome_iff_exists.mp hroot
  rw [hroot] at hexit ⊢
  exact isSome_findSome?_mono hhistory.subset hexit

/-- In a run that is not cancelled, no work comes to be left undone. -/
theorem Earnest.effect (hl : l.Earnest) (h : l.Effect existing false l') : l'.Earnest := by
  obtain ⟨hhistory, htrace⟩ := h.grows
  rcases hl with hgiven | hjobs
  · exact .inl (any_mono htrace.subset hgiven)
  replace hjobs : ∀ j ∈ l.jobs, j.step.isCleanup = false → j.Earnest l'.machine.history :=
    fun j hj hs => (hjobs j hj hs).mono hhistory.subset
  cases h with
  | advance | interrupt | log => exact .inr hjobs
  | handOut =>
    refine .inr (List.forall_mem_append.mpr ⟨hjobs, List.forall_mem_singleton.mpr ?_⟩)
    exact fun _ => trivial
  | @glide m front back j j' trace seen on =>
    simp only [List.forall_mem_append, List.forall_mem_cons] at hjobs
    by_cases hgiven : seen.any Happening.leavesUndone = true
    · exact .inl (by simp [hgiven])
    · refine .inr ?_
      simp only [List.forall_mem_append, List.forall_mem_cons]
      refine ⟨hjobs.1, fun hs => ?_, hjobs.2.2⟩
      rw [on.step_eq] at hs
      exact (on.earnest (hjobs.2.1 hs) hs).resolve_left hgiven
  | drop stopped => cases stopped
  | handBack | record =>
    refine .inr ?_
    simp only [List.forall_mem_append, List.forall_mem_cons] at hjobs ⊢
    exact hjobs
  | recordFailure =>
    refine .inr ?_
    simp only [List.forall_mem_append, List.forall_mem_cons] at hjobs ⊢
    refine ⟨hjobs.1, fun _ => ?_, hjobs.2.2⟩
    simp [Job.Earnest, History.hasFailures, Step.failure, Event.isFailure]

/-- When no step is in flight and nothing has failed or was given up, all rules that have handed out
their steps have success. -/
theorem Sound.hasSucceeded (hl : l.Sound existing g policy) (hg : g.Sound) (he : l.Earnest)
    (hs : l.machine.stage = .run) (hidle : l.machine.inFlight = 0)
    (hkept : l.trace.any Happening.leavesUndone = false)
    (hno : l.machine.history.hasFailures = false) {r : Rule} (hr : l.machine.HandedOut r) :
    r.hasSucceeded l.machine.history = true := by
  have hm := hl.run.sound hg
  obtain ⟨s, hs', hd⟩ := hm.step_of_rule hr
  obtain ⟨j, hj, rfl⟩ := List.mem_map.mp hs'
  -- the rule that the step was handed out for is the only one of its duty
  have hmem : r ∈ Plan.forRun g := hm.rules_run hs ▸ hr.mem_rules
  obtain ⟨r', h, hmem', -, heval⟩ := (hm.warranted _ hs').exists_forRun
    (hd ▸ Plan.isCleanup_duty_of_mem_forRun hg hmem)
  have hduty : r'.duty = r.duty := (Rule.duty_of_evaluate heval).symm.trans hd
  obtain rfl : r' = r := List.inj_on_of_nodup_map (Plan.nodup_duty_forRun hg) hmem' hmem hduty
  have hmaking : j.step.isCleanup = false := by
    rw [← Step.isCleanup_duty, hd]
    exact Plan.isCleanup_duty_of_mem_forRun hg hmem
  have hjobs := he.resolve_left (by rw [hkept]; exact Bool.false_ne_true)
  rw [Rule.hasSucceeded_of_evaluate heval]
  refine ((hjobs j hj hmaking).hasSucceeded (hl.isGone_of_idle hidle j hj) (hl.follows j hj)
    (List.filter_subset_self _)).resolve_left ?_
  rw [hno]
  exact Bool.false_ne_true

/-- When the first stage ends, the exit code is known. -/
theorem Sound.exitKnown_of_advancesTo (hl : l.Sound existing g policy) (hg : g.Sound)
    (he : l.Earnest) (hs : l.machine.stage = .run) {m : Machine}
    (hends : l.machine.AdvancesTo m) : l.ExitKnown g := by
  intro hroot
  by_cases hgiven : l.trace.any Happening.leavesUndone = true
  · exact .inl hgiven
  by_cases hfailed : l.machine.history.hasFailures = true
  · exact .inr (.inl hfailed)
  rw [Bool.not_eq_true] at hgiven hfailed
  have hm := hl.run.sound hg
  have hexit := hm.isSome_exitCode hg hs hends.stuck
    (fun r hr => hl.hasSucceeded hg he hs hends.idle hgiven hfailed hr) hroot
  rw [← hm.graph_eq]
  exact .inr (.inr hexit)

/-- In a run that is not cancelled, the exit code is known once the first stage is over. -/
theorem Sound.exitKnown_of_effect (hl : l.Sound existing g policy) (hg : g.Sound) (he : l.Earnest)
    (hknown : l.machine.stage ≠ .run → l.ExitKnown g) (h : l.Effect existing cancelled l') :
    l'.machine.stage ≠ .run → l'.ExitKnown g := by
  intro hs'
  by_cases hs : l.machine.stage = .run
  · rcases h.advancesTo_or_sameStage with hends | hsame
    · exact (hl.exitKnown_of_advancesTo hg he hs hends).effect h
    · rw [hsame.stage_eq] at hs'
      exact absurd hs hs'
  · exact (hknown hs).effect h

/-- A machine that has finished stays so. -/
theorem finished_of_effect (hs : l.machine.stage = .finished)
    (h : l.Effect existing cancelled l') : l'.machine.stage = .finished := by
  rcases h.advancesTo_or_sameStage with hends | hsame
  · exact absurd hs hends.unfinished
  · exact hsame.stage_eq.trans hs

end Ledger

/-! ### Managed runs -/

namespace Execution

variable {existing : Option String} {g : Graph} {policy : CleanupPolicy} {x y : Execution}

/-- What holds of a managed run, as far as its outcome goes. -/
structure Candid (g : Graph) (x : Execution) : Prop where
  earnest : x.cancelled = false →
    x.ledger.Earnest ∧ (x.machine.stage ≠ .run → x.ledger.ExitKnown g)
  finished : x.manager ≠ .dispatching → x.machine.stage = .finished
  /-- The watcher is done when it has said that the user has asked to stop. -/
  told : x.watcher = .done → .interrupted ∈ x.machine.history
  /-- The manager does without the watcher only if the run was not cancelled. -/
  dismissing : x.manager = .dismissingWatcher → x.ledger.ExitKnown g
  returned : ∀ o, x.manager = .returned o → g.root.isSome = true →
    x.trace.any Happening.leavesUndone = true ∨ o.failures ≠ [] ∨ o.exitCode.isSome = true

theorem candid_start {limit : Option Nat} {cancelled : Bool}
    (h : start? (.start g policy) existing limit cancelled = some x) : x.Candid g := by
  obtain rfl := eq_of_start? h
  exact ⟨fun _ => ⟨.inr (List.forall_mem_nil _), fun hs => absurd rfl hs⟩,
    fun hs => absurd rfl hs, nofun, nofun, nofun⟩

/-- What a cancelled run has left undone comes with a failure: the user has asked to stop. -/
theorem Candid.of_deliver (hx : x.Candid g) (hgraph : x.machine.graph = g)
    (heard : x.manager = .awaitingWatcher ∧ x.watcher = .done ∨ x.manager = .dismissingWatcher)
    (hroot : g.root.isSome = true) : x.trace.any Happening.leavesUndone = true ∨
      x.machine.outcome.failures ≠ [] ∨ x.machine.outcome.exitCode.isSome = true := by
  have hfailures : x.machine.history.hasFailures = true → x.machine.outcome.failures ≠ [] := by
    intro hfailed
    obtain ⟨e, he, hfails⟩ := List.any_eq_true.mp hfailed
    exact List.ne_nil_of_mem (List.mem_filter.mpr ⟨he, hfails⟩)
  rcases heard with ⟨-, hdone⟩ | hmanager
  · exact .inr (.inl (hfailures (List.any_eq_true.mpr ⟨_, hx.told hdone, rfl⟩)))
  · refine (hx.dismissing hmanager hroot).imp_right (Or.imp hfailures fun hexit => ?_)
    show (x.machine.graph.root.bind x.machine.history.exitCode?).isSome = true
    rw [hgraph]
    exact hexit

/-- What holds is kept by all that a move does but for what it tells the manager and the watcher to
do next. -/
theorem Candid.of_ledger {move : Move} (hx : x.Candid g) (hg : g.Sound)
    (hsound : x.Sound existing g policy) (h : x.next? move = some y) :
    Candid g { x with machine := y.machine, jobs := y.jobs, trace := y.trace } where
  earnest :=
    (hsound.next? (P := fun l => x.cancelled = false →
        l.Earnest ∧ (l.machine.stage ≠ .run → l.ExitKnown g)) hg hx.earnest
      (fun l l' hl hP heffect hrun => by
        rw [hrun] at heffect
        exact ⟨(hP hrun).1.effect heffect,
          hl.exitKnown_of_effect hg (hP hrun).1 (hP hrun).2 heffect⟩) h).2
  finished hmanager :=
    (hsound.next? (P := fun l => l.machine.stage = .finished) hg (hx.finished hmanager)
      (fun _ _ _ hs heffect => Ledger.finished_of_effect hs heffect) h).2
  told hdone := (hsound.grows hg h).1.subset (hx.told hdone)
  dismissing hmanager :=
    (hsound.next? (P := fun l => l.ExitKnown g) hg (hx.dismissing hmanager)
      (fun _ _ _ hl heffect => hl.effect heffect) h).2
  returned o ho hroot :=
    (hx.returned o ho hroot).imp_left (any_mono (hsound.grows hg h).2.subset)

/-- What holds is kept. -/
theorem Candid.next? {move : Move} (hx : x.Candid g) (hg : g.Sound)
    (hsound : x.Sound existing g policy) (h : x.next? move = some y) : y.Candid g := by
  obtain ⟨hearnest, hfinished, htold, hdismissing, hreturned⟩ := hx.of_ledger hg hsound h
  cases (continuesTo_of_next? hsound.inOrder h).steers with
  | keep control =>
    obtain ⟨hm, hw, hc⟩ := control_eq_iff.mp control
    exact ⟨hc ▸ hearnest, hm ▸ hfinished, hw ▸ htold, hm ▸ hdismissing, hm ▸ hreturned⟩
  | join finished control =>
    obtain ⟨hm, hw, hc⟩ := control_eq_iff.mp control
    exact ⟨hc ▸ hearnest, fun _ => finished, hw ▸ htold,
      fun h => absurd (hm.symm.trans h) (by simp), fun _ h => absurd (hm.symm.trans h) (by simp)⟩
  | cancel _ control =>
    obtain ⟨hm, hw, hc⟩ := control_eq_iff.mp control
    exact ⟨fun h => absurd (hc.symm.trans h) (by simp), hm ▸ hfinished, hw ▸ htold,
      hm ▸ hdismissing, hm ▸ hreturned⟩
  | wake control =>
    obtain ⟨hm, hw, hc⟩ := control_eq_iff.mp control
    exact ⟨hc ▸ hearnest, hm ▸ hfinished, fun h => absurd (hw.symm.trans h) (by simp),
      hm ▸ hdismissing, hm ▸ hreturned⟩
  | say told control =>
    obtain ⟨hm, hw, hc⟩ := control_eq_iff.mp control
    exact ⟨hc ▸ hearnest, hm ▸ hfinished, fun _ => told, hm ▸ hdismissing, hm ▸ hreturned⟩
  | conclude joining control =>
    obtain ⟨hm, hw, hc⟩ := control_eq_iff.mp control
    have hs : y.machine.stage = .finished := hfinished (by simp [joining])
    refine ⟨hc ▸ hearnest, fun _ => hs, hw ▸ htold, fun h => ?_, fun o h => ?_⟩
    · rw [hm] at h
      split at h
      · cases h
      · next hrun =>
        rw [Bool.not_eq_true] at hrun
        exact (hearnest hrun).2 (by rw [hs]; simp)
    · rw [hm] at h
      split at h <;> cases h
  | deliver heard hears control =>
    obtain ⟨hm, hw, hc⟩ := control_eq_iff.mp control
    have hs : y.machine.stage = .finished := hfinished (by rcases heard with ⟨h, -⟩ | h <;> simp [h])
    refine ⟨hc ▸ hearnest, fun _ => hs, fun h => ?_, fun h => ?_, fun o h hroot => ?_⟩
    · rw [hw] at h
      rcases hears with rfl | rfl
      · cases h
      · exact htold h
    · rw [hm] at h
      cases h
    · rw [hm] at h
      cases h
      have hgraph := (hsound.ledger.run.sound hg).graph_eq
      exact (hx.of_deliver hgraph heard hroot).imp_left
        (any_mono (hsound.grows hg h).2.subset)

theorem Manages.candid (h : x.Manages existing g policy) : x.Candid g := by
  refine h.moves_induction (P := fun x => x.Candid g) ?_ ?_
  · exact fun limit cancelled first hfirst => candid_start hfirst
  · exact fun x y move hx ih hm => ih.next? hx.sound_graph hx.sound hm

theorem returned_of_outcome? {o : Outcome} (hout : x.outcome? = some o) : x.manager = .returned o := by
  unfold outcome? at hout
  split at hout <;> cases hout
  assumption

/-- The manager stops asking for steps only when all are handed back. -/
theorem Manages.isGone_of_leaving (h : x.Manages existing g policy)
    (hmanager : x.manager ≠ .dispatching) : ∀ j ∈ x.jobs, j.isGone = true :=
  h.sound.ledger.isGone_of_idle
    ((h.sound.ledger.run.sound h.sound_graph).idle_finished (h.candid.finished hmanager))

/-- A run has an outcome only when all steps are handed back. -/
theorem Manages.isGone_of_outcome? (h : x.Manages existing g policy)
    (hout : x.outcome?.isSome = true) : ∀ j ∈ x.jobs, j.isGone = true := by
  refine h.isGone_of_leaving fun hmanager => ?_
  simp [outcome?, hmanager] at hout

/-- If a managed run gives an outcome without failures, and the runtime has not said that a call was
given up but for one that takes something down, the exit code of the main container is known. -/
theorem Manages.isSome_exitCode {o : Outcome} (h : x.Manages existing g policy)
    (hout : x.outcome? = some o) (hno : o.failures = [])
    (hkept : x.trace.any Happening.leavesUndone = false) (hroot : g.root.isSome = true) :
    o.exitCode.isSome = true := by
  rcases h.candid.returned o (returned_of_outcome? hout) hroot with hgiven | hfailed | hexit
  · rw [hkept] at hgiven
    cases hgiven
  · exact absurd hno hfailed
  · exact hexit

end Execution

end ContainerTasks
