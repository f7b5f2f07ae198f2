import ContainerTasks.Proofs.Duties
import ContainerTasks.Turn

/-!
# What the work on a step posts, and what its rule looks for

Rules are decided by events, and events are posted by the work on a step. So a rule waits for ever
if the work posts something else than the rule looks for. Both are written down for each kind of
step, without the one referring to the other, and what they agree on is the *outcome* of the step:
the events that tell how it has ended.

Work that is completed posts one outcome, as its last event. Work that comes to its end in another
way posts none. What it may have posted before are events on the way: the progress of a call, the
beginning of a setup command, and for the main container that it has started, which is an outcome
for any other container.

## Main definitions

* `Procedure.Runs`: what a procedure posts when it is carried out to its end, and how it ends
* `Step.Outcome`, `Step.OnTheWay`: the events that end a step, and those that do not
* `Step.ComesTo`: what has been posted when the work on a step has ended

## Main results

* `Procedure.runs_of_turn`, `Held.runs_of_resume`: turns make up a run
* `Step.comesTo_of_runs`: what the work on a step posts
* `Rule.isOver_of_runs`: what a rule looks for has been posted
* `Rule.outcome_of_ready`
-/

namespace ContainerTasks

/-! ### Whole runs -/

/-- What a procedure posts when it is carried out to its end, with any replies and whenever the run
is cancelled, and how it ends. -/
inductive Procedure.Runs : Procedure → List Event → Ending → Prop where
  | ended {ending : Ending} : Runs (.ended ending) [] ending
  | post {e : Event} {rest : Procedure} {posted : List Event} {ending : Ending}
    (h : Runs rest posted ending) : Runs (.post e rest) (e :: posted) ending
  | ifCancelled {ifCancelled otherwise : Procedure} {posted : List Event} {ending : Ending}
    (h : Runs ifCancelled posted ending) : Runs (.check ifCancelled otherwise) posted ending
  | otherwise {ifCancelled otherwise : Procedure} {posted : List Event} {ending : Ending}
    (h : Runs otherwise posted ending) : Runs (.check ifCancelled otherwise) posted ending
  /-- A call tells how far it is, any number of times, and comes to its end or is given up. -/
  | call {c : Call} {next : Reply c.Value → Procedure} {told posted : List Event} {ending : Ending}
    (progress : ∀ e ∈ told, ∃ line, c.progress? line = some e) (reply : Reply c.Value)
    (h : Runs (next reply) posted ending) : Runs (.call c next) (told ++ posted) ending

/-- What is posted from a pause on, and how the procedure ends. -/
inductive Pause.Runs : Pause → List Event → Ending → Prop where
  | ended {ending : Ending} : Runs (.ended ending) [] ending
  | held {held : Held} {posted : List Event} {ending : Ending} (reply : Reply held.call.Value)
    (h : (held.next reply).Runs posted ending) : Runs (.held held) posted ending

section Turns

variable {σ : Type} {service : Service σ} {cancelled : Bool} {state : σ} {p : Procedure}
  {held : Held} {posted : List Event} {ending : Ending}

/-- What is posted while a call is under way is its progress. -/
theorem exists_progress_of_mem_events {c : Call} {lines : List String} {e : Event}
    (h : e ∈ (lines.map (Act.progressed c)).flatMap Act.events) :
    ∃ line, c.progress? line = some e := by
  obtain ⟨act, hact, he⟩ := List.mem_flatMap.mp h
  obtain ⟨line, -, rfl⟩ := List.mem_map.mp hact
  exact ⟨line, Option.mem_toList.mp he⟩

/-- A turn is the beginning of a run, which goes on from where the turn has paused. -/
theorem Procedure.runs_of_turn (h : (p.turn service cancelled state).2.1.Runs posted ending) :
    p.Runs ((p.turn service cancelled state).1.flatMap Act.events ++ posted) ending := by
  induction p generalizing state with
  | ended ending' =>
    cases h
    exact .ended
  | post e rest ih => exact .post (ih h)
  | check ifCancelled otherwise ihCancelled ihOtherwise =>
    cases cancelled with
    | true => exact .ifCancelled (ihCancelled h)
    | false => exact .otherwise (ihOtherwise h)
  | call c next ih =>
    rw [turn] at h ⊢
    by_cases hrefused : (c.isAbandonable && cancelled) = true
    · rw [if_pos hrefused] at h ⊢
      dsimp only at h ⊢
      rw [List.flatMap_cons, List.append_assoc]
      exact .call (List.forall_mem_nil _) .cancelled (ih _ h)
    · rw [if_neg hrefused] at h ⊢
      dsimp only at h ⊢
      have htold : ∀ e ∈ ((service c state).1.progress.map (Act.progressed c)).flatMap Act.events,
          ∃ line, c.progress? line = some e := fun _ => exists_progress_of_mem_events
      cases hlatch : (service c state).1.latch with
      | some latch =>
        rw [hlatch] at h
        cases h with
        | held reply hnext => exact .call htold reply hnext
      | none =>
        rw [hlatch] at h
        rw [List.flatMap_append, List.append_assoc]
        exact .call htold _ (ih _ h)

/-- A procedure that has waited is carried on. -/
theorem Held.runs_of_resume (h : (held.resume service cancelled state).2.1.Runs posted ending) :
    (Pause.held held).Runs
      ((held.resume service cancelled state).1.flatMap Act.events ++ posted) ending := by
  rw [resume] at h ⊢
  by_cases hgiven : (held.isAbandonable && cancelled) = true
  · rw [if_pos hgiven] at h ⊢
    exact .held _ (Procedure.runs_of_turn h)
  · rw [if_neg hgiven] at h ⊢
    exact .held _ (Procedure.runs_of_turn h)

end Turns

/-! ### Outcomes -/

namespace Step

/-- The event tells how the step has ended. -/
inductive Outcome : Step → Event → Prop where
  | networkCreated {network : NetworkReference} : Outcome prepareNetwork (.networkCreated network)
  | networkFound {network : NetworkReference} : Outcome prepareNetwork (.networkFound network)
  | networkCreationFailed {message : String} :
    Outcome prepareNetwork (.networkCreationFailed message)
  | networkCheckFailed {identifier message : String} :
    Outcome prepareNetwork (.networkCheckFailed identifier message)
  | imageBuilt {container : Container} {image : ImageReference} :
    Outcome (buildImage container) (.imageBuilt container.name image)
  | imageBuildFailed {container : Container} {message : String} :
    Outcome (buildImage container) (.imageBuildFailed container.name message)
  | imagePulled {imageName : String} {policy : PullPolicy} {image : ImageReference} :
    Outcome (pullImage imageName policy) (.imagePulled imageName image)
  | imagePullFailed {imageName message : String} {policy : PullPolicy} :
    Outcome (pullImage imageName policy) (.imagePullFailed imageName message)
  | containerCreated {container : Container} {image : ImageReference} {network : NetworkReference}
    {reference : ContainerReference} :
    Outcome (createContainer container image network) (.containerCreated container.name reference)
  | containerCreationFailed {container : Container} {image : ImageReference}
    {network : NetworkReference} {message : String} :
    Outcome (createContainer container image network)
      (.containerCreationFailed container.name message)
  /-- To start a container is all there is to do, unless it is the main one. -/
  | containerStarted {container : String} {reference : ContainerReference} :
    Outcome (runContainer container reference false) (.containerStarted container)
  | containerExited {container : String} {reference : ContainerReference} {exitCode : Int} :
    Outcome (runContainer container reference true) (.containerExited container exitCode)
  | containerRunFailed {container message : String} {reference : ContainerReference} {main : Bool} :
    Outcome (runContainer container reference main) (.containerRunFailed container message)
  | containerHealthy {container : String} {reference : ContainerReference} :
    Outcome (awaitHealth container reference) (.containerHealthy container)
  | containerUnhealthy {container message : String} {reference : ContainerReference} :
    Outcome (awaitHealth container reference) (.containerUnhealthy container message)
  | setupCommandCompleted {container : String} {reference : ContainerReference}
    {command : SetupCommand} {index : Nat} :
    Outcome (runSetupCommand container reference command index)
      (.setupCommandCompleted container index)
  | setupCommandFailed {container output : String} {reference : ContainerReference}
    {command : SetupCommand} {index : Nat} {exitCode : Int} :
    Outcome (runSetupCommand container reference command index)
      (.setupCommandFailed container command.command index exitCode output)
  | setupCommandError {container message : String} {reference : ContainerReference}
    {command : SetupCommand} {index : Nat} :
    Outcome (runSetupCommand container reference command index)
      (.setupCommandError container command.command index message)
  | containerReady {container : String} : Outcome (markReady container) (.containerReady container)
  | containerStopped {container : String} {reference : ContainerReference} :
    Outcome (stopContainer container reference) (.containerStopped container)
  | containerStopFailed {container message : String} {reference : ContainerReference} :
    Outcome (stopContainer container reference) (.containerStopFailed container message)
  | containerRemoved {container : String} {reference : ContainerReference} :
    Outcome (removeContainer container reference) (.containerRemoved container)
  | containerRemovalFailed {container message : String} {reference : ContainerReference} :
    Outcome (removeContainer container reference) (.containerRemovalFailed container message)
  | networkDeleted {network : NetworkReference} : Outcome (deleteNetwork network) .networkDeleted
  | networkDeletionFailed {network : NetworkReference} {message : String} :
    Outcome (deleteNetwork network) (.networkDeletionFailed message)

/-- The event is posted on the way, before it is known how the step ends. -/
inductive OnTheWay : Step → Event → Prop where
  | imageBuildProgress {container : Container} {line : String} :
    OnTheWay (buildImage container) (.imageBuildProgress container.name line)
  | imagePullProgress {imageName line : String} {policy : PullPolicy} :
    OnTheWay (pullImage imageName policy) (.imagePullProgress imageName line)
  | setupCommandStarted {container : String} {reference : ContainerReference}
    {command : SetupCommand} {index : Nat} :
    OnTheWay (runSetupCommand container reference command index)
      (.setupCommandStarted container command.command index)
  | containerStarted {container : String} {reference : ContainerReference} :
    OnTheWay (runContainer container reference true) (.containerStarted container)

/-- What has been posted when the work on a step has come to its end: one outcome, as the last
event, if the work is completed, and none if not. -/
structure ComesTo (s : Step) (posted : List Event) (ending : Ending) : Prop where
  completed : ending = .completed →
    ∃ way outcome, posted = way ++ [outcome] ∧ (∀ e ∈ way, s.OnTheWay e) ∧ s.Outcome outcome
  otherwise : ending ≠ .completed → ∀ e ∈ posted, s.OnTheWay e

variable {s : Step} {e : Event} {way : List Event} {ending : Ending}

theorem OnTheWay.not_outcome (h : s.OnTheWay e) : ¬ s.Outcome e := by
  intro houtcome
  cases h <;> cases houtcome

/-- No outcome is for the log alone. -/
theorem Outcome.isInformational_eq_false (h : s.Outcome e) : e.isInformational = false := by
  cases h <;> rfl

theorem comesTo_of_outcome (hway : ∀ e ∈ way, s.OnTheWay e) (he : s.Outcome e) :
    s.ComesTo (way ++ [e]) .completed where
  completed := fun _ => ⟨way, e, rfl, hway, he⟩
  otherwise := fun hne => absurd rfl hne

theorem comesTo_of_ne (hne : ending ≠ .completed) (hway : ∀ e ∈ way, s.OnTheWay e) :
    s.ComesTo way ending where
  completed := fun h => absurd h hne
  otherwise := fun _ => hway

end Step

/-! ### What the work on a step posts -/

namespace Procedure

variable {s : Step} {c : Call} {ifOk : c.Value → Event} {ifFailed : String → Event} {e : Event}
  {way posted : List Event} {ending : Ending} {ifOk' : c.Value → Procedure}
  {ifFailed' : String → Procedure} {rest : Procedure}

theorem runs_ended {ending' : Ending} (h : (ended ending').Runs posted ending) :
    posted = [] ∧ ending = ending' := by
  cases h
  exact ⟨rfl, rfl⟩

theorem runs_post (h : (post e rest).Runs posted ending) :
    ∃ later, posted = e :: later ∧ rest.Runs later ending := by
  cases h with
  | post h => exact ⟨_, rfl, h⟩

theorem runs_postLast (h : (post e done).Runs posted ending) :
    posted = [e] ∧ ending = .completed := by
  obtain ⟨later, rfl, hdone⟩ := runs_post h
  obtain ⟨rfl, rfl⟩ := runs_ended hdone
  exact ⟨rfl, rfl⟩

/-- A run goes on with the rest unless it is given up before it has posted anything. -/
theorem runs_unlessCancelled (h : (unlessCancelled rest).Runs posted ending) :
    posted = [] ∧ ending ≠ .completed ∨ rest.Runs posted ending := by
  cases h with
  | ifCancelled h =>
    obtain ⟨rfl, rfl⟩ := runs_ended h
    exact .inl ⟨rfl, by simp [Ending.cancelled]⟩
  | otherwise h => exact .inr h

/-- What is posted while a call is under way comes first, and then it is dealt with as told, if the
work has not come to its end. -/
theorem runs_ask (h : (ask c ifOk' ifFailed').Runs posted ending) :
    ∃ told later, posted = told ++ later ∧ (∀ e ∈ told, ∃ line, c.progress? line = some e) ∧
      (later = [] ∧ ending ≠ .completed ∨ (∃ value, (ifOk' value).Runs later ending) ∨
        ∃ message, (ifFailed' message).Runs later ending) := by
  cases h with
  | @call _ _ told later _ progress reply h =>
    refine ⟨told, later, rfl, progress, ?_⟩
    cases reply with
    | ok value => exact .inr (.inl ⟨value, h⟩)
    | failed message => exact .inr (.inr ⟨message, h⟩)
    | cancelled | error | panicked =>
      obtain ⟨rfl, rfl⟩ := runs_ended h
      exact .inl ⟨rfl, by simp [Ending.cancelled]⟩

/-- A call that does not tell how far it is posts nothing. -/
theorem eq_nil_of_progress {told : List Event} (hc : ∀ line, c.progress? line = none)
    (h : ∀ e ∈ told, ∃ line, c.progress? line = some e) : told = [] := by
  refine List.eq_nil_iff_forall_not_mem.mpr fun e he => ?_
  obtain ⟨line, hline⟩ := h e he
  rw [hc] at hline
  cases hline

/-- Work that ends with a call posts what has become of it. -/
theorem runs_askAndPost (h : (askAndPost c ifOk ifFailed).Runs posted ending) :
    ∃ told, (∀ e ∈ told, ∃ line, c.progress? line = some e) ∧
      (posted = told ∧ ending ≠ .completed ∨
        ending = .completed ∧ ∃ e, posted = told ++ [e] ∧
          ((∃ value, e = ifOk value) ∨ ∃ message, e = ifFailed message)) := by
  obtain ⟨told, later, rfl, htold, ⟨rfl, hne⟩ | ⟨value, h⟩ | ⟨message, h⟩⟩ := runs_ask h
  · exact ⟨told, htold, .inl ⟨List.append_nil _, hne⟩⟩
  · obtain ⟨rfl, rfl⟩ := runs_postLast h
    exact ⟨told, htold, .inr ⟨rfl, _, rfl, .inl ⟨value, rfl⟩⟩⟩
  · obtain ⟨rfl, rfl⟩ := runs_postLast h
    exact ⟨told, htold, .inr ⟨rfl, _, rfl, .inr ⟨message, rfl⟩⟩⟩

/-- Work that ends with a call settles the step, if either event is an outcome. -/
theorem comesTo_of_runs_askAndPost (hway : ∀ e ∈ way, s.OnTheWay e)
    (hprogress : ∀ line e, c.progress? line = some e → s.OnTheWay e)
    (hok : ∀ value, s.Outcome (ifOk value)) (hfailed : ∀ message, s.Outcome (ifFailed message))
    (h : (askAndPost c ifOk ifFailed).Runs posted ending) : s.ComesTo (way ++ posted) ending := by
  obtain ⟨told, htold, h⟩ := runs_askAndPost h
  have hbefore : ∀ e ∈ way ++ told, s.OnTheWay e := by
    intro e he
    rcases List.mem_append.mp he with he | he
    · exact hway e he
    · obtain ⟨line, hline⟩ := htold e he
      exact hprogress line e hline
  obtain ⟨rfl, hne⟩ | ⟨rfl, e, rfl, hlast⟩ := h
  · exact Step.comesTo_of_ne hne hbefore
  · rw [← List.append_assoc]
    refine Step.comesTo_of_outcome hbefore ?_
    obtain ⟨value, rfl⟩ | ⟨message, rfl⟩ := hlast
    · exact hok value
    · exact hfailed message

theorem comesTo_of_runs_askAndPost_silent (hsilent : ∀ line, c.progress? line = none)
    (hway : ∀ e ∈ way, s.OnTheWay e) (hok : ∀ value, s.Outcome (ifOk value))
    (hfailed : ∀ message, s.Outcome (ifFailed message))
    (h : (askAndPost c ifOk ifFailed).Runs posted ending) : s.ComesTo (way ++ posted) ending := by
  refine comesTo_of_runs_askAndPost hway (fun line e hline => ?_) hok hfailed h
  rw [hsilent] at hline
  cases hline

/-- Work that is given up before it has begun has posted nothing. -/
theorem comesTo_of_runs_unlessCancelled (h : (unlessCancelled rest).Runs posted ending)
    (hrest : rest.Runs posted ending → s.ComesTo posted ending) : s.ComesTo posted ending := by
  obtain ⟨rfl, hne⟩ | h := runs_unlessCancelled h
  · exact Step.comesTo_of_ne hne (List.forall_mem_nil _)
  · exact hrest h

end Procedure

namespace Step

open Procedure

variable {s : Step} {posted : List Event} {ending : Ending} {existing : Option String}

/-- The main container starts and comes to its end, or it cannot be run any further, or it cannot be
started. -/
theorem posted_of_runs_main {container : String} {reference : ContainerReference}
    (h : ((runContainer container reference true).procedure existing).Runs posted ending) :
    (ending = .completed →
      (∃ exitCode, posted = [.containerStarted container, .containerExited container exitCode]) ∨
      (∃ message, posted = [.containerStarted container, .containerRunFailed container message]) ∨
      ∃ message, posted = [.containerRunFailed container message]) ∧
    (ending ≠ .completed → posted = [] ∨ posted = [.containerStarted container]) := by
  obtain ⟨rfl, hne⟩ | hstart := runs_unlessCancelled h
  · exact ⟨fun heq => absurd heq hne, fun _ => .inl rfl⟩
  obtain ⟨told, later, rfl, htold, hlater⟩ := runs_ask hstart
  obtain rfl := eq_nil_of_progress (fun _ => rfl) htold
  obtain ⟨rfl, hne⟩ | ⟨value, hstarted⟩ | ⟨message, hfailed⟩ := hlater
  · exact ⟨fun heq => absurd heq hne, fun _ => .inl rfl⟩
  · obtain ⟨exited, rfl, hexit⟩ := runs_post hstarted
    obtain ⟨told, htold, hend⟩ := runs_askAndPost hexit
    obtain rfl := eq_nil_of_progress (fun _ => rfl) htold
    obtain ⟨rfl, hne⟩ | ⟨rfl, e, rfl, ⟨exitCode, rfl⟩ | ⟨message, rfl⟩⟩ := hend
    · exact ⟨fun heq => absurd heq hne, fun _ => .inr rfl⟩
    · exact ⟨fun _ => .inl ⟨exitCode, rfl⟩, fun hne => absurd rfl hne⟩
    · exact ⟨fun _ => .inr (.inl ⟨message, rfl⟩), fun hne => absurd rfl hne⟩
  · obtain ⟨rfl, rfl⟩ := runs_postLast hfailed
    exact ⟨fun _ => .inr (.inr ⟨message, rfl⟩), fun hne => absurd rfl hne⟩

/-- Any other container starts, or it cannot be started. -/
theorem comesTo_of_runs_dependency {container : String} {reference : ContainerReference}
    (h : ((runContainer container reference false).procedure existing).Runs posted ending) :
    (runContainer container reference false).ComesTo posted ending := by
  have hnone : ∀ e ∈ ([] : List Event), (runContainer container reference false).OnTheWay e :=
    List.forall_mem_nil _
  refine comesTo_of_runs_unlessCancelled h fun hstart => ?_
  obtain ⟨told, later, rfl, htold, hlater⟩ := runs_ask hstart
  obtain rfl := eq_nil_of_progress (fun _ => rfl) htold
  obtain ⟨rfl, hne⟩ | ⟨value, hstarted⟩ | ⟨message, hfailed⟩ := hlater
  · exact comesTo_of_ne hne hnone
  · obtain ⟨rfl, rfl⟩ := runs_postLast hstarted
    exact comesTo_of_outcome hnone .containerStarted
  · obtain ⟨rfl, rfl⟩ := runs_postLast hfailed
    exact comesTo_of_outcome hnone .containerRunFailed

theorem comesTo_of_runs_main {container : String} {reference : ContainerReference}
    (h : ((runContainer container reference true).procedure existing).Runs posted ending) :
    (runContainer container reference true).ComesTo posted ending := by
  obtain ⟨hcompleted, hother⟩ := posted_of_runs_main h
  have hstarted : ∀ e ∈ [Event.containerStarted container],
      (runContainer container reference true).OnTheWay e :=
    List.forall_mem_singleton.mpr .containerStarted
  by_cases hend : ending = .completed
  · subst hend
    obtain ⟨exitCode, rfl⟩ | ⟨message, rfl⟩ | ⟨message, rfl⟩ := hcompleted rfl
    · exact comesTo_of_outcome hstarted .containerExited
    · exact comesTo_of_outcome hstarted .containerRunFailed
    · exact comesTo_of_outcome (List.forall_mem_nil _) .containerRunFailed
  · obtain rfl | rfl := hother hend
    · exact comesTo_of_ne hend (List.forall_mem_nil _)
    · exact comesTo_of_ne hend hstarted

/-- The work on a step settles it. -/
theorem comesTo_of_runs (h : (s.procedure existing).Runs posted ending) :
    s.ComesTo posted ending := by
  have hnone : ∀ e ∈ ([] : List Event), s.OnTheWay e := List.forall_mem_nil _
  cases s with
  | prepareNetwork =>
    refine comesTo_of_runs_unlessCancelled h fun hprepare => ?_
    cases existing with
    | none =>
      exact comesTo_of_runs_askAndPost_silent (fun _ => rfl) hnone (fun _ => .networkCreated)
        (fun _ => .networkCreationFailed) hprepare
    | some identifier =>
      exact comesTo_of_runs_askAndPost_silent (fun _ => rfl) hnone (fun _ => .networkFound)
        (fun _ => .networkCheckFailed) hprepare
  | createContainer container image network =>
    refine comesTo_of_runs_unlessCancelled h fun hcreate => ?_
    exact comesTo_of_runs_askAndPost_silent (fun _ => rfl) hnone (fun _ => .containerCreated)
      (fun _ => .containerCreationFailed) hcreate
  | runContainer container reference main =>
    cases main with
    | true => exact comesTo_of_runs_main h
    | false => exact comesTo_of_runs_dependency h
  | runSetupCommand container reference command index =>
    obtain ⟨later, rfl, hexec⟩ := runs_post h
    have hstarted : ∀ e ∈ [Event.setupCommandStarted container command.command index],
        (runSetupCommand container reference command index).OnTheWay e :=
      List.forall_mem_singleton.mpr .setupCommandStarted
    refine comesTo_of_runs_askAndPost_silent (fun _ => rfl) hstarted (fun result => ?_)
      (fun _ => .setupCommandError) hexec
    split
    · exact .setupCommandCompleted
    · exact .setupCommandFailed
  | markReady container =>
    obtain ⟨rfl, rfl⟩ := runs_postLast h
    exact comesTo_of_outcome hnone .containerReady
  | buildImage container =>
    refine comesTo_of_runs_askAndPost hnone (fun line e hline => ?_) (fun _ => .imageBuilt)
      (fun _ => .imageBuildFailed) h
    obtain rfl := Option.some.inj hline
    exact .imageBuildProgress
  | pullImage imageName policy =>
    refine comesTo_of_runs_askAndPost hnone (fun line e hline => ?_) (fun _ => .imagePulled)
      (fun _ => .imagePullFailed) h
    obtain rfl := Option.some.inj hline
    exact .imagePullProgress
  | awaitHealth container reference =>
    exact comesTo_of_runs_askAndPost_silent (fun _ => rfl) hnone (fun _ => .containerHealthy)
      (fun _ => .containerUnhealthy) h
  | stopContainer container reference =>
    exact comesTo_of_runs_askAndPost_silent (fun _ => rfl) hnone (fun _ => .containerStopped)
      (fun _ => .containerStopFailed) h
  | removeContainer container reference =>
    exact comesTo_of_runs_askAndPost_silent (fun _ => rfl) hnone (fun _ => .containerRemoved)
      (fun _ => .containerRemovalFailed) h
  | deleteNetwork network =>
    exact comesTo_of_runs_askAndPost_silent (fun _ => rfl) hnone (fun _ => .networkDeleted)
      (fun _ => .networkDeletionFailed) h

end Step

/-! ### What the rule looks for -/

namespace Rule

variable {r : Rule} {s : Step} {e : Event} {h : History} {posted : List Event} {ending : Ending}
  {existing : Option String}

/-- A rule is over when the outcome of its step is on record. Only the exit code of the main
container is not what its rule looks for. -/
theorem isOver_of_outcome {h' : History} (hs : r.StandsFor h s) (he : s.Outcome e) (hmem : e ∈ h') :
    r.isOver h' = true ∨ ∃ container reference exitCode,
      s = .runContainer container reference true ∧ e = .containerExited container exitCode := by
  cases hs with
  | prepareNetwork =>
    refine .inl (Bool.or_eq_true_iff.mpr ?_)
    cases he with
    | networkCreated | networkFound => exact .inl (List.findSome?_isSome_iff.mpr ⟨_, hmem, rfl⟩)
    | networkCreationFailed | networkCheckFailed =>
      exact .inr (List.any_eq_true.mpr ⟨_, hmem, rfl⟩)
  | buildImage | pullImage | createContainer =>
    refine .inl (Bool.or_eq_true_iff.mpr ?_)
    cases he
    · exact .inl (List.findSome?_isSome_iff.mpr ⟨_, hmem, by simp⟩)
    · exact .inr (List.any_eq_true.mpr ⟨_, hmem, by simp⟩)
  | runContainer =>
    cases he with
    | containerStarted =>
      exact .inl (Bool.or_eq_true_iff.mpr (.inl (List.any_eq_true.mpr ⟨_, hmem, by simp⟩)))
    | containerRunFailed =>
      exact .inl (Bool.or_eq_true_iff.mpr (.inr (List.any_eq_true.mpr ⟨_, hmem, by simp⟩)))
    | containerExited => exact .inr ⟨_, _, _, rfl, rfl⟩
  | awaitHealth | removeContainer | deleteNetwork =>
    refine .inl (Bool.or_eq_true_iff.mpr ?_)
    cases he
    · exact .inl (List.any_eq_true.mpr ⟨_, hmem, by simp⟩)
    · exact .inr (List.any_eq_true.mpr ⟨_, hmem, by simp⟩)
  | runSetupCommand =>
    refine .inl (Bool.or_eq_true_iff.mpr ?_)
    cases he with
    | setupCommandCompleted => exact .inl (List.any_eq_true.mpr ⟨_, hmem, by simp⟩)
    | setupCommandFailed | setupCommandError =>
      exact .inr (List.any_eq_true.mpr ⟨_, hmem, by simp⟩)
  | markReady =>
    cases he with
    | containerReady => exact .inl (List.any_eq_true.mpr ⟨_, hmem, by simp⟩)
  | stopContainer =>
    refine .inl (Bool.or_eq_true_iff.mpr (.inl (Bool.or_eq_true_iff.mpr ?_)))
    cases he with
    | containerStopped => exact .inl (List.any_eq_true.mpr ⟨_, hmem, by simp⟩)
    | containerStopFailed => exact .inr (List.any_eq_true.mpr ⟨_, hmem, by simp⟩)

/-- A rule is over when all that the completed work on its step has posted is on record. -/
theorem isOver_of_runs {h' : History} (hs : r.StandsFor h s)
    (hrun : (s.procedure existing).Runs posted .completed)
    (hposted : ∀ e ∈ posted, e.isInformational = false → e ∈ h') : r.isOver h' = true := by
  obtain ⟨way, outcome, rfl, -, houtcome⟩ := (Step.comesTo_of_runs hrun).completed rfl
  have hmem : outcome ∈ h' :=
    hposted outcome (by simp) houtcome.isInformational_eq_false
  obtain hover | ⟨container, reference, exitCode, rfl, rfl⟩ := isOver_of_outcome hs houtcome hmem
  · exact hover
  · -- the main container has started before it came to its end
    have hstarted :
        Event.containerStarted container ∈ way ++ [.containerExited container exitCode] := by
      obtain ⟨_, hsplit⟩ | ⟨_, hsplit⟩ | ⟨_, hsplit⟩ := (Step.posted_of_runs_main hrun).1 rfl
      · simp [hsplit]
      · simp [hsplit]
      · simpa using congrArg List.getLast? hsplit
    cases hs with
    | runContainer =>
      refine Bool.or_eq_true_iff.mpr (.inl (List.any_eq_true.mpr ⟨_, hposted _ hstarted rfl, ?_⟩))
      simp

/-- **What the work on a step posts is what its rule looks for.** A step that a rule has handed out
is worked on, with any replies and whenever the run is cancelled. If the work is completed, the rule
is over in any history that goes on from there and has what was posted, and what was posted is one
outcome of the step, with nothing before it but events on the way. If the work ends in any other
way, it has posted no outcome. -/
theorem outcome_of_ready (hready : r.evaluate h = .ready s)
    (hrun : (s.procedure existing).Runs posted ending) :
    (ending = .completed →
      (∀ h' : History, h <+: h' → (∀ e ∈ posted, e.isInformational = false → e ∈ h') →
        r.evaluate h' = .done) ∧
      (∃ way outcome, posted = way ++ [outcome] ∧ s.Outcome outcome ∧
        ∀ e ∈ way, s.OnTheWay e ∧ ¬ s.Outcome e) ∧
      ∀ container reference, s = .runContainer container reference true →
        (∃ exitCode, posted = [.containerStarted container, .containerExited container exitCode]) ∨
        (∃ message, posted = [.containerStarted container, .containerRunFailed container message]) ∨
        ∃ message, posted = [.containerRunFailed container message]) ∧
    (ending ≠ .completed → ∀ e ∈ posted, s.OnTheWay e ∧ ¬ s.Outcome e) := by
  have hs := standsFor_of_evaluate hready
  have hend := Step.comesTo_of_runs hrun
  constructor
  · rintro rfl
    refine ⟨fun h' _ hposted => ?_, ?_, fun container reference hmain => ?_⟩
    · exact evaluate_eq_done_iff.mpr (isOver_of_runs hs hrun hposted)
    · obtain ⟨way, outcome, rfl, hway, houtcome⟩ := hend.completed rfl
      exact ⟨way, outcome, rfl, houtcome, fun e he => ⟨hway e he, (hway e he).not_outcome⟩⟩
    · subst hmain
      exact (Step.posted_of_runs_main hrun).1 rfl
  · intro hne e he
    have hway := hend.otherwise hne e he
    exact ⟨hway, hway.not_outcome⟩

end Rule

/-- A runtime that answers at once, in which the main container exits with the code 3. -/
def Sample.serve : Service Unit := fun call state =>
  (match call with
  | .startContainer _ => ⟨[], .ok (), none⟩
  | .awaitExit _ => ⟨[], .ok 3, none⟩
  | _ => ⟨[], .failed "unknown", none⟩, state)

/-- The main container runs to its end, and its rule is over in the history that tells of it. If it
is given up while it runs, no outcome is posted. -/
theorem Rule.outcome_of_ready_main :
    (runContainer "app" true).evaluate [.containerCreated "app" ⟨"1", "app"⟩] =
      .ready (.runContainer "app" ⟨"1", "app"⟩ true) ∧
    ((Step.runContainer "app" ⟨"1", "app"⟩ true).procedure none).Runs
      [.containerStarted "app", .containerExited "app" 3] .completed ∧
    (runContainer "app" true).evaluate [.containerCreated "app" ⟨"1", "app"⟩,
      .containerStarted "app", .containerExited "app" 3] = .done ∧
    ((Step.runContainer "app" ⟨"1", "app"⟩ true).procedure none).Runs
      [.containerStarted "app"] .cancelled ∧
    ¬ (Step.runContainer "app" ⟨"1", "app"⟩ true).Outcome (.containerStarted "app") := by
  have hready : (runContainer "app" true).evaluate [.containerCreated "app" ⟨"1", "app"⟩] =
      .ready (.runContainer "app" ⟨"1", "app"⟩ true) := by decide
  have hrun : ((Step.runContainer "app" ⟨"1", "app"⟩ true).procedure none).Runs
      [.containerStarted "app", .containerExited "app" 3] .completed :=
    @Procedure.runs_of_turn Unit Sample.serve false () _ [] .completed .ended
  have hgiven : ((Step.runContainer "app" ⟨"1", "app"⟩ true).procedure none).Runs
      [.containerStarted "app"] .cancelled :=
    .otherwise (.call (List.forall_mem_nil _) (.ok ())
      (.post (.call (List.forall_mem_nil _) .cancelled .ended)))
  obtain ⟨hdone, -, -⟩ := (outcome_of_ready hready hrun).1 rfl
  refine ⟨hready, hrun, hdone _ ⟨_, rfl⟩ (by simp), hgiven, ?_⟩
  exact ((outcome_of_ready hready hgiven).2 (by decide) _ (List.mem_singleton_self _)).2

end ContainerTasks
