import ContainerTasks.Plan
import ContainerTasks.Procedure

/-!
# Duties

What a rule is for is its *duty*: to create this container, say, or to pull that image. A step that
is handed out for a rule has the duty of the rule, and so has every event that the work on the step
can post. So an event tells which step it comes from, as long as a plan has no two rules with the
same duty, and a rule is over only if an event of its own duty has happened.

The one exception is stopping: a container need not be stopped any more once it has come to its end
by itself or has been removed.

## Main definitions

* `Duty`, `Rule.duty`, `Step.duty`, `Event.duty?`
* `History.TellsOf`: something has happened about a duty
* `Rule.isOver`, `Rule.step?`, `Rule.isClear`: the three questions that a rule puts to a history
* `Rule.StandsFor`: which step a rule stands for
* `Procedure.CanPost`, `Procedure.CanCall`: what may come of the work on a step

## Main results

* `Rule.evaluate_eq`: what a rule says comes of the three questions
* `Rule.standsFor_of_evaluate`, `Rule.isClear_of_evaluate`: what is known of a rule that is ready
* `Rule.duty_of_evaluate`: a rule hands out a step of its own duty
* `Rule.tellsOf_of_isOver`: a rule that is over is over because of an event of its own duty
* `Step.duty_of_canPost`: the work on a step posts events of the duty of the step
-/

namespace ContainerTasks

/-- What a step is for. -/
inductive Duty where
  | prepareNetwork
  | build (container : String)
  | pull (imageName : String)
  | create (container : String)
  | run (container : String)
  | checkHealth (container : String)
  | setUp (container : String) (index : Nat)
  | markReady (container : String)
  | stop (container : String)
  | remove (container : String)
  | deleteNetwork
  deriving DecidableEq

namespace Duty

/-- The duties of the second stage. -/
def isCleanup : Duty → Bool
  | stop _ | remove _ | deleteNetwork => true
  | _ => false

/-- The container that a duty is about, if it is about one. -/
def container? : Duty → Option String
  | build c | create c | run c | checkHealth c | setUp c _ | markReady c | stop c | remove c =>
    some c
  | prepareNetwork | pull _ | deleteNetwork => none

end Duty

/-- What the rule is for. -/
def Rule.duty : Rule → Duty
  | prepareNetwork => .prepareNetwork
  | buildImage container => .build container.name
  | pullImage imageName _ => .pull imageName
  | createContainer container _ => .create container.name
  | runContainer container _ => .run container
  | awaitHealth container => .checkHealth container
  | runSetupCommand container _ index _ => .setUp container index
  | markReady container _ _ => .markReady container
  | stopContainer container _ _ => .stop container
  | removeContainer container _ _ => .remove container
  | deleteNetwork _ _ => .deleteNetwork

/-- What the step is for. -/
def Step.duty : Step → Duty
  | prepareNetwork => .prepareNetwork
  | buildImage container => .build container.name
  | pullImage imageName _ => .pull imageName
  | createContainer container _ _ => .create container.name
  | runContainer container _ _ => .run container
  | awaitHealth container _ => .checkHealth container
  | runSetupCommand container _ _ index => .setUp container index
  | markReady container => .markReady container
  | stopContainer container _ => .stop container
  | removeContainer container _ => .remove container
  | deleteNetwork _ => .deleteNetwork

/-- What the step was for that posts such an event. Any step may fail unexpectedly, an interrupt
comes from no step, and what is for the log alone is left out here. -/
def Event.duty? : Event → Option Duty
  | networkCreated _ | networkFound _ | networkCreationFailed _ | networkCheckFailed .. =>
    some .prepareNetwork
  | imageBuilt container _ | imageBuildFailed container _ => some (.build container)
  | imagePulled imageName _ | imagePullFailed imageName _ => some (.pull imageName)
  | containerCreated container _ | containerCreationFailed container _ => some (.create container)
  | containerStarted container | containerExited container _ | containerRunFailed container _ =>
    some (.run container)
  | containerHealthy container | containerUnhealthy container _ => some (.checkHealth container)
  | setupCommandStarted container _ index | setupCommandCompleted container index
  | setupCommandFailed container _ index _ _ | setupCommandError container _ index _ =>
    some (.setUp container index)
  | containerReady container => some (.markReady container)
  | containerStopped container | containerStopFailed container _ => some (.stop container)
  | containerRemoved container | containerRemovalFailed container _ => some (.remove container)
  | networkDeleted | networkDeletionFailed _ => some .deleteNetwork
  | stepStarting _ | imageBuildProgress .. | imagePullProgress .. | executionFailed _
  | interrupted => none

theorem Step.isCleanup_duty (s : Step) : s.duty.isCleanup = s.isCleanup := by
  cases s <;> rfl

theorem Event.duty?_eq_none_of_isInformational {e : Event} (h : e.isInformational = true) :
    e.duty? = none := by
  cases e <;> simp_all [isInformational, duty?]

theorem Event.duty?_failure (s : Step) (trouble : Trouble) : (s.failure trouble).duty? = none := rfl

/-! ### What a history tells of a duty -/

namespace History

/-- Something has happened about the duty. -/
def TellsOf (h : History) (d : Duty) : Prop := ∃ e ∈ h, e.duty? = some d

variable {h : History} {d : Duty}

theorem tellsOf_of_any {p : Event → Bool} (hp : ∀ e, p e = true → e.duty? = some d)
    (hh : h.any p = true) : h.TellsOf d := by
  obtain ⟨e, he, hpe⟩ := List.any_eq_true.mp hh
  exact ⟨e, he, hp e hpe⟩

theorem tellsOf_of_findSome? {α : Type} {f : Event → Option α}
    (hf : ∀ e a, f e = some a → e.duty? = some d) (hh : (h.findSome? f).isSome = true) :
    h.TellsOf d := by
  obtain ⟨a, ha⟩ := Option.isSome_iff_exists.mp hh
  obtain ⟨e, he, hfe⟩ := List.exists_of_findSome?_eq_some ha
  exact ⟨e, he, hf e a hfe⟩

end History

/-! ### Rules and their duties -/

namespace Rule

variable {r : Rule} {h : History} {s : Step}

/-- What a rule looks for first: whether its step has come to its end. -/
def isOver (r : Rule) (h : History) : Bool :=
  match r with
  | prepareNetwork => h.network?.isSome || h.networkPreparationFailed
  | buildImage container =>
    (h.builtImage? container.name).isSome || h.imageBuildFailed container.name
  | pullImage imageName _ => (h.pulledImage? imageName).isSome || h.imagePullFailed imageName
  | createContainer container _ =>
    (h.reference? container.name).isSome || h.creationFailed container.name
  | runContainer container _ => h.hasStarted container || h.runFailed container
  | awaitHealth container => h.isHealthy container || h.isUnhealthy container
  | runSetupCommand container _ index _ =>
    h.setupCompleted container index || h.setupFailed container index
  | markReady container _ _ => h.isReady container
  | stopContainer container _ _ =>
    h.isStopped container || h.stopFailed container || h.isRemoved container
  | removeContainer container _ _ => h.isRemoved container || h.removalFailed container
  | deleteNetwork _ _ => h.networkDeleted || h.networkDeletionFailed

/-- The step that a rule stands for, once all that it refers to is there. -/
def step? (r : Rule) (h : History) : Option Step :=
  match r with
  | prepareNetwork => some .prepareNetwork
  | buildImage container => some (.buildImage container)
  | pullImage imageName policy => some (.pullImage imageName policy)
  | createContainer container _ =>
    (h.imageOf? container).bind fun image => h.network?.map (.createContainer container image)
  | runContainer container main =>
    (h.reference? container).map (.runContainer container · main)
  | awaitHealth container => (h.reference? container).map (.awaitHealth container)
  | runSetupCommand container command index _ =>
    (h.reference? container).map (.runSetupCommand container · command index)
  | markReady container _ _ => some (.markReady container)
  | stopContainer container reference _ => some (.stopContainer container reference)
  | removeContainer container reference _ => some (.removeContainer container reference)
  | deleteNetwork network _ => some (.deleteNetwork network)

/-- Whether all that a rule waits for besides has happened. -/
def isClear (r : Rule) (h : History) : Bool :=
  match r with
  | prepareNetwork | buildImage _ | pullImage _ _ | runContainer _ _ => true
  | createContainer _ dependencies => dependencies.toList.all h.isReady
  | awaitHealth container => h.hasStarted container
  | runSetupCommand container _ index afterHealthCheck =>
    h.preparedUpTo container index afterHealthCheck
  | markReady container setupCommands healthCheck =>
    h.preparedUpTo container setupCommands healthCheck
  | stopContainer _ _ stopAfter => stopAfter.toList.all h.stopSettled
  | removeContainer container _ waitForStop => !waitForStop || h.stopSettled container
  | deleteNetwork _ containers => containers.all h.removalSettled

/-- What a rule says comes of three questions: whether its step is over, what the step is, and
whether it need not wait. -/
theorem evaluate_eq (r : Rule) (h : History) : r.evaluate h =
    if r.isOver h then .done else (r.step? h).elim .notReady (.readyIf (r.isClear h)) := by
  cases r with
  | createContainer container =>
    simp only [evaluate, isOver, step?, isClear]
    cases h.imageOf? container <;> cases h.network? <;> rfl
  | runContainer container | awaitHealth container | runSetupCommand container =>
    simp only [evaluate, isOver, step?, isClear]
    cases h.reference? container <;> rfl
  | _ => rfl

theorem evaluate_eq_done_iff : r.evaluate h = .done ↔ r.isOver h = true := by
  rw [evaluate_eq]
  cases r.isOver h <;> cases r.step? h <;> cases r.isClear h <;> simp [Readiness.readyIf]

theorem evaluate_eq_ready_iff : r.evaluate h = .ready s ↔
    r.isOver h = false ∧ r.step? h = some s ∧ r.isClear h = true := by
  rw [evaluate_eq]
  cases r.isOver h <;> cases r.step? h <;> cases r.isClear h <;> simp [Readiness.readyIf]

theorem evaluate_eq_notReady_iff : r.evaluate h = .notReady ↔
    r.isOver h = false ∧ (r.step? h = none ∨ r.isClear h = false) := by
  rw [evaluate_eq]
  cases r.isOver h <;> cases r.step? h <;> cases r.isClear h <;> simp [Readiness.readyIf]

theorem isClear_of_evaluate (hr : r.evaluate h = .ready s) : r.isClear h = true :=
  (evaluate_eq_ready_iff.mp hr).2.2

/-- Which step a rule stands for, and where what it refers to is taken from. -/
inductive StandsFor (h : History) : Rule → Step → Prop where
  | prepareNetwork : StandsFor h .prepareNetwork .prepareNetwork
  | buildImage {container : Container} : StandsFor h (.buildImage container) (.buildImage container)
  | pullImage {imageName : String} {policy : PullPolicy} :
    StandsFor h (.pullImage imageName policy) (.pullImage imageName policy)
  | createContainer {container : Container} {dependencies : NameSet} {image : ImageReference}
    {network : NetworkReference} (imaged : h.imageOf? container = some image)
    (connected : h.network? = some network) :
    StandsFor h (.createContainer container dependencies) (.createContainer container image network)
  | runContainer {container : String} {main : Bool} {reference : ContainerReference}
    (created : h.reference? container = some reference) :
    StandsFor h (.runContainer container main) (.runContainer container reference main)
  | awaitHealth {container : String} {reference : ContainerReference}
    (created : h.reference? container = some reference) :
    StandsFor h (.awaitHealth container) (.awaitHealth container reference)
  | runSetupCommand {container : String} {command : SetupCommand} {index : Nat} {healthCheck : Bool}
    {reference : ContainerReference} (created : h.reference? container = some reference) :
    StandsFor h (.runSetupCommand container command index healthCheck)
      (.runSetupCommand container reference command index)
  | markReady {container : String} {setupCommands : Nat} {healthCheck : Bool} :
    StandsFor h (.markReady container setupCommands healthCheck) (.markReady container)
  | stopContainer {container : String} {reference : ContainerReference} {stopAfter : NameSet} :
    StandsFor h (.stopContainer container reference stopAfter) (.stopContainer container reference)
  | removeContainer {container : String} {reference : ContainerReference} {waitForStop : Bool} :
    StandsFor h (.removeContainer container reference waitForStop)
      (.removeContainer container reference)
  | deleteNetwork {network : NetworkReference} {containers : List String} :
    StandsFor h (.deleteNetwork network containers) (.deleteNetwork network)

theorem standsFor_of_evaluate (hr : r.evaluate h = .ready s) : r.StandsFor h s := by
  have hstep := (evaluate_eq_ready_iff.mp hr).2.1
  cases r with
  | createContainer =>
    obtain ⟨image, himage, hstep⟩ := Option.bind_eq_some_iff.mp hstep
    obtain ⟨network, hnetwork, rfl⟩ := Option.map_eq_some_iff.mp hstep
    exact .createContainer himage hnetwork
  | runContainer | awaitHealth | runSetupCommand =>
    obtain ⟨reference, hcreated, rfl⟩ := Option.map_eq_some_iff.mp hstep
    constructor
    exact hcreated
  | _ =>
    cases hstep
    constructor

/-- A rule hands out a step of its own duty. -/
theorem duty_of_evaluate (hr : r.evaluate h = .ready s) : s.duty = r.duty := by
  cases standsFor_of_evaluate hr <;> rfl

/-- A rule that is over is over because of an event of its own duty. Only stopping may have become
needless. -/
theorem tellsOf_of_isOver (hr : r.isOver h = true) :
    h.TellsOf r.duty ∨
      ∃ c, r.duty = .stop c ∧ (h.isStopped c = true ∨ h.isRemoved c = true) := by
  cases r with
  | stopContainer c _ _ =>
    rcases Bool.or_eq_true_iff.mp hr with hr | hr
    · rcases Bool.or_eq_true_iff.mp hr with hr | hr
      · exact .inr ⟨c, rfl, .inl hr⟩
      · refine .inl (History.tellsOf_of_any ?_ hr)
        intro e he
        cases e <;> simp_all [Event.duty?, duty]
    · exact .inr ⟨c, rfl, .inr hr⟩
  | markReady c _ _ =>
    exact .inl (History.tellsOf_of_any (by intro e he; cases e <;> simp_all [Event.duty?, duty]) hr)
  | prepareNetwork | buildImage _ | pullImage _ _ | createContainer _ _ =>
    left
    rcases Bool.or_eq_true_iff.mp hr with hr | hr
    · refine History.tellsOf_of_findSome? ?_ hr
      intro e a he
      cases e <;> simp_all [Event.duty?, duty]
    · refine History.tellsOf_of_any ?_ hr
      intro e he
      cases e <;> simp_all [Event.duty?, duty]
  | runContainer _ _ | awaitHealth _ | runSetupCommand _ _ _ _ | removeContainer _ _ _
  | deleteNetwork _ _ =>
    left
    rcases Bool.or_eq_true_iff.mp hr with hr | hr <;>
      exact History.tellsOf_of_any (by intro e he; cases e <;> simp_all [Event.duty?, duty]) hr

end Rule

/-! ### What may come of the work on a step -/

namespace Procedure

/-- Whether some course of the procedure posts the event. -/
def CanPost (e : Event) : Procedure → Prop
  | ended _ => False
  | post event rest => e = event ∨ rest.CanPost e
  | check ifCancelled otherwise => ifCancelled.CanPost e ∨ otherwise.CanPost e
  | call c next => ∃ reply : Reply c.Value, (next reply).CanPost e

/-- Whether some course of the procedure makes the call. -/
def CanCall (c : Call) : Procedure → Prop
  | ended _ => False
  | post _ rest => rest.CanCall c
  | check ifCancelled otherwise => ifCancelled.CanCall c ∨ otherwise.CanCall c
  | call made next => c = made ∨ ∃ reply : Reply made.Value, (next reply).CanCall c

variable {c : Call} {e : Event} {ifOk : c.Value → Event} {ifFailed : String → Event}

theorem canPost_askAndPost (h : (askAndPost c ifOk ifFailed).CanPost e) :
    (∃ value, e = ifOk value) ∨ ∃ message, e = ifFailed message := by
  obtain ⟨reply, h⟩ := h
  cases reply <;> simp only [CanPost, done, or_false] at h
  · exact .inl ⟨_, h⟩
  · exact .inr ⟨_, h⟩

theorem canCall_askAndPost {made : Call} (h : (askAndPost c ifOk ifFailed).CanCall made) :
    made = c := by
  rcases h with h | ⟨reply, h⟩
  · exact h
  · cases reply <;> exact h.elim

end Procedure

/-- The work on a step posts events of the duty of the step. -/
theorem Step.duty_of_canPost {existing : Option String} {s : Step} {e : Event}
    (h : (s.procedure existing).CanPost e) : e.duty? = some s.duty := by
  cases s with
  | prepareNetwork =>
    obtain h | h := h
    · exact h.elim
    · cases existing <;> obtain ⟨_, rfl⟩ | ⟨_, rfl⟩ := Procedure.canPost_askAndPost h <;> rfl
  | createContainer =>
    obtain h | h := h
    · exact h.elim
    · obtain ⟨_, rfl⟩ | ⟨_, rfl⟩ := Procedure.canPost_askAndPost h <;> rfl
  | runContainer c reference main =>
    obtain h | ⟨reply, h⟩ := h
    · exact h.elim
    · cases reply with
      | ok value =>
        obtain rfl | h := h
        · rfl
        · cases main with
          | true => obtain ⟨_, rfl⟩ | ⟨_, rfl⟩ := Procedure.canPost_askAndPost h <;> rfl
          | false => exact h.elim
      | failed message =>
        obtain rfl | h := h
        · rfl
        · exact h.elim
      | cancelled | error | panicked => exact h.elim
  | runSetupCommand =>
    obtain rfl | h := h
    · rfl
    · obtain ⟨_, rfl⟩ | ⟨_, rfl⟩ := Procedure.canPost_askAndPost h
      · split <;> rfl
      · rfl
  | markReady =>
    obtain rfl | h := h
    · rfl
    · exact h.elim
  | buildImage | pullImage | awaitHealth | stopContainer | removeContainer | deleteNetwork =>
    obtain ⟨_, rfl⟩ | ⟨_, rfl⟩ := Procedure.canPost_askAndPost h <;> rfl

/-- The work on no step but that of running the main container tells of an exit code. -/
theorem Step.eq_of_canPost_exited {existing : Option String} {s : Step} {c : String}
    {exitCode : Int} (h : (s.procedure existing).CanPost (.containerExited c exitCode)) :
    ∃ reference, s = .runContainer c reference true := by
  have hduty := Step.duty_of_canPost h
  cases s <;> simp only [Event.duty?, Step.duty, Option.some.injEq, reduceCtorEq,
    Duty.run.injEq] at hduty
  next c' reference main =>
    subst hduty
    cases main with
    | true => exact ⟨reference, rfl⟩
    | false =>
      obtain h | ⟨reply, h⟩ := h
      · exact h.elim
      · cases reply <;> simp [Procedure.CanPost, Procedure.done] at h

/-- A container is created by no work but that on the step for it. -/
theorem Step.eq_of_canCall_createContainer {existing : Option String} {s : Step}
    {container : Container} {image : ImageReference} {network : NetworkReference}
    (h : (s.procedure existing).CanCall (.createContainer container image network)) :
    s = .createContainer container image network := by
  cases s with
  | prepareNetwork =>
    obtain h | h := h
    · exact h.elim
    · cases existing <;> cases Procedure.canCall_askAndPost h
  | createContainer =>
    obtain h | h := h
    · exact h.elim
    · cases Procedure.canCall_askAndPost h
      rfl
  | runContainer c reference main =>
    obtain h | h | ⟨reply, h⟩ := h
    · exact h.elim
    · cases h
    · cases reply with
      | ok value =>
        cases main with
        | true => cases Procedure.canCall_askAndPost h
        | false => exact h.elim
      | failed | cancelled | error | panicked => exact h.elim
  | markReady => exact h.elim
  | runSetupCommand | buildImage | pullImage | awaitHealth | stopContainer | removeContainer
  | deleteNetwork => cases Procedure.canCall_askAndPost h

end ContainerTasks
