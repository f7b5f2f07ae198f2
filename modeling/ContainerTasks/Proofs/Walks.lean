import ContainerTasks.Execution
import ContainerTasks.Proofs.Courses
import Mathlib.Data.List.Nodup

/-!
# Walks down the work on a step

A course tells which events were posted on the way down a procedure. A *walk* tells also what the
outside has seen of the calls that were made on the way: each began, and then it was answered or
abandoned. What is claimed of all walks down a procedure is proved once, by recursion on the tree.

The work on a step makes its calls in a fixed order, and whatever a call is answered, either one
event about it is posted, or the work ends with the error that was answered. So from what has been
seen of the calls one can tell what was posted, and the other way round.

## Main definitions

* `Procedure.Walk`
* `Procedure.Along`: a claim about each point of each walk
* `Step.calls`: the calls that the work on a step makes, in order
* `Step.report?`: the event about an answer
* `Step.Tells`: what was posted and seen on the way to a point

## Main results

* `Procedure.Walk.over_of_began`: a call that began is over
* `Step.tells`
-/

namespace ContainerTasks

namespace Happening

/-- The job that makes the call, if something is seen of a call. -/
def caller? : Happening → Option Nat
  | began job _ | answered job _ | abandoned job _ => some job
  | logged _ | reported .. => none

/-- The call that begins. -/
def begun? : Happening → Option Call
  | began _ c => some c
  | _ => none

/-- The call that was answered. -/
def answer? : Happening → Option Answer
  | answered _ answer => some answer
  | _ => none

variable (job : Nat) (c : Call) (a : Answer)

@[simp] theorem begun?_began : (began job c).begun? = some c := rfl

@[simp] theorem begun?_answered : (answered job a).begun? = none := rfl

@[simp] theorem begun?_abandoned : (abandoned job c).begun? = none := rfl

@[simp] theorem answer?_began : (began job c).answer? = none := rfl

@[simp] theorem answer?_answered : (answered job a).answer? = some a := rfl

@[simp] theorem answer?_abandoned : (abandoned job c).answer? = none := rfl

end Happening

/-- The operation was done. A command was run with success if its exit code is zero. -/
def Answer.isSuccess : Answer → Bool
  | ⟨.exec .., .ok result⟩ => result.exitCode = 0
  | ⟨_, .ok _⟩ => true
  | _ => false

namespace Procedure

/-- What has been gone down of a procedure by a job: the events posted, what was seen of the calls,
and what is left to do. A call that may be given up can be skipped or abandoned. -/
inductive Walk (job : Nat) (p : Procedure) : List Event → List Happening → Procedure → Prop where
  | refl : Walk job p [] [] p
  | post {posted : List Event} {seen : List Happening} {e : Event} {rest : Procedure}
    (h : Walk job p posted seen (.post e rest)) : Walk job p (posted ++ [e]) seen rest
  | ifCancelled {posted : List Event} {seen : List Happening} {ifCancelled otherwise : Procedure}
    (h : Walk job p posted seen (.check ifCancelled otherwise)) : Walk job p posted seen ifCancelled
  | otherwise {posted : List Event} {seen : List Happening} {ifCancelled otherwise : Procedure}
    (h : Walk job p posted seen (.check ifCancelled otherwise)) : Walk job p posted seen otherwise
  | skip {posted : List Event} {seen : List Happening} {c : Call} {next : Reply c.Value → Procedure}
    (h : Walk job p posted seen (.call c next)) (may : c.isAbandonable = true) :
    Walk job p posted seen (next .cancelled)
  | answer {posted : List Event} {seen : List Happening} {a : Answer}
    {next : Reply a.call.Value → Procedure} (h : Walk job p posted seen (.call a.call next)) :
    Walk job p posted (seen ++ [.began job a.call, .answered job a]) (next a.reply)
  | abandon {posted : List Event} {seen : List Happening} {c : Call}
    {next : Reply c.Value → Procedure} (h : Walk job p posted seen (.call c next))
    (may : c.isAbandonable = true) :
    Walk job p posted (seen ++ [.began job c, .abandoned job c]) (next .cancelled)

variable {job : Nat} {p rest : Procedure} {posted : List Event} {seen : List Happening} {c : Call}
  {a : Answer}

theorem Walk.course (h : p.Walk job posted seen rest) : p.Course posted rest := by
  induction h with
  | refl => exact .refl
  | post _ ih => exact ih.post
  | ifCancelled _ ih => exact ih.ifCancelled
  | otherwise _ ih => exact ih.otherwise
  | skip _ _ ih => exact ih.reply _
  | answer _ ih => exact ih.reply _
  | abandon _ _ ih => exact ih.reply _

/-- What was seen is about calls of the job. -/
theorem Walk.caller?_eq (h : p.Walk job posted seen rest) :
    ∀ e ∈ seen, e.caller? = some job := by
  induction h with
  | refl => exact fun _ he => by cases he
  | post _ ih | ifCancelled _ ih | otherwise _ ih | skip _ _ ih => exact ih
  | answer _ ih | abandon _ _ ih =>
    refine List.forall_mem_append.mpr ⟨ih, fun e he => ?_⟩
    rcases List.mem_cons.mp he with rfl | he
    · rfl
    · rcases List.mem_singleton.mp he with rfl
      rfl

theorem Walk.began_mem (h : p.Walk job posted seen rest)
    (hc : c ∈ seen.filterMap Happening.begun?) : .began job c ∈ seen := by
  obtain ⟨e, he, hbegun⟩ := List.mem_filterMap.mp hc
  have hcaller := h.caller?_eq e he
  cases e <;> simp only [Happening.begun?, Option.some.injEq, reduceCtorEq] at hbegun
  obtain rfl : _ = job := Option.some.inj hcaller
  exact hbegun ▸ he

/-- A call that began was answered, or it was abandoned. -/
theorem Walk.over_of_began (h : p.Walk job posted seen rest) (hc : .began job c ∈ seen) :
    (∃ a : Answer, a.call = c ∧ [.began job c, .answered job a].Sublist seen) ∨
      (c.isAbandonable = true ∧ [.began job c, .abandoned job c].Sublist seen) := by
  have hmono : ∀ {earlier more : List Happening},
      ((∃ a : Answer, a.call = c ∧ [.began job c, .answered job a].Sublist earlier) ∨
        (c.isAbandonable = true ∧ [.began job c, .abandoned job c].Sublist earlier)) →
      (∃ a : Answer, a.call = c ∧ [.began job c, .answered job a].Sublist (earlier ++ more)) ∨
        (c.isAbandonable = true ∧ [.began job c, .abandoned job c].Sublist (earlier ++ more)) :=
    fun hover => hover.imp (fun ⟨a, ha, hsub⟩ => ⟨a, ha, hsub.trans (List.sublist_append_left _ _)⟩)
      fun ⟨hmay, hsub⟩ => ⟨hmay, hsub.trans (List.sublist_append_left _ _)⟩
  induction h with
  | refl => cases hc
  | post _ ih | ifCancelled _ ih | otherwise _ ih | skip _ _ ih => exact ih hc
  | @answer _ _ a _ _ ih =>
    rcases List.mem_append.mp hc with hc | hc
    · exact hmono (ih hc)
    · obtain rfl : c = a.call := by simpa using hc
      exact .inl ⟨a, rfl, List.sublist_append_right _ _⟩
  | @abandon _ _ c' _ _ may ih =>
    rcases List.mem_append.mp hc with hc | hc
    · exact hmono (ih hc)
    · obtain rfl : c = c' := by simpa using hc
      exact .inr ⟨may, List.sublist_append_right _ _⟩

theorem Walk.isAbandonable_of_abandoned (h : p.Walk job posted seen rest)
    (hc : .abandoned job c ∈ seen) : c.isAbandonable = true := by
  induction h with
  | refl => cases hc
  | post _ ih | ifCancelled _ ih | otherwise _ ih | skip _ _ ih => exact ih hc
  | answer _ ih => exact (List.mem_append.mp hc).elim ih fun hc => by simp at hc
  | abandon _ may ih =>
    refine (List.mem_append.mp hc).elim ih fun hc => ?_
    obtain rfl : c = _ := by simpa using hc
    exact may

/-- What was answered began before, one call after the other. -/
theorem Walk.answers_sublist (h : p.Walk job posted seen rest) :
    ((seen.filterMap Happening.answer?).map (·.call)).Sublist
      (seen.filterMap Happening.begun?) := by
  induction h with
  | refl => exact .slnil
  | post _ ih | ifCancelled _ ih | otherwise _ ih | skip _ _ ih => exact ih
  | answer _ ih =>
    simp only [List.filterMap_append, List.map_append]
    exact ih.append (List.Sublist.refl [_])
  | abandon _ _ ih =>
    simp only [List.filterMap_append, List.map_append]
    exact ih.append (List.nil_sublist [_])

/-! ### Claims about all points of a walk -/

/-- The claim holds here and at each point of each walk from here on. -/
def Along (job : Nat) (claim : List Event → List Happening → Procedure → Prop)
    (posted : List Event) (seen : List Happening) : Procedure → Prop
  | ended ending => claim posted seen (.ended ending)
  | post e rest => claim posted seen (.post e rest) ∧ rest.Along job claim (posted ++ [e]) seen
  | check ifCancelled otherwise => claim posted seen (.check ifCancelled otherwise) ∧
    ifCancelled.Along job claim posted seen ∧ otherwise.Along job claim posted seen
  | call c next => claim posted seen (.call c next) ∧
    (c.isAbandonable = true → (next .cancelled).Along job claim posted seen ∧
      (next .cancelled).Along job claim posted (seen ++ [.began job c, .abandoned job c])) ∧
    ∀ reply, (next reply).Along job claim posted (seen ++ [.began job c, .answered job ⟨c, reply⟩])

variable {claim : List Event → List Happening → Procedure → Prop}

theorem Along.here (h : rest.Along job claim posted seen) : claim posted seen rest := by
  cases rest with
  | ended => exact h
  | post | check | call => exact h.1

theorem Walk.along (h : p.Walk job posted seen rest) (hp : p.Along job claim [] []) :
    rest.Along job claim posted seen := by
  induction h with
  | refl => exact hp
  | post _ ih => exact ih.2
  | ifCancelled _ ih => exact ih.2.1
  | otherwise _ ih => exact ih.2.2
  | skip _ may ih => exact (ih.2.1 may).1
  | @answer _ _ a _ _ ih => exact ih.2.2 a.reply
  | abandon _ may ih => exact (ih.2.1 may).2

/-- The events that come next, before anything else is done. -/
def upcoming : Procedure → List Event
  | post e rest => e :: rest.upcoming
  | ended _ | check .. | call .. => []

/-- The call that a procedure makes next. -/
def nextCall? : Procedure → Option Call
  | call c _ => some c
  | ended _ | post .. | check .. => none

end Procedure

/-! ### What the work on a step tells -/

/-- The event about a reply: a value and a failure that the runtime reports are told. -/
def Reply.event? {α : Type} (ifOk : α → Event) (ifFailed : String → Event) : Reply α → Option Event
  | ok value => some (ifOk value)
  | failed message => some (ifFailed message)
  | cancelled | error _ | panicked _ => none

/-- How the work ends after a reply, if nothing else goes wrong. -/
def Reply.ending {α : Type} : Reply α → Ending
  | ok _ | failed _ => .completed
  | cancelled => .cancelled
  | error trouble => .error trouble
  | panicked message => .panicked message

namespace Step

/-- The calls that the work on a step makes, in order, as long as none goes wrong. -/
def calls (existing : Option String) : Step → List Call
  | prepareNetwork =>
    match existing with
    | some identifier => [.findNetwork identifier]
    | none => [.createNetwork]
  | buildImage container => [.buildImage container]
  | pullImage imageName policy => [.pullImage imageName policy]
  | createContainer container image network => [.createContainer container image network]
  | runContainer _ reference main =>
    .startContainer reference :: if main then [.awaitExit reference] else []
  | awaitHealth _ reference => [.awaitHealth reference]
  | runSetupCommand _ reference command _ => [.exec reference command]
  | markReady _ => []
  | stopContainer _ reference => [.stopContainer reference]
  | removeContainer _ reference => [.removeContainer reference]
  | deleteNetwork network => [.deleteNetwork network]

theorem nodup_calls (s : Step) (existing : Option String) : (s.calls existing).Nodup := by
  cases s with
  | prepareNetwork => cases existing <;> exact List.nodup_singleton _
  | runContainer container reference main =>
    cases main with
    | true =>
      have : [Call.startContainer reference, .awaitExit reference].Nodup := by simp
      exact this
    | false => exact List.nodup_singleton _
  | markReady => exact List.nodup_nil
  | buildImage | pullImage | createContainer | awaitHealth | runSetupCommand | stopContainer
  | removeContainer | deleteNetwork => exact List.nodup_singleton _

/-- The events that the work on a step posts before any call. -/
def preamble : Step → List Event
  | runSetupCommand container _ command index =>
    [.setupCommandStarted container command.command index]
  | markReady container => [.containerReady container]
  | _ => []

theorem preamble_eq_nil {s : Step} (hs : s.isCleanup = true) : s.preamble = [] := by
  cases s <;> first | rfl | cases hs

/-- The event that the work on a step posts about an answer. -/
def report? : Step → Answer → Option Event
  | prepareNetwork, ⟨.createNetwork, reply⟩ =>
    reply.event? .networkCreated .networkCreationFailed
  | prepareNetwork, ⟨.findNetwork identifier, reply⟩ =>
    reply.event? .networkFound (.networkCheckFailed identifier)
  | buildImage container, ⟨.buildImage _, reply⟩ =>
    reply.event? (.imageBuilt container.name) (.imageBuildFailed container.name)
  | pullImage imageName _, ⟨.pullImage .., reply⟩ =>
    reply.event? (.imagePulled imageName) (.imagePullFailed imageName)
  | createContainer container _ _, ⟨.createContainer .., reply⟩ =>
    reply.event? (.containerCreated container.name) (.containerCreationFailed container.name)
  | runContainer container _ _, ⟨.startContainer _, reply⟩ =>
    reply.event? (fun _ => .containerStarted container) (.containerRunFailed container)
  | runContainer container _ _, ⟨.awaitExit _, reply⟩ =>
    reply.event? (.containerExited container) (.containerRunFailed container)
  | awaitHealth container _, ⟨.awaitHealth _, reply⟩ =>
    reply.event? (fun _ => .containerHealthy container) (.containerUnhealthy container)
  | runSetupCommand container _ command index, ⟨.exec .., reply⟩ =>
    reply.event?
      (fun result =>
        if result.exitCode = 0 then .setupCommandCompleted container index
        else .setupCommandFailed container command.command index result.exitCode result.output)
      (.setupCommandError container command.command index)
  | stopContainer container _, ⟨.stopContainer _, reply⟩ =>
    reply.event? (fun _ => .containerStopped container) (.containerStopFailed container)
  | removeContainer container _, ⟨.removeContainer _, reply⟩ =>
    reply.event? (fun _ => .containerRemoved container) (.containerRemovalFailed container)
  | deleteNetwork _, ⟨.deleteNetwork _, reply⟩ =>
    reply.event? (fun _ => .networkDeleted) .networkDeletionFailed
  | _, _ => none

/-- The events about answers that were seen. -/
def reports (s : Step) (seen : List Happening) : List Event :=
  seen.filterMap fun happening => happening.answer?.bind s.report?

@[simp] theorem reports_append (s : Step) (seen more : List Happening) :
    s.reports (seen ++ more) = s.reports seen ++ s.reports more :=
  List.filterMap_append

/-- What was posted and seen on the way to a point of the work on a step. -/
structure Tells (existing : Option String) (job : Nat) (s : Step) (posted : List Event)
    (seen : List Happening) (rest : Procedure) : Prop where
  /-- The calls are made in order. -/
  calls : seen.filterMap Happening.begun? ++ rest.nextCall?.toList <+: s.calls existing
  /-- All that was posted, or will be at once, is about the answers. -/
  posted_eq : posted ++ rest.upcoming = s.preamble ++ s.reports seen
  /-- An answer that is not told has ended the work. -/
  faulty : ∀ a, .answered job a ∈ seen → s.report? a = none → rest = .ended a.reply.ending
  /-- No call is made after one without success. -/
  heeds : rest.nextCall?.isSome = true → ∀ a, .answered job a ∈ seen → a.isSuccess = true

variable {existing : Option String} {job : Nat} {s : Step} {posted : List Event}
  {seen : List Happening} {rest : Procedure} {c : Call} {ifOk : c.Value → Event}
  {ifFailed : String → Event}

/-- Work that only posts from here on. -/
theorem tells_of_nextCall?_eq_none (hcalls : seen.filterMap Happening.begun? <+: s.calls existing)
    (hposted : posted ++ rest.upcoming = s.preamble ++ s.reports seen)
    (hfaulty : ∀ a, .answered job a ∈ seen → s.report? a = none → rest = .ended a.reply.ending)
    (hrest : rest.nextCall? = none) : s.Tells existing job posted seen rest where
  calls := by simpa [hrest] using hcalls
  posted_eq := hposted
  faulty := hfaulty
  heeds h := by simp [hrest] at h

/-- Making a call and telling its outcome, and going on if it had success. -/
theorem along_tells_ask {restOk : c.Value → Procedure}
    (hcalls : seen.filterMap Happening.begun? ++ [c] <+: s.calls existing)
    (hreport : ∀ reply, s.report? ⟨c, reply⟩ = reply.event? ifOk ifFailed)
    (hposted : posted = s.preamble ++ s.reports seen)
    (htold : ∀ a, .answered job a ∈ seen → (s.report? a).isSome = true ∧ a.isSuccess = true)
    (hquiet : ∀ value, (restOk value).upcoming = [])
    (hrest : ∀ value, (restOk value).Along job (s.Tells existing job) (posted ++ [ifOk value])
      (seen ++ [.began job c, .answered job ⟨c, .ok value⟩])) :
    (Procedure.ask c (fun value => .post (ifOk value) (restOk value))
      fun message => .post (ifFailed message) .done).Along job (s.Tells existing job) posted seen := by
  have hbefore : seen.filterMap Happening.begun? <+: s.calls existing :=
    (List.prefix_append _ _).trans hcalls
  have hnone : ∀ a, .answered job a ∈ seen → s.report? a ≠ none := fun a ha =>
    Option.isSome_iff_ne_none.mp (htold a ha).1
  -- what is seen of the call itself
  have hbegun : ∀ {happening : Happening}, happening.begun? = none →
      (seen ++ [.began job c, happening]).filterMap Happening.begun? <+: s.calls existing := by
    intro happening hover
    have hpair : [.began job c, happening].filterMap Happening.begun? = [c] := by
      simp [hover]
    rw [List.filterMap_append, hpair]
    exact hcalls
  have hanswered : ∀ reply, s.preamble ++ s.reports (seen ++ [.began job c,
      .answered job ⟨c, reply⟩]) = posted ++ (reply.event? ifOk ifFailed).toList := by
    intro reply
    rw [reports_append, ← List.append_assoc, ← hposted]
    congr 1
    simp only [reports, List.filterMap_cons, List.filterMap_nil, Happening.answer?_began,
      Happening.answer?_answered, Option.bind_none, Option.bind_some, hreport]
    cases reply.event? ifOk ifFailed <;> rfl
  have hfaulty : ∀ reply a, .answered job a ∈ seen ++ [.began job c, .answered job ⟨c, reply⟩] →
      s.report? a = none → a = ⟨c, reply⟩ := by
    intro reply a ha hreported
    rcases List.mem_append.mp ha with ha | ha
    · exact absurd hreported (hnone a ha)
    · simpa using ha
  refine ⟨⟨hcalls, by simp [Procedure.upcoming, hposted],
    fun a ha hreported => absurd hreported (hnone a ha), fun _ a ha => (htold a ha).2⟩,
    fun _ => ⟨?_, ?_⟩, fun reply => ?_⟩
  · exact tells_of_nextCall?_eq_none hbefore (by simp [Procedure.upcoming, hposted])
      (fun a ha hreported => absurd hreported (hnone a ha)) rfl
  · refine tells_of_nextCall?_eq_none (hbegun rfl) ?_ (fun a ha hreported => ?_) rfl
    · simp [Procedure.upcoming, hposted, reports, List.filterMap_cons]
    · exact absurd hreported (hnone a (by simpa using ha))
  · have hcall := @hbegun (.answered job ⟨c, reply⟩) rfl
    have hposts := hanswered reply
    have hends := hfaulty reply
    cases reply with
    | ok value =>
      refine ⟨tells_of_nextCall?_eq_none hcall ?_ (fun a ha hreported => ?_) rfl, hrest value⟩
      · rw [hposts, Procedure.upcoming, hquiet]
        rfl
      · rw [hends a ha hreported, hreport] at hreported
        cases hreported
    | failed message =>
      have htells : ∀ {later rest}, later ++ rest.upcoming = posted ++ [ifFailed message] →
          rest.nextCall? = none → s.Tells existing job later
            (seen ++ [.began job c, .answered job ⟨c, .failed message⟩]) rest := by
        intro later rest hlater hcallless
        refine tells_of_nextCall?_eq_none hcall (hlater.trans hposts.symm)
          (fun a ha hreported => ?_) hcallless
        rw [hends a ha hreported, hreport] at hreported
        cases hreported
      exact ⟨htells rfl rfl, htells (List.append_nil _) rfl⟩
    | cancelled | error | panicked =>
      refine tells_of_nextCall?_eq_none hcall (hposts.symm) (fun a ha hreported => ?_) rfl
      rw [hends a ha hreported]
      rfl

/-- Making one last call and telling its outcome. -/
theorem along_tells_askAndPost
    (hcalls : seen.filterMap Happening.begun? ++ [c] <+: s.calls existing)
    (hreport : ∀ reply, s.report? ⟨c, reply⟩ = reply.event? ifOk ifFailed)
    (hposted : posted = s.preamble ++ s.reports seen)
    (htold : ∀ a, .answered job a ∈ seen → (s.report? a).isSome = true ∧ a.isSuccess = true) :
    (Procedure.askAndPost c ifOk ifFailed).Along job (s.Tells existing job) posted seen := by
  refine along_tells_ask hcalls hreport hposted htold (fun _ => rfl) fun value => ?_
  refine tells_of_nextCall?_eq_none ?_ ?_ (fun a ha hreported => ?_) rfl
  · simpa [List.filterMap_cons] using hcalls
  · simp [Procedure.upcoming, hposted, reports, List.filterMap_cons, hreport, Reply.event?]
  · rcases List.mem_append.mp ha with ha | ha
    · rw [Option.eq_none_iff_forall_ne_some] at hreported
      obtain ⟨e, he⟩ := Option.isSome_iff_exists.mp (htold a ha).1
      exact absurd he (hreported e)
    · obtain rfl : a = ⟨c, .ok value⟩ := by simpa using ha
      rw [hreport] at hreported
      cases hreported

/-- At the beginning nothing was posted or seen. -/
theorem tells_of_nil (hupcoming : rest.upcoming = s.preamble) (hrest : rest.nextCall? = none) :
    s.Tells existing job [] [] rest :=
  tells_of_nextCall?_eq_none (List.nil_prefix) (by simpa [reports] using hupcoming)
    (fun _ ha => by cases ha) hrest

/-- All of the work on a step tells what was posted from what was seen. -/
theorem tells (s : Step) (existing : Option String) (job : Nat) :
    (s.procedure existing).Along job (s.Tells existing job) [] [] := by
  have hcancelled : s.preamble = [] → s.Tells existing job [] [] (.ended .cancelled) :=
    fun hpreamble => tells_of_nil (Eq.symm hpreamble) rfl
  have hnil : ∀ a, .answered job a ∈ ([] : List Happening) →
      (s.report? a).isSome = true ∧ a.isSuccess = true := fun _ ha => by cases ha
  cases s with
  | prepareNetwork =>
    refine ⟨tells_of_nil rfl rfl, hcancelled rfl, ?_⟩
    cases existing <;>
      exact along_tells_askAndPost List.prefix_rfl (fun _ => rfl) rfl hnil
  | createContainer =>
    exact ⟨tells_of_nil rfl rfl, hcancelled rfl,
      along_tells_askAndPost List.prefix_rfl (fun _ => rfl) rfl hnil⟩
  | runContainer container reference main =>
    refine ⟨tells_of_nil rfl rfl, hcancelled rfl, ?_⟩
    cases main with
    | true =>
      refine along_tells_ask ⟨[.awaitExit reference], rfl⟩ (fun _ => rfl) rfl hnil (fun _ => rfl)
        fun _ => ?_
      refine along_tells_askAndPost List.prefix_rfl (fun _ => rfl) rfl fun a ha => ?_
      obtain rfl : a = ⟨.startContainer reference, .ok ()⟩ := by simpa using ha
      exact ⟨rfl, rfl⟩
    | false => exact along_tells_askAndPost List.prefix_rfl (fun _ => rfl) rfl hnil
  | markReady =>
    refine ⟨tells_of_nil rfl rfl, tells_of_nextCall?_eq_none List.prefix_rfl rfl ?_ rfl⟩
    exact fun _ ha => by cases ha
  | runSetupCommand =>
    exact ⟨tells_of_nil rfl rfl, along_tells_askAndPost List.prefix_rfl (fun _ => rfl) rfl hnil⟩
  | buildImage | pullImage | awaitHealth | stopContainer | removeContainer | deleteNetwork =>
    exact along_tells_askAndPost List.prefix_rfl (fun _ => rfl) rfl hnil

end Step

end ContainerTasks
