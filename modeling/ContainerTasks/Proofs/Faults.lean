import ContainerTasks.Proofs.Cancellation

/-!
# What becomes of unexpected errors

The runtime answers a call with a value, with a failure that it reports, with an error that nobody
expected, or not at all because the call came to a sudden end. A reported failure is an event of the
step, and the work goes on to its end. The last two end the work, and they are a *fault* of the job
unless a cancellation lies somewhere behind the error.

A job with a fault says so in one event, which names the kind of the step and all causes, and reports
the fault once; both before the step is handed back. Nobody else posts such an event or reports
anything. So the failures on record and the reports are those of the jobs that have got so far.

## Main definitions

* `Ending.Fails`: which endings are faults
* `Job.fault?`, `Job.recorded?`, `Job.reported?`
* `Ledger.Tallied`: the invariant that ties the failures and the reports to the jobs

## Main results

* `Step.blames`: work that fails was told to by an answer
* `Ledger.Tallied.effect`: one effect
* `Ledger.Traced.fault?_eq_some_iff`: the fault of a job is what an answer has told
* `Execution.Manages.tallied`: all along a managed run
-/

namespace ContainerTasks

/-! ### Faults -/

/-- The work has ended in an error that nobody expected: a sudden end, or an error with no
cancellation among its causes. -/
inductive Ending.Fails : Ending → Trouble → Prop where
  | error {trouble : Trouble} (unexpected : .cancellation ∉ trouble.causes) :
    Fails (.error trouble) trouble
  | panicked (message : Option String) : Fails (.panicked message)
    ⟨.text ("step runner panicked: " ++ message.getD "unknown panic"), []⟩

theorem Ending.trouble?_eq_some_iff {ending : Ending} {trouble : Trouble} :
    ending.trouble? = some trouble ↔ ending.Fails trouble := by
  constructor
  · intro h
    cases ending with
    | completed => cases h
    | panicked message =>
      cases h
      exact .panicked message
    | error trouble' =>
      simp only [trouble?, Option.ite_none_left_eq_some, Option.some.injEq] at h
      obtain ⟨hunexpected, rfl⟩ := h
      exact .error (by simpa [Trouble.isCancellation] using hunexpected)
  · rintro (⟨hunexpected⟩ | -)
    · simp [trouble?, Trouble.isCancellation, hunexpected]
    · rfl

/-- Causes are texts, unless one of them is a cancellation. -/
theorem Cause.exists_texts {causes : List Cause} (h : .cancellation ∉ causes) :
    ∃ messages : List String, causes = messages.map .text := by
  induction causes with
  | nil => exact ⟨[], rfl⟩
  | cons cause causes ih =>
    rw [List.mem_cons, not_or] at h
    obtain ⟨messages, rfl⟩ := ih h.2
    cases cause with
    | text message => exact ⟨message :: messages, rfl⟩
    | cancellation => exact absurd rfl h.1

theorem Ending.Fails.exists_texts {ending : Ending} {trouble : Trouble}
    (h : ending.Fails trouble) : ∃ messages : List String, trouble.causes = messages.map .text := by
  cases h with
  | error unexpected => exact Cause.exists_texts unexpected
  | panicked message => exact ⟨[_], rfl⟩

/-- Whether an event tells of an unexpected error. -/
def Event.isExecutionFailed : Event → Bool
  | executionFailed _ => true
  | _ => false

/-- The job that reports an unexpected error, with the error. -/
def Happening.report? : Happening → Option (Nat × Trouble)
  | reported job trouble => some (job, trouble)
  | logged _ | began .. | answered .. | abandoned .. => none

namespace Job

/-- The unexpected error in which the work of the job has ended. -/
def fault? (j : Job) : Option Trouble := j.ending.bind Ending.trouble?

theorem fault?_eq_some_iff {j : Job} {trouble : Trouble} : j.fault? = some trouble ↔
    ∃ ending, j.ending = some ending ∧ ending.Fails trouble := by
  simp only [fault?, Option.bind_eq_some_iff, Ending.trouble?_eq_some_iff]

/-- The failure of the job, if it was recorded. -/
def recorded? (j : Job) : Option Event :=
  match j.phase with
  | .reporting _ | .leaving | .released | .gone => j.fault?.map j.step.failure
  | .handed | .arriving | .inLine | .admitted | .working _ | .calling .. | .failing _ => none

/-- The fault of the job, if it was reported. -/
def reported? (j : Job) : Option Trouble :=
  match j.phase with
  | .leaving | .released | .gone => j.fault?
  | .handed | .arriving | .inLine | .admitted | .working _ | .calling .. | .failing _
  | .reporting _ => none

variable {existing : Option String} {cancelled : Bool} {index : Nat} {j j' : Job}
  {history : History} {trace seen : List Happening} {posted : List Event}

theorem recorded?_of_isGone (hgone : j.isGone = true) :
    j.recorded? = j.fault?.map j.step.failure := by
  obtain ⟨s, phase, o⟩ := j
  cases phase <;> first | rfl | cases hgone

theorem reported?_of_isGone (hgone : j.isGone = true) : j.reported? = j.fault? := by
  obtain ⟨s, phase, o⟩ := j
  cases phase <;> first | rfl | cases hgone

/-- A job that glides records nothing, and has no fault that it could leave out. -/
theorem Glides.recorded?_eq (on : j.Glides existing cancelled index j' seen)
    (hfollows : j.Follows existing posted) : j'.recorded? = j.recorded? := by
  cases on with
  | giveUp =>
    obtain rfl : _ = none := hfollows.2
    rfl
  | settle quiet => simp [recorded?, fault?, quiet]
  | _ => rfl

/-- A job that glides past its report has reported its fault. -/
theorem Glides.reported?_eq (on : j.Glides existing cancelled index j' seen)
    (hfollows : j.Follows existing posted) (hfrank : j.Frank index history trace) :
    (j'.reported?.map (Prod.mk index)).toList =
      (j.reported?.map (Prod.mk index)).toList ++ seen.filterMap Happening.report? := by
  cases on with
  | giveUp =>
    obtain rfl : _ = none := hfollows.2
    rfl
  | settle quiet => simp [reported?, fault?, quiet]
  | @report s o trouble =>
    have hfault : o.bind Ending.trouble? = some trouble := hfrank.2.1
    simp [reported?, fault?, hfault, Happening.report?]
  | release => simp [reported?, fault?]
  | _ => rfl

end Job

/-! ### Who is to blame -/

namespace Procedure

/-- If the work has failed, an answer has told it to. -/
def Blames (job : Nat) (seen : List Happening) (rest : Procedure) : Prop :=
  ∀ ending trouble, rest = .ended ending → ending.trouble? = some trouble →
    ∃ a, .answered job a ∈ seen ∧ a.reply.ending = ending

variable {job : Nat} {posted : List Event} {seen : List Happening} {c : Call}

theorem blames_of_quiet {ending : Ending} (hquiet : ending.trouble? = none) :
    Blames job seen (.ended ending) := by
  intro ending' trouble heq hloud
  cases heq
  rw [hquiet] at hloud
  cases hloud

theorem blames_of_answered {a : Answer} (ha : .answered job a ∈ seen) :
    Blames job seen (.ended a.reply.ending) := by
  intro ending trouble heq _
  cases heq
  exact ⟨a, ha, rfl⟩

theorem along_blames_post {e : Event} {rest : Procedure}
    (hrest : rest.Along job (fun _ => Blames job) (posted ++ [e]) seen) :
    (post e rest).Along job (fun _ => Blames job) posted seen :=
  ⟨nofun, hrest⟩

theorem along_blames_unlessCancelled {rest : Procedure}
    (hrest : rest.Along job (fun _ => Blames job) posted seen) :
    (unlessCancelled rest).Along job (fun _ => Blames job) posted seen :=
  ⟨nofun, blames_of_quiet rfl, hrest⟩

theorem along_blames_ask {ifOk : c.Value → Procedure} {ifFailed : String → Procedure}
    (hok : ∀ value seen, (ifOk value).Along job (fun _ => Blames job) posted seen)
    (hfailed : ∀ message seen, (ifFailed message).Along job (fun _ => Blames job) posted seen) :
    (ask c ifOk ifFailed).Along job (fun _ => Blames job) posted seen := by
  refine ⟨nofun, fun _ => ⟨blames_of_quiet rfl, blames_of_quiet rfl⟩, fun reply => ?_⟩
  have hanswered : .answered job ⟨c, reply⟩ ∈ seen ++ [.began job c, .answered job ⟨c, reply⟩] := by
    simp
  cases reply with
  | ok value => exact hok value _
  | failed message => exact hfailed message _
  | cancelled | error | panicked => exact blames_of_answered hanswered

theorem along_blames_askAndPost {ifOk : c.Value → Event} {ifFailed : String → Event} :
    (askAndPost c ifOk ifFailed).Along job (fun _ => Blames job) posted seen :=
  along_blames_ask (fun _ _ => along_blames_post (blames_of_quiet rfl))
    fun _ _ => along_blames_post (blames_of_quiet rfl)

end Procedure

open Procedure in
/-- Work that fails was told to by an answer. -/
theorem Step.blames (s : Step) (existing : Option String) (job : Nat) :
    (s.procedure existing).Along job (fun _ => Blames job) [] [] := by
  cases s with
  | prepareNetwork =>
    refine along_blames_unlessCancelled ?_
    cases existing <;> exact along_blames_askAndPost
  | createContainer => exact along_blames_unlessCancelled along_blames_askAndPost
  | runContainer container reference main =>
    refine along_blames_unlessCancelled (along_blames_ask (fun _ _ => ?_) fun _ _ => ?_)
    · refine along_blames_post ?_
      cases main with
      | true => exact along_blames_askAndPost
      | false => exact blames_of_quiet rfl
    · exact along_blames_post (blames_of_quiet rfl)
  | runSetupCommand => exact along_blames_post along_blames_askAndPost
  | markReady => exact along_blames_post (blames_of_quiet rfl)
  | buildImage | pullImage | awaitHealth | stopContainer | removeContainer | deleteNetwork =>
    exact along_blames_askAndPost

/-- No event of the step tells of an answer that has ended the work. -/
theorem Step.report?_eq_none {s : Step} {a : Answer} (ha : a.reply.ending ≠ .completed) :
    s.report? a = none := by
  have hevent : ∀ {α : Type} (reply : Reply α) (ifOk : α → Event) (ifFailed : String → Event),
      reply.ending ≠ .completed → reply.event? ifOk ifFailed = none := by
    intro α reply ifOk ifFailed h
    cases reply <;> first | rfl | exact absurd rfl h
  unfold Step.report?
  split <;> first | rfl | exact hevent _ _ _ ha

/-! ### The failures on record and the reports -/

/-- One more part of a whole goes to one of the shares. -/
theorem perm_append_share {α : Type} {whole front share back more : List α}
    (h : whole.Perm (front ++ (share ++ back))) :
    (whole ++ more).Perm (front ++ ((share ++ more) ++ back)) := by
  refine (h.append_right more).trans ?_
  rw [List.append_assoc, List.append_assoc, List.append_assoc]
  exact .append_left front (.append_left share List.perm_append_comm)

namespace Ledger

variable {existing : Option String} {g : Graph} {policy : CleanupPolicy} {l l' : Ledger}
  {cancelled : Bool} {i : Nat} {j : Job} {trouble : Trouble}

/-- The failures on record, and the reports that were seen, are those of the jobs. -/
structure Tallied (l : Ledger) : Prop where
  recorded : (l.machine.history.filter Event.isExecutionFailed).Perm
    (l.jobs.filterMap Job.recorded?)
  reported : (l.trace.filterMap Happening.report?).Perm
    (l.jobs.zipIdx.filterMap fun p => p.1.reported?.map (Prod.mk p.2))

/-- One job goes on, and what is recorded and reported is its failure and its fault. -/
theorem Tallied.of_job {m m' : Machine} {front back : List Job} {j j' : Job}
    {trace seen : List Happening} {events : List Event}
    (hl : Tallied ⟨m, front ++ j :: back, trace⟩) (hhistory : m'.history = m.history ++ events)
    (hrecorded : j'.recorded?.toList = j.recorded?.toList ++ events.filter Event.isExecutionFailed)
    (hreported : (j'.reported?.map (Prod.mk front.length)).toList =
      (j.reported?.map (Prod.mk front.length)).toList ++ seen.filterMap Happening.report?) :
    Tallied ⟨m', front ++ j' :: back, trace ++ seen⟩ where
  recorded := by
    have hsplit : ∀ k : Job, (front ++ k :: back).filterMap Job.recorded? =
        front.filterMap Job.recorded? ++ (k.recorded?.toList ++ back.filterMap Job.recorded?) := by
      intro k
      rw [List.filterMap_append, List.filterMap_cons]
      cases k.recorded? <;> rfl
    have hbefore : (m.history.filter _).Perm ((front ++ j :: back).filterMap _) := hl.recorded
    show (m'.history.filter _).Perm ((front ++ j' :: back).filterMap _)
    rw [hsplit] at hbefore ⊢
    rw [hhistory, List.filter_append, hrecorded]
    exact perm_append_share hbefore
  reported := by
    let f (p : Job × Nat) : Option (Nat × Trouble) := p.1.reported?.map (Prod.mk p.2)
    have hsplit : ∀ k : Job, (front ++ k :: back).zipIdx.filterMap f = front.zipIdx.filterMap f ++
        ((f (k, front.length)).toList ++ (back.zipIdx (front.length + 1)).filterMap f) := by
      intro k
      rw [List.zipIdx_append, List.zipIdx_cons, List.filterMap_append, List.filterMap_cons,
        Nat.zero_add]
      cases f (k, front.length) <;> rfl
    have hbefore : (trace.filterMap _).Perm ((front ++ j :: back).zipIdx.filterMap f) := hl.reported
    show ((trace ++ seen).filterMap _).Perm ((front ++ j' :: back).zipIdx.filterMap f)
    rw [hsplit] at hbefore ⊢
    rw [List.filterMap_append, show (f (j', front.length)).toList = _ from hreported]
    exact perm_append_share hbefore

theorem Tallied.of_silent_job {m m' : Machine} {front back : List Job} {j j' : Job}
    {trace : List Happening} {events : List Event}
    (hl : Tallied ⟨m, front ++ j :: back, trace⟩) (hhistory : m'.history = m.history ++ events)
    (hrecorded : j'.recorded?.toList = j.recorded?.toList ++ events.filter Event.isExecutionFailed)
    (hreported : j'.reported? = j.reported?) : Tallied ⟨m', front ++ j' :: back, trace⟩ := by
  have hkept : Tallied ⟨m', front ++ j' :: back, trace ++ []⟩ :=
    hl.of_job hhistory hrecorded (by simp [hreported])
  rwa [List.append_nil] at hkept

/-- The event of a step is none about an unexpected error. -/
theorem Sound.isExecutionFailed_eq_false {rest : Procedure} {e : Event} {s : Step}
    {o : Option Ending} (hl : l.Sound existing g policy)
    (hj : ⟨s, .working (.post e rest), o⟩ ∈ l.jobs) : e.isExecutionFailed = false := by
  have hmay := (hl.follows _ hj).post.1
  cases e <;> first | rfl | skip
  rcases hmay with hlog | hpost
  · cases hlog
  · cases Step.duty_of_canPost hpost

theorem Tallied.effect (hl : l.Tallied) (hsound : l.Sound existing g policy) (hfrank : l.Frank)
    (h : l.Effect existing cancelled l') : l'.Tallied := by
  cases h with
  | advance ends => exact ⟨ends.history_eq ▸ hl.recorded, hl.reported⟩
  | interrupt =>
    refine ⟨?_, hl.reported⟩
    simpa [Event.isExecutionFailed] using hl.recorded
  | log =>
    refine ⟨hl.recorded, ?_⟩
    rw [List.filterMap_append]
    exact (List.append_nil _).symm ▸ hl.reported
  | handOut =>
    refine ⟨?_, ?_⟩
    · rw [List.filterMap_append]
      exact (List.append_nil (List.filterMap Job.recorded? _)).symm ▸ hl.recorded
    · rw [List.zipIdx_append, List.filterMap_append]
      exact (List.append_nil (List.filterMap _ (List.zipIdx _))).symm ▸ hl.reported
  | @glide m front back j j' trace seen on =>
    have hfollows := hsound.follows j (by simp)
    have hj := hfrank front.length j (getElem?_length_append ..)
    refine hl.of_job (List.append_nil _).symm ?_ (on.reported?_eq hfollows hj)
    rw [on.recorded?_eq hfollows]
    exact (List.append_nil _).symm
  | @drop m front back s o trace =>
    obtain rfl : o = none := (hsound.follows ⟨s, .handed, o⟩ (by simp)).2
    exact hl.of_silent_job (List.append_nil _).symm rfl rfl
  | handBack => exact hl.of_silent_job (List.append_nil _).symm (List.append_nil _).symm rfl
  | @record m front back s o e rest trace =>
    have hother : e.isExecutionFailed = false :=
      hsound.isExecutionFailed_eq_false (List.mem_append_right front (List.mem_cons_self ..))
    exact hl.of_silent_job (Machine.history_post ..) (by simp [Job.recorded?, hother]) rfl
  | @recordFailure m front back s o trouble trace =>
    have hfault : o.bind Ending.trouble? = some trouble :=
      (hfrank front.length _ (getElem?_length_append ..)).2
    have hrecorded : Job.recorded? ⟨s, .reporting trouble, o⟩ = some (s.failure trouble) := by
      rw [Job.recorded?, Job.fault?, hfault]
      rfl
    exact hl.of_silent_job (Machine.history_post ..) (by rw [hrecorded]; rfl) rfl

/-- The fault of a job that is over is what an answer has told. -/
theorem Traced.fault?_eq_some_iff (hl : l.Traced existing) (hj : l.jobs[i]? = some j)
    (hgone : j.isGone = true) : j.fault? = some trouble ↔
      ∃ a, .answered i a ∈ l.trace ∧ a.reply.ending.trouble? = some trouble := by
  have haccounts := hl.accounts i j hj
  obtain ⟨s, phase, o⟩ := j
  cases phase <;> simp only [Job.isGone, Bool.false_eq_true] at hgone
  rcases haccounts with ⟨ending, ho, hw⟩ | ⟨⟨-, hnil⟩, ho, -⟩
  · obtain rfl : o = some ending := ho
    constructor
    · intro hfault
      obtain ⟨a, ha, rfl⟩ := (hw.along (s.blames existing i)).here ending trouble rfl hfault
      exact ⟨a, (List.mem_filter.mp ha).1, hfault⟩
    · rintro ⟨a, ha, hloud⟩
      have hseen : .answered i a ∈ l.seen i := List.mem_filter.mpr ⟨ha, decide_eq_true rfl⟩
      have hsilent : s.report? a = none := Step.report?_eq_none fun hcompleted => by
        rw [hcompleted] at hloud
        cases hloud
      have hended := (hw.along (s.tells existing i)).here.faulty a hseen hsilent
      obtain rfl : ending = a.reply.ending := by simpa using hended
      exact hloud
  · obtain rfl : o = none := ho
    refine ⟨fun hfault => absurd hfault (by simp [Job.fault?]), ?_⟩
    rintro ⟨a, ha, -⟩
    have hseen : .answered i a ∈ l.seen i := List.mem_filter.mpr ⟨ha, decide_eq_true rfl⟩
    rw [hnil] at hseen
    cases hseen

end Ledger

namespace Execution

theorem Manages.tallied {existing : Option String} {g : Graph} {policy : CleanupPolicy}
    {x : Execution} (h : x.Manages existing g policy) : x.ledger.Tallied :=
  (h.induction (P := fun l => l.Frank ∧ l.Tallied) ⟨fun i j hj => by simp at hj, .nil, .nil⟩
    fun _ _ _ hl hP heffect =>
      ⟨hP.1.effect hl heffect, hP.2.effect hl hP.1 heffect⟩).2

end Execution

end ContainerTasks
