import ContainerTasks.Proofs.Faults
import ContainerTasks.Proofs.Logbooks
import ContainerTasks.Proofs.Wordings

/-!
# How faults are told of

The failures on record are those of the jobs with a fault, but a failure does not tell which job it is
of: two steps of one kind may fail in the same way. So for each job what it logs is followed along the
moves of a run. Over some moves a job logs what it has logged after them and had not before; from the
beginning until the step is handed back, that is one failure if the job has a fault, and else none.

## Main definitions

* `Execution.sayings`: the failures that a job logs over some moves
* `Execution.said?`: the failure that a job has logged
* `Execution.TellsFaults`

## Main results

* `Execution.Manages.said?_of_after?`: what is logged over some moves has been logged after them
* `Execution.Manages.tellsFaults`
-/

namespace ContainerTasks

namespace Execution

variable {existing : Option String} {g : Graph} {policy : CleanupPolicy} {x y : Execution}
  {move : Move} {job i : Nat} {j : Job}

/-! ### Failures in the log -/

/-- Only a job with a fault posts an event about an unexpected error. -/
theorem Manages.exists_of_failing (h : x.Manages existing g policy) {poster : Poster} {e : Event}
    (hnext : x.nextPost? poster = some e) (he : e.isExecutionFailed = true) :
    ∃ i j trouble, poster = .job i ∧ x.jobs[i]? = some j ∧ j.phase = .failing trouble ∧
      j.fault? = some trouble ∧ e = j.step.failure trouble := by
  cases poster with
  | watcher =>
    rw [eq_interrupted_of_nextPost? hnext] at he
    cases he
  | job i =>
    obtain ⟨⟨s, phase, o⟩, phase', hj, hpost⟩ := exists_of_nextPost? hnext
    obtain ⟨rest, rfl, -⟩ | ⟨trouble, rfl, -, rfl⟩ := cases_of_nextPost? hpost
    · have hother : e.isExecutionFailed = false :=
        h.sound.ledger.isExecutionFailed_eq_false (List.mem_of_getElem? hj)
      rw [hother] at he
      cases he
    · exact ⟨i, _, trouble, rfl, hj, rfl, (h.frank i _ hj).2, rfl⟩

/-- Whoever logs an event about an unexpected error is a job with a fault. -/
theorem Manages.exists_of_logged (h : x.Manages existing g policy) (hm : x.Takes move y)
    {message : String} (hlogged : y.trace = x.trace ++ [.logged (.executionFailed message)]) :
    ∃ i j trouble, move = .log (.job i) ∧ x.jobs[i]? = some j ∧ j.phase = .failing trouble ∧
      j.fault? = some trouble ∧ .executionFailed message = j.step.failure trouble := by
  cases hm with
  | @log poster e free next =>
    obtain rfl : e = .executionFailed message := by simpa [saw] using hlogged
    obtain ⟨i, j, trouble, rfl, hfailing⟩ := h.exists_of_failing next rfl
    exact ⟨i, j, trouble, rfl, hfailing⟩
  | mention on free forLog =>
    obtain rfl : _ = Event.executionFailed message := by simpa [setPhase, saw] using hlogged
    cases forLog
  | progress on free tells =>
    obtain rfl : _ = Event.executionFailed message := by simpa [saw] using hlogged
    cases Call.isInformational_of_progress? tells
  | _ => simp [setPhase, setEnding, saw, handBack] at hlogged

/-- The failures that were logged are those on record, but for one that a job has just logged. -/
theorem Manages.failures_logged (h : x.Manages existing g policy) :
    ∃ pending, x.logbook.filter Event.isExecutionFailed =
      x.machine.history.filter Event.isExecutionFailed ++ pending ∧
        (pending = [] ∨ ∃ i j trouble, x.posting = some (.job i) ∧ x.jobs[i]? = some j ∧
          j.phase = .failing trouble ∧ pending = [j.step.failure trouble]) := by
  have hheard : ∀ events : History,
      (History.heard events).filter Event.isExecutionFailed =
        events.filter Event.isExecutionFailed := by
    intro events
    rw [History.heard, List.filter_filter]
    refine List.filter_congr fun e _ => ?_
    cases e <;> rfl
  cases hposting : x.posting with
  | none => exact ⟨[], by rw [← h.agrees.of_free hposting, hheard, List.append_nil], .inl rfl⟩
  | some poster =>
    obtain ⟨earlier, e, hnext, -, hlogbook, hearlier⟩ := h.agrees.of_posting hposting
    refine ⟨[e].filter Event.isExecutionFailed, ?_, ?_⟩
    · rw [hlogbook, List.filter_append, ← hearlier, hheard]
    · cases he : e.isExecutionFailed with
      | false => exact .inl (by simp [he])
      | true =>
        obtain ⟨i, j, trouble, rfl, hj, hphase, -, rfl⟩ := h.exists_of_failing hnext he
        exact .inr ⟨i, j, trouble, rfl, hj, hphase, by simp [he]⟩

/-! ### Who logs what -/

/-- The failure that a job logs over a move. -/
def says? (x : Execution) (i : Nat) : Move → Option Event
  | .log (.job job) =>
    if job = i then (x.nextPost? (.job job)).filter Event.isExecutionFailed else none
  | _ => none

/-- The failures that a job logs over some moves. -/
def sayings (x : Execution) (i : Nat) : List Move → List Event
  | [] => []
  | move :: moves => (x.says? i move).toList ++ ((x.next? move).map (·.sayings i moves)).getD []

/-- The failure that a job has logged. -/
def said? (x : Execution) (i : Nat) : Option Event :=
  if x.posting = some (.job i) then (x.nextPost? (.job i)).filter Event.isExecutionFailed
  else x.jobs[i]?.bind Job.recorded?

theorem said?_of_ne (hposting : x.posting ≠ some (.job i)) :
    x.said? i = x.jobs[i]?.bind Job.recorded? := if_neg hposting

theorem said?_eq_of_ne (hjobs : y.jobs = x.jobs) (hy : y.posting ≠ some (.job i))
    (hx : x.posting ≠ some (.job i)) : y.said? i = x.said? i := by
  rw [said?_of_ne hy, said?_of_ne hx, hjobs]

/-- A job that has nothing to post has logged nothing that is not recorded yet. -/
theorem ne_of_quiet (hx : x.InOrder) (hj : x.jobs[i]? = some j) (hquiet : j.nextPost? = none) :
    x.posting ≠ some (.job i) := by
  intro hposting
  obtain ⟨e, hnext, -⟩ := hx.recordable _ hposting
  obtain ⟨j', phase, hj', hpost⟩ := exists_of_nextPost? hnext
  obtain rfl := Option.some.inj (hj.symm.trans hj')
  rw [hquiet] at hpost
  cases hpost

/-- One job goes on, and another one posts or nobody. -/
theorem said?_of_modify {f : Job → Job} (hj : x.jobs[job]? = some j)
    (hjobs : y.jobs = x.jobs.modify job f) (hposting : y.posting = x.posting)
    (hother : x.posting ≠ some (.job job)) (hrecorded : (f j).recorded? = j.recorded?) :
    y.said? i = x.said? i := by
  by_cases hne : job = i
  · subst hne
    rw [said?_of_ne hother, said?_of_ne (hposting ▸ hother), hjobs, List.getElem?_modify_eq, hj]
    exact hrecorded
  · have hget : y.jobs[i]? = x.jobs[i]? := by rw [hjobs, List.getElem?_modify_ne _ _ hne]
    simp only [said?, hposting, nextPost?, hget]

/-- A job has recorded what it has logged. -/
theorem said?_of_record {f : Job → Job} (hj : x.jobs[job]? = some j)
    (hjobs : y.jobs = x.jobs.modify job f) (hposting : x.posting = some (.job job))
    (hfree : y.posting = none)
    (hrecorded : (f j).recorded? = (x.nextPost? (.job job)).filter Event.isExecutionFailed) :
    y.said? i = x.said? i := by
  rw [said?_of_ne (by simp [hfree]), hjobs]
  by_cases hne : job = i
  · subst hne
    rw [List.getElem?_modify_eq, hj, said?, if_pos hposting]
    exact hrecorded
  · rw [List.getElem?_modify_ne _ _ hne, said?_of_ne (by simp [hposting, hne])]

/-- Who is about to post something has recorded no failure. -/
theorem recorded?_of_nextPost? {e : Event} (hnext : x.nextPost? (.job i) = some e) :
    x.jobs[i]?.bind Job.recorded? = none := by
  obtain ⟨⟨s, phase, o⟩, phase', hj, hpost⟩ := exists_of_nextPost? hnext
  rw [hj]
  obtain ⟨rest, rfl, -⟩ | ⟨trouble, rfl, -⟩ := cases_of_nextPost? hpost <;> rfl

/-- What a job has logged of its failure, after one more move. -/
theorem Manages.said?_of_takes (h : x.Manages existing g policy) (hm : x.Takes move y) (i : Nat) :
    (y.said? i).toList = (x.said? i).toList ++ (x.says? i move).toList := by
  have horder := h.sound.inOrder
  have hfollows : ∀ {job : Nat} {j : Job}, x.jobs[job]? = some j →
      j.Follows existing (x.machine.history.about j.step.duty) := fun hj =>
    h.sound.ledger.follows _ (List.mem_of_getElem? hj)
  -- a move says nothing of a failure of the job, or nothing had been said of it before
  suffices x.says? i move = none ∧ y.said? i = x.said? i ∨
      x.said? i = none ∧ y.said? i = x.says? i move by
    rcases this with ⟨hnone, heq⟩ | ⟨hnone, heq⟩ <;> rw [hnone, heq] <;> simp
  cases hm with
  | arrive on | enter on | takePermit on | joinLine on | begin on | check on | skip on | call on
  | report on | answer on | abandon on | release on | giveBack on | finish on =>
    exact .inl ⟨rfl, said?_of_modify on rfl rfl (ne_of_quiet horder on rfl) rfl⟩
  | drop on | giveUp on =>
    obtain rfl : _ = none := (hfollows on).2
    exact .inl ⟨rfl, said?_of_modify on rfl rfl (ne_of_quiet horder on rfl) rfl⟩
  | settle on quiet =>
    exact .inl ⟨rfl, said?_of_modify on (jobs_setPhase_setEnding ..) rfl (ne_of_quiet horder on rfl)
      (by simp [Job.recorded?, Job.fault?, quiet])⟩
  | fail on =>
    exact .inl ⟨rfl, said?_of_modify on (jobs_setPhase_setEnding ..) rfl (ne_of_quiet horder on rfl)
      rfl⟩
  | @handOver job head rest s o on needs waiting =>
    obtain ⟨s', o', hhead, hhead'⟩ := horder.exists_head on waiting
    have hreleased : (x.setPhase job .released).said? i = x.said? i :=
      said?_of_modify on rfl rfl (ne_of_quiet horder on rfl) rfl
    refine .inl ⟨rfl, Eq.trans ?_ hreleased⟩
    have hother := ne_of_quiet horder hhead rfl
    exact said?_of_modify hhead' rfl rfl hother rfl
  | join | progress | cancel | wake | conclude | heed | dismiss => exact .inl ⟨rfl, rfl⟩
  | recordInterrupt posting =>
    exact .inl ⟨rfl, said?_eq_of_ne rfl (by simp) (by simp [posting])⟩
  | @handOut step m dispatching asked =>
    refine .inl ⟨rfl, ?_⟩
    rcases Nat.lt_or_ge i x.jobs.length with hlt | hge
    · simp only [said?, nextPost?, List.getElem?_append_left hlt]
    · have hnone : x.jobs[i]? = none := List.getElem?_eq_none hge
      simp only [said?, nextPost?, List.getElem?_append_right hge, hnone]
      cases i - x.jobs.length <;> simp [Job.new, Job.nextPost?, Job.recorded?]
  | @mention job s o e rest on free forLog =>
    have hother : e.isExecutionFailed = false := by
      cases e <;> first | rfl | cases forLog
    refine .inl ⟨?_, said?_of_modify on rfl rfl (by simp [free]) rfl⟩
    simp [says?, nextPost?_job on rfl, hother]
  | @log poster e free next =>
    cases poster with
    | watcher => exact .inl ⟨rfl, said?_eq_of_ne rfl (by simp) (by simp [free])⟩
    | job k =>
      by_cases hne : k = i
      · subst hne
        refine .inr ⟨?_, ?_⟩
        · rw [said?_of_ne (by simp [free]), recorded?_of_nextPost? next]
        · exact (if_pos rfl).trans (if_pos rfl).symm
      · exact .inl ⟨if_neg hne, said?_eq_of_ne rfl (by simp [hne]) (by simp [free])⟩
  | @record job s o e rest on posting =>
    have hother : e.isExecutionFailed = false :=
      h.sound.ledger.isExecutionFailed_eq_false (List.mem_of_getElem? on)
    refine .inl ⟨rfl, said?_of_record on rfl posting rfl ?_⟩
    rw [nextPost?_job on rfl]
    exact (by simp [hother] : (some e).filter Event.isExecutionFailed = none).symm
  | @recordFailure job s o trouble on posting =>
    refine .inl ⟨rfl, said?_of_record on rfl posting rfl ?_⟩
    have hfault : o.bind Ending.trouble? = some trouble := (h.frank job _ on).2
    rw [nextPost?_job on rfl, Job.recorded?, Job.fault?, hfault]
    rfl

theorem Manages.said?_of_after? (h : x.Manages existing g policy) {moves : List Move}
    (hy : x.after? moves = some y) (i : Nat) :
    (y.said? i).toList = (x.said? i).toList ++ x.sayings i moves := by
  induction moves generalizing x with
  | nil =>
    obtain rfl := Option.some.inj hy
    exact (List.append_nil _).symm
  | cons move moves ih =>
    obtain ⟨z, hz, hy⟩ := Option.bind_eq_some_iff.mp hy
    rw [ih (h.next? hz) hy, h.said?_of_takes (takes_of_next? hz), sayings, hz, List.append_assoc]
    rfl

/-- Over a run from the beginning, a job whose step is handed back has logged its failure once, if
it has a fault. -/
theorem Manages.sayings_eq_of_isGone (h : x.Manages existing g policy) (hnone : x.jobs = [])
    {moves : List Move} (hy : x.after? moves = some y) (hj : y.jobs[i]? = some j)
    (hgone : j.isGone = true) : x.sayings i moves = (j.fault?.map j.step.failure).toList := by
  have hbefore : x.said? i = none := by
    simp [said?, nextPost?, hnone]
  have hquiet : j.nextPost? = none := by
    obtain ⟨s, phase, o⟩ := j
    cases phase <;> first | rfl | cases hgone
  have horder := (h.reachable (Reachable.refl.after? hy)).sound.inOrder
  have hafter : y.said? i = j.fault?.map j.step.failure := by
    rw [said?_of_ne (ne_of_quiet horder hj hquiet), hj]
    exact Job.recorded?_of_isGone hgone
  have hsaid := h.said?_of_after? hy i
  rw [hbefore, hafter] at hsaid
  exact hsaid.symm

/-! ### What is told of faults -/

/-- What is told of the unexpected errors in which work has ended. -/
structure TellsFaults (existing : Option String) (g : Graph) (policy : CleanupPolicy)
    (x : Execution) : Prop where
  /-- A job has a fault if its work has come to a sudden end, or has ended in an error with no
  cancellation among its causes. -/
  fault_iff : ∀ j ∈ x.jobs, ∀ trouble, j.fault? = some trouble ↔
    ∃ ending, j.ending = some ending ∧ ending.Fails trouble
  /-- That is so just when a call of the job was answered in this way. -/
  answered : ∀ (i : Nat) (j : Job), x.jobs[i]? = some j → j.isGone = true → ∀ trouble,
    j.fault? = some trouble ↔ ∃ a, .answered i a ∈ x.trace ∧ a.reply.ending.Fails trouble
  /-- An event about an unexpected error is logged by a job with that fault. It names the kind of
  the step and all causes, which are texts. -/
  caused : ∀ move y message, x.next? move = some y →
    y.trace = x.trace ++ [.logged (.executionFailed message)] →
      ∃ (i : Nat) (j : Job) (trouble : Trouble) (causes : List String), move = .log (.job i) ∧
        x.jobs[i]? = some j ∧ j.isGone = false ∧ j.fault? = some trouble ∧
        trouble.causes = causes.map .text ∧
        message = "During execution of step of kind '" ++ j.step.kind ++ "': " ++
          ": ".intercalate causes
  /-- Each kind of step has a name, and no two kinds have the same. -/
  named : ∀ s t : Step, s.kind ≠ "" ∧ (s.kind = t.kind ↔ s.ctorIdx = t.ctorIdx)
  /-- On record are the failures of the jobs that have got so far, each once. -/
  recorded : (x.machine.history.filter Event.isExecutionFailed).Perm
    (x.jobs.filterMap Job.recorded?)
  /-- These were logged, and no others but for one that is about to be recorded. -/
  logged : ∃ pending, x.logbook.filter Event.isExecutionFailed =
    x.machine.history.filter Event.isExecutionFailed ++ pending ∧
      (pending = [] ∨ ∃ (i : Nat) (j : Job) (trouble : Trouble), x.posting = some (.job i) ∧
        x.jobs[i]? = some j ∧ j.phase = .failing trouble ∧ pending = [j.step.failure trouble])
  /-- Reported are the faults of the jobs that have got so far, each once. -/
  reported : (x.trace.filterMap Happening.report?).Perm
    (x.jobs.zipIdx.filterMap fun p => p.1.reported?.map (Prod.mk p.2))
  /-- Every job has got so far when its step is handed back. -/
  complete : ∀ j ∈ x.jobs, j.isGone = true →
    j.recorded? = j.fault?.map j.step.failure ∧ j.reported? = j.fault?
  /-- However the run has come about: a job whose step is handed back has logged its failure once if
  it has a fault, and else none. -/
  each : ∀ limit cancelled first moves,
    start? (.start g policy) existing limit cancelled = some first → first.after? moves = some x →
      ∀ (i : Nat) (j : Job), x.jobs[i]? = some j → j.isGone = true →
        first.sayings i moves = (j.fault?.map j.step.failure).toList
  /-- In the end there are as many events and as many reports as jobs with a fault. -/
  total : x.outcome?.isSome = true →
    x.logbook.countP Event.isExecutionFailed = x.jobs.countP (·.fault?.isSome) ∧
    x.machine.history.countP Event.isExecutionFailed = x.jobs.countP (·.fault?.isSome) ∧
    (x.trace.filterMap Happening.report?).length = x.jobs.countP (·.fault?.isSome)

/-- When all steps are handed back, all failures are on record and all faults are reported. -/
theorem Manages.count_faults (h : x.Manages existing g policy)
    (hgone : ∀ j ∈ x.jobs, j.isGone = true) :
    x.logbook.countP Event.isExecutionFailed = x.jobs.countP (·.fault?.isSome) ∧
    x.machine.history.countP Event.isExecutionFailed = x.jobs.countP (·.fault?.isSome) ∧
    (x.trace.filterMap Happening.report?).length = x.jobs.countP (·.fault?.isSome) := by
  have hhistory := calc x.machine.history.countP Event.isExecutionFailed
    _ = (x.machine.history.filter Event.isExecutionFailed).length := List.countP_eq_length_filter
    _ = (x.jobs.filterMap Job.recorded?).length := h.tallied.recorded.length_eq
    _ = x.jobs.countP (·.recorded?.isSome) := List.length_filterMap_eq_countP
    _ = x.jobs.countP (·.fault?.isSome) := List.countP_congr fun j hj => by
      simp [Job.recorded?_of_isGone (hgone j hj)]
  have hreported := calc (x.trace.filterMap Happening.report?).length
    _ = (x.jobs.zipIdx.filterMap fun p => p.1.reported?.map (Prod.mk p.2)).length :=
      h.tallied.reported.length_eq
    _ = x.jobs.zipIdx.countP fun p => (p.1.reported?.map (Prod.mk p.2)).isSome :=
      List.length_filterMap_eq_countP
    _ = x.jobs.zipIdx.countP ((·.fault?.isSome) ∘ Prod.fst) := List.countP_congr fun p hp => by
      simp [Job.reported?_of_isGone (hgone p.1 (List.fst_mem_of_mem_zipIdx hp))]
    _ = (x.jobs.zipIdx.map Prod.fst).countP (·.fault?.isSome) := List.countP_map.symm
    _ = x.jobs.countP (·.fault?.isSome) := by rw [List.zipIdx_map_fst]
  have hlogbook : x.logbook.countP Event.isExecutionFailed =
      x.machine.history.countP Event.isExecutionFailed := by
    obtain ⟨pending, heq, rfl | ⟨i, j, trouble, -, hj, hphase, -⟩⟩ := h.failures_logged
    · rw [List.countP_eq_length_filter, heq, List.append_nil, List.countP_eq_length_filter]
    · have hover := hgone j (List.mem_of_getElem? hj)
      rw [Job.isGone, hphase] at hover
      cases hover
  exact ⟨hlogbook.trans hhistory, hhistory, hreported⟩

/-- All along a managed run, unexpected errors are told as they should be. -/
theorem Manages.tellsFaults (h : x.Manages existing g policy) :
    x.TellsFaults existing g policy where
  fault_iff _ _ _ := Job.fault?_eq_some_iff
  answered i j hj hgone trouble := by
    simp only [h.traced.fault?_eq_some_iff hj hgone, Ending.trouble?_eq_some_iff]
    rfl
  caused move y message hm hlogged := by
    obtain ⟨i, j, trouble, rfl, hj, hphase, hfault, heq⟩ :=
      h.exists_of_logged (takes_of_next? hm) hlogged
    obtain ⟨ending, -, hfails⟩ := Job.fault?_eq_some_iff.mp hfault
    obtain ⟨causes, hcauses⟩ := hfails.exists_texts
    have hshown : trouble.causes.map Cause.message = causes := by
      simp [hcauses, Function.comp_def, Cause.message]
    refine ⟨i, j, trouble, causes, rfl, hj, by rw [Job.isGone, hphase], hfault, hcauses, ?_⟩
    rw [← hshown]
    exact Event.executionFailed.inj heq
  named s t := ⟨s.kind_ne_empty, s.kind_eq_iff t⟩
  recorded := h.tallied.recorded
  logged := h.failures_logged
  reported := h.tallied.reported
  complete _ _ hgone := ⟨Job.recorded?_of_isGone hgone, Job.reported?_of_isGone hgone⟩
  each limit cancelled first moves hfirst hmoves i j hj hgone := by
    obtain ⟨task, catalogue, hbuild⟩ := h.built
    have hnone : first.jobs = [] := congrArg Ledger.jobs (ledger_of_start? hfirst)
    exact (manages_of_start? hbuild hfirst).sayings_eq_of_isGone hnone hmoves hj hgone
  total hout := h.count_faults (h.isGone_of_outcome? hout)

end Execution

namespace Sample

/-- A runtime that has lost its network driver, and gives an image up although the task goes on. -/
def replyBroken (c : Call) : Reply c.Value :=
  if c = .createNetwork then .error ⟨.text "no driver", [.text "not found"]⟩
  else if c = .pullImage "db" .ifNotPresent then .error ⟨.text "no image", [.cancellation]⟩
  else reply c

end Sample

namespace Execution

/-- The small task when two of its calls end in errors, one of them because of a cancellation. -/
theorem Manages.tellsFaults_of_two_errors : ∃ x : Execution,
    x.Manages none Sample.graph ⟨true, true⟩ ∧ x.outcome?.isSome = true ∧
      x.jobs.countP (·.ending.isSome) = 3 ∧ x.jobs.countP (·.ending = some .completed) = 1 ∧
      x.jobs.countP (·.fault?.isSome) = 1 ∧ x.TellsFaults none Sample.graph ⟨true, true⟩ := by
  obtain ⟨x, hx, hp⟩ := Sample.exists_manages Sample.replyBroken 3 [.dispatch, .conclude, .deliver]
    (p := fun x => decide (x.outcome?.isSome = true ∧ x.jobs.countP (·.ending.isSome) = 3 ∧
      x.jobs.countP (·.ending = some .completed) = 1 ∧ x.jobs.countP (·.fault?.isSome) = 1))
    (by decide +kernel)
  obtain ⟨hout, hended, hcompleted, hfaults⟩ := of_decide_eq_true hp
  exact ⟨x, hx, hout, hended, hcompleted, hfaults, hx.tellsFaults⟩

end Execution

end ContainerTasks
