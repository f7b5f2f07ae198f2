import ContainerTasks.Proofs.Notices
import ContainerTasks.Proofs.Sessions

/-!
# Runs in which all goes well

If nobody asks to stop and the runtime does all that it is asked to do, with zero for every exit
code, then a task has no failures, and its main container no exit code but zero. So a session goes
on to the next task.

Nothing has to be known of the order in which things happen. The work on a step posts nothing but
good news as long as it hears nothing else, and this is so at any point of it.

## Main definitions

* `Answer.isClean`, `Move.isSmooth`: the runtime does what it is asked to do, and nobody asks to
  stop
* `Procedure.Smooth`: work that posts only good news, if it hears nothing else
* `Execution.Smooth`: what holds all along

## Main results

* `Step.smooth`
* `Execution.Smooth.next?`
-/

namespace ContainerTasks

/-- What a call has given is as good as it can be: no exit code but zero. -/
def Call.isClean : (c : Call) → c.Value → Bool
  | .awaitExit _, exitCode => exitCode = 0
  | .exec .., result => result.exitCode = 0
  | .buildImage _, _ | .pullImage .., _ | .createNetwork, _ | .findNetwork _, _
  | .createContainer .., _ | .startContainer _, _ | .awaitHealth _, _ | .stopContainer _, _
  | .removeContainer _, _ | .deleteNetwork _, _ => true

/-- The runtime has done what it was asked to do. -/
def Answer.isClean (answer : Answer) : Bool :=
  match answer.reply with
  | .ok value => answer.call.isClean value
  | .failed _ | .cancelled | .error _ | .panicked _ => false

/-- There is a runtime that does all that it is asked to do. -/
theorem Sample.isClean_reply (c : Call) : Answer.isClean ⟨c, reply c⟩ = true := by
  cases c <;> rfl

/-- If the move answers a call, then the runtime has done what it was asked to do; and it is not
that the user asks to stop. -/
def Move.isSmooth : Move → Bool
  | .reply _ answer => answer.isClean
  | .cancel => false
  | _ => true

/-- Good news: neither a failure nor an exit code other than zero. -/
def Event.isGood : Event → Bool
  | .containerExited _ exitCode => exitCode = 0
  | e => !e.isFailure

theorem Event.isFailure_of_isGood {e : Event} (h : e.isGood = true) : e.isFailure = false := by
  cases e <;> simp_all [isGood, isFailure]

/-! ### Work -/

namespace Procedure

/-- The work posts only good news and is completed, if the runtime does what it is asked to do. -/
def Smooth : Procedure → Prop
  | ended ending => ending = .completed
  | post e rest => e.isGood = true ∧ rest.Smooth
  | check _ otherwise => otherwise.Smooth
  | call c next => ∀ value, c.isClean value = true → (next (.ok value)).Smooth

theorem smooth_askAndPost {c : Call} {ifOk : c.Value → Event} {ifFailed : String → Event}
    (h : ∀ value, c.isClean value = true → (ifOk value).isGood = true) :
    (askAndPost c ifOk ifFailed).Smooth :=
  fun value hclean => ⟨h value hclean, rfl⟩

end Procedure

open Procedure in
theorem Step.smooth (s : Step) (existing : Option String) : (s.procedure existing).Smooth := by
  cases s with
  | prepareNetwork => cases existing <;> exact fun _ _ => ⟨rfl, rfl⟩
  | createContainer => exact fun _ _ => ⟨rfl, rfl⟩
  | runContainer container reference main =>
    refine fun _ _ => ⟨rfl, ?_⟩
    cases main with
    | true => exact smooth_askAndPost fun _ hclean => hclean
    | false => rfl
  | runSetupCommand container reference command index =>
    refine ⟨rfl, smooth_askAndPost fun result hclean => ?_⟩
    rw [if_pos (of_decide_eq_true hclean)]
    rfl
  | markReady => exact ⟨rfl, rfl⟩
  | buildImage | pullImage | awaitHealth | stopContainer | removeContainer | deleteNetwork =>
    exact smooth_askAndPost fun _ _ => rfl

/-- A job whose work goes well. -/
def Job.Smooth (j : Job) : Prop :=
  match j.phase with
  | .working rest => rest.Smooth
  | .calling c next => (Procedure.call c next).Smooth
  | .failing _ | .reporting _ => False
  | .handed | .arriving | .inLine | .admitted | .leaving | .released | .gone => True

/-! ### Executions -/

namespace Execution

variable {existing : Option String} {g : Graph} {policy : CleanupPolicy} {x y : Execution}
  {move : Move}

/-- All has gone well so far. -/
structure Smooth (x : Execution) : Prop where
  going : x.cancelled = false
  jobs : ∀ j ∈ x.jobs, j.Smooth
  history : ∀ e ∈ x.machine.history, e.isGood = true
  passes : ∀ outcome, x.outcome? = some outcome → outcome.Passes

/-- With only good news on record a task passes. -/
theorem passes_outcome {m : Machine} (h : ∀ e ∈ m.history, e.isGood = true) :
    m.outcome.Passes where
  failures_eq := by
    refine List.filter_eq_nil_iff.mpr fun e he => ?_
    simp [Event.isFailure_of_isGood (h e he)]
  exitCode_eq exitCode hexit := by
    obtain ⟨root, -, hfound⟩ := Option.bind_eq_some_iff.mp hexit
    obtain ⟨e, he, hcode⟩ := List.exists_of_findSome?_eq_some hfound
    have hgood := h e he
    cases e <;> simp only [reduceCtorEq] at hcode
    split at hcode <;> cases hcode
    exact of_decide_eq_true hgood

/-- One job goes on. It may have recorded good news. -/
theorem Smooth.of_job (hx : x.Smooth) {job : Nat} {j : Job} {f : Job → Job}
    (hj : x.jobs[job]? = some j) (hjobs : y.jobs = x.jobs.modify job f) (hf : (f j).Smooth)
    (hhistory : ∀ e ∈ y.machine.history, e ∈ x.machine.history ∨ e.isGood = true)
    (hcancelled : y.cancelled = x.cancelled) (hmanager : y.manager = x.manager) : y.Smooth where
  going := hcancelled.trans hx.going
  jobs := hjobs ▸ forall_mem_modify hx.jobs hj hf
  history e he := (hhistory e he).elim (hx.history e) id
  passes outcome hout := hx.passes outcome (by rwa [outcome?, hmanager] at hout)

/-- The jobs and the history stay. -/
theorem Smooth.of_control (hx : x.Smooth) (hjobs : y.jobs = x.jobs)
    (hhistory : y.machine.history = x.machine.history) (hcancelled : y.cancelled = x.cancelled)
    (hpasses : ∀ outcome, y.outcome? = some outcome → outcome.Passes) : y.Smooth where
  going := hcancelled.trans hx.going
  jobs := hjobs ▸ hx.jobs
  history := hhistory ▸ hx.history
  passes := hpasses

/-- A move keeps all well, if the runtime does what it is asked to do and nobody asks to stop. -/
theorem Smooth.takes (hx : x.Smooth) (horder : x.InOrder) (hwatched : x.Watched)
    (h : x.Takes move y) (hmove : move.isSmooth = true) : y.Smooth := by
  have kept : ∀ e ∈ x.machine.history, e ∈ x.machine.history ∨ e.isGood = true := fun _ he => .inl he
  have going : x.cancelled ≠ true := by simp [hx.going]
  have smooth {job : Nat} {j : Job} (on : x.jobs[job]? = some j) : j.Smooth :=
    hx.jobs _ (List.mem_of_getElem? on)
  cases h with
  | handOut dispatching asked =>
    refine ⟨hx.going, List.forall_mem_append.mpr ⟨hx.jobs, List.forall_mem_singleton.mpr trivial⟩,
      ?_, hx.passes⟩
    rw [Machine.history_of_pop asked]
    exact hx.history
  | join _ asked =>
    exact hx.of_control rfl (Machine.history_of_pop asked) rfl nofun
  | drop on | arrive on | enter on | takePermit on | joinLine on | giveUp on | release on | giveBack on
  | finish on => exact hx.of_job on rfl trivial kept rfl rfl
  | begin on => exact hx.of_job on rfl ⟨rfl, Step.smooth _ _⟩ kept rfl rfl
  | mention on => exact hx.of_job on rfl (smooth on).2 kept rfl rfl
  | log => exact hx.of_control rfl rfl rfl hx.passes
  | @record job s o news rest on =>
    refine hx.of_job on rfl (smooth on).2 (fun e he => ?_) rfl rfl
    replace he : e ∈ (x.machine.post news).history := he
    rw [Machine.history_post, List.mem_append, List.mem_singleton] at he
    refine he.imp_right ?_
    rintro rfl
    exact (smooth on).1
  | recordFailure on => exact (smooth on).elim
  | recordInterrupt _ awake => exact absurd (horder.stopped_of_awake awake) going
  | settle on => exact hx.of_job on (jobs_setPhase_setEnding ..) trivial kept rfl rfl
  | fail on loud =>
    rw [show _ = Ending.completed from smooth on] at loud
    cases loud
  | check on =>
    have hnext := smooth on
    refine hx.of_job on rfl ?_ kept rfl rfl
    rw [hx.going]
    exact hnext
  | skip _ _ stopped | abandon _ _ stopped | wake _ stopped => exact absurd stopped going
  | call on =>
    have hcall := smooth on
    exact hx.of_job on rfl hcall kept rfl rfl
  | report on => exact (smooth on).elim
  | progress on => exact hx.of_control rfl rfl rfl hx.passes
  | @answer job s o a next on =>
    obtain ⟨c, reply⟩ := a
    cases reply with
    | ok value =>
      have hnext := smooth on value hmove
      exact hx.of_job on rfl hnext kept rfl rfl
    | failed | cancelled | error | panicked => cases hmove
  | @handOver job head rest s o on needs waiting =>
    obtain ⟨s', o', -, hhead⟩ := horder.exists_head on waiting
    have hleaves : Smooth { x.setPhase job .released with line := rest } :=
      hx.of_job on rfl trivial kept rfl rfl
    exact hleaves.of_job hhead rfl trivial kept rfl rfl
  | cancel => cases hmove
  | conclude joining =>
    refine hx.of_control rfl rfl rfl fun outcome hout => ?_
    simp [outcome?, hx.going] at hout
  | heed awaiting => exact absurd (hwatched.awaited awaiting) going
  | dismiss dismissing =>
    refine hx.of_control rfl rfl rfl fun outcome hout => ?_
    obtain rfl : x.machine.outcome = outcome := by simpa [outcome?] using hout
    exact passes_outcome hx.history

theorem Smooth.next? (h : x.Manages existing g policy) (hx : x.Smooth) (hm : x.next? move = some y)
    (hmove : move.isSmooth = true) : y.Smooth :=
  hx.takes h.sound.inOrder h.watched (takes_of_next? hm) hmove

end Execution

end ContainerTasks
