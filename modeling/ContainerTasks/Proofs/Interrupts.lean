import ContainerTasks.Proofs.Successes

/-!
# Interrupts and the end of the first stage

That the user has asked to stop is told to the machine by a watcher, and the watcher takes its turn
like everybody else. Meanwhile a cancelled run may wind down: steps are dropped and calls are given
up, none of which leaves an event. So the first stage may be over before the machine has heard of
the interrupt. It is then over without a failure, and the policy for a success decides what becomes
of the containers and the network. The manager waits for the watcher only after that, so the outcome
says that the run was interrupted all the same.

The two agree if some failure is on record when the first stage ends, be it the interrupt or another
one, or if the policy makes no difference between failure and success; and only then.

## Main definitions

* `Execution.Heeded`: a cancelled run whose outcome says so, if it has one
* `Execution.RunEnds`: the end of the first stage, and what it depends on

## Main results

* `Execution.stage_of_next?`: a stage ends only when the manager asks for a step
* `Execution.Manages.heeded`: the outcome of a cancelled run says that it was interrupted
* `Execution.Manages.runEnds`: what becomes of a run, by what is on record when its first stage ends
-/

namespace ContainerTasks

namespace Execution

variable {existing : Option String} {g : Graph} {policy : CleanupPolicy} {x y : Execution}
  {m : Machine} {move : Move}

/-! ### The end of a stage -/

/-- A stage ends only when the manager asks for a step. -/
theorem stage_of_next? (h : x.next? move = some y) (hmove : move ≠ .dispatch) :
    y.machine.stage = x.machine.stage := by
  cases takes_of_next? h with
  | handOut | join => exact absurd rfl hmove
  | record | recordFailure | recordInterrupt => exact Machine.stage_post ..
  | _ => rfl

theorem machine_of_dispatch? (h : x.dispatch? = some y) : y.machine = x.machine.pop.2 := by
  cases takes_of_dispatch? h with
  | handOut _ asked | join _ asked => rw [asked]

theorem dispatching_of_dispatch? (h : x.dispatch? = some y) : x.manager = .dispatching := by
  cases takes_of_dispatch? h <;> assumption

/-! ### What an outcome says -/

/-- The run is cancelled. It does not do without the watcher, and its outcome says that it was
interrupted. -/
structure Heeded (x : Execution) : Prop where
  stopped : x.cancelled = true
  waits : x.manager ≠ .dismissingWatcher
  reports : ∀ o, x.manager = .returned o → .interrupted ∈ o.failures

theorem Manages.heeded_of_next? (h : x.Manages existing g policy) (hx : x.Heeded)
    (hm : x.next? move = some y) : y.Heeded := by
  have hxy := h.continuesTo hm
  have hstopped := hxy.cancelled hx.stopped
  cases hxy.steers with
  | keep control | cancel _ control | wake control | say _ control =>
    have hmanager := (control_eq_iff.mp control).1
    exact ⟨hstopped, hmanager ▸ hx.waits, hmanager ▸ hx.reports⟩
  | join _ control =>
    have hmanager := (control_eq_iff.mp control).1
    exact ⟨hstopped, by simp [hmanager], by simp [hmanager]⟩
  | conclude _ control =>
    have hmanager := (control_eq_iff.mp control).1
    rw [if_pos hx.stopped] at hmanager
    exact ⟨hstopped, by simp [hmanager], by simp [hmanager]⟩
  | deliver heard _ control =>
    have hmanager := (control_eq_iff.mp control).1
    refine ⟨hstopped, by simp [hmanager], fun o ho => ?_⟩
    -- the manager has waited for the watcher, who has told by then
    obtain ⟨-, hdone⟩ := heard.resolve_right hx.waits
    rw [hmanager] at ho
    cases ho
    exact List.mem_filter.mpr ⟨h.candid.told hdone, rfl⟩

/-- The outcome of a cancelled run says that it was interrupted. -/
theorem Manages.heeded (h : x.Manages existing g policy) (hx : x.Heeded) (hy : x.Reachable y) :
    y.Heeded := by
  induction hy with
  | refl => exact hx
  | step move hreach hm ih => exact (h.reachable hreach).heeded_of_next? ih hm

/-! ### The end of the first stage -/

/-- The first stage ends over the request that leads from one execution to the other, and the
machine goes on as `m`. -/
structure RunEnds (policy : CleanupPolicy) (x y : Execution) (m : Machine) : Prop where
  ends : x.machine.AdvancesTo m
  machine_eq : y.machine = m.pop.2
  /-- What is on record counts. -/
  stage_eq : m.stage =
    if policy.applies x.machine.history.hasFailures then .cleanup else .finished
  /-- An interrupt counts once the watcher has told of it. -/
  of_done : x.watcher = .done → (m.stage = .cleanup ↔ policy.afterFailure = true)
  /-- The run is treated as a failed one only if a failure is on record, or it makes no
  difference. -/
  failed_iff : (m.stage = .cleanup ↔ policy.afterFailure = true) ↔
    x.machine.history.hasFailures = true ∨ policy.afterFailure = policy.afterSuccess
  /-- However that may be, the outcome of a run that was cancelled by then tells of a failure. -/
  reports : x.cancelled = true → ∀ z o, y.Reachable z → z.outcome? = some o →
    .interrupted ∈ o.failures

theorem cleanup_iff_failed_iff {failed : Bool} {stage : Stage}
    (hstage : stage = if policy.applies failed then .cleanup else .finished) :
    (stage = .cleanup ↔ policy.afterFailure = true) ↔
      failed = true ∨ policy.afterFailure = policy.afterSuccess := by
  obtain ⟨afterFailure, afterSuccess⟩ := policy
  subst hstage
  cases failed <;> cases afterFailure <;> cases afterSuccess <;>
    simp [CleanupPolicy.applies]

/-- When the first stage ends over a request, the machine goes on to the next stage and the request
is put to that. -/
theorem advancesTo_of_dispatch? (hrun : x.machine.stage = .run) (h : x.dispatch? = some y)
    (hleft : y.machine.stage ≠ .run) :
    x.machine.AdvancesTo x.machine.enterNextStage.notify ∧
      y.machine = x.machine.enterNextStage.notify.pop.2 := by
  have hmachine := machine_of_dispatch? h
  obtain ⟨hstuck, hidle⟩ := Machine.of_pop_leaves_run hrun (hmachine ▸ hleft)
  have hunfinished : x.machine.stage ≠ .finished := by
    rw [hrun]
    exact nofun
  refine ⟨⟨hstuck, hidle, hunfinished, rfl⟩, ?_⟩
  rw [hmachine, Machine.pop_eq, hstuck]
  dsimp only
  rw [if_neg (by simp [hidle]), if_neg hunfinished]

/-- The first stage of a managed run ends over a request of the manager, and what becomes of the run
then depends on what is on record. -/
theorem Manages.runEnds (h : x.Manages existing g policy) (hrun : x.machine.stage = .run)
    (hm : x.next? move = some y) (hleft : y.machine.stage ≠ .run) :
    move = .dispatch ∧ ∃ m, RunEnds policy x y m := by
  obtain rfl : move = .dispatch := by
    by_contra hmove
    exact hleft ((stage_of_next? hm hmove).trans hrun)
  obtain ⟨hends, hmachine⟩ := advancesTo_of_dispatch? hrun hm hleft
  have hpolicy : x.machine.policy = policy := (h.sound.ledger.run.sound h.sound_graph).policy_eq
  have hstage := hends.stage_of_run hrun
  rw [hpolicy] at hstage
  refine ⟨rfl, _, hends, hmachine, hstage, fun hdone => ?_, cleanup_iff_failed_iff hstage, ?_⟩
  · have hfailed : x.machine.history.hasFailures = true :=
      List.any_eq_true.mpr ⟨_, h.candid.told hdone, rfl⟩
    exact (cleanup_iff_failed_iff hstage).mpr (.inl hfailed)
  · intro hstopped z o hz hout
    have hdispatching := dispatching_of_dispatch? hm
    have hx : x.Heeded := ⟨hstopped, by simp [hdispatching], by simp [hdispatching]⟩
    exact ((h.next? hm).heeded (h.heeded_of_next? hx hm) hz).reports o (returned_of_outcome? hout)

end Execution

/-! ### A watcher that is late -/

namespace Sample

/-- The small task, cancelled when the database is to be started. Two steps are dropped, and the
watcher has not taken its turn. -/
def lateWatcher? : Option Execution := do
  let x ← Execution.start? (.start graph ⟨true, false⟩) none none false
  let x ← x.inTurn? reply 3
  x.after? [.dispatch, .cancel, .place 3, .dispatch, .place 4]

/-- What comes after that: the first stage ends, and then the watcher takes its turn. -/
def tooLate? (x : Execution) : Option (Machine × Outcome) := do
  let y ← x.next? .dispatch
  let z ← y.after? [.conclude, .wake, .log .watcher, .record, .deliver]
  return (y.machine, ← z.outcome?)

theorem exists_lateWatcher : ∃ x y z : Execution, ∃ o,
    x.Manages none graph ⟨true, false⟩ ∧ x.cancelled = true ∧ x.machine.stage = .run ∧
      x.next? .dispatch = some y ∧ y.machine.stage = .finished ∧
      x.machine.enterNextStage.stage = .finished ∧ y.Reachable z ∧ z.outcome? = some o ∧
      o.failures = [.interrupted] ∧ o.leftovers.length = 2 := by
  have hvalue : (lateWatcher?.bind fun x => (tooLate? x).map fun (m, o) => decide (
      x.cancelled = true ∧ x.machine.stage = .run ∧ m.stage = .finished ∧
        x.machine.enterNextStage.stage = .finished ∧ o.failures = [.interrupted] ∧
        o.leftovers.length = 2)) = some true := by decide +kernel
  obtain ⟨x, hx, hvalue⟩ := Option.bind_eq_some_iff.mp hvalue
  obtain ⟨⟨m, o⟩, hlate, hp⟩ := Option.map_eq_some_iff.mp hvalue
  obtain ⟨hstopped, hrun, hs, hnext, hfailures, hleft⟩ := of_decide_eq_true hp
  simp only [tooLate?, Option.bind_eq_bind, Option.bind_eq_some_iff] at hlate
  obtain ⟨y, hy, z, hz, o', ho, heq⟩ := hlate
  cases heq
  simp only [lateWatcher?, Option.bind_eq_bind, Option.bind_eq_some_iff] at hx
  obtain ⟨first, hfirst, x₁, h₁, hx⟩ := hx
  exact ⟨x, y, z, o, (Execution.manages_of_start? build_eq hfirst).reachable
    ((Execution.Reachable.refl.inTurn? h₁).after? hx), hstopped, hrun, hy, hs, hnext,
    Execution.Reachable.refl.after? hz, ho, hfailures, hleft⟩

end Sample

namespace Execution

/-- The first stage of the small task ends before the watcher has told of the interrupt. -/
theorem Manages.runEnds_before_watcher : ∃ x y : Execution,
    x.Manages none Sample.graph ⟨true, false⟩ ∧ x.cancelled = true ∧ x.machine.stage = .run ∧
      y.machine.stage ≠ .run ∧ x.next? .dispatch = some y ∧ ∃ m, RunEnds ⟨true, false⟩ x y m := by
  obtain ⟨x, y, z, o, hx, hstopped, hrun, hy, hs, -⟩ := Sample.exists_lateWatcher
  have hleft : y.machine.stage ≠ .run := by
    rw [hs]
    exact nofun
  exact ⟨x, y, hx, hstopped, hrun, hleft, hy, (hx.runEnds hrun hy hleft).2⟩

/-- A run that was cancelled in its first stage, and whose outcome tells of a failure, is not
cleaned up although the policy wants that after a failure. -/
theorem exists_cancelled_not_cleaned_up : ∃ x y z : Execution, ∃ m : Machine, ∃ o : Outcome,
    x.Manages none Sample.graph ⟨true, false⟩ ∧ x.cancelled = true ∧ x.machine.stage = .run ∧
      x.next? .dispatch = some y ∧ x.machine.AdvancesTo m ∧ y.machine = m.pop.2 ∧
      ¬ (m.stage = .cleanup ↔ (CleanupPolicy.mk true false).afterFailure = true) ∧
      y.Reachable z ∧ z.outcome? = some o ∧ o.failures = [.interrupted] ∧
      o.leftovers.length = 2 := by
  obtain ⟨x, y, z, o, hx, hstopped, hrun, hy, hs, hnext, hz, ho, hfailures, hleftovers⟩ :=
    Sample.exists_lateWatcher
  obtain ⟨hends, hmachine⟩ := advancesTo_of_dispatch? hrun hy (by rw [hs]; exact nofun)
  refine ⟨x, y, z, _, o, hx, hstopped, hrun, hy, hends, hmachine, fun hiff => ?_, hz, ho, hfailures,
    hleftovers⟩
  have hcleanup : x.machine.enterNextStage.stage = .cleanup := hiff.mpr rfl
  rw [hnext] at hcleanup
  cases hcleanup

end Execution

end ContainerTasks
