import ContainerTasks.Proofs.Interrupts
import ContainerTasks.Proofs.Logbooks

/-!
# How often an interrupt is told of

The watcher is the only one who says that the user has asked to stop, and it is done once it has
said so. So this is said once at most, and not at all while the run is not cancelled. When all steps
are handed back, the manager looks whether the run is cancelled. If so, it waits for the watcher, and
does not wait in vain; what the watcher says is then in the outcome. If not, it dismisses the
watcher, unless that has noticed something meanwhile.

## Main definitions

* `Execution.Watched`: how far the watcher can be, as the manager and the run stand
* `Execution.Told`: how often the interrupt was told of, as the watcher stands
* `Execution.TellsOnce`

## Main results

* `Execution.Manages.exists_outcome`: the manager does not wait for the watcher in vain
* `Execution.Manages.tellsOnce`
-/

namespace ContainerTasks

namespace Execution

variable {existing : Option String} {g : Graph} {policy : CleanupPolicy} {x y : Execution}
  {move : Move} {job : Nat}

/-! ### The watcher and the manager -/

/-- The watcher speaks in cancelled runs only, and is not needed any longer when the manager has
told the outcome. -/
structure Watched (x : Execution) : Prop where
  stopped : x.watcher = .done → x.cancelled = true
  awaited : x.manager = .awaitingWatcher → x.cancelled = true
  dismissed : x.watcher = .dismissed → ∃ o, x.manager = .returned o
  returned : ∀ o, x.manager = .returned o → x.watcher ≠ .asleep

theorem Watched.takes (hx : x.Watched) (horder : x.InOrder) (h : x.Takes move y) : y.Watched := by
  cases h with
  | join dispatching =>
    refine ⟨hx.stopped, nofun, fun hdismissed => ?_, nofun⟩
    obtain ⟨o, ho⟩ := hx.dismissed hdismissed
    rw [dispatching] at ho
    cases ho
  | recordInterrupt _ awake =>
    exact ⟨fun _ => horder.stopped_of_awake awake, hx.awaited, nofun, fun _ _ => nofun⟩
  | cancel => exact ⟨fun _ => rfl, fun _ => rfl, hx.dismissed, hx.returned⟩
  | wake => exact ⟨nofun, hx.awaited, nofun, fun _ _ => nofun⟩
  | conclude joining =>
    refine ⟨hx.stopped, fun hawaiting => ?_, fun hdismissed => ?_, fun o ho => ?_⟩
    · by_contra hgoing
      simp [hgoing] at hawaiting
    · obtain ⟨o, ho⟩ := hx.dismissed hdismissed
      rw [joining] at ho
      cases ho
    · dsimp only at ho
      split at ho <;> cases ho
  | heed _ done =>
    exact ⟨hx.stopped, nofun, fun _ => ⟨_, rfl⟩, fun _ _ hasleep => by
      rw [show x.watcher = .asleep from hasleep] at done
      cases done⟩
  | dismiss =>
    refine ⟨fun hdone => hx.stopped ?_, nofun, fun _ => ⟨_, rfl⟩, fun _ _ hasleep => ?_⟩
    · dsimp only at hdone
      split at hdone
      · cases hdone
      · exact hdone
    · dsimp only at hasleep
      split at hasleep
      · cases hasleep
      · contradiction
  | _ => exact ⟨hx.stopped, hx.awaited, hx.dismissed, hx.returned⟩

theorem Manages.watched (h : x.Manages existing g policy) : x.Watched := by
  refine h.moves_induction (P := Watched) ?_ ?_
  · intro limit cancelled first hfirst
    obtain rfl := eq_of_start? hfirst
    exact ⟨nofun, nofun, nofun, nofun⟩
  · exact fun x y move hx ih hm => ih.takes hx.sound.inOrder (takes_of_next? hm)

/-- Whoever has returned without a cancellation has dismissed the watcher. -/
theorem Manages.watcher_of_returned (h : x.Manages existing g policy) {o : Outcome}
    (hout : x.outcome? = some o) (hgoing : x.cancelled = false) : x.watcher = .dismissed := by
  have hstopped : x.cancelled ≠ true := by simp [hgoing]
  cases hwatcher : x.watcher with
  | asleep => exact absurd hwatcher (h.watched.returned o (returned_of_outcome? hout))
  | awake => exact absurd (h.sound.inOrder.stopped_of_awake hwatcher) hstopped
  | done => exact absurd (h.watched.stopped hwatcher) hstopped
  | dismissed => rfl

/-- The watcher posts only while it is awake. -/
theorem awake_of_posting (hx : x.InOrder) (hposting : x.posting = some .watcher) :
    x.watcher = .awake := by
  obtain ⟨e, hnext, -⟩ := hx.recordable .watcher hposting
  by_contra hwatcher
  simp [nextPost?, hwatcher] at hnext

theorem posting_ne_watcher (hx : x.InOrder) (hwatcher : x.watcher ≠ .awake) :
    x.posting ≠ some .watcher :=
  fun hposting => hwatcher (awake_of_posting hx hposting)

/-! ### How often -/

/-- The interrupt was told of once if the watcher is done, or is about to have it recorded, and else
not at all. -/
def Told (x : Execution) : Prop :=
  x.logbook.count .interrupted = if x.watcher = .done ∨ x.posting = some .watcher then 1 else 0

/-- No job says that the user has asked to stop. -/
theorem Manages.ne_interrupted (h : x.Manages existing g policy) {e : Event}
    (hnext : x.nextPost? (.job job) = some e) : e ≠ .interrupted := by
  rintro rfl
  obtain ⟨⟨s, phase, o⟩, phase', hj, hpost⟩ := exists_of_nextPost? hnext
  obtain ⟨rest, rfl, -⟩ | ⟨trouble, -, -, hfailure⟩ := cases_of_nextPost? hpost
  · obtain ⟨hlog | hmay, -⟩ := (h.sound.ledger.follows _ (List.mem_of_getElem? hj)).post
    · cases hlog
    · cases Step.duty_of_canPost hmay
  · cases hfailure

theorem Told.posts (hx : x.Told) (h : x.Manages existing g policy) (hposts : x.Posts y) :
    y.Told := by
  unfold Told at hx ⊢
  cases hposts with
  | silent logbook_eq _ posting_eq _ watcher_eq =>
    rw [logbook_eq, posting_eq, hx]
    rcases watcher_eq with heq | ⟨hasleep, hwatcher⟩
    · rw [heq]
    · simp [hasleep, hwatcher]
  | @mention e free forLog logbook_eq _ posting_eq watcher_eq =>
    have hother : .interrupted ∉ [e] := fun hmem => by
      rw [← List.mem_singleton.mp hmem] at forLog
      cases forLog
    rw [logbook_eq, posting_eq, watcher_eq, List.count_append, hx, free,
      List.count_eq_zero_of_not_mem hother]
    simp
  | @log poster e free next _ logbook_eq _ posting_eq _ watcher_eq =>
    rw [logbook_eq, posting_eq, watcher_eq, List.count_append, hx, free]
    cases poster with
    | watcher =>
      obtain rfl := eq_interrupted_of_nextPost? next
      have hwatcher : x.watcher ≠ .done := by
        intro hdone
        simp [nextPost?, hdone] at next
      simp [hwatcher]
    | job i => simp [h.ne_interrupted next]
  | @record poster e posting next logbook_eq _ posting_eq watcher_eq =>
    rw [logbook_eq, posting_eq, watcher_eq, hx, posting]
    cases poster <;> simp

theorem Manages.told (h : x.Manages existing g policy) : x.Told := by
  refine h.moves_induction (P := Told) ?_ ?_
  · intro limit cancelled first hfirst
    obtain rfl := eq_of_start? hfirst
    rfl
  · exact fun x y move hx ih hm => ih.posts hx (posts_of_next? hx.sound.inOrder hm)

theorem Manages.count_interrupted_le (h : x.Manages existing g policy) :
    x.logbook.count .interrupted ≤ 1 := by
  rw [h.told]
  split <;> omega

theorem Told.not_mem (hx : x.Told) (hdone : x.watcher ≠ .done)
    (hposting : x.posting ≠ some .watcher) : .interrupted ∉ x.logbook := by
  rw [Told, if_neg (by simp [hdone, hposting])] at hx
  exact List.count_eq_zero.mp hx

/-- A run that is not cancelled is told of no interrupt. -/
theorem Manages.not_told_of_going (h : x.Manages existing g policy) (hgoing : x.cancelled = false) :
    .interrupted ∉ x.logbook := by
  have hstopped : x.cancelled ≠ true := by simp [hgoing]
  exact h.told.not_mem (fun hdone => hstopped (h.watched.stopped hdone))
    (posting_ne_watcher h.sound.inOrder fun hawake =>
      hstopped (h.sound.inOrder.stopped_of_awake hawake))

/-- A watcher that is dismissed says nothing any longer. -/
theorem Manages.watcher_of_dismissed (h : x.Manages existing g policy)
    (hx : x.watcher = .dismissed) (hy : x.Reachable y) : y.watcher = .dismissed := by
  induction hy with
  | refl => exact hx
  | @step y z move hreach hm ih =>
    have horder := (h.reachable hreach).sound.inOrder
    cases posts_of_next? horder hm with
    | silent _ _ _ _ watcher_eq =>
      rcases watcher_eq with heq | ⟨hasleep, -⟩
      · exact heq.trans ih
      · rw [ih] at hasleep
        cases hasleep
    | mention _ _ _ _ _ watcher_eq => exact watcher_eq.trans ih
    | log _ _ _ _ _ _ _ watcher_eq => exact watcher_eq.trans ih
    | @record poster e posting _ _ _ _ watcher_eq =>
      have hposter : poster ≠ .watcher := by
        rintro rfl
        exact posting_ne_watcher horder (by simp [ih]) posting
      rw [watcher_eq, if_neg hposter, ih]

theorem Manages.not_told_of_dismissed (h : x.Manages existing g policy)
    (hx : x.watcher = .dismissed) : .interrupted ∉ x.logbook :=
  h.told.not_mem (by simp [hx]) (posting_ne_watcher h.sound.inOrder (by simp [hx]))

/-! ### The end -/

/-- When the manager has asked for all steps, nobody but the watcher has anything left to post once
they are handed back. -/
theorem posting_of_gone (hx : x.InOrder) (hgone : ∀ j ∈ x.jobs, j.isGone = true) :
    x.posting = none ∨ x.posting = some .watcher := by
  rcases hposting : x.posting with - | ⟨job | -⟩
  · exact .inl rfl
  · obtain ⟨e, hnext, -⟩ := hx.recordable _ hposting
    obtain ⟨⟨s, phase, o⟩, phase', hj, hpost⟩ := exists_of_nextPost? hnext
    have hover := hgone _ (List.mem_of_getElem? hj)
    obtain ⟨rest, rfl, -⟩ | ⟨trouble, rfl, -⟩ := cases_of_nextPost? hpost <;> cases hover
  · exact .inr rfl

/-- When the watcher is done and no job is under way, the history tells of the interrupt once. -/
theorem Manages.count_history_of_done (h : x.Manages existing g policy)
    (hgone : ∀ j ∈ x.jobs, j.isGone = true) (hdone : x.watcher = .done) :
    x.machine.history.count .interrupted = 1 := by
  have hfree : x.posting = none := (posting_of_gone h.sound.inOrder hgone).resolve_right
    (posting_ne_watcher h.sound.inOrder (by simp [hdone]))
  rw [← h.agrees.of_free hfree, History.heard, List.count_filter rfl, h.told, if_pos (.inl hdone)]

theorem Reachable.head {z : Execution} (hm : x.next? move = some y) (h : y.Reachable z) :
    x.Reachable z := by
  induction h with
  | refl => exact .step move .refl hm
  | step later _ hlater ih => exact ih.step later hlater

theorem exists_outcome_of_done (hawaiting : x.manager = .awaitingWatcher)
    (hdone : x.watcher = .done) : ∃ y o, x.Reachable y ∧ y.outcome? = some o := by
  refine ⟨{ x with manager := .returned x.machine.outcome }, _, .step .deliver .refl ?_, rfl⟩
  simp [next?, deliver?, hawaiting, hdone]

theorem exists_outcome_of_posting (hawaiting : x.manager = .awaitingWatcher)
    (hawake : x.watcher = .awake) (hposting : x.posting = some .watcher) :
    ∃ y o, x.Reachable y ∧ y.outcome? = some o := by
  let y : Execution :=
    { x with machine := x.machine.post .interrupted, posting := none, watcher := .done }
  have hrecord : x.next? .record = some y := by
    simp [next?, record?, hposting, nextPost?, hawake, posted, y]
  obtain ⟨z, o, hreach, hout⟩ := exists_outcome_of_done (x := y) hawaiting rfl
  exact ⟨z, o, hreach.head hrecord, hout⟩

theorem exists_outcome_of_awake (hawaiting : x.manager = .awaitingWatcher)
    (hawake : x.watcher = .awake) (hfree : x.posting = none) :
    ∃ y o, x.Reachable y ∧ y.outcome? = some o := by
  let y : Execution := { x.saw (.logged .interrupted) with posting := some .watcher }
  have hlog : x.next? (.log .watcher) = some y := by
    simp [next?, log?, hfree, nextPost?, hawake, Event.isInformational, y]
  obtain ⟨z, o, hreach, hout⟩ := exists_outcome_of_posting (x := y) hawaiting hawake rfl
  exact ⟨z, o, hreach.head hlog, hout⟩

/-- The manager does not wait for the watcher in vain: the run can go on to its outcome. -/
theorem Manages.exists_outcome (h : x.Manages existing g policy)
    (hawaiting : x.manager = .awaitingWatcher) : ∃ y o, x.Reachable y ∧ y.outcome? = some o := by
  have hposting := posting_of_gone h.sound.inOrder (h.isGone_of_leaving (by simp [hawaiting]))
  cases hwatcher : x.watcher with
  | done => exact exists_outcome_of_done hawaiting hwatcher
  | awake =>
    rcases hposting with hfree | hposting
    · exact exists_outcome_of_awake hawaiting hwatcher hfree
    · exact exists_outcome_of_posting hawaiting hwatcher hposting
  | asleep =>
    have hfree : x.posting = none :=
      hposting.resolve_right (posting_ne_watcher h.sound.inOrder (by simp [hwatcher]))
    have hwake : x.next? .wake = some { x with watcher := .awake } := by
      simp [Execution.next?, wake?, hwatcher, h.watched.awaited hawaiting]
    obtain ⟨z, o, hreach, hout⟩ :=
      exists_outcome_of_awake (x := { x with watcher := .awake }) hawaiting rfl hfree
    exact ⟨z, o, hreach.head hwake, hout⟩
  | dismissed =>
    obtain ⟨o, ho⟩ := h.watched.dismissed hwatcher
    rw [hawaiting] at ho
    cases ho

/-! ### The outcome -/

/-- What an outcome tells of is on record. -/
theorem Manages.failures_subset (h : x.Manages existing g policy) {o : Outcome}
    (ho : x.manager = .returned o) : o.failures ⊆ x.machine.history := by
  refine h.moves_induction (P := fun x => ∀ o, x.manager = .returned o →
    o.failures ⊆ x.machine.history) ?_ ?_ o ho
  · intro limit cancelled first hfirst o ho
    obtain rfl := eq_of_start? hfirst
    cases ho
  · intro x y move hx ih hm o ho
    have hgrows := (hx.sound.grows hx.sound_graph hm).1.subset
    rcases (hx.continuesTo hm).returned_or_eq_outcome ho with ho | ⟨-, rfl⟩
    · exact List.Subset.trans (ih o ho) hgrows
    · exact List.Subset.trans (fun _ he => (List.mem_filter.mp he).1) hgrows

/-- The run was cancelled before the manager looked for it. It does not do without the watcher, and
its outcome tells of the interrupt once. -/
structure Heard (x : Execution) : Prop where
  stopped : x.cancelled = true
  waits : x.manager ≠ .dismissingWatcher
  tells : ∀ o, x.manager = .returned o → x.watcher = .done ∧ o.failures.count .interrupted = 1

theorem Heard.takes (hx : x.Heard) (h : x.Manages existing g policy) (hm : x.Takes move y) :
    y.Heard := by
  have hdone : ∀ o, x.manager = .returned o → x.watcher = .done := fun o ho => (hx.tells o ho).1
  cases hm with
  | join => exact ⟨hx.stopped, nofun, nofun⟩
  | recordInterrupt => exact ⟨hx.stopped, hx.waits, fun o ho => ⟨rfl, (hx.tells o ho).2⟩⟩
  | cancel => exact ⟨rfl, hx.waits, hx.tells⟩
  | wake asleep =>
    refine ⟨hx.stopped, hx.waits, fun o ho => ?_⟩
    rw [hdone o ho] at asleep
    cases asleep
  | conclude => exact ⟨hx.stopped, by simp [hx.stopped], by simp [hx.stopped]⟩
  | heed awaiting done =>
    refine ⟨hx.stopped, nofun, fun o ho => ?_⟩
    cases ho
    refine ⟨done, (List.count_filter rfl).trans (h.count_history_of_done ?_ done)⟩
    exact h.isGone_of_leaving (by simp [awaiting])
  | dismiss dismissing => exact absurd dismissing hx.waits
  | _ => exact ⟨hx.stopped, hx.waits, hx.tells⟩

theorem Manages.heard (h : x.Manages existing g policy) (hx : x.Heard) (hy : x.Reachable y) :
    y.Heard := by
  induction hy with
  | refl => exact hx
  | step move hreach hm ih => exact ih.takes (h.reachable hreach) (takes_of_next? hm)

/-- How often a run and its outcome tell that the user has asked to stop. -/
structure TellsOnce (x : Execution) : Prop where
  atMostOnce : x.logbook.count .interrupted ≤ 1
  /-- Nothing is told while the run is not cancelled, nor once it has returned without that. -/
  never : x.cancelled = false → .interrupted ∉ x.logbook ∧ ∀ o, x.outcome? = some o →
    .interrupted ∉ o.failures ∧ ∀ y, x.Reachable y → .interrupted ∉ y.logbook
  /-- A run that is cancelled before the manager has looked for it tells of it, and so does the
  outcome. -/
  once : x.cancelled = true → x.manager = .dispatching ∨ x.manager = .joining →
    ∀ y o, x.Reachable y → y.outcome? = some o →
      y.logbook.count .interrupted = 1 ∧ o.failures.count .interrupted = 1
  inTime : x.manager = .awaitingWatcher → ∃ y o, x.Reachable y ∧ y.outcome? = some o

/-- All along a managed run, an interrupt is told of once, if the run is cancelled in time, and else
once at most. -/
theorem Manages.tellsOnce (h : x.Manages existing g policy) : x.TellsOnce where
  atMostOnce := h.count_interrupted_le
  never hgoing := by
    have hnot := h.not_told_of_going hgoing
    refine ⟨hnot, fun o hout => ⟨fun hmem => hnot ?_, fun y hy => ?_⟩⟩
    · exact h.agrees.mem_logbook_of_mem_history
        (h.failures_subset (returned_of_outcome? hout) hmem)
    · have hdismissed := h.watcher_of_dismissed (h.watcher_of_returned hout hgoing) hy
      exact (h.reachable hy).not_told_of_dismissed hdismissed
  once hstopped hbefore y o hy hout := by
    have hx : x.Heard := by
      rcases hbefore with hmanager | hmanager <;>
        exact ⟨hstopped, by simp [hmanager], by simp [hmanager]⟩
    obtain ⟨hdone, hcount⟩ := (h.heard hx hy).tells o (returned_of_outcome? hout)
    refine ⟨?_, hcount⟩
    rw [(h.reachable hy).told, if_pos (.inl hdone)]
  inTime := h.exists_outcome

/-- The small task is cancelled after all its steps were handed back, before the manager has looked
for it. -/
theorem Manages.tellsOnce_after_all_steps : ∃ x y : Execution, ∃ o,
    x.Manages none Sample.graph ⟨true, true⟩ ∧ x.cancelled = true ∧ x.manager = .joining ∧
      (∀ j ∈ x.jobs, j.isGone = true) ∧ .interrupted ∉ x.logbook ∧ x.Reachable y ∧
      y.outcome? = some o ∧ o.failures = [.interrupted] ∧ x.TellsOnce := by
  obtain ⟨x, hx, hp⟩ := Sample.exists_manages Sample.reply 14 [.dispatch, .cancel]
    (p := fun x => decide (x.cancelled = true ∧ x.manager = .joining ∧
      (∀ j ∈ x.jobs, j.isGone = true) ∧ .interrupted ∉ x.logbook ∧
      (x.after? [.conclude, .wake, .log .watcher, .record, .deliver]).any fun y =>
        y.outcome?.any fun o => o.failures = [.interrupted]))
    (by decide +kernel)
  obtain ⟨hstopped, hjoining, hgone, hnot, hrun⟩ := of_decide_eq_true hp
  obtain ⟨y, hy, hout⟩ := (Option.any_eq_true _ _).mp hrun
  obtain ⟨o, ho, hfailures⟩ := (Option.any_eq_true _ _).mp hout
  exact ⟨x, y, o, hx, hstopped, hjoining, hgone, hnot, Reachable.refl.after? hy, ho,
    of_decide_eq_true hfailures, hx.tellsOnce⟩

end Execution

end ContainerTasks
