import ContainerTasks.Execution
import Mathlib.Data.Option.Basic

/-!
# Moves one by one

What comes of a move is given by a function, which looks at a good deal before it does anything.
Here the same is said as a relation, with one case for each thing that a move can do: what has to
be the case, and what the execution is after that. What is claimed of all moves is then proved by
cases, and no proof but one opens the function.

## Main definitions

* `Execution.Takes`: a move and what comes of it

## Main results

* `Execution.takes_of_next?`
-/

namespace ContainerTasks

theorem Job.isBarred_iff {j : Job} {cancelled : Bool} :
    j.isBarred cancelled = true ↔ cancelled = true ∧ j.step.isCleanup = false := by
  simp only [isBarred, Bool.and_eq_true, Bool.not_eq_true']

namespace Execution

/-- The execution can take a move, and this is what comes of it. -/
inductive Takes (x : Execution) : Move → Execution → Prop where
  | handOut {step : Step} {m : Machine} (dispatching : x.manager = .dispatching)
    (asked : x.machine.pop = (.step step, m)) :
    Takes x .dispatch { x with machine := m, jobs := x.jobs ++ [.new step] }
  /-- The machine has finished. -/
  | join {m : Machine} (dispatching : x.manager = .dispatching)
    (asked : x.machine.pop = (.finished, m)) :
    Takes x .dispatch { x with machine := m, manager := .joining }
  | drop {job : Nat} {s : Step} {o : Option Ending} (on : x.jobs[job]? = some ⟨s, .handed, o⟩)
    (stopped : x.cancelled = true) (making : s.isCleanup = false) :
    Takes x (.place job) (x.handBack job)
  | arrive {job : Nat} {s : Step} {o : Option Ending} (on : x.jobs[job]? = some ⟨s, .handed, o⟩)
    (kept : x.cancelled = true → s.isCleanup = true) :
    Takes x (.place job) (x.setPhase job .arriving)
  /-- A job gets in that needs no permit. -/
  | enter {job : Nat} {s : Step} {o : Option Ending} (on : x.jobs[job]? = some ⟨s, .arriving, o⟩)
    (needless : x.needsPermit s = false) : Takes x (.enter job) (x.setPhase job .admitted)
  | takePermit {job : Nat} {s : Step} {o : Option Ending}
    (on : x.jobs[job]? = some ⟨s, .arriving, o⟩) (needs : x.needsPermit s = true)
    (free : 0 < x.freePermits) :
    Takes x (.enter job) ({ x with freePermits := x.freePermits - 1 }.setPhase job .admitted)
  | joinLine {job : Nat} {s : Step} {o : Option Ending}
    (on : x.jobs[job]? = some ⟨s, .arriving, o⟩) (needs : x.needsPermit s = true)
    (taken : x.freePermits = 0) :
    Takes x (.enter job) ({ x with line := x.line ++ [job] }.setPhase job .inLine)
  | giveUp {job : Nat} {s : Step} {o : Option Ending} (on : x.jobs[job]? = some ⟨s, .admitted, o⟩)
    (stopped : x.cancelled = true) (making : s.isCleanup = false) :
    Takes x (.begin job) (x.setPhase job .leaving)
  | begin {job : Nat} {s : Step} {o : Option Ending} (on : x.jobs[job]? = some ⟨s, .admitted, o⟩)
    (kept : x.cancelled = true → s.isCleanup = true) :
    Takes x (.begin job)
      (x.setPhase job (.working (.post (.stepStarting s) (s.procedure x.existingNetwork))))
  /-- A job logs an event that is for the log alone. -/
  | mention {job : Nat} {s : Step} {o : Option Ending} {e : Event} {rest : Procedure}
    (on : x.jobs[job]? = some ⟨s, .working (.post e rest), o⟩) (free : x.posting = none)
    (forLog : e.isInformational = true) :
    Takes x (.log (.job job)) ((x.saw (.logged e)).setPhase job (.working rest))
  | log {poster : Poster} {e : Event} (free : x.posting = none)
    (next : x.nextPost? poster = some e) (forHistory : e.isInformational = false) :
    Takes x (.log poster) { x.saw (.logged e) with posting := some poster }
  | record {job : Nat} {s : Step} {o : Option Ending} {e : Event} {rest : Procedure}
    (on : x.jobs[job]? = some ⟨s, .working (.post e rest), o⟩)
    (posting : x.posting = some (.job job)) :
    Takes x .record
      ({ x with machine := x.machine.post e, posting := none }.setPhase job (.working rest))
  | recordFailure {job : Nat} {s : Step} {o : Option Ending} {trouble : Trouble}
    (on : x.jobs[job]? = some ⟨s, .failing trouble, o⟩) (posting : x.posting = some (.job job)) :
    Takes x .record ({ x with machine := x.machine.post (s.failure trouble), posting := none
      }.setPhase job (.reporting trouble))
  | recordInterrupt (posting : x.posting = some .watcher) (awake : x.watcher = .awake) :
    Takes x .record
      { x with machine := x.machine.post .interrupted, posting := none, watcher := .done }
  | settle {job : Nat} {s : Step} {o : Option Ending} {ending : Ending}
    (on : x.jobs[job]? = some ⟨s, .working (.ended ending), o⟩) (quiet : ending.trouble? = none) :
    Takes x (.work job) ((x.setEnding job ending).setPhase job .leaving)
  | fail {job : Nat} {s : Step} {o : Option Ending} {ending : Ending} {trouble : Trouble}
    (on : x.jobs[job]? = some ⟨s, .working (.ended ending), o⟩)
    (loud : ending.trouble? = some trouble) :
    Takes x (.work job) ((x.setEnding job ending).setPhase job (.failing trouble))
  | check {job : Nat} {s : Step} {o : Option Ending} {ifCancelled otherwise : Procedure}
    (on : x.jobs[job]? = some ⟨s, .working (.check ifCancelled otherwise), o⟩) :
    Takes x (.work job)
      (x.setPhase job (.working (if x.cancelled then ifCancelled else otherwise)))
  | skip {job : Nat} {s : Step} {o : Option Ending} {c : Call} {next : Reply c.Value → Procedure}
    (on : x.jobs[job]? = some ⟨s, .working (.call c next), o⟩) (may : c.isAbandonable = true)
    (stopped : x.cancelled = true) : Takes x (.work job) (x.setPhase job (.working (next .cancelled)))
  | call {job : Nat} {s : Step} {o : Option Ending} {c : Call} {next : Reply c.Value → Procedure}
    (on : x.jobs[job]? = some ⟨s, .working (.call c next), o⟩)
    (kept : (c.isAbandonable && x.cancelled) = false) :
    Takes x (.work job) ((x.saw (.began job c)).setPhase job (.calling c next))
  | report {job : Nat} {s : Step} {o : Option Ending} {trouble : Trouble}
    (on : x.jobs[job]? = some ⟨s, .reporting trouble, o⟩) :
    Takes x (.work job) ((x.saw (.reported job trouble)).setPhase job .leaving)
  | progress {job : Nat} {line : String} {s : Step} {o : Option Ending} {c : Call}
    {next : Reply c.Value → Procedure} {e : Event}
    (on : x.jobs[job]? = some ⟨s, .calling c next, o⟩) (free : x.posting = none)
    (tells : c.progress? line = some e) : Takes x (.progress job line) (x.saw (.logged e))
  | answer {job : Nat} {s : Step} {o : Option Ending} {a : Answer}
    {next : Reply a.call.Value → Procedure} (on : x.jobs[job]? = some ⟨s, .calling a.call next, o⟩)
    (kept : (a.call.isAbandonable && x.cancelled) = false) :
    Takes x (.reply job a) ((x.saw (.answered job a)).setPhase job (.working (next a.reply)))
  | abandon {job : Nat} {s : Step} {o : Option Ending} {c : Call}
    {next : Reply c.Value → Procedure} (on : x.jobs[job]? = some ⟨s, .calling c next, o⟩)
    (may : c.isAbandonable = true) (stopped : x.cancelled = true) :
    Takes x (.abandon job) ((x.saw (.abandoned job c)).setPhase job (.working (next .cancelled)))
  /-- A job is through that had no permit. -/
  | release {job : Nat} {s : Step} {o : Option Ending}
    (on : x.jobs[job]? = some ⟨s, .leaving, o⟩) (needless : x.needsPermit s = false) :
    Takes x (.release job) (x.setPhase job .released)
  | giveBack {job : Nat} {s : Step} {o : Option Ending}
    (on : x.jobs[job]? = some ⟨s, .leaving, o⟩) (needs : x.needsPermit s = true)
    (nobody : x.line = []) :
    Takes x (.release job) { x.setPhase job .released with freePermits := x.freePermits + 1 }
  /-- The permit of a job that is through goes to the head of the line. -/
  | handOver {job head : Nat} {rest : List Nat} {s : Step} {o : Option Ending}
    (on : x.jobs[job]? = some ⟨s, .leaving, o⟩) (needs : x.needsPermit s = true)
    (waiting : x.line = head :: rest) :
    Takes x (.release job) ({ x.setPhase job .released with line := rest }.setPhase head .admitted)
  | finish {job : Nat} {s : Step} {o : Option Ending}
    (on : x.jobs[job]? = some ⟨s, .released, o⟩) : Takes x (.finish job) (x.handBack job)
  | cancel : Takes x .cancel { x with cancelled := true }
  | wake (asleep : x.watcher = .asleep) (stopped : x.cancelled = true) :
    Takes x .wake { x with watcher := .awake }
  | conclude (joining : x.manager = .joining) (through : ∀ j ∈ x.jobs, j.isGone = true) :
    Takes x .conclude
      { x with manager := if x.cancelled then .awaitingWatcher else .dismissingWatcher }
  /-- The manager has waited for the watcher. -/
  | heed (awaiting : x.manager = .awaitingWatcher) (done : x.watcher = .done) :
    Takes x .deliver { x with manager := .returned x.machine.outcome }
  /-- The manager has no need of the watcher. -/
  | dismiss (dismissing : x.manager = .dismissingWatcher) :
    Takes x .deliver { x with
      manager := .returned x.machine.outcome
      watcher := if x.watcher = .asleep then .dismissed else x.watcher }

variable {x y : Execution} {job : Nat} {j : Job}

/-! ### Where an execution starts -/

theorem eq_of_start? {m : Machine} {existing : Option String} {limit : Option Nat}
    {cancelled : Bool} (h : start? m existing limit cancelled = some x) :
    x = {
      machine := m, existingNetwork := existing, limit, cancelled
      freePermits := limit.getD 0, line := [], jobs := [], manager := .dispatching
      watcher := .asleep, posting := none, trace := [] } := by
  unfold start? at h
  split at h <;> cases h
  rfl

/-! ### Jobs and what they post -/

theorem phase?_eq (hj : x.jobs[job]? = some j) : x.phase? job = some j.phase := by
  rw [phase?, hj]
  rfl

theorem exists_job {phase : Phase} (h : x.phase? job = some phase) :
    ∃ s o, x.jobs[job]? = some ⟨s, phase, o⟩ := by
  obtain ⟨⟨s, _, o⟩, hj, rfl⟩ := Option.map_eq_some_iff.mp h
  exact ⟨s, o, hj⟩

theorem exists_of_nextPost? {e : Event} (h : x.nextPost? (.job job) = some e) :
    ∃ j phase, x.jobs[job]? = some j ∧ j.nextPost? = some (e, phase) := by
  obtain ⟨j, hj, h⟩ := Option.bind_eq_some_iff.mp h
  obtain ⟨⟨e', phase⟩, hpost, h⟩ := Option.bind_eq_some_iff.mp h
  cases h
  exact ⟨j, phase, hj, hpost⟩

theorem nextPost?_job {e : Event} {phase : Phase} (hj : x.jobs[job]? = some j)
    (hpost : j.nextPost? = some (e, phase)) : x.nextPost? (.job job) = some e := by
  simp [nextPost?, hj, hpost]

theorem posted_job {e : Event} {phase : Phase} (hj : x.jobs[job]? = some j)
    (hpost : j.nextPost? = some (e, phase)) :
    x.posted (.job job) = x.setPhase job phase := by
  simp [posted, hj, hpost]

theorem eq_interrupted_of_nextPost? {e : Event} (h : x.nextPost? .watcher = some e) :
    e = .interrupted := by
  simp only [nextPost?] at h
  split at h <;> cases h
  rfl

/-- The two phases in which a job posts an event. -/
theorem cases_of_nextPost? {s : Step} {phase phase' : Phase} {o : Option Ending} {e : Event}
    (h : Job.nextPost? ⟨s, phase, o⟩ = some (e, phase')) :
    (∃ rest, phase = .working (.post e rest) ∧ phase' = .working rest) ∨
      ∃ trouble, phase = .failing trouble ∧ phase' = .reporting trouble ∧ e = s.failure trouble := by
  cases phase <;> simp only [Job.nextPost?, reduceCtorEq, Option.some.injEq, Prod.mk.injEq] at h
  · next rest =>
    cases rest <;> simp only [Option.some.injEq, Prod.mk.injEq, reduceCtorEq] at h
    obtain ⟨rfl, rfl⟩ := h
    exact .inl ⟨_, rfl, rfl⟩
  · obtain ⟨rfl, rfl⟩ := h
    exact .inr ⟨_, rfl, rfl, rfl⟩

/-! ### What the function says -/

theorem takes_of_dispatch? (h : x.dispatch? = some y) : x.Takes .dispatch y := by
  obtain ⟨u, hguard, h⟩ := Option.bind_eq_some_iff.mp h
  have hfree : x.manager = .dispatching := ((Option.guard_eq_some' u).mp hguard).1
  split at h
  · next hpop =>
    cases h
    exact .handOut hfree hpop
  · cases h
  · next hpop =>
    cases h
    exact .join hfree hpop

theorem takes_of_place? (h : x.place? job = some y) : x.Takes (.place job) y := by
  obtain ⟨⟨s, phase, o⟩, hj, h⟩ := Option.bind_eq_some_iff.mp h
  cases phase <;> simp only [reduceCtorEq] at h
  cases h
  split
  · next hbarred =>
    obtain ⟨hstopped, hmaking⟩ := Job.isBarred_iff.mp hbarred
    exact .drop hj hstopped hmaking
  · next hfree => exact .arrive hj (by simpa [Job.isBarred_iff] using hfree)

theorem takes_of_enter? (h : x.enter? job = some y) : x.Takes (.enter job) y := by
  obtain ⟨⟨s, phase, o⟩, hj, h⟩ := Option.bind_eq_some_iff.mp h
  cases phase <;> simp only [reduceCtorEq] at h
  split at h
  · next hneedless =>
    cases h
    exact .enter hj (by simpa using hneedless)
  · next hneeds =>
    have hneeds : x.needsPermit s = true := by simpa using hneeds
    split at h
    · next hfree =>
      cases h
      exact .takePermit hj hneeds hfree
    · next htaken =>
      cases h
      exact .joinLine hj hneeds (Nat.eq_zero_of_not_pos htaken)

theorem takes_of_begin? (h : x.begin? job = some y) : x.Takes (.begin job) y := by
  obtain ⟨⟨s, phase, o⟩, hj, h⟩ := Option.bind_eq_some_iff.mp h
  cases phase <;> simp only [reduceCtorEq] at h
  cases h
  split
  · next hbarred =>
    obtain ⟨hstopped, hmaking⟩ := Job.isBarred_iff.mp hbarred
    exact .giveUp hj hstopped hmaking
  · next hfree => exact .begin hj (by simpa [Job.isBarred_iff] using hfree)

theorem takes_of_log? {poster : Poster} (h : x.log? poster = some y) : x.Takes (.log poster) y := by
  obtain ⟨u, hguard, h⟩ := Option.bind_eq_some_iff.mp h
  have hfree : x.posting = none :=
    Option.isNone_iff_eq_none.mp ((Option.guard_eq_some' u).mp hguard)
  obtain ⟨e, hnext, h⟩ := Option.bind_eq_some_iff.mp h
  cases h
  split
  · next hlog =>
    cases poster with
    | watcher =>
      rw [eq_interrupted_of_nextPost? hnext] at hlog
      cases hlog
    | job job =>
      obtain ⟨⟨s, phase, o⟩, phase', hj, hpost⟩ := exists_of_nextPost? hnext
      rw [posted_job (x := x.saw _) hj hpost]
      obtain ⟨rest, rfl, rfl⟩ | ⟨trouble, -, -, rfl⟩ := cases_of_nextPost? hpost
      · exact .mention hj hfree hlog
      · cases hlog
  · next hrecord => exact .log hfree hnext (by simpa using hrecord)

theorem takes_of_record? (h : x.record? = some y) : x.Takes .record y := by
  obtain ⟨poster, hposter, h⟩ := Option.bind_eq_some_iff.mp h
  obtain ⟨e, hnext, h⟩ := Option.bind_eq_some_iff.mp h
  cases h
  cases poster with
  | watcher =>
    obtain rfl := eq_interrupted_of_nextPost? hnext
    refine .recordInterrupt hposter ?_
    simp only [nextPost?] at hnext
    split at hnext
    · assumption
    · cases hnext
  | job job =>
    obtain ⟨⟨s, phase, o⟩, phase', hj, hpost⟩ := exists_of_nextPost? hnext
    rw [posted_job (x := { x with machine := x.machine.post e, posting := none }) hj hpost]
    obtain ⟨rest, rfl, rfl⟩ | ⟨trouble, rfl, rfl, rfl⟩ := cases_of_nextPost? hpost
    · exact .record hj hposter
    · exact .recordFailure hj hposter

theorem takes_of_work? (h : x.work? job = some y) : x.Takes (.work job) y := by
  obtain ⟨phase, hphase, h⟩ := Option.bind_eq_some_iff.mp h
  obtain ⟨s, o, hj⟩ := exists_job hphase
  split at h
  · cases h
    unfold settle
    split
    · next hquiet => exact .settle hj hquiet
    · next hloud => exact .fail hj hloud
  · cases h
    exact .check hj
  · split at h
    · next hstopped =>
      cases h
      obtain ⟨hmay, hstopped⟩ := Bool.and_eq_true_iff.mp hstopped
      exact .skip hj hmay hstopped
    · next hkept =>
      cases h
      exact .call hj (by simpa only [Bool.not_eq_true] using hkept)
  · cases h
    exact .report hj
  · cases h

theorem takes_of_progress? {line : String} (h : x.progress? job line = some y) :
    x.Takes (.progress job line) y := by
  obtain ⟨u, hguard, h⟩ := Option.bind_eq_some_iff.mp h
  have hfree : x.posting = none :=
    Option.isNone_iff_eq_none.mp ((Option.guard_eq_some' u).mp hguard)
  obtain ⟨phase, hphase, h⟩ := Option.bind_eq_some_iff.mp h
  obtain ⟨s, o, hj⟩ := exists_job hphase
  split at h
  · obtain ⟨e, htells, h⟩ := Option.bind_eq_some_iff.mp h
    cases h
    exact .progress hj hfree htells
  · cases h

theorem takes_of_reply? {a : Answer} (h : x.reply? job a = some y) : x.Takes (.reply job a) y := by
  obtain ⟨phase, hphase, h⟩ := Option.bind_eq_some_iff.mp h
  obtain ⟨s, o, hj⟩ := exists_job hphase
  split at h
  · split at h
    · cases h
    · next hkept =>
      split at h
      · next hcall =>
        subst hcall
        cases h
        exact .answer hj (by simpa only [Bool.not_eq_true] using hkept)
      · cases h
  · cases h

theorem takes_of_abandon? (h : x.abandon? job = some y) : x.Takes (.abandon job) y := by
  obtain ⟨phase, hphase, h⟩ := Option.bind_eq_some_iff.mp h
  obtain ⟨s, o, hj⟩ := exists_job hphase
  split at h
  · split at h
    · next hstopped =>
      cases h
      obtain ⟨hmay, hstopped⟩ := Bool.and_eq_true_iff.mp hstopped
      exact .abandon hj hmay hstopped
    · cases h
  · cases h

theorem takes_of_release? (h : x.release? job = some y) : x.Takes (.release job) y := by
  obtain ⟨⟨s, phase, o⟩, hj, h⟩ := Option.bind_eq_some_iff.mp h
  cases phase <;> simp only [reduceCtorEq] at h
  cases h
  split
  · next hneeds =>
    unfold freePermit
    split
    · next hnobody => exact .giveBack hj hneeds hnobody
    · next hwaiting => exact .handOver hj hneeds hwaiting
  · next hneedless => exact .release hj (Bool.of_not_eq_true hneedless)

theorem takes_of_deliver? (h : x.deliver? = some y) : x.Takes .deliver y := by
  unfold deliver? at h
  split at h
  · next hawaiting =>
    obtain ⟨u, hguard, h⟩ := Option.bind_eq_some_iff.mp h
    cases h
    exact .heed hawaiting ((Option.guard_eq_some' u).mp hguard)
  · next hdismissing =>
    cases h
    exact .dismiss hdismissing
  · cases h

/-- What comes of a move, case by case. -/
theorem takes_of_next? {move : Move} (h : x.next? move = some y) : x.Takes move y := by
  cases move with
  | dispatch => exact takes_of_dispatch? h
  | place job => exact takes_of_place? h
  | enter job => exact takes_of_enter? h
  | begin job => exact takes_of_begin? h
  | log poster => exact takes_of_log? h
  | record => exact takes_of_record? h
  | work job => exact takes_of_work? h
  | progress job line => exact takes_of_progress? h
  | reply job a => exact takes_of_reply? h
  | abandon job => exact takes_of_abandon? h
  | release job => exact takes_of_release? h
  | finish job =>
    obtain ⟨phase, hphase, h⟩ := Option.bind_eq_some_iff.mp h
    obtain ⟨s, o, hj⟩ := exists_job hphase
    split at h
    · cases h
      exact .finish hj
    · cases h
  | cancel =>
    cases h
    exact .cancel
  | wake =>
    obtain ⟨u, hguard, h⟩ := Option.bind_eq_some_iff.mp h
    cases h
    obtain ⟨hasleep, hstopped⟩ := (Option.guard_eq_some' u).mp hguard
    exact .wake hasleep hstopped
  | conclude =>
    obtain ⟨u, hguard, h⟩ := Option.bind_eq_some_iff.mp h
    cases h
    obtain ⟨hjoining, hgone⟩ := (Option.guard_eq_some' u).mp hguard
    exact .conclude hjoining (List.all_eq_true.mp hgone)
  | deliver => exact takes_of_deliver? h

end Execution

end ContainerTasks
