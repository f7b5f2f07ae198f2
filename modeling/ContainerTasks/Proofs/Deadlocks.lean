import ContainerTasks.Proofs.Burdens
import ContainerTasks.Proofs.Notices
import ContainerTasks.Proofs.Permits

/-!
# Somebody can always go on

As long as a task is not over, there is a move that brings it nearer to its end, whatever answers the
runtime has for its calls, provided that a limit on parallel work leaves at least one permit.

Whoever has logged an event can have it recorded. Else every job can go on that neither is gone nor
waits for a permit. If there are no such jobs, then all permits are free, so that nobody waits for
one; and with all jobs gone no step is in flight, so that the machine does not keep the manager
waiting. As nobody goes on for ever either, every task comes to its end.

## Main definitions

* `Move.Obeys`: a move that brings something nearer to its end, with answers of a certain kind
* `Execution.CanGoOn`: such a move is possible
* `Execution.ComesToEnd`: a task comes to its end, if its calls are answered

## Main results

* `Execution.Manages.canGoOn`
* `Execution.Manages.comesToEnd`
-/

namespace ContainerTasks

/-- The move brings something nearer to its end, and if it answers a call, then as told. -/
def Move.Obeys (reply : (c : Call) → Reply c.Value) : Move → Prop
  | .reply _ answer => answer.reply = reply answer.call
  | .progress .. | .cancel => False
  | _ => True

namespace Execution

variable {existing : Option String} {g : Graph} {policy : CleanupPolicy} {x : Execution}
  {i : Nat} {j : Job}

/-- Something can be done that brings the execution nearer to its end. -/
def CanGoOn (reply : (c : Call) → Reply c.Value) (x : Execution) : Prop :=
  ∃ move : Move, move.Obeys reply ∧ (x.next? move).isSome = true

variable {reply : (c : Call) → Reply c.Value}

/-! ### Posting and jobs -/

/-- An event that was logged can be recorded. -/
theorem canGoOn_of_posting {poster : Poster} (hx : x.InOrder) (h : x.posting = some poster) :
    x.CanGoOn reply := by
  obtain ⟨e, hnext, -⟩ := hx.recordable poster h
  exact ⟨.record, trivial, by simp [next?, record?, h, hnext]⟩

theorem canGoOn_of_nextPost? {poster : Poster} {e : Event} (hfree : x.posting = none)
    (h : x.nextPost? poster = some e) : x.CanGoOn reply :=
  ⟨.log poster, trivial, by simp [next?, log?, hfree, h]⟩

/-- A call is answered, or given up in a cancelled run. -/
theorem canGoOn_of_calling {c : Call} {next : Reply c.Value → Procedure}
    (hphase : x.phase? i = some (.calling c next)) : x.CanGoOn reply := by
  cases hstopped : c.isAbandonable && x.cancelled with
  | true => exact ⟨.abandon i, trivial, by simpa [next?, abandon?, hphase] using hstopped⟩
  | false => exact ⟨.reply i ⟨c, reply c⟩, rfl, by simpa [next?, reply?, hphase] using hstopped⟩

/-- Every job can go on that neither is gone nor waits for a permit. -/
theorem canGoOn_of_job (hfree : x.posting = none) (hj : x.jobs[i]? = some j)
    (hgone : j.isGone = false) (hwaits : j.isWaiting = false) : x.CanGoOn reply := by
  obtain ⟨s, phase, o⟩ := j
  have hphase := phase?_eq hj
  cases phase with
  | handed => exact ⟨.place i, trivial, by simp [next?, place?, hj]⟩
  | arriving =>
    refine ⟨.enter i, trivial, ?_⟩
    simp only [next?, enter?, hj, Option.bind_eq_bind, Option.bind_some]
    split_ifs <;> rfl
  | inLine => cases hwaits
  | admitted => exact ⟨.begin i, trivial, by simp [next?, begin?, hj]⟩
  | working rest =>
    cases rest with
    | post e rest => exact canGoOn_of_nextPost? hfree (nextPost?_job hj rfl)
    | ended | check => exact ⟨.work i, trivial, by simp [next?, work?, hphase]⟩
    | call c next =>
      refine ⟨.work i, trivial, ?_⟩
      simp only [next?, work?, hphase, Option.bind_eq_bind, Option.bind_some]
      split_ifs <;> rfl
  | calling c next => exact canGoOn_of_calling hphase
  | failing trouble => exact canGoOn_of_nextPost? hfree (nextPost?_job hj rfl)
  | reporting => exact ⟨.work i, trivial, by simp [next?, work?, hphase]⟩
  | leaving => exact ⟨.release i, trivial, by simp [next?, release?, hj]⟩
  | released => exact ⟨.finish i, trivial, by simp [next?, finish?, hphase]⟩
  | gone => cases hgone

/-! ### Permits -/

/-- Nobody waits for a permit if there is no limit. -/
theorem isWaiting_of_takes {y : Execution} {move : Move} (hlimit : x.limit = none)
    (hx : ∀ j ∈ x.jobs, j.isWaiting = false) (h : x.Takes move y) :
    ∀ j ∈ y.jobs, j.isWaiting = false := by
  have hneedless (s : Step) : x.needsPermit s = false := by simp [needsPermit, hlimit]
  cases h with
  | handOut => exact List.forall_mem_append.mpr ⟨hx, List.forall_mem_singleton.mpr rfl⟩
  | join | log | recordInterrupt | progress | cancel | wake | conclude | heed | dismiss => exact hx
  | drop on | arrive on | enter on | giveUp on | begin on | mention on | record on
  | recordFailure on | check on | skip on | call on | report on | answer on | abandon on
  | release on | finish on => exact forall_mem_modify hx on rfl
  | settle on | fail on =>
    rw [jobs_setPhase_setEnding]
    exact forall_mem_modify hx on rfl
  | takePermit _ needs | joinLine _ needs | giveBack _ needs | handOver _ needs =>
    rw [hneedless] at needs
    cases needs

theorem Manages.isWaiting_of_limit_eq_none (h : x.Manages existing g policy)
    (hlimit : x.limit = none) : ∀ j ∈ x.jobs, j.isWaiting = false := by
  refine h.moves_induction
    (P := fun x => x.limit = none → ∀ j ∈ x.jobs, j.isWaiting = false) ?_ ?_ hlimit
  · intro limit cancelled first hfirst _
    obtain rfl := eq_of_start? hfirst
    exact List.forall_mem_nil _
  · intro x y move _ ih hm hlimit
    have htakes := takes_of_next? hm
    rw [limit_of_takes htakes] at hlimit
    exact isWaiting_of_takes hlimit (ih hlimit) htakes

/-- If all jobs are gone or wait for a permit, then all are gone, as nobody holds a permit. -/
theorem Manages.isGone_of_waiting (h : x.Manages existing g policy) (hlimit : x.limit ≠ some 0)
    (hstuck : ∀ j ∈ x.jobs, j.isGone = true ∨ j.isWaiting = true) :
    ∀ j ∈ x.jobs, j.isGone = true := by
  suffices ∀ j ∈ x.jobs, j.isWaiting = false from
    fun j hj => (hstuck j hj).resolve_right (by simp [this j hj])
  cases hn : x.limit with
  | none => exact h.isWaiting_of_limit_eq_none hn
  | some n =>
    intro j hj
    by_contra hwaits
    -- all permits are held when somebody waits, but nobody holds one who waits or is gone
    have hpermits := h.keepsLimit hn
    have hheld := (hpermits.busy j hj (Bool.of_not_eq_false hwaits)).2
    have hnone : x.jobs.countP Job.holds = 0 := by
      refine List.countP_eq_zero.mpr fun k hk => ?_
      obtain ⟨s, phase, o⟩ := k
      rcases hstuck _ hk with hk | hk <;> cases phase <;>
        simp_all [Job.isGone, Job.isWaiting, Job.holds, Job.isInside]
    exact hlimit (by rw [hn, ← hheld, hnone])

/-! ### The manager -/

/-- With all jobs gone the manager can go on, or waits for the watcher, which can. -/
theorem canGoOn_of_gone (h : x.Manages existing g policy) (hfree : x.posting = none)
    (hout : x.outcome? = none) (hgone : ∀ j ∈ x.jobs, j.isGone = true) : x.CanGoOn reply := by
  cases hmanager : x.manager with
  | dispatching =>
    have hidle : x.machine.inFlight = 0 := h.sound.ledger.inFlight_eq.trans
      (List.countP_eq_zero.mpr fun j hj => by simp [hgone j hj])
    have hall : x.jobs.all (!·.isHanded) = true := List.all_eq_true.mpr fun j hj => by
      have := hgone j hj
      obtain ⟨s, phase, o⟩ := j
      cases phase <;> simp_all [Job.isGone, Job.isHanded]
    refine ⟨.dispatch, trivial, ?_⟩
    have hpop : x.machine.pop.1 ≠ .blocked := fun hblocked =>
      Machine.inFlight_of_blocked hblocked hidle
    simp only [next?, dispatch?, hmanager, hall]
    rcases heq : x.machine.pop with ⟨_ | _ | _, m⟩ <;> simp_all
  | joining =>
    exact ⟨.conclude, trivial, by simp [next?, conclude?, hmanager, List.all_eq_true.mpr hgone]⟩
  | awaitingWatcher =>
    cases hwatcher : x.watcher with
    | asleep =>
      exact ⟨.wake, trivial, by simp [next?, wake?, hwatcher, h.watched.awaited hmanager]⟩
    | awake =>
      have hnext : x.nextPost? .watcher = some .interrupted := by simp [nextPost?, hwatcher]
      exact canGoOn_of_nextPost? hfree hnext
    | done => exact ⟨.deliver, trivial, by simp [next?, deliver?, hmanager, hwatcher]⟩
    | dismissed =>
      obtain ⟨o, ho⟩ := h.watched.dismissed hwatcher
      rw [hmanager] at ho
      cases ho
  | dismissingWatcher => exact ⟨.deliver, trivial, by simp [next?, deliver?, hmanager]⟩
  | returned o => simp [outcome?, hmanager] at hout

/-- As long as a task is not over, somebody can go on, whatever answers there are for the calls. -/
theorem Manages.canGoOn (h : x.Manages existing g policy) (hlimit : x.limit ≠ some 0)
    (hout : x.outcome? = none) (reply : (c : Call) → Reply c.Value) : x.CanGoOn reply := by
  cases hfree : x.posting with
  | some poster => exact canGoOn_of_posting h.sound.inOrder hfree
  | none =>
    by_cases hstuck : ∀ j ∈ x.jobs, j.isGone = true ∨ j.isWaiting = true
    · exact canGoOn_of_gone h hfree hout (h.isGone_of_waiting hlimit hstuck)
    · push Not at hstuck
      obtain ⟨j, hj, hgone, hwaits⟩ := hstuck
      obtain ⟨i, hi⟩ := List.getElem?_of_mem hj
      exact canGoOn_of_job hfree hi (Bool.of_not_eq_true hgone) (Bool.of_not_eq_true hwaits)

/-- A task comes to its end. As long as it has no outcome, somebody can go on, whatever answers
there are for the calls; and it does not go on for ever, unless from some time on calls do nothing
but tell how far they are and the user nothing but ask to stop. -/
structure ComesToEnd (first : Execution) : Prop where
  goesOn : ∀ x, first.Reachable x → x.outcome? = none →
    ∀ reply : (c : Call) → Reply c.Value, x.CanGoOn reply
  ends : ∀ (run : Nat → Execution) (moves : Nat → Move), run 0 = first →
    (∀ k, (run k).next? (moves k) = some (run (k + 1))) →
      ∃ k, ∀ i, k ≤ i → (moves i).isIdle = true

/-- From wherever it has got to, a managed run comes to its end. -/
theorem Manages.comesToEnd (h : x.Manages existing g policy) (hlimit : x.limit ≠ some 0) :
    x.ComesToEnd where
  goesOn y hy hout reply := (h.reachable hy).canGoOn (hy.limit_eq ▸ hlimit) hout reply
  ends run moves hrun hmoves := by
    have hmanages (k : Nat) : (run k).Manages existing g policy := by
      induction k with
      | zero => exact hrun ▸ h
      | succ k ih => exact ih.next? (hmoves k)
    refine exists_forall_of_lt (f := fun k => (run k).burden) (fun k hbusy => ?_) fun k hidle => ?_
    · exact (hmanages k).burden_lt (hmoves k) hbusy
    · exact burden_eq (hmoves k) hidle

end Execution

end ContainerTasks
