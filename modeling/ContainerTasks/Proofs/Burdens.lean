import ContainerTasks.Proofs.ManagedRuns
import Mathlib.Data.Prod.Lex
import Mathlib.Order.Lattice.Nat

/-!
# No task goes on for ever

Whatever the runtime answers, whenever the user asks to stop and however the jobs take turns, only so
much can happen in a task. What is still to come is measured by a burden: first the stages, then the
rules of the stage whose steps have not been handed out, then what the jobs, the manager and the
watcher have still to do. Each move takes something off the burden, but for two kinds of moves that
leave it as it is: a call may tell any number of times how far it is, and the user may ask to stop
any number of times.

The work on a step is a tree that may branch as wide as a runtime has answers. Still no way down is
longer than a few acts, and that is what the burden of a job counts.

## Main definitions

* `Procedure.Within`, `Procedure.depth`: how many acts the work on a step takes
* `Job.weight`, `Execution.toil`, `Execution.burden`
* `Move.isIdle`: the moves that bring nothing nearer to its end

## Main results

* `exists_forall_of_lt`: nothing becomes less for ever
* `Step.within`: the work on a step takes at most seven acts
* `Execution.Manages.burden_lt`, `Execution.burden_eq`
-/

namespace ContainerTasks

/-- What becomes less with everything that is done, and is not changed otherwise, is not changed any
longer from some time on. -/
theorem exists_forall_of_lt {α : Type} [Preorder α] [WellFoundedLT α] {f : ℕ → α}
    {idle : ℕ → Bool} (hbusy : ∀ n, idle n = false → f (n + 1) < f n)
    (hidle : ∀ n, idle n = true → f (n + 1) = f n) : ∃ k, ∀ n, k ≤ n → idle n = true := by
  have hstep (n : ℕ) : f (n + 1) ≤ f n := by
    cases h : idle n with
    | true => exact (hidle n h).le
    | false => exact (hbusy n h).le
  -- it is least somewhere, and stays so
  obtain ⟨-, ⟨k, rfl⟩, hleast⟩ := wellFounded_lt.has_min (Set.range f) ⟨_, 0, rfl⟩
  refine ⟨k, fun n hkn => Bool.eq_true_of_not_eq_false fun h => ?_⟩
  exact hleast _ ⟨n + 1, rfl⟩ ((hbusy n h).trans_le (antitone_nat_of_succ_le hstep hkn))

/-! ### The length of work -/

namespace Procedure

/-- The work takes no more than so many acts, whatever the runtime answers. A call makes two acts,
to begin it and to have it answered. -/
def Within : Procedure → Nat → Prop
  | ended _, _ => True
  | post _ rest, n => 1 ≤ n ∧ rest.Within (n - 1)
  | check ifCancelled otherwise, n => 1 ≤ n ∧ ifCancelled.Within (n - 1) ∧ otherwise.Within (n - 1)
  | call _ next, n => 2 ≤ n ∧ ∀ reply, (next reply).Within (n - 2)

variable {p rest ifCancelled otherwise : Procedure} {m n : Nat} {e : Event} {c : Call}
  {next : Reply c.Value → Procedure}

theorem Within.mono (h : p.Within m) (hle : m ≤ n) : p.Within n := by
  induction p generalizing m n with
  | ended => trivial
  | post _ _ ih => exact ⟨h.1.trans hle, ih h.2 (by omega)⟩
  | check _ _ ih ih' => exact ⟨h.1.trans hle, ih h.2.1 (by omega), ih' h.2.2 (by omega)⟩
  | call _ _ ih => exact ⟨h.1.trans hle, fun reply => ih reply (h.2 reply) (by omega)⟩

/-- What is left of some work takes no more than all of it. -/
theorem Course.within {posted : List Event} (h : p.Course posted rest) (hp : p.Within n) :
    rest.Within n := by
  induction h with
  | refl => exact hp
  | post _ ih => exact ih.2.mono (Nat.sub_le _ _)
  | ifCancelled _ ih => exact ih.2.1.mono (Nat.sub_le _ _)
  | otherwise _ ih => exact ih.2.2.mono (Nat.sub_le _ _)
  | reply _ reply ih => exact (ih.2 reply).mono (Nat.sub_le _ _)

theorem within_ask {ifOk : c.Value → Procedure} {ifFailed : String → Procedure}
    (hok : ∀ value, (ifOk value).Within n) (hfailed : ∀ message, (ifFailed message).Within n) :
    (ask c ifOk ifFailed).Within (n + 2) := by
  refine ⟨Nat.le_add_left _ _, fun reply => ?_⟩
  cases reply with
  | ok value => exact hok value
  | failed message => exact hfailed message
  | cancelled | error | panicked => trivial

theorem within_askAndPost {ifOk : c.Value → Event} {ifFailed : String → Event} :
    (askAndPost c ifOk ifFailed).Within 3 :=
  within_ask (fun _ => ⟨Nat.le_refl 1, trivial⟩) fun _ => ⟨Nat.le_refl 1, trivial⟩

/-- How many acts the work takes at most, if there is a bound. -/
noncomputable def depth (p : Procedure) : Nat := sInf { n | p.Within n }

theorem Within.depth_le (h : p.Within n) : p.depth ≤ n := Nat.sInf_le h

theorem within_depth (h : p.Within n) : p.Within p.depth :=
  Nat.sInf_mem (s := { n | p.Within n }) ⟨n, h⟩

theorem depth_lt_of_post (h : (post e rest).Within n) : rest.depth < (post e rest).depth := by
  obtain ⟨hpos, hrest⟩ := within_depth h
  have := hrest.depth_le
  omega

theorem depth_lt_of_check (h : (check ifCancelled otherwise).Within n) :
    ifCancelled.depth < (check ifCancelled otherwise).depth ∧
      otherwise.depth < (check ifCancelled otherwise).depth := by
  obtain ⟨hpos, hcancelled, hother⟩ := within_depth h
  have := hcancelled.depth_le
  have := hother.depth_le
  omega

theorem depth_lt_of_call (h : (call c next).Within n) (reply : Reply c.Value) :
    (next reply).depth + 1 < (call c next).depth := by
  obtain ⟨htwo, hnext⟩ := within_depth h
  have := (hnext reply).depth_le
  omega

end Procedure

open Procedure in
/-- The work on a step takes at most seven acts. -/
theorem Step.within (s : Step) (existing : Option String) : (s.procedure existing).Within 7 := by
  have hask {c : Call} {ifOk : c.Value → Event} {ifFailed : String → Event} {n : Nat}
      (hn : 3 ≤ n) : (askAndPost c ifOk ifFailed).Within n := within_askAndPost.mono hn
  have hcheck {rest : Procedure} (h : rest.Within 6) : (unlessCancelled rest).Within 7 :=
    ⟨by decide, trivial, h⟩
  cases s with
  | prepareNetwork => cases existing <;> exact hcheck (hask (by decide))
  | createContainer => exact hcheck (hask (by decide))
  | runContainer container reference main =>
    refine hcheck (within_ask (fun _ => ⟨by decide, ?_⟩) fun _ => ⟨by decide, trivial⟩)
    cases main with
    | true => exact hask (by decide)
    | false => trivial
  | runSetupCommand => exact ⟨by decide, hask (by decide)⟩
  | markReady => exact ⟨by decide, trivial⟩
  | buildImage | pullImage | awaitHealth | stopContainer | removeContainer | deleteNetwork =>
    exact hask (by decide)

/-! ### Jobs -/

namespace Job

/-- A bound on the moves that a job has still to make, if there is a bound on its work. -/
noncomputable def weight (j : Job) : Nat :=
  match j.phase with
  | .handed => 17
  | .arriving => 16
  | .inLine => 15
  | .admitted => 14
  | .working rest => rest.depth + 5
  | .calling c next => (Procedure.call c next).depth + 4
  | .failing _ => 4
  | .reporting _ => 3
  | .leaving => 2
  | .released => 1
  | .gone => 0

/-- The same for several jobs. -/
noncomputable def weights : List Job → Nat
  | [] => 0
  | j :: rest => j.weight + weights rest

theorem weights_append (front back : List Job) :
    weights (front ++ back) = weights front + weights back := by
  induction front with
  | nil => exact (Nat.zero_add _).symm
  | cons j front ih => simp only [List.cons_append, weights, ih, Nat.add_assoc]

/-- There is a bound on the work of the job. -/
def IsBounded (j : Job) : Prop :=
  match j.phase with
  | .working rest => ∃ n, rest.Within n
  | .calling c next => ∃ n, (Procedure.call c next).Within n
  | _ => True

theorem Follows.isBounded {existing : Option String} {posted : List Event} {j : Job}
    (hj : j.Follows existing posted) : j.IsBounded := by
  obtain ⟨s, phase, o⟩ := j
  cases phase with
  | working rest =>
    obtain ⟨-, hcourse | ⟨-, rfl⟩⟩ := hj.working
    · exact ⟨7, hcourse.within (s.within existing)⟩
    · exact ⟨8, by decide, s.within existing⟩
  | calling c next => exact ⟨7, hj.2.within (s.within existing)⟩
  | _ => trivial

/-! Each act takes something off the weight of a job. -/

section Acts

variable {s : Step} {o : Option Ending} {e : Event} {rest ifCancelled otherwise : Procedure}
  {c : Call} {next : Reply c.Value → Procedure}

theorem IsBounded.weight_lt_of_post (h : IsBounded ⟨s, .working (.post e rest), o⟩) :
    weight ⟨s, .working rest, o⟩ < weight ⟨s, .working (.post e rest), o⟩ := by
  obtain ⟨n, hn⟩ := h
  exact Nat.add_lt_add_right (Procedure.depth_lt_of_post hn) 5

theorem IsBounded.weight_lt_of_check (h : IsBounded ⟨s, .working (.check ifCancelled otherwise), o⟩)
    (stopped : Bool) : weight ⟨s, .working (if stopped then ifCancelled else otherwise), o⟩ <
      weight ⟨s, .working (.check ifCancelled otherwise), o⟩ := by
  obtain ⟨n, hn⟩ := h
  obtain ⟨hcancelled, hother⟩ := Procedure.depth_lt_of_check hn
  refine Nat.add_lt_add_right ?_ 5
  cases stopped with
  | true => exact hcancelled
  | false => exact hother

theorem IsBounded.weight_lt_of_reply (h : IsBounded ⟨s, .calling c next, o⟩)
    (reply : Reply c.Value) :
    weight ⟨s, .working (next reply), o⟩ < weight ⟨s, .calling c next, o⟩ := by
  obtain ⟨n, hn⟩ := h
  exact Nat.add_lt_add_right (Procedure.depth_lt_of_call hn reply) 4

theorem IsBounded.weight_lt_of_skip (h : IsBounded ⟨s, .working (.call c next), o⟩) :
    weight ⟨s, .working (next .cancelled), o⟩ < weight ⟨s, .working (.call c next), o⟩ :=
  (IsBounded.weight_lt_of_reply (s := s) (o := o) h .cancelled).trans (Nat.lt_succ_self _)

/-- A job that begins has the whole work on its step before it. -/
theorem weight_lt_of_begin (s : Step) (o : Option Ending) (existing : Option String) :
    weight ⟨s, .working (.post (.stepStarting s) (s.procedure existing)), o⟩ <
      weight ⟨s, .admitted, o⟩ := by
  have hdepth := (show (Procedure.post (.stepStarting s) (s.procedure existing)).Within 8 from
    ⟨by decide, s.within existing⟩).depth_le
  simp only [weight]
  omega

end Acts

end Job

/-! ### The machine -/

namespace Machine

variable {m m' : Machine} {index : Nat} {step : Step}

/-- How many rules of the stage have not handed out their steps. -/
def untried (m : Machine) : Nat :=
  ((Finset.range m.rules.length).filter (· ∉ m.handedOut)).card

/-- What the machine has still to hand out. The stages count first. -/
def ahead (m : Machine) : ℕ ×ₗ ℕ := toLex (m.stage.remaining, m.untried)

theorem AdvancesTo.ahead_lt (h : m.AdvancesTo m') : m'.ahead < m.ahead := by
  rw [ahead, ahead, Prod.Lex.toLex_lt_toLex, h.eq]
  exact .inl (remaining_enterNextStage m h.unfinished)

theorem ahead_le_of_advances (h : Relation.ReflTransGen AdvancesTo m m') : m'.ahead ≤ m.ahead := by
  induction h with
  | refl => exact le_refl _
  | tail _ hlast ih => exact hlast.ahead_lt.le.trans ih

theorem ahead_handOut_lt (h : m.nextReady? = some (index, step)) :
    (m.handOut index).ahead < m.ahead := by
  obtain ⟨hfresh, r, hr, -⟩ := of_nextReady? h
  have hlt : index < m.rules.length := (List.getElem?_eq_some_iff.mp hr).1
  have hsub : (Finset.range m.rules.length).filter (· ∉ (m.handOut index).handedOut) ⊆
      (Finset.range m.rules.length).filter (· ∉ m.handedOut) :=
    Finset.monotone_filter_right _ fun i _ hi hmem => hi (List.mem_cons_of_mem _ hmem)
  have hless : (m.handOut index).untried < m.untried :=
    Finset.card_lt_card ((Finset.ssubset_iff_of_subset hsub).mpr
      ⟨index, by simp [hlt, hfresh], by simp [handOut]⟩)
  exact Prod.Lex.toLex_lt_toLex.mpr (.inr ⟨rfl, hless⟩)

theorem ahead_post (m : Machine) (e : Event) : (m.post e).ahead = m.ahead := by
  simp [ahead, untried]

/-- A step that is handed out takes something off what is ahead, and so does a stage that ends. -/
theorem ahead_of_pop {answer : Pop} (h : m.pop = (answer, m')) :
    m'.ahead < m.ahead ∨ m' = m ∧ answer.steps = [] := by
  obtain ⟨m₁, hadvances, hpop⟩ := m.pop_spec
  have hwaits : m₁.ahead < m.ahead ∨ m₁ = m := by
    rcases hadvances.cases_head with rfl | ⟨first, hfirst, hrest⟩
    · exact .inr rfl
    · exact .inl ((ahead_le_of_advances hrest).trans_lt hfirst.ahead_lt)
  rcases hpop with ⟨index, step, hready, heq⟩ | ⟨-, -, heq⟩ | ⟨-, -, -, heq⟩ <;> rw [heq] at h <;>
    cases h
  · exact .inl ((ahead_handOut_lt hready).trans_le (ahead_le_of_advances hadvances))
  · exact hwaits.imp_right fun heq => ⟨heq, rfl⟩
  · exact hwaits.imp_right fun heq => ⟨heq, rfl⟩

end Machine

/-! ### Executions -/

/-- A bound on what the manager has still to do when the machine has nothing more to hand out. -/
def Manager.weight : Manager → Nat
  | dispatching => 3
  | joining => 2
  | awaitingWatcher | dismissingWatcher => 1
  | returned _ => 0

/-- A bound on what the watcher has still to do. -/
def Watcher.weight : Watcher → Nat
  | asleep => 3
  | awake => 2
  | done | dismissed => 0

/-- The moves that bring nothing nearer to its end: a call tells how far it is, or the user asks to
stop. -/
def Move.isIdle : Move → Bool
  | progress .. | cancel => true
  | _ => false

namespace Execution

variable {existing : Option String} {g : Graph} {policy : CleanupPolicy} {x y : Execution}
  {move : Move} {job : Nat} {j : Job} {f : Job → Job}

/-- A bound on what has still to be done for the steps that were handed out. A move of a job counts
twice, so that an event that is logged and then recorded takes something off each time. -/
noncomputable def toil (x : Execution) : Nat :=
  2 * Job.weights x.jobs + x.manager.weight + x.watcher.weight +
    if x.posting.isNone then 1 else 0

/-- What is still to come. -/
noncomputable def burden (x : Execution) : (ℕ ×ₗ ℕ) ×ₗ ℕ := toLex (x.machine.ahead, x.toil)

theorem burden_lt_of_ahead (h : y.machine.ahead < x.machine.ahead) : y.burden < x.burden :=
  Prod.Lex.toLex_lt_toLex.mpr (.inl h)

theorem burden_lt_of_toil (hahead : y.machine.ahead = x.machine.ahead) (h : y.toil < x.toil) :
    y.burden < x.burden :=
  Prod.Lex.toLex_lt_toLex.mpr (.inr ⟨hahead, h⟩)

theorem weights_modify (hj : x.jobs[job]? = some j) :
    Job.weights (x.jobs.modify job f) + j.weight = Job.weights x.jobs + (f j).weight := by
  obtain ⟨front, back, hsplit, -, hmodify⟩ := exists_split hj
  rw [hmodify, hsplit]
  simp only [Job.weights_append, Job.weights]
  omega

/-- One job goes on. It may have recorded an event. -/
theorem burden_lt_of_job (hj : x.jobs[job]? = some j) (hjobs : y.jobs = x.jobs.modify job f)
    (hless : (f j).weight < j.weight) (hahead : y.machine.ahead = x.machine.ahead)
    (hmanager : y.manager = x.manager) (hwatcher : y.watcher = x.watcher) :
    y.burden < x.burden := by
  refine burden_lt_of_toil hahead ?_
  have hsum := weights_modify (f := f) hj
  have hfree : (if y.posting.isNone then 1 else 0) ≤ 1 := by split <;> decide
  rw [toil, toil, hjobs, hmanager, hwatcher]
  omega

/-- The manager or the watcher goes on, or an event is logged. -/
theorem burden_lt_of_control (hjobs : y.jobs = x.jobs)
    (hahead : y.machine.ahead = x.machine.ahead)
    (h : y.manager.weight + y.watcher.weight + (if y.posting.isNone then 1 else 0) <
      x.manager.weight + x.watcher.weight + if x.posting.isNone then 1 else 0) :
    y.burden < x.burden := by
  refine burden_lt_of_toil hahead ?_
  rw [toil, toil, hjobs]
  omega

/-- Each move but an idle one takes something off the burden. -/
theorem burden_lt_of_takes (hbounded : ∀ j ∈ x.jobs, j.IsBounded) (horder : x.InOrder)
    (h : x.Takes move y) (hbusy : move.isIdle = false) : y.burden < x.burden := by
  have bounded {job : Nat} {j : Job} (on : x.jobs[job]? = some j) : j.IsBounded :=
    hbounded _ (List.mem_of_getElem? on)
  cases h with
  | handOut dispatching asked =>
    rcases Machine.ahead_of_pop asked with hless | ⟨-, hnone⟩
    · exact burden_lt_of_ahead hless
    · cases hnone
  | join dispatching asked =>
    rcases Machine.ahead_of_pop asked with hless | ⟨rfl, -⟩
    · exact burden_lt_of_ahead hless
    · exact burden_lt_of_control rfl rfl (by simp [dispatching, Manager.weight])
  | drop on | arrive on | enter on | takePermit on | joinLine on | giveUp on | report on
  | release on | giveBack on | finish on =>
    exact burden_lt_of_job on rfl (by simp [Job.weight]) rfl rfl rfl
  | begin on => exact burden_lt_of_job on rfl (Job.weight_lt_of_begin ..) rfl rfl rfl
  | mention on => exact burden_lt_of_job on rfl (bounded on).weight_lt_of_post rfl rfl rfl
  | log free => exact burden_lt_of_control rfl rfl (by simp [free, saw])
  | record on =>
    exact burden_lt_of_job on rfl (bounded on).weight_lt_of_post (Machine.ahead_post ..) rfl rfl
  | recordFailure on =>
    exact burden_lt_of_job on rfl (by simp [Job.weight]) (Machine.ahead_post ..) rfl rfl
  | recordInterrupt posting awake =>
    exact burden_lt_of_control rfl (Machine.ahead_post ..) (by simp [posting, awake, Watcher.weight])
  | settle on | fail on =>
    exact burden_lt_of_job on (jobs_setPhase_setEnding ..) (by simp [Job.weight]) rfl rfl rfl
  | check on => exact burden_lt_of_job on rfl ((bounded on).weight_lt_of_check _) rfl rfl rfl
  | skip on => exact burden_lt_of_job on rfl (bounded on).weight_lt_of_skip rfl rfl rfl
  | call on => exact burden_lt_of_job on rfl (by simp [Job.weight]) rfl rfl rfl
  | progress | cancel => cases hbusy
  | answer on | abandon on =>
    exact burden_lt_of_job on rfl ((bounded on).weight_lt_of_reply _) rfl rfl rfl
  | @handOver job head rest s o on needs waiting =>
    -- two jobs go on at once: one gives its permit back, and the head of the line takes it
    obtain ⟨s', o', -, hhead⟩ := horder.exists_head on waiting
    have hleaves : burden { x.setPhase job .released with line := rest } < x.burden :=
      burden_lt_of_job on rfl (by simp [Job.weight]) rfl rfl rfl
    refine lt_trans ?_ hleaves
    exact burden_lt_of_job (x := { x.setPhase job .released with line := rest }) hhead rfl
      (by simp [Job.weight]) rfl rfl rfl
  | wake asleep => exact burden_lt_of_control rfl rfl (by simp [asleep, Watcher.weight])
  | conclude joining =>
    refine burden_lt_of_control rfl rfl ?_
    rw [joining]
    split <;> simp [Manager.weight]
  | heed awaiting => exact burden_lt_of_control rfl rfl (by simp [awaiting, Manager.weight])
  | dismiss dismissing =>
    refine burden_lt_of_control rfl rfl ?_
    rw [dismissing]
    split <;> simp_all [Manager.weight, Watcher.weight]

/-- An idle move leaves the burden as it is. -/
theorem burden_eq (h : x.next? move = some y) (hidle : move.isIdle = true) :
    y.burden = x.burden := by
  cases takes_of_next? h with
  | progress | cancel => rfl
  | _ => cases hidle

theorem Manages.burden_lt (h : x.Manages existing g policy) (hm : x.next? move = some y)
    (hbusy : move.isIdle = false) : y.burden < x.burden :=
  burden_lt_of_takes (fun j hj => (h.sound.ledger.follows j hj).isBounded) h.sound.inOrder
    (takes_of_next? hm) hbusy

end Execution

end ContainerTasks
