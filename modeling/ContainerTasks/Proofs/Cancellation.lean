import ContainerTasks.Proofs.Successes
import ContainerTasks.Proofs.Walks
import ContainerTasks.Proofs.Accounts
import ContainerTasks.Proofs.Deadlocks

/-!
# What a cancellation stops

Once the user has asked to stop, the first stage begins nothing any longer. Whether the run is
cancelled is looked at in four places: when the manager sets up the job of a step, when the job has
got its permit, on the way down the work before something is made, and at each call that may be
given up. Together they leave no way to new work: the rest of the work on a step may post events,
but meets a check or a call that may be given up before it comes to anything else. This is so only
between two waits. A job that has just seen that the run goes on will make its call even if the
user asks to stop at that very moment; so here what a job does between two waits is taken to be done
at once.

A call that is never given up is awaited, and what it is answered is dealt with. What takes
something down is done to the end, cancelled or not. It does come to an end, since somebody can go on
as long as a step is not handed back, and nobody goes on for ever.

## Main definitions

* `Procedure.Halted`: no call is begun in a cancelled run, and no step is logged
* `Happening.startsWork`
* `Job.Frank`: nothing goes unsaid
* `Ledger.Settled`: an answer was dealt with
* `Execution.ManagesUncut`: runs that are cancelled between two waits
* `Execution.WindsDown`: what comes of a cancelled run

## Main results

* `Step.yields`: a call that is answered in a cancelled run is the last one of its step
* `Ledger.Halted.effect`: the first stage stays halted
* `Execution.ManagesUncut.windsDown`
-/

namespace ContainerTasks

/-! ### Procedures -/

namespace Procedure

/-- In a cancelled run, the rest of the work begins no call and logs no step. -/
def Halted : Procedure → Prop
  | ended _ => True
  | post e rest => e.isInformational = false ∧ rest.Halted
  | check ifCancelled _ => ifCancelled.Halted
  | call c next => c.isAbandonable = true ∧ (next .cancelled).Halted

/-- The work goes no further than the answer of a call, if the run is cancelled by then. -/
def Yields : Procedure → Prop
  | ended _ => True
  | post _ rest => rest.Yields
  | check ifCancelled otherwise => ifCancelled.Yields ∧ otherwise.Yields
  | call _ next => ∀ reply, (next reply).Halted ∧ (next reply).Yields

variable {p rest : Procedure} {posted : List Event} {c : Call} {ifOk : c.Value → Procedure}
  {ifFailed : String → Procedure}

theorem Course.yields (h : p.Course posted rest) (hp : p.Yields) : rest.Yields := by
  induction h with
  | refl => exact hp
  | post _ ih => exact ih
  | ifCancelled _ ih => exact ih.1
  | otherwise _ ih => exact ih.2
  | reply _ reply ih => exact (ih reply).2

theorem yields_ask (hok : ∀ value, (ifOk value).Halted ∧ (ifOk value).Yields)
    (hfailed : ∀ message, (ifFailed message).Halted ∧ (ifFailed message).Yields) :
    (ask c ifOk ifFailed).Yields := by
  intro reply
  cases reply with
  | ok value => exact hok value
  | failed message => exact hfailed message
  | cancelled | error | panicked => exact ⟨trivial, trivial⟩

theorem yields_askAndPost {ifOk : c.Value → Event} {ifFailed : String → Event}
    (hok : ∀ value, (ifOk value).isInformational = false)
    (hfailed : ∀ message, (ifFailed message).isInformational = false) :
    (askAndPost c ifOk ifFailed).Yields :=
  yields_ask (fun value => ⟨⟨hok value, trivial⟩, trivial⟩)
    fun message => ⟨⟨hfailed message, trivial⟩, trivial⟩

end Procedure

open Procedure in
/-- A call that is answered in a cancelled run is the last one of its step. -/
theorem Step.yields (s : Step) (existing : Option String) : (s.procedure existing).Yields := by
  have hcancelled : (Procedure.ended .cancelled).Yields := trivial
  cases s with
  | prepareNetwork =>
    cases existing <;> exact ⟨hcancelled, yields_askAndPost (fun _ => rfl) fun _ => rfl⟩
  | createContainer => exact ⟨hcancelled, yields_askAndPost (fun _ => rfl) fun _ => rfl⟩
  | runContainer container reference main =>
    refine ⟨hcancelled, yields_ask (fun _ => ?_) fun _ => ⟨⟨rfl, trivial⟩, trivial⟩⟩
    cases main with
    | true => exact ⟨⟨rfl, rfl, trivial⟩, yields_askAndPost (fun _ => rfl) fun _ => rfl⟩
    | false => exact ⟨⟨rfl, trivial⟩, trivial⟩
  | runSetupCommand =>
    refine yields_askAndPost (fun result => ?_) fun _ => rfl
    split <;> rfl
  | markReady => trivial
  | buildImage | pullImage | awaitHealth | stopContainer | removeContainer | deleteNetwork =>
    exact yields_askAndPost (fun _ => rfl) fun _ => rfl

/-! ### Nothing of the first stage is begun -/

/-- A step of the first stage is begun, or a call of such a step. -/
def Happening.startsWork : Happening → Bool
  | logged (.stepStarting s) => !s.isCleanup
  | began _ c => !c.takesDown
  | logged _ | answered .. | abandoned .. | reported .. => false

theorem Step.takesDown_of_mem_calls {existing : Option String} {s : Step} {c : Call}
    (hs : s.isCleanup = true) (hc : c ∈ s.calls existing) : c.takesDown = true := by
  cases s with
  | stopContainer | removeContainer | deleteNetwork =>
    rcases List.mem_singleton.mp hc with rfl
    rfl
  | _ => cases hs

namespace Job

variable {existing : Option String} {index : Nat} {j j' : Job} {seen : List Happening}
  {posted : List Event}

/-- In a cancelled run, the rest of the work on the step begins no call and logs no step. -/
def Halted (j : Job) : Prop :=
  match j.phase with
  | .working rest => rest.Halted
  | _ => True

theorem Glides.halted (on : j.Glides existing true index j' seen)
    (hfollows : j.Follows existing posted) (hs : j.step.isCleanup = false) (hj : j.Halted) :
    j'.Halted := by
  cases on with
  | begin free =>
    rw [free rfl] at hs
    cases hs
  | log | skip => exact hj.2
  | ifCancelled => exact hj
  | otherwise going => cases going
  | answer => exact (hfollows.2.yields (Step.yields _ existing) _).1
  | abandon => exact (hfollows.2.yields (Step.yields _ existing) _).1
  | arrive | joinLine | enter | leaveLine | giveUp | call | settle | fail | report | release =>
    trivial

/-- What is seen of a job that glides in a cancelled run is no new work of the first stage. -/
theorem Glides.startsWork_eq_false {more : List Happening}
    (on : j.Glides existing true index j' seen) (haccounts : j.Accounts existing index posted more)
    (hj : j.step.isCleanup = false → j.Halted) : ∀ e ∈ seen, e.startsWork = false := by
  cases on with
  | @log s o e rest forLog =>
    rcases haccounts.working with hw | ⟨-, h⟩
    · rw [not_isInformational_of_course hw.course] at forLog
      cases forLog
    · cases h
      have hs : s.isCleanup = true := by
        by_contra hs
        exact absurd (hj (Bool.eq_false_iff.mpr hs)).1 (by simp [Event.isInformational])
      exact List.forall_mem_singleton.mpr (by simp [Happening.startsWork, hs])
  | @call s o c next kept =>
    have hc : c.takesDown = true := by
      cases hs : s.isCleanup with
      | true => exact Step.takesDown_of_mem_calls hs haccounts.mem_calls
      | false => exact absurd (hj hs).1 (by simp [kept rfl])
    exact List.forall_mem_singleton.mpr (by simp [Happening.startsWork, hc])
  | answer | abandon | report => exact List.forall_mem_singleton.mpr rfl
  | _ => exact fun _ he => by cases he

end Job

namespace Ledger

variable {existing : Option String} {g : Graph} {policy : CleanupPolicy} {l l' : Ledger}

/-- No job of the first stage begins anything any longer. -/
def Halted (l : Ledger) : Prop := ∀ j ∈ l.jobs, j.step.isCleanup = false → j.Halted

/-- One job goes on. -/
theorem Halted.of_job {m m' : Machine} {front back : List Job} {j j' : Job}
    {trace trace' : List Happening} (hl : Halted ⟨m, front ++ j :: back, trace⟩)
    (hstep : j'.step = j.step) (hj : j.step.isCleanup = false → j.Halted → j'.Halted) :
    Halted ⟨m', front ++ j' :: back, trace'⟩ := by
  have hall : ∀ k ∈ front ++ j :: back, k.step.isCleanup = false → k.Halted := hl
  show ∀ k ∈ front ++ j' :: back, k.step.isCleanup = false → k.Halted
  simp only [List.forall_mem_append, List.forall_mem_cons] at hall ⊢
  exact ⟨hall.1, fun hs => hj (hstep ▸ hs) (hall.2.1 (hstep ▸ hs)), hall.2.2⟩

/-- In a cancelled run, the work of the first stage stays where it is. -/
theorem Halted.effect (hl : l.Halted) (hsound : l.Sound existing g policy)
    (h : l.Effect existing true l') : l'.Halted := by
  cases h with
  | advance | interrupt | log => exact hl
  | handOut =>
    exact List.forall_mem_append.mpr ⟨hl, List.forall_mem_singleton.mpr fun _ => trivial⟩
  | glide on =>
    exact hl.of_job on.step_eq fun hs => on.halted (hsound.follows _ (by simp)) hs
  | drop | handBack | recordFailure => exact hl.of_job rfl fun _ _ => trivial
  | record => exact hl.of_job rfl fun _ hj => hj.2

/-- In a cancelled run, no work of the first stage is seen to begin. -/
theorem Halted.startsWork_eq_false (hl : l.Halted) (htraced : l.Traced existing)
    (h : l.Effect existing true l') :
    ∃ later, l'.trace = l.trace ++ later ∧ ∀ e ∈ later, e.startsWork = false := by
  cases h with
  | @glide m front back j j' trace seen on =>
    have hj := htraced.accounts front.length j (getElem?_length_append ..)
    exact ⟨seen, rfl, on.startsWork_eq_false hj (hl j (by simp))⟩
  | @log m jobs trace e other =>
    refine ⟨[.logged e], rfl, List.forall_mem_singleton.mpr ?_⟩
    cases e with
    | stepStarting s => exact absurd rfl (other s)
    | _ => rfl
  | advance | handOut | drop | handBack | record | recordFailure | interrupt =>
    exact ⟨[], (List.append_nil _).symm, List.forall_mem_nil _⟩

end Ledger

/-! ### What comes of each job -/

open Procedure in
/-- The work that takes something down makes its calls before it comes to an end. -/
theorem Step.along_calls_of_isCleanup {s : Step} (hs : s.isCleanup = true)
    (existing : Option String) (job : Nat) :
    (s.procedure existing).Along job (fun _ seen rest => rest.nextCall? = none →
      seen.filterMap Happening.begun? = s.calls existing) [] [] := by
  cases s with
  | stopContainer | removeContainer | deleteNetwork =>
    refine ⟨nofun, nofun, fun reply => ?_⟩
    cases reply with
    | ok | failed => exact ⟨fun _ => rfl, fun _ => rfl⟩
    | cancelled | error | panicked => exact fun _ => rfl
  | _ => cases hs

namespace Job

variable {existing : Option String} {cancelled : Bool} {index : Nat} {j j' : Job}
  {history later : History} {trace seen : List Happening} {posted : List Event}

/-- It was said that the step is begun. -/
def Announced (trace : List Happening) (j : Job) : Prop := .logged (.stepStarting j.step) ∈ trace

/-- An unexpected error was recorded and reported. -/
def Confesses (index : Nat) (history : History) (trace : List Happening) (j : Job)
    (trouble : Trouble) : Prop :=
  j.step.failure trouble ∈ history ∧ .reported index trouble ∈ trace

/-- Nothing goes unsaid: work is done only on a step that was said to be begun, and work that ends
in an unexpected error is not over before this was recorded and reported. -/
def Frank (index : Nat) (history : History) (trace : List Happening) (j : Job) : Prop :=
  match j.phase with
  | .handed | .arriving | .inLine | .admitted => True
  | .working rest => j.Announced trace ∨ ∃ after, rest = .post (.stepStarting j.step) after
  | .calling .. => j.Announced trace
  | .failing trouble => j.Announced trace ∧ j.ending.bind Ending.trouble? = some trouble
  | .reporting trouble => j.Announced trace ∧ j.ending.bind Ending.trouble? = some trouble ∧
    j.step.failure trouble ∈ history
  | .leaving | .released | .gone => ∀ ending, j.ending = some ending → j.Announced trace ∧
    ∀ trouble, ending.trouble? = some trouble → j.Confesses index history trace trouble

theorem Frank.mono {trace' : List Happening} (hj : j.Frank index history trace)
    (hhistory : history ⊆ later) (htrace : trace ⊆ trace') : j.Frank index later trace' := by
  obtain ⟨s, phase, o⟩ := j
  cases phase with
  | handed | arriving | inLine | admitted => trivial
  | working => exact hj.imp_left fun h => htrace h
  | calling => exact htrace hj
  | failing => exact hj.imp_left fun h => htrace h
  | reporting => exact ⟨htrace hj.1, hj.2.1, hhistory hj.2.2⟩
  | leaving | released | gone =>
    exact fun ending ho => (hj ending ho).imp (fun h => htrace h)
      fun h trouble hloud => (h trouble hloud).imp (fun h => hhistory h) fun h => htrace h

theorem Glides.frank (on : j.Glides existing cancelled index j' seen)
    (hfollows : j.Follows existing posted) (hj : j.Frank index history trace) :
    j'.Frank index history (trace ++ seen) := by
  replace hj : j.Frank index history (trace ++ seen) :=
    hj.mono (List.Subset.refl _) (List.subset_append_left _ _)
  have hworking : ∀ {s rest o}, (∀ e after, rest ≠ .post e after) →
      Frank index history (trace ++ seen) ⟨s, .working rest, o⟩ →
      Announced (trace ++ seen) ⟨s, .gone, o⟩ := by
    intro s rest o hrest hj
    rcases hj with h | ⟨after, h⟩
    · exact h
    · exact absurd h (hrest _ _)
  cases on with
  | arrive | joinLine | enter | leaveLine => trivial
  | giveUp =>
    intro ending ho
    rw [show _ = none from hfollows.2] at ho
    cases ho
  | begin => exact .inr ⟨_, rfl⟩
  | log forLog =>
    obtain ⟨-, hc | ⟨-, h⟩⟩ := hfollows.working
    · rw [not_isInformational_of_course hc] at forLog
      cases forLog
    · cases h
      exact .inl (List.mem_append_right _ (List.mem_singleton_self _))
  | ifCancelled | otherwise | skip => exact .inl (hworking (by simp) hj)
  | call => exact hworking (by simp) hj
  | answer | abandon => exact .inl hj
  | settle quiet =>
    intro ending ho
    cases ho
    refine ⟨hworking (by simp) hj, fun trouble hloud => ?_⟩
    rw [quiet] at hloud
    cases hloud
  | fail loud => exact ⟨hworking (by simp) hj, loud⟩
  | report =>
    intro ending ho
    obtain ⟨hannounced, hloud, hrecorded⟩ := hj
    refine ⟨hannounced, fun trouble htrouble => ?_⟩
    rw [ho, Option.bind_some, htrouble, Option.some.injEq] at hloud
    subst hloud
    exact ⟨hrecorded, List.mem_append_right _ (List.mem_singleton_self _)⟩
  | release => exact hj

end Job

namespace Ledger

variable {existing : Option String} {g : Graph} {policy : CleanupPolicy} {l l' : Ledger}
  {cancelled : Bool} {i : Nat} {j : Job} {c : Call} {a : Answer}

/-- Of no job goes anything unsaid. -/
def Frank (l : Ledger) : Prop :=
  ∀ (i : Nat) (j : Job), l.jobs[i]? = some j → j.Frank i l.machine.history l.trace

/-- One job goes on, and the others stay as they are. -/
theorem Frank.of_job {m m' : Machine} {front back : List Job} {j j' : Job}
    {trace seen : List Happening} (hl : Frank ⟨m, front ++ j :: back, trace⟩)
    (hhistory : m.history ⊆ m'.history)
    (hj : j.Frank front.length m.history trace →
      j'.Frank front.length m'.history (trace ++ seen)) :
    Frank ⟨m', front ++ j' :: back, trace ++ seen⟩ := by
  intro i k hk
  rcases getElem?_append_cons (b := j) hk with ⟨rfl, rfl⟩ | ⟨-, hk⟩
  · exact hj (hl front.length j (getElem?_length_append ..))
  · exact (hl i k hk).mono hhistory (List.subset_append_left _ _)

theorem Frank.of_silent_job {m m' : Machine} {front back : List Job} {j j' : Job}
    {trace : List Happening} (hl : Frank ⟨m, front ++ j :: back, trace⟩)
    (hhistory : m.history ⊆ m'.history)
    (hj : j.Frank front.length m.history trace → j'.Frank front.length m'.history trace) :
    Frank ⟨m', front ++ j' :: back, trace⟩ := by
  have hkept : Frank ⟨m', front ++ j' :: back, trace ++ []⟩ :=
    hl.of_job hhistory (by simpa using hj)
  rwa [List.append_nil] at hkept

theorem Frank.effect (hl : l.Frank) (hsound : l.Sound existing g policy)
    (h : l.Effect existing cancelled l') : l'.Frank := by
  have hposts : ∀ {m : Machine} {e : Event}, m.history ⊆ (m.post e).history := by
    intro m e
    rw [Machine.history_post]
    exact List.subset_append_left _ _
  cases h with
  | advance ends => exact fun i j hj => ends.history_eq ▸ hl i j hj
  | interrupt => exact fun i j hj => (hl i j hj).mono hposts (List.Subset.refl _)
  | log => exact fun i j hj => (hl i j hj).mono (List.Subset.refl _) (List.subset_append_left _ _)
  | @handOut m jobs trace index step ready =>
    intro i j hj
    rcases Nat.lt_or_ge i jobs.length with hlt | hge
    · rw [List.getElem?_append_left hlt] at hj
      exact hl i j hj
    · rw [List.getElem?_append_right hge, List.getElem?_singleton] at hj
      split at hj <;> cases hj
      trivial
  | glide on =>
    exact hl.of_job (List.Subset.refl _) (on.frank (hsound.follows _ (by simp)))
  | @drop m front back s o trace stopped making =>
    have hfollows := hsound.follows ⟨s, .handed, o⟩ (by simp)
    refine hl.of_silent_job (List.Subset.refl _) fun _ ending ho => ?_
    rw [show _ = none from hfollows.2] at ho
    cases ho
  | handBack => exact hl.of_silent_job (List.Subset.refl _) id
  | record forHistory =>
    refine hl.of_silent_job hposts fun hj => .inl (hj.resolve_right ?_)
    rintro ⟨after, h⟩
    rw [(Procedure.post.inj h).1] at forHistory
    cases forHistory
  | recordFailure =>
    refine hl.of_silent_job hposts fun hj => ⟨hj.1, hj.2, ?_⟩
    rw [Machine.history_post]
    exact List.mem_append_right _ (List.mem_singleton_self _)

/-- What a call was answered was dealt with: an event about it is on record, or it tells nothing and
has ended the work of the job, and an unexpected error was recorded and reported. -/
inductive Settled (l : Ledger) (i : Nat) (a : Answer) : Prop where
  | told {j : Job} {e : Event} (hj : l.jobs[i]? = some j) (report : j.step.report? a = some e)
    (recorded : e ∈ l.machine.history)
  | ended {j : Job} (hj : l.jobs[i]? = some j) (silent : j.step.report? a = none)
    (ending_eq : j.ending = some a.reply.ending)
    (confessed : ∀ trouble, a.reply.ending.trouble? = some trouble →
      j.Confesses i l.machine.history l.trace trouble)

/-- A call that is never given up is answered by the time that the step is handed back, and the
answer was dealt with. -/
theorem Traced.exists_settled (ht : l.Traced existing) (hl : l.Frank) (hj : l.jobs[i]? = some j)
    (hgone : j.isGone = true) (hc : .began i c ∈ l.trace) (hkept : c.isAbandonable = false) :
    ∃ a : Answer, a.call = c ∧ .answered i a ∈ l.trace ∧ l.Settled i a := by
  have haccounts := ht.accounts i j hj
  have hfrank := hl i j hj
  have hseen : .began i c ∈ l.seen i := List.mem_filter.mpr ⟨hc, decide_eq_true rfl⟩
  obtain ⟨s, phase, o⟩ := j
  cases phase <;> simp only [Job.isGone, Bool.false_eq_true] at hgone
  rcases haccounts with ⟨ending, ho, hw⟩ | ⟨⟨-, hnil⟩, -⟩
  · rcases hw.over_of_began hseen with ⟨a, rfl, hover⟩ | ⟨hmay, -⟩
    · have ha : .answered i a ∈ l.seen i := hover.subset (by simp)
      refine ⟨a, rfl, (List.mem_filter.mp ha).1, ?_⟩
      have htells : s.Tells existing i _ _ (.ended ending) := (hw.along (s.tells existing i)).here
      cases hreport : s.report? a with
      | some e =>
        refine .told hj hreport ?_
        have hmem : e ∈ l.machine.history.about s.duty := by
          have hposted := htells.posted_eq
          rw [Procedure.upcoming, List.append_nil] at hposted
          rw [hposted]
          refine List.mem_append_right _ (List.mem_filterMap.mpr ⟨_, ha, ?_⟩)
          exact hreport
        exact (List.mem_filter.mp hmem).1
      | none =>
        obtain rfl : ending = a.reply.ending := by
          simpa using htells.faulty a ha hreport
        exact .ended hj hreport ho (hfrank _ ho).2
    · rw [hkept] at hmay
      cases hmay
  · rw [hnil] at hseen
    cases hseen

/-- The step that takes something down is handed back only when it was said to be begun and its
calls were begun. -/
theorem Traced.began_of_isCleanup (ht : l.Traced existing) (hl : l.Frank)
    (hj : l.jobs[i]? = some j) (hs : j.step.isCleanup = true) (hgone : j.isGone = true) :
    j.Announced l.trace ∧ ∀ c ∈ j.step.calls existing, .began i c ∈ l.trace := by
  have haccounts := ht.accounts i j hj
  have hfrank := hl i j hj
  obtain ⟨s, phase, o⟩ := j
  cases phase <;> simp only [Job.isGone, Bool.false_eq_true] at hgone
  rcases haccounts with ⟨ending, ho, hw⟩ | ⟨-, -, hmaking⟩
  · refine ⟨(hfrank _ ho).1, fun c hc => mem_begun_seen.mp ?_⟩
    rw [(hw.along (Step.along_calls_of_isCleanup hs existing i)).here rfl]
    exact hc
  · rw [show s.isCleanup = true from hs] at hmaking
    cases hmaking

end Ledger

/-! ### Runs that are cancelled between two waits -/

/-- Whether the job is at work, and does not wait for anything. -/
def Job.isAtWork (j : Job) : Bool :=
  match j.phase with
  | .working _ => true
  | _ => false

theorem Job.halted_of_isAtWork {j : Job} (hj : j.isAtWork = false) : j.Halted := by
  obtain ⟨s, phase, o⟩ := j
  cases phase with
  | working => cases hj
  | _ => trivial

namespace Execution

variable {existing : Option String} {g : Graph} {policy : CleanupPolicy} {x y : Execution}

/-- The executions that moves can lead to if what a job does between two waits is not cut in two by
a cancellation: the user's request to stop finds no job at work. -/
inductive ReachableUncut (first : Execution) : Execution → Prop where
  | refl : ReachableUncut first first
  | step {x y : Execution} (m : Move) (h : ReachableUncut first x) (hm : x.next? m = some y)
    (uncut : x.cancelled = false → y.cancelled = true → ∀ j ∈ x.jobs, j.isAtWork = false) :
    ReachableUncut first y

theorem ReachableUncut.reachable {first : Execution} (h : first.ReachableUncut x) :
    first.Reachable x := by
  induction h with
  | refl => exact .refl
  | step m _ hm _ ih => exact ih.step m hm

/-- An execution of a task by its manager that is cancelled, if at all, while no job is at work. -/
structure ManagesUncut (existing : Option String) (g : Graph) (policy : CleanupPolicy)
    (x : Execution) : Prop where
  built : ∃ task catalogue, Graph.build task catalogue = .ok g
  reached : ∃ limit cancelled first,
    start? (.start g policy) existing limit cancelled = some first ∧ first.ReachableUncut x

theorem ManagesUncut.manages (h : x.ManagesUncut existing g policy) :
    x.Manages existing g policy := by
  obtain ⟨limit, cancelled, first, hfirst, hreach⟩ := h.reached
  exact ⟨h.built, limit, cancelled, first, hfirst, hreach.reachable⟩

/-- A run that is not cancelled is not cut. -/
theorem Manages.uncut_of_going (h : x.Manages existing g policy) (hgoing : x.cancelled = false) :
    x.ManagesUncut existing g policy := by
  refine h.moves_induction (P := fun x => x.cancelled = false → x.ManagesUncut existing g policy)
    ?_ ?_ hgoing
  · exact fun limit cancelled first hfirst _ =>
      ⟨h.built, limit, cancelled, first, hfirst, .refl⟩
  · intro x y m hx ih hm hgoing
    obtain ⟨limit, cancelled, first, hfirst, hreach⟩ :=
      (ih ((hx.continuesTo hm).going hgoing)).reached
    refine ⟨h.built, limit, cancelled, first, hfirst, hreach.step m hm fun _ hstopped => ?_⟩
    rw [hgoing] at hstopped
    cases hstopped

/-- The user asks to stop while no job is at work. -/
theorem ManagesUncut.cancel (h : x.ManagesUncut existing g policy)
    (hrest : ∀ j ∈ x.jobs, j.isAtWork = false) :
    ManagesUncut existing g policy { x with cancelled := true } := by
  obtain ⟨limit, cancelled, first, hfirst, hreach⟩ := h.reached
  exact ⟨h.built, limit, cancelled, first, hfirst, hreach.step .cancel rfl fun _ _ => hrest⟩

/-- In a cancelled run the first stage is halted. -/
theorem ManagesUncut.halted (h : x.ManagesUncut existing g policy) (hstopped : x.cancelled = true) :
    x.ledger.Halted := by
  have hg := h.manages.sound_graph
  obtain ⟨limit, cancelled, first, hfirst, hreach⟩ := h.reached
  have hbuilt := h.built
  clear h
  induction hreach with
  | refl =>
    rw [ledger_of_start? hfirst]
    exact List.forall_mem_nil _
  | @step x y m hreach hm uncut ih =>
    have hx : x.Manages existing g policy :=
      ⟨hbuilt, limit, cancelled, first, hfirst, hreach.reachable⟩
    cases hgoing : x.cancelled with
    | true =>
      exact (hx.sound.next? hg (ih hgoing) (fun l l' hl hP heffect =>
        hP.effect hl (hgoing ▸ heffect)) hm).2
    | false =>
      -- this is the move that cancels the run, and it finds no job at work
      have hledger : y.ledger = x.ledger := by
        have hkept : y.cancelled ≠ x.cancelled := by simp [hstopped, hgoing]
        cases (hx.continuesTo hm).steers with
        | cancel ledger_eq _ => exact ledger_eq
        | keep control | join _ control | wake control | say _ control | conclude _ control
        | deliver _ _ control => exact absurd (control_eq_iff.mp control).2.2 hkept
      rw [hledger]
      exact fun j hj _ => Job.halted_of_isAtWork (uncut hgoing hstopped j hj)

/-- What comes of a run after it was cancelled. -/
structure WindsDown (existing : Option String) (x y : Execution) : Prop where
  /-- No work of the first stage is begun. -/
  quiet : ∃ later, y.trace = x.trace ++ later ∧ ∀ e ∈ later, e.startsWork = false
  /-- A call that is never given up is awaited to its end, and what it is answered is dealt with
  before the step is handed back. -/
  awaited : ∀ i c, .began i c ∈ x.trace → c.isAbandonable = false →
    .abandoned i c ∉ y.trace ∧ ∃ j, y.jobs[i]? = some j ∧
      ((∃ next, j.phase = .calling c next) ∨
        ∃ a : Answer, a.call = c ∧ .answered i a ∈ y.trace ∧
          (j.isGone = true → y.ledger.Settled i a))
  /-- No step that takes something down is handed back before it was begun and has made its call. -/
  takenDown : ∀ i j, y.jobs[i]? = some j → j.step.isCleanup = true → j.isGone = true →
    j.Announced y.trace ∧ ∃ c, j.step.calls existing = [c] ∧ .began i c ∈ y.trace
  /-- If a limit leaves a permit, then as long as such a step, or any other, is not handed back,
  somebody can go on, whatever answers there are for the calls. -/
  goesOn : y.limit ≠ some 0 → ∀ j ∈ y.jobs, j.isGone = false →
    ∀ reply : (c : Call) → Reply c.Value, y.CanGoOn reply
  /-- Nobody goes on for ever, so that the run comes to an outcome. -/
  comesToEnd : y.limit ≠ some 0 → y.ComesToEnd
  /-- When the run has an outcome, all steps are handed back. -/
  complete : y.outcome?.isSome = true → ∀ j ∈ y.jobs, j.isGone = true

/-- In a cancelled run the first stage stays halted, and no work of it is seen to begin. -/
theorem ManagesUncut.quiet (h : x.ManagesUncut existing g policy) (hstopped : x.cancelled = true)
    (hy : x.Reachable y) :
    ∃ later, y.trace = x.trace ++ later ∧ ∀ e ∈ later, e.startsWork = false := by
  have hg := h.manages.sound_graph
  have heffects := (h.manages.effects_of_cancelled hstopped hy).2
  suffices ∀ l, Relation.ReflTransGen (Ledger.Effect existing true) x.ledger l →
      l.Sound existing g policy ∧ l.Traced existing ∧ l.Halted ∧
        ∃ later, l.trace = x.trace ++ later ∧ ∀ e ∈ later, e.startsWork = false from
    (this _ heffects).2.2.2
  intro l hl
  induction hl with
  | refl =>
    exact ⟨h.manages.sound.ledger, h.manages.traced, h.halted hstopped, [],
      (List.append_nil _).symm, List.forall_mem_nil _⟩
  | tail _ heffect ih =>
    obtain ⟨hsound, htraced, hhalted, later, htrace, hquiet⟩ := ih
    obtain ⟨more, hmore, hquiet'⟩ := hhalted.startsWork_eq_false htraced heffect
    refine ⟨hsound.effect hg heffect, htraced.effect hsound hg heffect,
      hhalted.effect hsound heffect, later ++ more, ?_, List.forall_mem_append.mpr ⟨hquiet, hquiet'⟩⟩
    rw [hmore, htrace, List.append_assoc]

theorem Manages.frank (h : x.Manages existing g policy) : x.ledger.Frank :=
  h.induction (fun i j hj => by simp at hj) fun _ _ _ hl hP heffect => hP.effect hl heffect

/-- A call that is never given up is awaited, and its answer is dealt with. -/
theorem Manages.awaited (h : x.Manages existing g policy) {i : Nat} {c : Call}
    (hc : .began i c ∈ x.trace) (hkept : c.isAbandonable = false) :
    .abandoned i c ∉ x.trace ∧ ∃ j, x.jobs[i]? = some j ∧
      ((∃ next, j.phase = .calling c next) ∨
        ∃ a : Answer, a.call = c ∧ .answered i a ∈ x.trace ∧
          (j.isGone = true → x.ledger.Settled i a)) := by
  refine ⟨fun habandoned => ?_, ?_⟩
  · rw [h.traced.isAbandonable_of_abandoned habandoned] at hkept
    cases hkept
  · obtain ⟨j, hj, -⟩ := h.traced.mem_calls hc
    refine ⟨j, hj, ?_⟩
    by_cases hgone : j.isGone = true
    · obtain ⟨a, hcall, ha, hsettled⟩ := h.traced.exists_settled h.frank hj hgone hc hkept
      exact .inr ⟨a, hcall, ha, fun _ => hsettled⟩
    · have hseen : .began i c ∈ x.ledger.seen i := List.mem_filter.mpr ⟨hc, decide_eq_true rfl⟩
      rcases (h.traced.accounts i j hj).over_of_began hseen with ⟨a, hcall, hover⟩ | ⟨hmay, -⟩ |
        hcalling
      · have ha : .answered i a ∈ x.ledger.seen i := hover.subset (by simp)
        exact .inr ⟨a, hcall, (List.mem_filter.mp ha).1, fun h => absurd h hgone⟩
      · rw [hkept] at hmay
        cases hmay
      · exact .inl hcalling

/-- What takes something down is begun and makes its call, cancelled or not. -/
theorem Manages.takenDown (h : x.Manages existing g policy) {i : Nat} {j : Job}
    (hj : x.jobs[i]? = some j) (hs : j.step.isCleanup = true) (hgone : j.isGone = true) :
    j.Announced x.trace ∧ ∃ c, j.step.calls existing = [c] ∧ .began i c ∈ x.trace := by
  obtain ⟨hannounced, hbegan⟩ := h.traced.began_of_isCleanup h.frank hj hs hgone
  obtain ⟨c, hc⟩ : ∃ c, j.step.calls existing = [c] := by
    cases hstep : j.step <;> rw [hstep] at hs <;> first | exact ⟨_, rfl⟩ | cases hs
  exact ⟨hannounced, c, hc, hbegan c (hc ▸ List.mem_singleton_self c)⟩

/-- A run with a step that is not handed back has no outcome yet, so that somebody can go on. -/
theorem Manages.canGoOn_of_not_isGone (h : x.Manages existing g policy) (hlimit : x.limit ≠ some 0)
    {j : Job} (hj : j ∈ x.jobs) (hgone : j.isGone = false) (reply : (c : Call) → Reply c.Value) :
    x.CanGoOn reply := by
  refine h.canGoOn hlimit ?_ reply
  by_contra hout
  rw [h.isGone_of_outcome? (Option.isSome_iff_ne_none.mpr hout) j hj] at hgone
  cases hgone

/-- Once a run is cancelled, no work of the first stage is begun any longer; calls that are never
given up are awaited and their outcomes dealt with; and all that takes something down is done: it is
begun and makes its call before it is handed back, and it is handed back in the end. -/
theorem ManagesUncut.windsDown (h : x.ManagesUncut existing g policy)
    (hstopped : x.cancelled = true) (hy : x.Reachable y) : x.WindsDown existing y := by
  have hmanages := h.manages.reachable hy
  have hsub := (h.manages.trace_initial hy).subset
  exact {
    quiet := h.quiet hstopped hy
    awaited := fun i c hc => hmanages.awaited (hsub hc)
    takenDown := fun i j => hmanages.takenDown
    goesOn := fun hlimit j hj => hmanages.canGoOn_of_not_isGone hlimit hj
    comesToEnd := hmanages.comesToEnd
    complete := hmanages.isGone_of_outcome? }

end Execution

/-- What is left to do of the small task when it is cancelled while the database is being started.
The database is started all the same, two more steps are dropped, and three take down what was
made. -/
def Sample.windDown? (x : Execution) : Option Execution := do
  let x ← x.after? [.reply 3 ⟨.startContainer ⟨"id-db", "db"⟩, .ok ()⟩, .log (.job 3), .record,
    .work 3, .release 3, .finish 3, .wake, .log .watcher, .record, .dispatch, .place 4, .dispatch,
    .place 5]
  let x ← x.inTurn? reply 3
  x.after? [.dispatch, .conclude, .deliver]

namespace Execution

/-- A start that is under way when the task is cancelled is awaited and dealt with, and what was
started is taken down. -/
theorem ManagesUncut.windsDown_while_starting : ∃ x y : Execution,
    x.ManagesUncut none Sample.graph ⟨true, true⟩ ∧ x.cancelled = true ∧ x.Reachable y ∧
      x.trace.getLast?.bind Happening.begun? = some (.startContainer ⟨"id-db", "db"⟩) ∧
      y.outcome?.isSome = true ∧ y.jobs.countP (·.step.isCleanup) = 3 ∧ x.WindsDown none y := by
  obtain ⟨x, hx, hp⟩ := Sample.exists_manages Sample.reply 3
    [.dispatch, .place 3, .enter 3, .begin 3, .log (.job 3), .work 3, .work 3]
    (p := fun x => decide (x.cancelled = false ∧ (∀ j ∈ x.jobs, j.isAtWork = false) ∧
      x.trace.getLast?.bind Happening.begun? = some (.startContainer ⟨"id-db", "db"⟩) ∧
      (Sample.windDown? { x with cancelled := true }).any fun y =>
        y.outcome?.isSome ∧ y.jobs.countP (·.step.isCleanup) = 3))
    (by decide +kernel)
  obtain ⟨hgoing, hrest, hlast, hrun⟩ := of_decide_eq_true hp
  obtain ⟨y, hy, hout⟩ := (Option.any_eq_true _ _).mp hrun
  obtain ⟨hover, hcount⟩ := of_decide_eq_true hout
  obtain ⟨x', hx', hy⟩ := Option.bind_eq_some_iff.mp hy
  obtain ⟨y', hy', hy⟩ := Option.bind_eq_some_iff.mp hy
  have hstopped := (hx.uncut_of_going hgoing).cancel hrest
  have hreach := ((Reachable.refl.after? hx').inTurn? hy').after? hy
  exact ⟨_, y, hstopped, rfl, hreach, hlast, hover, hcount, hstopped.windsDown rfl hreach⟩

end Execution

end ContainerTasks
