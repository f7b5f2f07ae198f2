import ContainerTasks.Proofs.Moves
import ContainerTasks.Proofs.Successes

/-!
# Permits

If there is a limit on parallel work, there are as many permits as the limit says, and each is at any
time either free or held by a job of a capped step. A job holds its permit from the moment that it
gets in until it gives the permit back; between that and the end of the job there is nothing left but
to hand the step back. A permit that is given back while others wait goes to the first of them, so a
job waits only as long as no permit is free.

Which way a job comes to its end makes no difference: whoever has got in leaves, and whoever leaves
gives back what it holds.

## Main definitions

* `Job.holds`: whether a job holds a permit
* `Execution.Permitted`: the invariant that ties the permits to the jobs
* `Execution.KeepsLimit`: what the limit comes to

## Main results

* `Execution.Permitted.takes`: one move
* `Execution.Manages.keepsLimit`
-/

namespace ContainerTasks

/-- The limit applies to all steps but those of three kinds. -/
theorem Step.isCapped_eq_false_iff (s : Step) : s.isCapped = false ↔
    s.kind ∈ ["RunContainer", "WaitForContainerToBecomeHealthy", "MarkContainerReady"] := by
  cases s <;> simp [isCapped, kind]

namespace Job

/-- Whether the job has got in, with a permit if it needs one, and has not given that back. -/
def isInside (j : Job) : Bool :=
  match j.phase with
  | .admitted | .working _ | .calling .. | .failing _ | .reporting _ | .leaving => true
  | .handed | .arriving | .inLine | .released | .gone => false

/-- Whether the job waits for a permit. -/
def isWaiting (j : Job) : Bool :=
  match j.phase with
  | .inLine => true
  | _ => false

/-- Whether the job holds a permit, if there is a limit. -/
def holds (j : Job) : Bool := j.step.isCapped && j.isInside

end Job

namespace Execution

variable {existing : Option String} {g : Graph} {policy : CleanupPolicy} {x y : Execution}
  {move : Move} {job n : Nat} {j : Job}

/-! ### The invariant -/

/-- The permits and the line for them, in view of the jobs. -/
structure Permitted (n : Nat) (x : Execution) : Prop where
  limit_eq : x.limit = some n
  balance : x.freePermits + x.jobs.countP Job.holds = n
  busy : x.line ≠ [] → x.freePermits = 0
  lined : ∀ (i : Nat) (j : Job), x.jobs[i]? = some j → j.isWaiting = true →
    i ∈ x.line ∧ j.step.isCapped = true

theorem Permitted.needsPermit_eq (hx : x.Permitted n) (s : Step) :
    x.needsPermit s = s.isCapped := by
  simp [needsPermit, hx.limit_eq]

/-- How many jobs have a property when one job has changed. -/
theorem countP_modify {f : Job → Job} (p : Job → Bool) (hj : x.jobs[job]? = some j) :
    (x.jobs.modify job f).countP p + (p j).toNat = x.jobs.countP p + (p (f j)).toNat := by
  obtain ⟨front, back, hsplit, -, hmodify⟩ := exists_split hj
  rw [hmodify, hsplit, List.countP_append, List.countP_append, List.countP_cons, List.countP_cons]
  cases p j <;> cases p (f j) <;> simp <;> omega

theorem countP_setPhase (p : Job → Bool) (hj : x.jobs[job]? = some j) (phase : Phase) :
    (x.setPhase job phase).jobs.countP p + (p j).toNat =
      x.jobs.countP p + (p { j with phase }).toNat :=
  countP_modify p hj

/-- Who waits when a job has changed to one that does not wait is another one. -/
theorem ne_of_modify_isWaiting {f : Job → Job} {i : Nat} {k : Job} (hj : x.jobs[job]? = some j)
    (hquiet : (f j).isWaiting = false) (hk : (x.jobs.modify job f)[i]? = some k)
    (hwaiting : k.isWaiting = true) : job ≠ i ∧ x.jobs[i]? = some k := by
  have hne : job ≠ i := by
    rintro rfl
    rw [List.getElem?_modify_eq, hj] at hk
    cases hk
    rw [hquiet] at hwaiting
    cases hwaiting
  exact ⟨hne, (List.getElem?_modify_ne _ _ hne).symm.trans hk⟩

/-- One job goes on, and the permits go with it. -/
theorem Permitted.of_job (hx : x.Permitted n) {f : Job → Job} (hj : x.jobs[job]? = some j)
    (hjobs : y.jobs = x.jobs.modify job f) (hlimit : y.limit = x.limit)
    (hfree : y.freePermits + (f j).holds.toNat = x.freePermits + j.holds.toNat)
    (hbusy : y.line ≠ [] → y.freePermits = 0) (hline : x.line ⊆ y.line)
    (hlined : (f j).isWaiting = true → job ∈ y.line ∧ (f j).step.isCapped = true) :
    y.Permitted n where
  limit_eq := hlimit.trans hx.limit_eq
  balance := by
    have hcount := countP_modify (f := f) Job.holds hj
    have hbalance := hx.balance
    rw [hjobs]
    omega
  busy := hbusy
  lined i k hk hwaiting := by
    rw [hjobs, List.getElem?_modify] at hk
    split at hk
    · next heq =>
      subst heq
      rw [hj] at hk
      cases hk
      exact hlined hwaiting
    · obtain ⟨hmem, hcapped⟩ := hx.lined i k (by simpa using hk) hwaiting
      exact ⟨hline hmem, hcapped⟩

/-- One job goes on, and holds a permit as before. -/
theorem Permitted.of_silent_job (hx : x.Permitted n) {f : Job → Job}
    (hj : x.jobs[job]? = some j) (hjobs : y.jobs = x.jobs.modify job f)
    (hlimit : y.limit = x.limit) (hpermits : y.freePermits = x.freePermits)
    (hline : y.line = x.line) (hholds : (f j).holds = j.holds)
    (hwaiting : (f j).isWaiting = false) : y.Permitted n := by
  refine hx.of_job hj hjobs hlimit (by rw [hpermits, hholds]) ?_ (hline ▸ List.Subset.refl _) ?_
  · rw [hpermits, hline]
    exact hx.busy
  · rw [hwaiting]
    exact nofun

/-- The jobs, the permits and the line stay. -/
theorem Permitted.of_eq (hx : x.Permitted n) (hjobs : y.jobs = x.jobs) (hlimit : y.limit = x.limit)
    (hpermits : y.freePermits = x.freePermits) (hline : y.line = x.line) : y.Permitted n where
  limit_eq := hlimit.trans hx.limit_eq
  balance := by rw [hpermits, hjobs, hx.balance]
  busy := by
    rw [hpermits, hline]
    exact hx.busy
  lined := by
    rw [hjobs, hline]
    exact hx.lined

/-- A step is handed out. -/
theorem Permitted.of_new (hx : x.Permitted n) {step : Step} (hjobs : y.jobs = x.jobs ++ [.new step])
    (hlimit : y.limit = x.limit) (hpermits : y.freePermits = x.freePermits)
    (hline : y.line = x.line) : y.Permitted n where
  limit_eq := hlimit.trans hx.limit_eq
  balance := by
    rw [hpermits, hjobs, List.countP_append, ← hx.balance]
    simp [Job.holds, Job.isInside, Job.new]
  busy := by
    rw [hpermits, hline]
    exact hx.busy
  lined i j hj hwaiting := by
    rw [hjobs] at hj
    rw [hline]
    rcases Nat.lt_or_ge i x.jobs.length with hlt | hge
    · rw [List.getElem?_append_left hlt] at hj
      exact hx.lined i j hj hwaiting
    · rw [List.getElem?_append_right hge, List.getElem?_singleton] at hj
      split at hj <;> cases hj
      cases hwaiting

/-- A permit that is given back goes to the head of the line. -/
theorem Permitted.handOver (hx : x.Permitted n) (horder : x.InOrder) {head : Nat}
    {rest : List Nat} {s : Step} {o : Option Ending} (hj : x.jobs[job]? = some ⟨s, .leaving, o⟩)
    (hneeds : x.needsPermit s = true) (hline : x.line = head :: rest) :
    ({ x.setPhase job .released with line := rest }.setPhase head .admitted).Permitted n := by
  rw [hx.needsPermit_eq] at hneeds
  obtain ⟨s', o', hhead, hhead'⟩ := horder.exists_head hj hline
  have hcapped : s'.isCapped = true := (hx.lined head _ hhead rfl).2
  constructor
  case limit_eq => exact hx.limit_eq
  case balance =>
    -- the permit is never free in between: one holder leaves and another enters
    have hleaves : (x.setPhase job .released).jobs.countP Job.holds + 1 =
        x.jobs.countP Job.holds := by
      simpa [Job.holds, Job.isInside, hneeds] using countP_setPhase Job.holds hj .released
    have henters : ((x.setPhase job .released).setPhase head .admitted).jobs.countP Job.holds =
        (x.setPhase job .released).jobs.countP Job.holds + 1 := by
      simpa [Job.holds, Job.isInside, hcapped] using
        countP_setPhase Job.holds hhead' .admitted
    have hbalance := hx.balance
    show x.freePermits +
      ((x.setPhase job .released).setPhase head .admitted).jobs.countP Job.holds = n
    omega
  case busy => exact fun _ => hx.busy (by simp [hline])
  case lined =>
    intro i k hk hwaiting
    obtain ⟨hother, hk⟩ := ne_of_modify_isWaiting hhead' rfl hk hwaiting
    obtain ⟨-, hk⟩ := ne_of_modify_isWaiting hj rfl hk hwaiting
    obtain ⟨hmem, hcapped⟩ := hx.lined i k hk hwaiting
    rw [hline] at hmem
    exact ⟨(List.mem_cons.mp hmem).resolve_left (Ne.symm hother), hcapped⟩

/-- A move keeps the permits in order. -/
theorem Permitted.takes (hx : x.Permitted n) (horder : x.InOrder) (h : x.Takes move y) :
    y.Permitted n := by
  cases h with
  | handOut => exact hx.of_new rfl rfl rfl rfl
  | join | log | recordInterrupt | progress | cancel | wake | conclude | heed | dismiss =>
    exact hx.of_eq rfl rfl rfl rfl
  | drop on | arrive on | giveUp on | begin on | mention on | record on | recordFailure on | check on
  | skip on | call on | report on | answer on | abandon on | finish on =>
    exact hx.of_silent_job on rfl rfl rfl rfl rfl rfl
  | settle on | fail on =>
    exact hx.of_silent_job on (jobs_setPhase_setEnding ..) rfl rfl rfl rfl rfl
  | enter on needless | release on needless =>
    rw [hx.needsPermit_eq] at needless
    exact hx.of_silent_job on rfl rfl rfl rfl (by simp [Job.holds, needless]) rfl
  | takePermit on needs free =>
    rw [hx.needsPermit_eq] at needs
    refine hx.of_job on rfl rfl ?_ ?_ (List.Subset.refl _) nofun
    · simp only [Job.holds, Job.isInside, needs, Bool.true_and, Bool.toNat_true, Bool.toNat_false]
      exact Nat.sub_add_cancel free
    · intro hline
      have := hx.busy hline
      omega
  | joinLine on needs taken =>
    rw [hx.needsPermit_eq] at needs
    refine hx.of_job on rfl rfl rfl (fun _ => taken) (List.subset_append_left _ _) fun _ => ?_
    exact ⟨List.mem_append_right _ (List.mem_singleton_self _), needs⟩
  | giveBack on needs nobody =>
    rw [hx.needsPermit_eq] at needs
    refine hx.of_job on rfl rfl ?_ (fun hline => absurd nobody hline) (List.Subset.refl _) nofun
    simp [Job.holds, Job.isInside, needs]
  | handOver on needs waiting => exact hx.handOver horder on needs waiting

theorem limit_of_takes (h : x.Takes move y) : y.limit = x.limit := by
  cases h <;> rfl

theorem Reachable.limit_eq (h : x.Reachable y) : y.limit = x.limit := by
  induction h with
  | refl => rfl
  | step move _ hm ih => exact (limit_of_takes (takes_of_next? hm)).trans ih

theorem Manages.permitted (h : x.Manages existing g policy) (hlimit : x.limit = some n) :
    x.Permitted n := by
  refine h.moves_induction (P := fun x => x.limit = some n → x.Permitted n) ?_ ?_ hlimit
  · intro limit cancelled first hfirst hlimit
    obtain rfl := eq_of_start? hfirst
    obtain rfl : limit = some n := hlimit
    exact ⟨rfl, rfl, fun hline => absurd rfl hline, fun i j hj => by simp at hj⟩
  · intro x y move hx ih hm hlimit
    have htakes := takes_of_next? hm
    rw [limit_of_takes htakes] at hlimit
    exact (ih hlimit).takes hx.sound.inOrder htakes

/-! ### What the limit comes to -/

/-- That a step is begun is logged by its job, when it has got in. -/
theorem Manages.exists_of_starting (h : x.Manages existing g policy) (hm : x.Takes move y)
    {s : Step} (hlogged : y.trace = x.trace ++ [.logged (.stepStarting s)]) :
    ∃ i rest o, move = .log (.job i) ∧
      x.jobs[i]? = some ⟨s, .working (.post (.stepStarting s) rest), o⟩ ∧
      y.jobs[i]? = some ⟨s, .working rest, o⟩ := by
  cases hm with
  | @mention i s' o e rest on =>
    obtain rfl : e = .stepStarting s := by simpa [setPhase, saw] using hlogged
    obtain ⟨-, hc | ⟨-, heq⟩⟩ := (h.sound.ledger.follows _ (List.mem_of_getElem? on)).working
    · cases Job.not_isInformational_of_course hc
    · cases heq
      refine ⟨i, _, o, rfl, on, ?_⟩
      simp [setPhase, saw, List.getElem?_modify_eq, on]
  | log free next forHistory =>
    obtain rfl : _ = Event.stepStarting s := by simpa [saw] using hlogged
    cases forHistory
  | progress on free tells =>
    exact absurd (by simpa [saw] using hlogged) (Call.ne_stepStarting_of_progress? tells s)
  | _ => simp [setPhase, setEnding, saw, handBack] at hlogged

/-- The limit on parallel work is kept, and nobody waits without need. -/
structure KeepsLimit (n : Nat) (x : Execution) : Prop where
  /-- The steps that the limit does not apply to are those of three kinds. -/
  uncapped : ∀ s : Step, s.isCapped = false ↔
    s.kind ∈ ["RunContainer", "WaitForContainerToBecomeHealthy", "MarkContainerReady"]
  /-- Each permit is free, or held by one job. -/
  balance : x.freePermits + x.jobs.countP Job.holds = n
  bounded : x.jobs.countP Job.holds ≤ n
  /-- That a capped step is begun is logged while its job holds a permit. -/
  begun : ∀ move y s, x.next? move = some y → y.trace = x.trace ++ [.logged (.stepStarting s)] →
    s.isCapped = true → ∃ (i : Nat) (j j' : Job), x.jobs[i]? = some j ∧ y.jobs[i]? = some j' ∧
      j.step = s ∧ j.holds = true ∧ j'.holds = true
  /-- The job of a step that is not capped does not wait for a permit: it gets in at once. -/
  unhindered : ∀ (i : Nat) (j : Job), x.jobs[i]? = some j → j.step.isCapped = false →
    j.isWaiting = false ∧
      (j.phase = .arriving → x.next? (.enter i) = some (x.setPhase i .admitted))
  /-- A job waits only as long as all permits are held. -/
  busy : ∀ j ∈ x.jobs, j.isWaiting = true → x.freePermits = 0 ∧ x.jobs.countP Job.holds = n
  returned : x.outcome?.isSome = true → x.freePermits = n ∧ ∀ j ∈ x.jobs, j.holds = false

theorem Permitted.enter?_eq (hx : x.Permitted n) (hj : x.jobs[job]? = some j)
    (huncapped : j.step.isCapped = false) (hphase : j.phase = .arriving) :
    x.enter? job = some (x.setPhase job .admitted) := by
  obtain ⟨s, phase, o⟩ := j
  obtain rfl : phase = .arriving := hphase
  have hneedless : x.needsPermit s = false := (hx.needsPermit_eq s).trans huncapped
  simp [enter?, hj, hneedless]

/-- All along a managed run with a limit, the limit is kept. -/
theorem Manages.keepsLimit (h : x.Manages existing g policy) (hlimit : x.limit = some n) :
    x.KeepsLimit n := by
  have hx := h.permitted hlimit
  constructor
  case uncapped => exact Step.isCapped_eq_false_iff
  case balance => exact hx.balance
  case bounded => exact hx.balance ▸ Nat.le_add_left _ _
  case begun =>
    intro move y s hm hlogged hcapped
    obtain ⟨i, rest, o, -, hj, hj'⟩ := h.exists_of_starting (takes_of_next? hm) hlogged
    exact ⟨i, _, _, hj, hj', rfl, by simp [Job.holds, Job.isInside, hcapped],
      by simp [Job.holds, Job.isInside, hcapped]⟩
  case unhindered =>
    intro i j hj huncapped
    refine ⟨?_, hx.enter?_eq hj huncapped⟩
    by_contra hwaiting
    have hcapped := (hx.lined i j hj (Bool.of_not_eq_false hwaiting)).2
    rw [huncapped] at hcapped
    cases hcapped
  case busy =>
    intro j hj hwaiting
    obtain ⟨i, hi⟩ := List.getElem?_of_mem hj
    have hnone := hx.busy (List.ne_nil_of_mem (hx.lined i j hi hwaiting).1)
    have hbalance := hx.balance
    exact ⟨hnone, by omega⟩
  case returned =>
    intro hout
    have hholds : ∀ j ∈ x.jobs, j.holds = false := by
      intro j hj
      have hgone := h.isGone_of_outcome? hout j hj
      obtain ⟨s, phase, o⟩ := j
      cases phase <;> simp [Job.isGone, Job.holds, Job.isInside] at hgone ⊢
    have hcount : x.jobs.countP Job.holds = 0 :=
      List.countP_eq_zero.mpr fun j hj => by simp [hholds j hj]
    have hbalance := hx.balance
    exact ⟨by omega, hholds⟩

/-- The small task with a single permit: one image is about to be pulled, and the job for the other
one waits. -/
theorem Manages.keepsLimit_while_waiting : ∃ x : Execution,
    x.Manages none Sample.graph ⟨true, true⟩ ∧ x.limit = some 1 ∧ x.line = [2] ∧
      x.jobs.countP Job.holds = 1 ∧ (∃ j ∈ x.jobs, j.isWaiting = true) ∧ x.KeepsLimit 1 := by
  have hvalue : ((start? (.start Sample.graph ⟨true, true⟩) none (some 1) false).bind fun first =>
      (first.after? [.dispatch, .place 0, .dispatch, .place 1, .dispatch, .place 2, .enter 1,
        .enter 2, .begin 1]).map fun x => decide (x.limit = some 1 ∧ x.line = [2] ∧
          x.jobs.countP Job.holds = 1 ∧ ∃ j ∈ x.jobs, j.isWaiting = true)) = some true := by
    decide +kernel
  obtain ⟨first, hfirst, hvalue⟩ := Option.bind_eq_some_iff.mp hvalue
  obtain ⟨x, hx, hp⟩ := Option.map_eq_some_iff.mp hvalue
  obtain ⟨hlimit, hline, hholds, hwaiting⟩ := of_decide_eq_true hp
  have hmanages := (manages_of_start? Sample.build_eq hfirst).reachable (Reachable.refl.after? hx)
  exact ⟨x, hmanages, hlimit, hline, hholds, hwaiting, hmanages.keepsLimit hlimit⟩

end Execution

end ContainerTasks
