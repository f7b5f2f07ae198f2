import ContainerTasks.Proofs.MachineRuns
import ContainerTasks.Proofs.Moves

/-!
# What moves come to

An execution has many parts: permits and the line for them, the manager, the watcher, the lock
around posting. What a task leaves behind depends on few of them: the machine, the jobs, and what
the outside has seen. These make up the *ledger* of an execution, and whatever comes of a move is a
few *effects* on it, out of a short list. Claims about executions are proved effect by effect, but
for those that are about the parts left out; these are proved by cases on `Execution.Takes`.

Two things have to be known about the parts that are left out. A permit that comes free admits the
job at the head of the line; that is an effect on a waiting job only because everybody in the line
waits. And the watcher interrupts a run only if it has noticed that the run is cancelled.

## Main definitions

* `Ledger`, `Execution.ledger`
* `Job.Glides`: a job goes on without touching the machine
* `Ledger.Effect`
* `Execution.Steers`: what a move comes to for the manager and the watcher
* `Execution.InOrder`: those in the line wait for a permit, and the watcher for a cancelled run

## Main results

* `Ledger.Effect.grows`: nothing is taken back
* `Execution.continuesTo_of_next?`: what a move comes to
-/

namespace ContainerTasks

/-- What counts of an execution for what a task leaves behind. -/
structure Ledger where
  machine : Machine
  jobs : List Job
  trace : List Happening

/-- The ledger of an execution. -/
def Execution.ledger (x : Execution) : Ledger := ⟨x.machine, x.jobs, x.trace⟩

/-! ### Effects -/

/-- The job at a place among the steps handed out goes on without touching the machine, in a run
that is cancelled or not; `seen` is what the outside sees of it. -/
inductive Job.Glides (existing : Option String) (cancelled : Bool) (index : Nat) :
    Job → Job → List Happening → Prop where
  | arrive {s : Step} {o : Option Ending} :
    Glides existing cancelled index ⟨s, .handed, o⟩ ⟨s, .arriving, o⟩ []
  | joinLine {s : Step} {o : Option Ending} :
    Glides existing cancelled index ⟨s, .arriving, o⟩ ⟨s, .inLine, o⟩ []
  | enter {s : Step} {o : Option Ending} :
    Glides existing cancelled index ⟨s, .arriving, o⟩ ⟨s, .admitted, o⟩ []
  | leaveLine {s : Step} {o : Option Ending} :
    Glides existing cancelled index ⟨s, .inLine, o⟩ ⟨s, .admitted, o⟩ []
  | giveUp {s : Step} {o : Option Ending} (stopped : cancelled = true)
    (making : s.isCleanup = false) :
    Glides existing cancelled index ⟨s, .admitted, o⟩ ⟨s, .leaving, o⟩ []
  | begin {s : Step} {o : Option Ending} (free : cancelled = true → s.isCleanup = true) :
    Glides existing cancelled index ⟨s, .admitted, o⟩
      ⟨s, .working (.post (.stepStarting s) (s.procedure existing)), o⟩ []
  | log {s : Step} {o : Option Ending} {e : Event} {rest : Procedure}
    (forLog : e.isInformational = true) :
    Glides existing cancelled index ⟨s, .working (.post e rest), o⟩ ⟨s, .working rest, o⟩
      [.logged e]
  | ifCancelled {s : Step} {o : Option Ending} {ifCancelled otherwise : Procedure}
    (stopped : cancelled = true) :
    Glides existing cancelled index ⟨s, .working (.check ifCancelled otherwise), o⟩
      ⟨s, .working ifCancelled, o⟩ []
  | otherwise {s : Step} {o : Option Ending} {ifCancelled otherwise : Procedure}
    (going : cancelled = false) :
    Glides existing cancelled index ⟨s, .working (.check ifCancelled otherwise), o⟩
      ⟨s, .working otherwise, o⟩ []
  | skip {s : Step} {o : Option Ending} {c : Call} {next : Reply c.Value → Procedure}
    (stopped : cancelled = true) (may : c.isAbandonable = true) :
    Glides existing cancelled index ⟨s, .working (.call c next), o⟩
      ⟨s, .working (next .cancelled), o⟩ []
  | call {s : Step} {o : Option Ending} {c : Call} {next : Reply c.Value → Procedure}
    (kept : cancelled = true → c.isAbandonable = false) :
    Glides existing cancelled index ⟨s, .working (.call c next), o⟩ ⟨s, .calling c next, o⟩
      [.began index c]
  | answer {s : Step} {o : Option Ending} {a : Answer} {next : Reply a.call.Value → Procedure} :
    Glides existing cancelled index ⟨s, .calling a.call next, o⟩ ⟨s, .working (next a.reply), o⟩
      [.answered index a]
  | abandon {s : Step} {o : Option Ending} {c : Call} {next : Reply c.Value → Procedure}
    (stopped : cancelled = true) (may : c.isAbandonable = true) :
    Glides existing cancelled index ⟨s, .calling c next, o⟩ ⟨s, .working (next .cancelled), o⟩
      [.abandoned index c]
  | settle {s : Step} {o : Option Ending} {ending : Ending} (quiet : ending.trouble? = none) :
    Glides existing cancelled index ⟨s, .working (.ended ending), o⟩ ⟨s, .leaving, some ending⟩ []
  | fail {s : Step} {o : Option Ending} {ending : Ending} {trouble : Trouble}
    (loud : ending.trouble? = some trouble) :
    Glides existing cancelled index ⟨s, .working (.ended ending), o⟩
      ⟨s, .failing trouble, some ending⟩ []
  | report {s : Step} {o : Option Ending} {trouble : Trouble} :
    Glides existing cancelled index ⟨s, .reporting trouble, o⟩ ⟨s, .leaving, o⟩
      [.reported index trouble]
  | release {s : Step} {o : Option Ending} :
    Glides existing cancelled index ⟨s, .leaving, o⟩ ⟨s, .released, o⟩ []

/-- What can happen to a ledger, in a run that is cancelled or not. -/
inductive Ledger.Effect (existing : Option String) (cancelled : Bool) : Ledger → Ledger → Prop where
  /-- The machine goes on to the next stage. -/
  | advance {m m' : Machine} {jobs : List Job} {trace : List Happening} (ends : m.AdvancesTo m') :
    Effect existing cancelled ⟨m, jobs, trace⟩ ⟨m', jobs, trace⟩
  | handOut {m : Machine} {jobs : List Job} {trace : List Happening} {index : Nat} {step : Step}
    (ready : m.nextReady? = some (index, step)) :
    Effect existing cancelled ⟨m, jobs, trace⟩ ⟨m.handOut index, jobs ++ [.new step], trace⟩
  | glide {m : Machine} {front back : List Job} {j j' : Job} {trace seen : List Happening}
    (on : j.Glides existing cancelled front.length j' seen) :
    Effect existing cancelled ⟨m, front ++ j :: back, trace⟩ ⟨m, front ++ j' :: back, trace ++ seen⟩
  /-- The manager drops a step in a cancelled run. -/
  | drop {m : Machine} {front back : List Job} {s : Step} {o : Option Ending}
    {trace : List Happening} (stopped : cancelled = true) (making : s.isCleanup = false) :
    Effect existing cancelled ⟨m, front ++ ⟨s, .handed, o⟩ :: back, trace⟩
      ⟨m.finishStep, front ++ ⟨s, .gone, o⟩ :: back, trace⟩
  | handBack {m : Machine} {front back : List Job} {s : Step} {o : Option Ending}
    {trace : List Happening} :
    Effect existing cancelled ⟨m, front ++ ⟨s, .released, o⟩ :: back, trace⟩
      ⟨m.finishStep, front ++ ⟨s, .gone, o⟩ :: back, trace⟩
  /-- An event of a job is recorded. -/
  | record {m : Machine} {front back : List Job} {s : Step} {o : Option Ending} {e : Event}
    {rest : Procedure} {trace : List Happening} (forHistory : e.isInformational = false) :
    Effect existing cancelled ⟨m, front ++ ⟨s, .working (.post e rest), o⟩ :: back, trace⟩
      ⟨m.post e, front ++ ⟨s, .working rest, o⟩ :: back, trace⟩
  /-- An unexpected error is recorded. -/
  | recordFailure {m : Machine} {front back : List Job} {s : Step} {o : Option Ending}
    {trouble : Trouble} {trace : List Happening} :
    Effect existing cancelled ⟨m, front ++ ⟨s, .failing trouble, o⟩ :: back, trace⟩
      ⟨m.post (s.failure trouble), front ++ ⟨s, .reporting trouble, o⟩ :: back, trace⟩
  /-- The watcher says that the user has asked to stop. -/
  | interrupt {m : Machine} {jobs : List Job} {trace : List Happening}
    (stopped : cancelled = true) :
    Effect existing cancelled ⟨m, jobs, trace⟩ ⟨m.post .interrupted, jobs, trace⟩
  /-- Something is logged that is not recorded, or not yet. -/
  | log {m : Machine} {jobs : List Job} {trace : List Happening} {e : Event}
    (other : ∀ s, e ≠ .stepStarting s) :
    Effect existing cancelled ⟨m, jobs, trace⟩ ⟨m, jobs, trace ++ [.logged e]⟩

/-- A call tells how far it is by no word that a step is begun. -/
theorem Call.ne_stepStarting_of_progress? {c : Call} {line : String} {e : Event}
    (h : c.progress? line = some e) (s : Step) : e ≠ .stepStarting s := by
  cases c <;> simp only [progress?, Option.some.injEq, reduceCtorEq] at h <;> subst h <;> simp

/-- The machine is in the same stage, with the same plan. -/
structure Machine.SameStage (m m' : Machine) : Prop where
  stage_eq : m'.stage = m.stage
  rules_eq : m'.rules = m.rules
  leftovers_eq : m'.leftovers = m.leftovers

theorem Machine.SameStage.refl (m : Machine) : m.SameStage m := ⟨rfl, rfl, rfl⟩

theorem Machine.SameStage.trans {m m' m'' : Machine} (h : m.SameStage m') (h' : m'.SameStage m'') :
    m.SameStage m'' :=
  ⟨h'.stage_eq.trans h.stage_eq, h'.rules_eq.trans h.rules_eq,
    h'.leftovers_eq.trans h.leftovers_eq⟩

/-- An effect ends the stage and does nothing else, or leaves the machine in the stage. -/
theorem Ledger.Effect.eq_advance_or_sameStage {existing : Option String} {cancelled : Bool}
    {l l' : Ledger} (h : l.Effect existing cancelled l') :
    (∃ m', l.machine.AdvancesTo m' ∧ l' = ⟨m', l.jobs, l.trace⟩) ∨
      l.machine.SameStage l'.machine := by
  cases h with
  | advance ends => exact .inl ⟨_, ends, rfl⟩
  | handOut | glide | drop | handBack | log => exact .inr ⟨rfl, rfl, rfl⟩
  | record | recordFailure | interrupt =>
    exact .inr ⟨Machine.stage_post .., Machine.rules_post .., Machine.leftovers_post ..⟩

theorem Ledger.Effect.advancesTo_or_sameStage {existing : Option String} {cancelled : Bool}
    {l l' : Ledger} (h : l.Effect existing cancelled l') :
    l.machine.AdvancesTo l'.machine ∨ l.machine.SameStage l'.machine :=
  h.eq_advance_or_sameStage.imp_left fun ⟨_, hadvances, heq⟩ => heq ▸ hadvances

/-- Nothing is taken back of what has happened or was seen. -/
theorem Ledger.Effect.grows {existing : Option String} {cancelled : Bool} {l l' : Ledger}
    (h : l.Effect existing cancelled l') :
    l.machine.history <+: l'.machine.history ∧ l.trace <+: l'.trace := by
  cases h with
  | advance ends => exact ⟨ends.history_eq ▸ List.prefix_rfl, List.prefix_rfl⟩
  | glide | log => exact ⟨List.prefix_rfl, List.prefix_append _ _⟩
  | handOut | drop | handBack => exact ⟨List.prefix_rfl, List.prefix_rfl⟩
  | record | recordFailure | interrupt =>
    exact ⟨by rw [Machine.history_post]; exact List.prefix_append _ _, List.prefix_rfl⟩

namespace Execution

/-! ### Jobs one by one -/

variable {x y : Execution} {job : Nat} {j : Job}

/-- The jobs before a job, the job itself, and the jobs after it. -/
theorem exists_split (h : x.jobs[job]? = some j) : ∃ front back, x.jobs = front ++ j :: back ∧
    front.length = job ∧ ∀ f, x.jobs.modify job f = front ++ f j :: back := by
  obtain ⟨hlt, rfl⟩ := List.getElem?_eq_some_iff.mp h
  refine ⟨x.jobs.take job, x.jobs.drop (job + 1), ?_, ?_, fun f => ?_⟩
  · rw [List.getElem_cons_drop, List.take_append_drop]
  · exact List.length_take_of_le (Nat.le_of_lt hlt)
  · rw [List.modify_eq_take_cons_drop hlt]

/-- What holds of all jobs still holds when one of them has changed. -/
theorem forall_mem_modify {P : Job → Prop} {f : Job → Job} (h : ∀ j ∈ x.jobs, P j)
    (hj : x.jobs[job]? = some j) (hf : P (f j)) : ∀ k ∈ x.jobs.modify job f, P k := by
  obtain ⟨front, back, hsplit, -, hmodify⟩ := exists_split hj
  rw [hsplit] at h
  rw [hmodify]
  simp only [List.forall_mem_append, List.forall_mem_cons] at h ⊢
  exact ⟨h.1, hf, h.2.2⟩

theorem jobs_setPhase_setEnding (x : Execution) (job : Nat) (ending : Ending) (phase : Phase) :
    ((x.setEnding job ending).setPhase job phase).jobs =
      x.jobs.modify job ({ · with ending := some ending, phase }) :=
  List.modify_modify_eq ..

/-- Whoever has logged an event that is not recorded yet is about to record it. -/
def Recordable (x : Execution) : Prop :=
  ∀ poster, x.posting = some poster →
    ∃ e, x.nextPost? poster = some e ∧ e.isInformational = false

/-- What has to be known of the parts that a ledger leaves out. -/
structure InOrder (x : Execution) : Prop where
  nodup_line : x.line.Nodup
  /-- Those in the line wait for a permit. -/
  waits : ∀ job ∈ x.line, x.phase? job = some .inLine
  /-- The watcher is woken only in a cancelled run. -/
  stopped_of_awake : x.watcher = .awake → x.cancelled = true
  recordable : x.Recordable

/-- How far the manager and the watcher are, and whether the run is cancelled. -/
def control (x : Execution) : Manager × Watcher × Bool := (x.manager, x.watcher, x.cancelled)

theorem control_eq_iff {y : Execution} {manager : Manager} {watcher : Watcher} {cancelled : Bool} :
    y.control = (manager, watcher, cancelled) ↔
      y.manager = manager ∧ y.watcher = watcher ∧ y.cancelled = cancelled := by
  simp [control]

/-- What a move can come to for the manager and the watcher. -/
inductive Steers (x y : Execution) : Prop where
  | keep (control_eq : y.control = x.control)
  /-- The machine has finished. -/
  | join (finished : y.machine.stage = .finished)
    (control_eq : y.control = (.joining, x.watcher, x.cancelled))
  /-- The user asks to stop, and nothing else happens. -/
  | cancel (ledger_eq : y.ledger = x.ledger) (control_eq : y.control = (x.manager, x.watcher, true))
  | wake (control_eq : y.control = (x.manager, .awake, x.cancelled))
  /-- The watcher says that the user has asked to stop. -/
  | say (told : .interrupted ∈ y.machine.history)
    (control_eq : y.control = (x.manager, .done, x.cancelled))
  | conclude (joining : x.manager = .joining)
    (control_eq : y.control =
      (if x.cancelled then .awaitingWatcher else .dismissingWatcher, x.watcher, x.cancelled))
  | deliver {watcher : Watcher} (heard : x.manager = .awaitingWatcher ∧ x.watcher = .done ∨
      x.manager = .dismissingWatcher) (hears : watcher = .dismissed ∨ watcher = x.watcher)
    (control_eq : y.control = (.returned x.machine.outcome, watcher, x.cancelled))

/-- What is shown of each move: the line stays in order, and the move comes to effects. A call that
is seen to begin is what its job was about to do. -/
structure ContinuesTo (x y : Execution) : Prop where
  inOrder : y.InOrder
  existingNetwork_eq : y.existingNetwork = x.existingNetwork
  effects : Relation.ReflTransGen (Ledger.Effect x.existingNetwork x.cancelled) x.ledger y.ledger
  began : ∀ job c, y.trace = x.trace ++ [.began job c] →
    ∃ s o next, x.jobs[job]? = some ⟨s, .working (.call c next), o⟩
  steers : x.Steers y

theorem recordable_of_isNone (h : x.posting = none) : x.Recordable := fun _ hposting => by
  rw [h] at hposting
  cases hposting

/-- Whoever has logged an event is still about to record it, if those who are about to post one
stay. -/
theorem Recordable.nextPost?_eq (hx : x.Recordable)
    (hjobs : ∀ (i : Nat) (j : Job), x.jobs[i]? = some j → j.nextPost?.isSome = true →
      y.jobs[i]? = some j)
    (hwatcher : x.watcher = .awake → y.watcher = .awake) {poster : Poster}
    (hposting : x.posting = some poster) : y.nextPost? poster = x.nextPost? poster := by
  obtain ⟨e, he, -⟩ := hx poster hposting
  rw [he]
  cases poster with
  | watcher =>
    simp only [nextPost?] at he ⊢
    split at he
    · next hawake => rw [if_pos (hwatcher hawake), he]
    · cases he
  | job i =>
    obtain ⟨j, phase, hj, hpost⟩ := exists_of_nextPost? he
    exact nextPost?_job (hjobs i j hj (by rw [hpost]; rfl)) hpost

theorem Recordable.of_jobs (hx : x.Recordable)
    (hjobs : ∀ (i : Nat) (j : Job), x.jobs[i]? = some j → j.nextPost?.isSome = true →
      y.jobs[i]? = some j)
    (hwatcher : x.watcher = .awake → y.watcher = .awake) (hposting : y.posting = x.posting) :
    y.Recordable := by
  intro poster hposter
  rw [hposting] at hposter
  obtain ⟨e, he, hrecord⟩ := hx poster hposter
  exact ⟨e, (hx.nextPost?_eq hjobs hwatcher hposter).trans he, hrecord⟩

/-- Changing a job that posts nothing leaves those who do. -/
theorem stays_of_modify {f : Job → Job} (hj : x.jobs[job]? = some j) (hquiet : j.nextPost? = none)
    (hjobs : y.jobs = x.jobs.modify job f) (i : Nat) (j' : Job) (hj' : x.jobs[i]? = some j')
    (hpost : j'.nextPost?.isSome = true) : y.jobs[i]? = some j' := by
  have hne : job ≠ i := by
    rintro rfl
    obtain rfl := Option.some.inj (hj.symm.trans hj')
    rw [hquiet] at hpost
    cases hpost
  rw [hjobs, List.getElem?_modify_ne _ _ hne, hj']

theorem Recordable.of_modify (hx : x.Recordable) {f : Job → Job} (hj : x.jobs[job]? = some j)
    (hquiet : j.nextPost? = none) (hjobs : y.jobs = x.jobs.modify job f)
    (hwatcher : y.watcher = x.watcher) (hposting : y.posting = x.posting) : y.Recordable :=
  hx.of_jobs (stays_of_modify hj hquiet hjobs) (fun hawake => hwatcher.trans hawake) hposting

/-- Changing a job that does not wait leaves the line in order. -/
theorem InOrder.of_modify (hx : x.InOrder) {f : Job → Job} (hj : x.jobs[job]? = some j)
    (hphase : j.phase ≠ .inLine)
    (hposting : y.posting = none ∨ j.nextPost? = none ∧ y.posting = x.posting)
    (hjobs : y.jobs = x.jobs.modify job f) (hline : y.line = x.line)
    (hcontrol : y.control = x.control) : y.InOrder := by
  obtain ⟨-, hwatcher, hcancelled⟩ := control_eq_iff.mp hcontrol
  have hawake : y.watcher = .awake → y.cancelled = true := by
    rw [hwatcher, hcancelled]
    exact hx.stopped_of_awake
  have hrecordable : y.Recordable := by
    rcases hposting with hnone | ⟨hquiet, hkept⟩
    · exact recordable_of_isNone hnone
    · exact hx.recordable.of_modify hj hquiet hjobs hwatcher hkept
  refine ⟨hline ▸ hx.nodup_line, fun i hi => ?_, hawake, hrecordable⟩
  rw [hline] at hi
  have hwaits := hx.waits i hi
  have hne : job ≠ i := by
    rintro rfl
    rw [phase?_eq hj, Option.some.injEq] at hwaits
    exact hphase hwaits
  rw [phase?, hjobs, List.getElem?_modify_ne _ _ hne]
  exact hwaits

/-- Nothing happens to the ledger. -/
theorem ContinuesTo.of_ledger_eq (hx : x.InOrder) (hledger : y.ledger = x.ledger)
    (hline : y.line = x.line) (hnetwork : y.existingNetwork = x.existingNetwork)
    (hposting : y.posting = x.posting) (hwatcher : x.watcher = .awake → y.watcher = .awake)
    (hawake : y.watcher = .awake → y.cancelled = true) (hsteers : x.Steers y) :
    x.ContinuesTo y := by
  have hjobs : y.jobs = x.jobs := congrArg Ledger.jobs hledger
  have htrace : y.trace = x.trace := congrArg Ledger.trace hledger
  have hrecordable : y.Recordable :=
    hx.recordable.of_jobs (fun i j hj _ => hjobs ▸ hj) hwatcher hposting
  refine ⟨⟨hline ▸ hx.nodup_line, fun i hi => ?_, hawake, hrecordable⟩, hnetwork, hledger ▸ .refl,
    fun i c h => ?_, hsteers⟩
  · rw [phase?, hjobs]
    exact hx.waits i (hline ▸ hi)
  · simp [htrace] at h

/-- One job glides. -/
theorem ContinuesTo.of_glides (hx : x.InOrder) {f : Job → Job} {seen : List Happening}
    (hj : x.jobs[job]? = some j) (on : j.Glides x.existingNetwork x.cancelled job (f j) seen)
    (hphase : j.phase ≠ .inLine)
    (hposting : y.posting = none ∨ j.nextPost? = none ∧ y.posting = x.posting)
    (hjobs : y.jobs = x.jobs.modify job f) (hmachine : y.machine = x.machine)
    (htrace : y.trace = x.trace ++ seen) (hline : y.line = x.line)
    (hnetwork : y.existingNetwork = x.existingNetwork) (hcontrol : y.control = x.control) :
    x.ContinuesTo y := by
  refine ⟨hx.of_modify hj hphase hposting hjobs hline hcontrol, hnetwork, .single ?_, fun i c h => ?_,
    .keep hcontrol⟩
  · obtain ⟨front, back, hsplit, rfl, hmodify⟩ := exists_split hj
    unfold ledger
    rw [hmachine, hjobs, hmodify, htrace, hsplit]
    exact .glide on
  · obtain rfl : seen = [.began i c] := List.append_cancel_left (htrace.symm.trans h)
    generalize f j = j' at on
    cases on
    exact ⟨_, _, _, hj⟩

/-- A job does something with the machine. -/
theorem ContinuesTo.of_effect (hx : x.InOrder) {f : Job → Job} (hj : x.jobs[job]? = some j)
    (hphase : j.phase ≠ .inLine)
    (hposting : y.posting = none ∨ j.nextPost? = none ∧ y.posting = x.posting)
    (hjobs : y.jobs = x.jobs.modify job f) (htrace : y.trace = x.trace) (hline : y.line = x.line)
    (hnetwork : y.existingNetwork = x.existingNetwork) (hcontrol : y.control = x.control)
    (heffect : ∀ front back, Ledger.Effect x.existingNetwork x.cancelled
      ⟨x.machine, front ++ j :: back, x.trace⟩ ⟨y.machine, front ++ f j :: back, x.trace⟩) :
    x.ContinuesTo y := by
  refine ⟨hx.of_modify hj hphase hposting hjobs hline hcontrol, hnetwork, .single ?_, fun i c h => ?_,
    .keep hcontrol⟩
  · obtain ⟨front, back, hsplit, -, hmodify⟩ := exists_split hj
    unfold ledger
    rw [hjobs, hmodify, htrace, hsplit]
    exact heffect front back
  · simp [htrace] at h

/-! ### One job goes on -/

/-- A job that posts nothing goes on unseen. -/
theorem ContinuesTo.setPhase (hx : x.InOrder) {s : Step} {phase phase' : Phase} {o : Option Ending}
    (hj : x.jobs[job]? = some ⟨s, phase, o⟩)
    (on : Job.Glides x.existingNetwork x.cancelled job ⟨s, phase, o⟩ ⟨s, phase', o⟩ [])
    (hphase : phase ≠ .inLine) (hquiet : Job.nextPost? ⟨s, phase, o⟩ = none) :
    x.ContinuesTo (x.setPhase job phase') :=
  .of_glides hx hj on hphase (.inr ⟨hquiet, rfl⟩) rfl rfl (List.append_nil _).symm rfl rfl rfl

/-- A job that posts nothing goes on, and the outside sees it. -/
theorem ContinuesTo.saw (hx : x.InOrder) {s : Step} {phase phase' : Phase} {o : Option Ending}
    {happening : Happening} (hj : x.jobs[job]? = some ⟨s, phase, o⟩)
    (on : Job.Glides x.existingNetwork x.cancelled job ⟨s, phase, o⟩ ⟨s, phase', o⟩ [happening])
    (hphase : phase ≠ .inLine) (hquiet : Job.nextPost? ⟨s, phase, o⟩ = none) :
    x.ContinuesTo ((x.saw happening).setPhase job phase') :=
  .of_glides hx hj on hphase (.inr ⟨hquiet, rfl⟩) rfl rfl rfl rfl rfl rfl

/-- A job ends its work, with or without something to report. -/
theorem ContinuesTo.settle (hx : x.InOrder) {s : Step} {phase phase' : Phase} {o : Option Ending}
    {ending : Ending} (hj : x.jobs[job]? = some ⟨s, phase, o⟩)
    (on : Job.Glides x.existingNetwork x.cancelled job ⟨s, phase, o⟩ ⟨s, phase', some ending⟩ [])
    (hphase : phase ≠ .inLine) (hquiet : Job.nextPost? ⟨s, phase, o⟩ = none) :
    x.ContinuesTo ((x.setEnding job ending).setPhase job phase') :=
  .of_glides hx hj on hphase (.inr ⟨hquiet, rfl⟩) (jobs_setPhase_setEnding ..) rfl
    (List.append_nil _).symm rfl rfl rfl

/-! ### The line -/

/-- Whoever is at the head of the line waits, also when another job is through. -/
theorem InOrder.exists_head (hx : x.InOrder) {s : Step} {o : Option Ending} {head : Nat}
    {rest : List Nat} (hj : x.jobs[job]? = some ⟨s, .leaving, o⟩) (hline : x.line = head :: rest) :
    ∃ s' o', x.jobs[head]? = some ⟨s', .inLine, o'⟩ ∧
      (x.setPhase job .released).jobs[head]? = some ⟨s', .inLine, o'⟩ := by
  obtain ⟨s', o', hhead⟩ := exists_job (hx.waits head (hline ▸ List.mem_cons_self ..))
  have hne : job ≠ head := by
    rintro rfl
    cases hj.symm.trans hhead
  exact ⟨s', o', hhead, (List.getElem?_modify_ne _ _ hne).trans hhead⟩

/-- Somebody gets into the line who was not in it. -/
theorem ContinuesTo.joinLine (hx : x.InOrder) {s : Step} {o : Option Ending}
    (hj : x.jobs[job]? = some ⟨s, .arriving, o⟩) :
    x.ContinuesTo ({ x with line := x.line ++ [job] }.setPhase job .inLine) := by
  have hfresh : job ∉ x.line := fun hmem => by
    have hwaits := hx.waits job hmem
    rw [phase?_eq hj] at hwaits
    cases hwaits
  have hy : x.ContinuesTo (x.setPhase job .inLine) := .setPhase hx hj .joinLine (by simp) rfl
  refine ⟨⟨?_, fun i hi => ?_, hx.stopped_of_awake, hy.inOrder.recordable⟩, rfl, hy.effects,
    hy.began, .keep rfl⟩
  · exact List.nodup_append.mpr ⟨hx.nodup_line, List.nodup_singleton job, by
      rintro a ha b hb rfl
      exact hfresh (List.mem_singleton.mp hb ▸ ha)⟩
  · rcases List.mem_append.mp hi with hi | hi
    · exact hy.inOrder.waits i hi
    · rcases List.mem_singleton.mp hi with rfl
      show ((x.jobs.modify i _)[i]?).map _ = _
      rw [List.getElem?_modify_eq, hj]
      rfl

/-- Whoever is at the head of the line gets the permit of a job that is through. -/
theorem ContinuesTo.handOver (hx : x.InOrder) {s : Step} {o : Option Ending} {head : Nat}
    {rest : List Nat} (hj : x.jobs[job]? = some ⟨s, .leaving, o⟩) (hline : x.line = head :: rest) :
    x.ContinuesTo ({ x.setPhase job .released with line := rest }.setPhase head .admitted) := by
  have hreleased : x.ContinuesTo (x.setPhase job .released) :=
    .setPhase hx hj .release (by simp) rfl
  have hwait (i : Nat) (hi : i ∈ rest) : (x.setPhase job .released).phase? i = some .inLine :=
    hreleased.inOrder.waits i (hline ▸ List.mem_cons_of_mem _ hi : i ∈ x.line)
  obtain ⟨hhead, hrest⟩ := List.nodup_cons.mp (hline ▸ hx.nodup_line)
  obtain ⟨s', o', -, hj'⟩ := hx.exists_head hj hline
  obtain ⟨front, back, hsplit, -, hmodify⟩ := exists_split hj'
  have hadmitted :
      Recordable ({ x.setPhase job .released with line := rest }.setPhase head .admitted) :=
    hreleased.inOrder.recordable.of_modify hj' rfl rfl rfl rfl
  refine ⟨⟨hrest, fun i hi => ?_, hreleased.inOrder.stopped_of_awake, hadmitted⟩, rfl,
    hreleased.effects.tail ?_, hreleased.began, .keep rfl⟩
  · have hne : head ≠ i := fun heq => hhead (heq ▸ hi)
    show (((x.setPhase job .released).jobs.modify head _)[i]?).map _ = _
    rw [List.getElem?_modify_ne _ _ hne]
    exact hwait i hi
  · have hglide : Ledger.Effect x.existingNetwork x.cancelled
        ⟨x.machine, front ++ ⟨s', .inLine, o'⟩ :: back, x.trace⟩
        ⟨x.machine, front ++ ⟨s', .admitted, o'⟩ :: back, x.trace ++ []⟩ := .glide .leaveLine
    rw [List.append_nil] at hglide
    show Ledger.Effect _ x.cancelled ⟨x.machine, _, x.trace⟩
      ⟨x.machine, (x.setPhase job .released).jobs.modify head _, x.trace⟩
    rw [hmodify, hsplit]
    exact hglide

/-! ### The manager -/

/-- A job is handed a step. -/
theorem InOrder.of_new (hx : x.InOrder) {step : Step} (m : Machine) :
    InOrder { x with machine := m, jobs := x.jobs ++ [.new step] } := by
  have hold (i : Nat) (j : Job) (hj : x.jobs[i]? = some j) :
      (x.jobs ++ [.new step])[i]? = some j :=
    (List.getElem?_append_left (List.getElem?_eq_some_iff.mp hj).1).trans hj
  refine ⟨hx.nodup_line, fun i hi => ?_, hx.stopped_of_awake,
    hx.recordable.of_jobs (fun i j hj _ => hold i j hj) id rfl⟩
  obtain ⟨s, o, hj⟩ := exists_job (hx.waits i hi)
  rw [phase?, hold i _ hj]
  rfl

/-- Stages end, one after the other, and the machine goes on. -/
theorem effects_of_advances {m : Machine}
    (h : Relation.ReflTransGen Machine.AdvancesTo x.machine m) :
    Relation.ReflTransGen (Ledger.Effect x.existingNetwork x.cancelled) x.ledger
      ⟨m, x.jobs, x.trace⟩ :=
  h.lift (fun m => (⟨m, x.jobs, x.trace⟩ : Ledger)) fun _ _ hends => .advance hends

/-- The manager is handed a step, be it of a later stage. -/
theorem ContinuesTo.handOut (hx : x.InOrder) {step : Step} {m : Machine}
    (hasked : x.machine.pop = (.step step, m)) :
    x.ContinuesTo { x with machine := m, jobs := x.jobs ++ [.new step] } := by
  obtain ⟨m', hadvances, ⟨index, s, hready, hpop⟩ | ⟨-, -, hpop⟩ | ⟨-, -, -, hpop⟩⟩ :=
    x.machine.pop_spec <;> cases hasked.symm.trans hpop
  exact ⟨hx.of_new _, rfl, (effects_of_advances hadvances).tail (.handOut hready),
    fun _ _ h => by simp at h, .keep rfl⟩

/-- The manager hears that no stage is left. -/
theorem ContinuesTo.join (hx : x.InOrder) {m : Machine}
    (hasked : x.machine.pop = (.finished, m)) :
    x.ContinuesTo { x with machine := m, manager := .joining } := by
  obtain ⟨m', hadvances, ⟨_, _, -, hpop⟩ | ⟨-, -, hpop⟩ | ⟨-, -, hfinished, hpop⟩⟩ :=
    x.machine.pop_spec <;> cases hasked.symm.trans hpop
  exact ⟨⟨hx.nodup_line, hx.waits, hx.stopped_of_awake, hx.recordable⟩, rfl,
    effects_of_advances hadvances, fun _ _ h => by simp at h, .join hfinished rfl⟩

/-! ### What comes of a move -/

/-- Somebody logs an event, with or without more to do about it. -/
theorem ContinuesTo.log (hx : x.InOrder) {e : Event} {posting : Option Poster}
    (hother : ∀ s, e ≠ .stepStarting s)
    (hrecordable : Recordable { x.saw (.logged e) with posting := posting }) :
    x.ContinuesTo { x.saw (.logged e) with posting := posting } :=
  ⟨⟨hx.nodup_line, hx.waits, hx.stopped_of_awake, hrecordable⟩, rfl, .single (.log hother),
    fun _ _ h => by simp [Execution.saw] at h, .keep rfl⟩

/-- What comes of a move. -/
theorem continuesTo_of_takes {move : Move} (hx : x.InOrder) (h : x.Takes move y) :
    x.ContinuesTo y := by
  cases h with
  | handOut _ asked => exact .handOut hx asked
  | join _ asked => exact .join hx asked
  | drop on stopped making =>
    exact .of_effect hx on (by simp) (.inr ⟨rfl, rfl⟩) rfl rfl rfl rfl rfl
      fun _ _ => .drop stopped making
  | arrive on => exact .setPhase hx on .arrive (by simp) rfl
  | enter on => exact .setPhase hx on .enter (by simp) rfl
  | takePermit on =>
    exact .of_glides hx on .enter (by simp) (.inr ⟨rfl, rfl⟩) rfl rfl (List.append_nil _).symm rfl
      rfl rfl
  | joinLine on => exact .joinLine hx on
  | giveUp on stopped making => exact .setPhase hx on (.giveUp stopped making) (by simp) rfl
  | begin on kept => exact .setPhase hx on (.begin kept) (by simp) rfl
  | mention on free forLog =>
    exact .of_glides hx on (.log forLog) (by simp) (.inl free) rfl rfl rfl rfl rfl rfl
  | @log poster e _ next forHistory =>
    refine .log hx (fun s hstarts => ?_) fun poster' hposter => ?_
    · subst hstarts
      cases forHistory
    · cases hposter
      exact ⟨e, by cases poster <;> exact next, forHistory⟩
  | record on posting =>
    obtain ⟨e, hnext, hrecord⟩ := hx.recordable _ posting
    cases (nextPost?_job on rfl).symm.trans hnext
    exact .of_effect hx on (by simp) (.inl rfl) rfl rfl rfl rfl rfl fun _ _ => .record hrecord
  | recordFailure on _ =>
    exact .of_effect hx on (by simp) (.inl rfl) rfl rfl rfl rfl rfl fun _ _ => .recordFailure
  | recordInterrupt _ awake =>
    exact ⟨⟨hx.nodup_line, hx.waits, by simp, recordable_of_isNone rfl⟩, rfl,
      .single (.interrupt (hx.stopped_of_awake awake)), fun _ _ h => by simp at h,
      .say (by simp) rfl⟩
  | settle on quiet => exact .settle hx on (.settle quiet) (by simp) rfl
  | fail on loud => exact .settle hx on (.fail loud) (by simp) rfl
  | check on =>
    split
    · next hstopped => exact .setPhase hx on (.ifCancelled hstopped) (by simp) rfl
    · next hgoing =>
      exact .setPhase hx on (.otherwise (Bool.of_not_eq_true hgoing)) (by simp) rfl
  | skip on may stopped => exact .setPhase hx on (.skip stopped may) (by simp) rfl
  | call on kept =>
    exact .saw hx on (.call fun hstopped => by simpa [hstopped] using kept) (by simp) rfl
  | report on => exact .saw hx on .report (by simp) rfl
  | progress _ _ tells =>
    exact .log hx (Call.ne_stepStarting_of_progress? tells) hx.recordable
  | answer on => exact .saw hx on .answer (by simp) rfl
  | abandon on may stopped => exact .saw hx on (.abandon stopped may) (by simp) rfl
  | release on => exact .setPhase hx on .release (by simp) rfl
  | giveBack on =>
    exact .of_glides hx on .release (by simp) (.inr ⟨rfl, rfl⟩) rfl rfl (List.append_nil _).symm rfl
      rfl rfl
  | handOver on _ waiting => exact .handOver hx on waiting
  | finish on =>
    exact .of_effect hx on (by simp) (.inr ⟨rfl, rfl⟩) rfl rfl rfl rfl rfl fun _ _ => .handBack
  | cancel => exact .of_ledger_eq hx rfl rfl rfl rfl id (fun _ => rfl) (.cancel rfl rfl)
  | wake _ stopped =>
    exact .of_ledger_eq hx rfl rfl rfl rfl (fun _ => rfl) (fun _ => stopped) (.wake rfl)
  | conclude joining =>
    exact .of_ledger_eq hx rfl rfl rfl rfl id hx.stopped_of_awake (.conclude joining rfl)
  | heed awaiting done =>
    exact .of_ledger_eq hx rfl rfl rfl rfl id hx.stopped_of_awake
      (.deliver (.inl ⟨awaiting, done⟩) (.inr rfl) rfl)
  | dismiss dismissing =>
    refine .of_ledger_eq hx rfl rfl rfl rfl (fun hawake => by simp [hawake]) (fun hawake => ?_)
      (.deliver (.inr dismissing) ?_ rfl)
    · dsimp only at hawake
      split at hawake
      · cases hawake
      · exact hx.stopped_of_awake hawake
    · split
      · exact .inl rfl
      · exact .inr rfl

/-- What a move comes to. -/
theorem continuesTo_of_next? {move : Move} (hx : x.InOrder) (h : x.next? move = some y) :
    x.ContinuesTo y :=
  continuesTo_of_takes hx (takes_of_next? h)

end Execution

end ContainerTasks
