import ContainerTasks.Machine
import ContainerTasks.Procedure

/-!
# Executions

An execution carries a task through its state machine. A manager takes steps from the machine and
sets up a job for each. Jobs are independent of each other and of the manager; so is the watcher,
which tells the machine that the user has asked to stop. How they take turns is not fixed: a
*move* is the smallest thing that one of them can do, and an execution goes on by any move that is
possible.

Some of the moves need a word of explanation.

* A job of a capped step works only while it holds a permit. If there is none, it joins a line, and
  a permit that is given back goes to the head of the line. The permit is given back before the step
  is handed back to the machine.
* An event is first logged and then recorded by the machine, and nobody else posts an event in
  between. An event for the log alone is not recorded.
* A call that may be given up is not begun once the run is cancelled, and is not awaited any longer
  either. Other calls are awaited to their end.

## Main definitions

* `Job`, `Phase`: a step that was handed out, and how far its job is
* `Execution`, `Execution.start`
* `Move`, `Execution.next?`: what can happen, and what comes of it
* `Happening`, `Execution.trace`: what the outside sees
* `Execution.Reachable`: the executions that moves can lead to
-/

namespace ContainerTasks

/-- How far a job is. -/
inductive Phase where
  /-- The manager holds the step and has not set the job up. -/
  | handed
  | arriving
  /-- The job waits for a permit. -/
  | inLine
  /-- The job has its permit, if it needs one. -/
  | admitted
  | working (rest : Procedure)
  | calling (call : Call) (next : Reply call.Value → Procedure)
  /-- The work has ended in an error that has not been posted. -/
  | failing (trouble : Trouble)
  /-- The error has been posted and not been reported. -/
  | reporting (trouble : Trouble)
  /-- The work is over. -/
  | leaving
  /-- The permit has been given back. -/
  | released
  /-- The step has been handed back to the machine. -/
  | gone

/-- A step that the machine has handed out. -/
structure Job where
  step : Step
  phase : Phase
  /-- How the work on the step has ended, if it was begun and is over. -/
  ending : Option Ending

/-- How far the manager is. -/
inductive Manager where
  | dispatching
  /-- The machine has finished. -/
  | joining
  /-- The run was cancelled, and the watcher has still to say so. -/
  | awaitingWatcher
  /-- The run was not cancelled, and the watcher is not needed any longer. -/
  | dismissingWatcher
  | returned (outcome : Outcome)
  deriving DecidableEq

/-- How far the watcher is. -/
inductive Watcher where
  | asleep
  /-- The watcher knows that the run is cancelled. -/
  | awake
  | done
  | dismissed
  deriving DecidableEq

/-- Who posts an event. -/
inductive Poster where
  | job (index : Nat)
  | watcher
  deriving DecidableEq

/-- What the outside sees of an execution. A job is known by its place among the steps handed
out. -/
inductive Happening where
  | logged (event : Event)
  | began (job : Nat) (call : Call)
  | answered (job : Nat) (answer : Answer)
  /-- A call is not awaited any longer. -/
  | abandoned (job : Nat) (call : Call)
  /-- An unexpected error is reported to whoever looks after the program. -/
  | reported (job : Nat) (trouble : Trouble)

/-- A task that is being carried out. -/
structure Execution where
  machine : Machine
  /-- The network to use, if it is not to be made. -/
  existingNetwork : Option String
  /-- How many capped steps may be worked on at once, if there is a limit. -/
  limit : Option Nat
  freePermits : Nat
  /-- The jobs that wait for a permit, longest first. -/
  line : List Nat
  /-- The steps handed out, oldest first. -/
  jobs : List Job
  manager : Manager
  watcher : Watcher
  cancelled : Bool
  /-- Who has logged an event that is not recorded yet. -/
  posting : Option Poster
  /-- What the outside has seen, oldest first. -/
  trace : List Happening

/-- What can happen in an execution. -/
inductive Move where
  /-- The manager asks the machine for a step. -/
  | dispatch
  /-- The manager sets up the job of a step, or drops the step in a cancelled run. -/
  | place (job : Nat)
  /-- A job asks for a permit, if it needs one. -/
  | enter (job : Nat)
  /-- A job begins with the work, or gives up in a cancelled run. -/
  | begin (job : Nat)
  | log (poster : Poster)
  | record
  /-- A job goes on with its work. -/
  | work (job : Nat)
  /-- The runtime tells how far a call is. -/
  | progress (job : Nat) (line : String)
  | reply (job : Nat) (answer : Answer)
  | abandon (job : Nat)
  | release (job : Nat)
  /-- A job hands its step back. -/
  | finish (job : Nat)
  /-- The user asks to stop. -/
  | cancel
  /-- The watcher notices that the run is cancelled. -/
  | wake
  /-- The manager looks whether the run was cancelled, once the machine has finished. -/
  | conclude
  /-- The manager tells the outcome. -/
  | deliver

namespace Job

/-- A step that was just handed out. -/
def new (step : Step) : Job := ⟨step, .handed, none⟩

/-- The event that a job is about to post, with its phase after that. -/
def nextPost? (job : Job) : Option (Event × Phase) :=
  match job.phase with
  | .working (.post event rest) => some (event, .working rest)
  | .failing trouble => some (job.step.failure trouble, .reporting trouble)
  | _ => none

/-- Whether the step must not be begun. -/
def isBarred (job : Job) (cancelled : Bool) : Bool := cancelled && !job.step.isCleanup

/-- Whether the manager has still to deal with the step. -/
def isHanded (job : Job) : Bool :=
  match job.phase with
  | .handed => true
  | _ => false

/-- Whether the step has been handed back. -/
def isGone (job : Job) : Bool :=
  match job.phase with
  | .gone => true
  | _ => false

end Job

namespace Execution

/-- The largest number of permits that can be kept. -/
def mostPermits : Nat := (UInt64.size - 1) / 8

/-- The beginning of an execution. With a limit on the number of permits that cannot be kept there
is none. -/
def start? (machine : Machine) (existingNetwork : Option String) (limit : Option Nat)
    (cancelled : Bool) : Option Execution :=
  if limit.getD 0 ≤ mostPermits then
    some {
      machine, existingNetwork, limit, cancelled
      freePermits := limit.getD 0
      line := []
      jobs := []
      manager := .dispatching
      watcher := .asleep
      posting := none
      trace := [] }
  else none

/-! ### Jobs -/

/-- Whether a job of the step needs a permit. -/
def needsPermit (x : Execution) (step : Step) : Bool := x.limit.isSome && step.isCapped

/-- How far a job is. -/
def phase? (x : Execution) (job : Nat) : Option Phase := x.jobs[job]?.map (·.phase)

/-- The execution with a job in another phase. -/
def setPhase (x : Execution) (job : Nat) (phase : Phase) : Execution :=
  { x with jobs := x.jobs.modify job ({ · with phase }) }

/-- The execution with the end of a job's work noted. -/
def setEnding (x : Execution) (job : Nat) (ending : Ending) : Execution :=
  { x with jobs := x.jobs.modify job ({ · with ending := some ending }) }

/-- The execution after something that the outside sees. -/
def saw (x : Execution) (happening : Happening) : Execution :=
  { x with trace := x.trace ++ [happening] }

/-- A permit comes free. It goes to the head of the line, if there is a line. -/
def freePermit (x : Execution) : Execution :=
  match x.line with
  | [] => { x with freePermits := x.freePermits + 1 }
  | head :: rest => { x with line := rest }.setPhase head .admitted

/-- The step of a job is handed back. -/
def handBack (x : Execution) (job : Nat) : Execution :=
  { x with machine := x.machine.finishStep }.setPhase job .gone

/-! ### Posting events -/

/-- The event that somebody is about to post. -/
def nextPost? (x : Execution) : Poster → Option Event
  | .job job => do return (← (← x.jobs[job]?).nextPost?).1
  | .watcher => if x.watcher = .awake then some .interrupted else none

/-- The execution when somebody has got an event through. -/
def posted (x : Execution) : Poster → Execution
  | .job job =>
    match x.jobs[job]?.bind Job.nextPost? with
    | some (_, phase) => x.setPhase job phase
    | none => x
  | .watcher => { x with watcher := .done }

/-- Somebody logs an event. -/
def log? (x : Execution) (poster : Poster) : Option Execution := do
  guard x.posting.isNone
  let event ← x.nextPost? poster
  let x := x.saw (.logged event)
  return if event.isInformational then x.posted poster else { x with posting := some poster }

/-- The event that was logged last is recorded. -/
def record? (x : Execution) : Option Execution := do
  let poster ← x.posting
  let event ← x.nextPost? poster
  return { x with machine := x.machine.post event, posting := none }.posted poster

/-! ### The work of a job -/

/-- The work of a job is over. -/
def settle (x : Execution) (job : Nat) (ending : Ending) : Execution :=
  match ending.trouble? with
  | none => (x.setEnding job ending).setPhase job .leaving
  | some trouble => (x.setEnding job ending).setPhase job (.failing trouble)

/-- A job goes on with its work: it looks whether the run is cancelled, makes a call, comes to an
end or reports an error. -/
def work? (x : Execution) (job : Nat) : Option Execution := do
  match ← x.phase? job with
  | .working (.ended ending) => some (x.settle job ending)
  | .working (.check ifCancelled otherwise) =>
    some (x.setPhase job (.working (if x.cancelled then ifCancelled else otherwise)))
  | .working (.call call next) =>
    if call.isAbandonable && x.cancelled then some (x.setPhase job (.working (next .cancelled)))
    else some ((x.saw (.began job call)).setPhase job (.calling call next))
  | .reporting trouble => some ((x.saw (.reported job trouble)).setPhase job .leaving)
  | _ => none

/-- A call tells how far it is. -/
def progress? (x : Execution) (job : Nat) (line : String) : Option Execution := do
  guard x.posting.isNone
  match ← x.phase? job with
  | .calling call _ =>
    let event ← call.progress? line
    return x.saw (.logged event)
  | _ => none

/-- A call is answered, unless it is not awaited any longer. -/
def reply? (x : Execution) (job : Nat) (answer : Answer) : Option Execution := do
  match ← x.phase? job with
  | .calling call next =>
    if call.isAbandonable && x.cancelled then none
    else if h : answer.call = call then
      some ((x.saw (.answered job answer)).setPhase job (.working (next (h ▸ answer.reply))))
    else none
  | _ => none

/-- A call is not awaited any longer. -/
def abandon? (x : Execution) (job : Nat) : Option Execution := do
  match ← x.phase? job with
  | .calling call next =>
    if call.isAbandonable && x.cancelled then
      some ((x.saw (.abandoned job call)).setPhase job (.working (next .cancelled)))
    else none
  | _ => none

/-! ### The way of a job -/

/-- The manager asks the machine for a step. It does so only when it has dealt with the one
before. -/
def dispatch? (x : Execution) : Option Execution := do
  guard (x.manager = .dispatching ∧ x.jobs.all (!·.isHanded))
  match x.machine.pop with
  | (.step step, machine) => return { x with machine, jobs := x.jobs ++ [.new step] }
  | (.blocked, _) => none
  | (.finished, machine) => return { x with machine, manager := .joining }

/-- The manager sets up the job of a step, or drops the step in a cancelled run. -/
def place? (x : Execution) (job : Nat) : Option Execution := do
  let j ← x.jobs[job]?
  match j.phase with
  | .handed =>
    some (if j.isBarred x.cancelled then x.handBack job else x.setPhase job .arriving)
  | _ => none

/-- A job asks for a permit, if it needs one. -/
def enter? (x : Execution) (job : Nat) : Option Execution := do
  let j ← x.jobs[job]?
  match j.phase with
  | .arriving =>
    if !x.needsPermit j.step then return x.setPhase job .admitted
    else if 0 < x.freePermits then
      return { x with freePermits := x.freePermits - 1 }.setPhase job .admitted
    else return { x with line := x.line ++ [job] }.setPhase job .inLine
  | _ => none

/-- A job begins with the work, or gives up in a cancelled run. -/
def begin? (x : Execution) (job : Nat) : Option Execution := do
  let j ← x.jobs[job]?
  match j.phase with
  | .admitted =>
    some (x.setPhase job
      (if j.isBarred x.cancelled then .leaving
      else .working (.post (.stepStarting j.step) (j.step.procedure x.existingNetwork))))
  | _ => none

/-- A job gives its permit back, if it has one. -/
def release? (x : Execution) (job : Nat) : Option Execution := do
  let j ← x.jobs[job]?
  match j.phase with
  | .leaving =>
    let x := x.setPhase job .released
    return if x.needsPermit j.step then x.freePermit else x
  | _ => none

/-- A job hands its step back. -/
def finish? (x : Execution) (job : Nat) : Option Execution := do
  match ← x.phase? job with
  | .released => some (x.handBack job)
  | _ => none

/-! ### The end -/

/-- The watcher notices that the run is cancelled. -/
def wake? (x : Execution) : Option Execution := do
  guard (x.watcher = .asleep ∧ x.cancelled)
  return { x with watcher := .awake }

/-- The manager looks whether the run was cancelled. -/
def conclude? (x : Execution) : Option Execution := do
  guard (x.manager = .joining ∧ x.jobs.all (·.isGone))
  return { x with manager := if x.cancelled then .awaitingWatcher else .dismissingWatcher }

/-- The manager tells the outcome. A watcher that has noticed something is not kept from posting
it. -/
def deliver? (x : Execution) : Option Execution := do
  match x.manager with
  | .awaitingWatcher =>
    guard (x.watcher = .done)
    return { x with manager := .returned x.machine.outcome }
  | .dismissingWatcher =>
    return { x with
      manager := .returned x.machine.outcome
      watcher := if x.watcher = .asleep then .dismissed else x.watcher }
  | _ => none

/-! ### Moves -/

/-- What comes of a move, if it is possible. -/
def next? (x : Execution) : Move → Option Execution
  | .dispatch => x.dispatch?
  | .place job => x.place? job
  | .enter job => x.enter? job
  | .begin job => x.begin? job
  | .log poster => x.log? poster
  | .record => x.record?
  | .work job => x.work? job
  | .progress job line => x.progress? job line
  | .reply job answer => x.reply? job answer
  | .abandon job => x.abandon? job
  | .release job => x.release? job
  | .finish job => x.finish? job
  | .cancel => some { x with cancelled := true }
  | .wake => x.wake?
  | .conclude => x.conclude?
  | .deliver => x.deliver?

/-- The executions that moves can lead to from the first one. -/
inductive Reachable (first : Execution) : Execution → Prop where
  | refl : Reachable first first
  | step {x y : Execution} (m : Move) (h : Reachable first x) (hm : x.next? m = some y) :
    Reachable first y

/-- The outcome of an execution that is over. -/
def outcome? (x : Execution) : Option Outcome :=
  match x.manager with
  | .returned outcome => some outcome
  | _ => none

end Execution

end ContainerTasks
