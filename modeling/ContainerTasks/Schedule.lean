import ContainerTasks.Session
import ContainerTasks.Turn

/-!
# A schedule for sessions

A session can go on in many ways; the schedule is one of them, as a single thread would take it.
Jobs that can go on stand in a queue. The one at the head has its turn, and goes on until it has
ended or has to wait. Only when the queue is empty does the manager have its turn: it takes steps
from the machine until there is none, and their jobs join the queue.

## Main definitions

* `Schedule`, `Schedule.start`
* `Schedule.settle`: goes on until nothing can
* `Schedule.cancel`, `Schedule.release?`: what comes from outside

## Main results

* `Schedule.reachable_settle`, `Schedule.reachable_cancel`, `Schedule.reachable_of_release?`: all
  that the schedule does to a session it does by moves of the session
-/

namespace ContainerTasks

/-- Who can have a turn. -/
inductive Runner where
  | watcher
  | job (index : Nat)
  deriving DecidableEq

/-- A job that waits for the reply to a call. -/
structure Parked where
  job : Nat
  held : Held
  /-- Whether it stands in the queue. -/
  queued : Bool

/-- A session with its queue. -/
structure Schedule (σ : Type) where
  service : Service σ
  /-- The state of the runtime. -/
  state : σ
  session : Session
  queue : List Runner
  /-- The jobs that wait, longest first. -/
  parked : List Parked
  managersTurn : Bool

/-- The moves of a job that make up an act. -/
def Act.moves (job : Nat) : Act → List Move
  | looked | refused _ | began _ => [.work job]
  | posted event => if event.isInformational then [.log (.job job)] else [.log (.job job), .record]
  | progressed _ line => [.progress job line]
  | answered answer => [.reply job answer]
  | abandoned _ => [.abandon job]

namespace Schedule

variable {σ : Type}

/-- The execution of the task that is carried out. -/
def execution? (s : Schedule σ) : Option Execution :=
  match s.session.state with
  | .running _ execution => some execution
  | _ => none

/-- How far a job is. -/
def phase? (s : Schedule σ) (job : Nat) : Option Phase := s.execution?.bind (·.phase? job)

/-- Makes a move. The schedule makes none that is not possible. -/
def move (s : Schedule σ) (m : SessionMove) : Schedule σ :=
  { s with session := (s.session.next? m).getD s.session }

/-- Makes moves in the task that is carried out. -/
def moves (s : Schedule σ) (ms : List Move) : Schedule σ :=
  ms.foldl (fun s m => s.move (.within m)) s

/-- Puts somebody at the end of the queue. -/
def enqueue (s : Schedule σ) (runner : Runner) : Schedule σ :=
  { s with queue := s.queue ++ [runner] }

/-! ### Turns of jobs -/

/-- A job leaves. The permit it gives back lets the head of the line go on. -/
def leave (s : Schedule σ) (job : Nat) : Schedule σ :=
  let heir? : Option Nat := do
    let x ← s.execution?
    let j ← x.jobs[job]?
    if x.needsPermit j.step then x.line.head? else none
  let s := s.moves [.release job]
  let s := match heir? with
    | some heir => s.enqueue (.job heir)
    | none => s
  s.moves [.finish job]

/-- The work of a job has ended. -/
def settleJob (s : Schedule σ) (job : Nat) (ending : Ending) : Schedule σ :=
  let report : List Move :=
    if ending.trouble?.isSome then [.log (.job job), .record, .work job] else []
  (s.moves (.work job :: report)).leave job

/-- Makes the moves of a turn of a job. -/
def note (s : Schedule σ) (job : Nat) : List Act × Pause × σ → Schedule σ
  | (acts, pause, state) =>
    let s := { s with state }.moves (acts.flatMap (Act.moves job))
    match pause with
    | .ended ending => s.settleJob job ending
    | .held held => { s with parked := s.parked ++ [⟨job, held, false⟩] }

/-- A job that has its permit begins with the work. -/
def beginWork (s : Schedule σ) (job : Nat) : Schedule σ :=
  let s := s.moves [.begin job]
  match s.execution? with
  | none => s
  | some x =>
    match x.phase? job with
    | some (.working procedure) => s.note job (procedure.turn s.service x.cancelled s.state)
    | some .leaving => s.leave job
    | _ => s

/-- A job that has waited goes on. -/
def resume (s : Schedule σ) (job : Nat) : Schedule σ :=
  match s.execution?, s.parked.find? (·.job = job) with
  | some x, some parked =>
    { s with parked := s.parked.filter (·.job ≠ job) }.note job
      (parked.held.resume s.service x.cancelled s.state)
  | _, _ => s

/-- A turn of a job. -/
def jobTurn (s : Schedule σ) (job : Nat) : Schedule σ :=
  match s.phase? job with
  | some .arriving =>
    let s := s.moves [.enter job]
    match s.phase? job with
    | some .admitted => s.beginWork job
    | _ => s
  | some .admitted => s.beginWork job
  | some (.calling ..) => s.resume job
  | _ => s

/-- A turn of the watcher. -/
def watcherTurn (s : Schedule σ) : Schedule σ :=
  if s.execution?.any fun x => x.cancelled && x.watcher = .asleep then
    s.moves [.wake, .log .watcher, .record]
  else s

/-! ### Turns of the manager -/

/-- The manager takes a step from the machine. -/
def dispatch? (s : Schedule σ) (x : Execution) : Option (Schedule σ) := do
  let x ← x.dispatch?
  let s := s.moves [.dispatch]
  if x.manager = .joining then return s
  else
    let job := x.jobs.length - 1
    let s := s.moves [.place job]
    let dropped := s.execution?.any fun x => x.jobs[job]?.any (·.isGone)
    return if dropped then s else s.enqueue (.job job)

/-- The manager tells the outcome, and the next task begins. -/
def proceed (s : Schedule σ) : Schedule σ :=
  let s := (s.moves [.deliver]).move .proceed
  if s.execution?.isSome then s.enqueue .watcher else s

/-- The next thing that the manager can do. -/
def manage? (s : Schedule σ) : Option (Schedule σ) := do
  let x ← s.execution?
  match x.manager with
  | .dispatching => s.dispatch? x
  | .joining => return s.moves [.conclude]
  | .awaitingWatcher => if x.watcher = .done then return s.proceed else none
  | .dismissingWatcher => return s.proceed
  | .returned _ => none

/-! ### The whole -/

/-- The next thing that happens. -/
def next? (s : Schedule σ) : Option (Schedule σ) :=
  if s.managersTurn then
    match s.manage? with
    | some s => some s
    | none => some { s with managersTurn := false }
  else
    match s.queue with
    | runner :: queue =>
      let s := { s with queue }
      match runner with
      | .watcher => some s.watcherTurn
      | .job job => some (s.jobTurn job)
    | [] => if s.manage?.isSome then some { s with managersTurn := true } else none

/-- More things than can happen before all is quiet: each task has a bounded number of steps, and
each of them has few turns. -/
def patience (config : Config) : Nat :=
  let steps := config.containers.entries.foldl (fun n c => n + c.2.setupCommands.length + 8) 8
  16 * (config.tasks.size + 1) * steps

/-- Goes on as long as things happen, but no further than told. -/
def settleWithin : Nat → Schedule σ → Schedule σ
  | 0, s => s
  | fuel + 1, s =>
    match s.next? with
    | some s => settleWithin fuel s
    | none => s

/-- Goes on until nothing can happen any more. -/
def settle (s : Schedule σ) : Schedule σ := settleWithin (patience s.session.config) s

/-- A session that is about to begin. The watcher is first in the queue, but the manager has the
first turn. -/
def start (service : Service σ) (state : σ) (session : Session) : Schedule σ :=
  let s : Schedule σ :=
    { service, state, session, queue := [], parked := [], managersTurn := true }
  if s.execution?.isSome then s.enqueue .watcher else s

/-! ### From outside -/

/-- The user asks to stop. The watcher can go on, and so can those who wait for calls that are given
up. -/
def cancel (s : Schedule σ) : Schedule σ :=
  match s.execution? with
  | none => s
  | some x =>
    let s := s.moves [.cancel]
    let s := if x.watcher = .asleep && .watcher ∉ s.queue then s.enqueue .watcher else s
    let waking := s.parked.filter fun p => p.held.isAbandonable && !p.queued
    { s with
      queue := s.queue ++ waking.map (.job ·.job)
      parked := s.parked.map fun p => { p with queued := p.queued || p.held.isAbandonable } }

/-- Opens a latch once, for the job that has waited there longest. -/
def release? (s : Schedule σ) (latch : String) : Option (Schedule σ) := do
  let first ← s.parked.find? fun p => p.held.latch = latch && !p.queued
  let parked := s.parked.map fun p => if p.job = first.job then { p with queued := true } else p
  return { s with parked }.enqueue (.job first.job)

/-! ### Moves only -/

theorem reachable_move {first : Session} {s : Schedule σ} (m : SessionMove)
    (h : first.Reachable s.session) : first.Reachable (s.move m).session := by
  cases hm : s.session.next? m with
  | none => simpa [move, hm] using h
  | some t => simpa [move, hm] using h.step m hm

theorem reachable_moves {first : Session} {s : Schedule σ} (ms : List Move)
    (h : first.Reachable s.session) : first.Reachable (s.moves ms).session := by
  induction ms generalizing s with
  | nil => exact h
  | cons m ms ih => exact ih (reachable_move (.within m) h)

theorem reachable_leave {first : Session} {s : Schedule σ} (job : Nat)
    (h : first.Reachable s.session) : first.Reachable (s.leave job).session := by
  unfold leave
  dsimp only
  split
  · exact reachable_moves _ (reachable_moves _ h)
  · exact reachable_moves _ (reachable_moves _ h)

theorem reachable_note {first : Session} {s : Schedule σ} (job : Nat) (turn : List Act × Pause × σ)
    (h : first.Reachable s.session) : first.Reachable (s.note job turn).session := by
  unfold note
  dsimp only
  split
  · exact reachable_leave _ (reachable_moves _ (reachable_moves _ h))
  · exact reachable_moves _ h

theorem reachable_beginWork {first : Session} {s : Schedule σ} (job : Nat)
    (h : first.Reachable s.session) : first.Reachable (s.beginWork job).session := by
  have begun := reachable_moves [.begin job] h
  unfold beginWork
  dsimp only
  split
  · exact begun
  · split
    · exact reachable_note _ _ begun
    · exact reachable_leave _ begun
    · exact begun

theorem reachable_resume {first : Session} {s : Schedule σ} (job : Nat)
    (h : first.Reachable s.session) : first.Reachable (s.resume job).session := by
  unfold resume
  split
  · exact reachable_note _ _ h
  · exact h

theorem reachable_jobTurn {first : Session} {s : Schedule σ} (job : Nat)
    (h : first.Reachable s.session) : first.Reachable (s.jobTurn job).session := by
  unfold jobTurn
  dsimp only
  split
  · split
    · exact reachable_beginWork _ (reachable_moves _ h)
    · exact reachable_moves _ h
  · exact reachable_beginWork _ h
  · exact reachable_resume _ h
  · exact h

theorem reachable_watcherTurn {first : Session} {s : Schedule σ}
    (h : first.Reachable s.session) : first.Reachable s.watcherTurn.session := by
  unfold watcherTurn
  split
  · exact reachable_moves _ h
  · exact h

theorem reachable_of_dispatch? {first : Session} {s t : Schedule σ} {x : Execution}
    (h : first.Reachable s.session) (ht : s.dispatch? x = some t) : first.Reachable t.session := by
  obtain ⟨y, -, ht⟩ := Option.bind_eq_some_iff.1 ht
  split at ht
  · cases ht
    exact reachable_moves _ h
  · cases ht
    split <;> exact reachable_moves _ (reachable_moves _ h)

theorem reachable_proceed {first : Session} {s : Schedule σ}
    (h : first.Reachable s.session) : first.Reachable s.proceed.session := by
  unfold proceed
  dsimp only
  split <;> exact reachable_move _ (reachable_moves _ h)

theorem reachable_of_manage? {first : Session} {s t : Schedule σ}
    (h : first.Reachable s.session) (ht : s.manage? = some t) : first.Reachable t.session := by
  obtain ⟨x, -, ht⟩ := Option.bind_eq_some_iff.1 ht
  split at ht
  · exact reachable_of_dispatch? h ht
  · cases ht
    exact reachable_moves _ h
  · split at ht <;> cases ht
    exact reachable_proceed h
  · cases ht
    exact reachable_proceed h
  · cases ht

theorem reachable_of_next? {first : Session} {s t : Schedule σ}
    (h : first.Reachable s.session) (ht : s.next? = some t) : first.Reachable t.session := by
  unfold next? at ht
  split at ht
  · split at ht
    · cases ht
      exact reachable_of_manage? h ‹_›
    · cases ht
      exact h
  · split at ht
    · split at ht <;> cases ht
      · exact reachable_watcherTurn h
      · exact reachable_jobTurn _ h
    · split at ht <;> cases ht
      exact h

theorem reachable_settleWithin {first : Session} {s : Schedule σ} (fuel : Nat)
    (h : first.Reachable s.session) : first.Reachable (s.settleWithin fuel).session := by
  induction fuel generalizing s with
  | zero => exact h
  | succ fuel ih =>
    unfold settleWithin
    split
    · exact ih (reachable_of_next? h ‹_›)
    · exact h

theorem reachable_settle {first : Session} {s : Schedule σ}
    (h : first.Reachable s.session) : first.Reachable s.settle.session :=
  reachable_settleWithin _ h

theorem reachable_cancel {first : Session} {s : Schedule σ}
    (h : first.Reachable s.session) : first.Reachable s.cancel.session := by
  unfold cancel
  split
  · exact h
  · dsimp only
    split <;> exact reachable_moves _ h

theorem reachable_of_release? {first : Session} {s t : Schedule σ} {latch : String}
    (h : first.Reachable s.session) (ht : s.release? latch = some t) :
    first.Reachable t.session := by
  obtain ⟨parked, -, ht⟩ := Option.bind_eq_some_iff.1 ht
  cases ht
  exact h

end Schedule

end ContainerTasks
