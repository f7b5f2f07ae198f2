import ContainerTasks.Plan

/-!
# The state machine of a task

The machine holds the history of a task and the plan of the stage it is in. It hands out each step
of the plan once, as soon as the step's rule is ready, and goes on to the next stage when nothing
is ready and every step that was handed out has been finished.

## Main definitions

* `Machine`, `Machine.start`
* `Machine.pop`: asks for a step
* `Machine.post`: adds an event to the history
* `Machine.finishStep`: takes a step back that was handed out
* `Machine.outcome`

## Main results

* `Machine.pop_eq`: asking for a step, one stage at a time
-/

namespace ContainerTasks

/-- Where a task is on its way. -/
inductive Stage where
  | run
  | cleanup
  | finished
  deriving DecidableEq, Inhabited

/-- The number of stages still to come. -/
def Stage.remaining : Stage → Nat
  | run => 2
  | cleanup => 1
  | finished => 0

/-- Whether containers and network are taken down once the first stage is over. -/
structure CleanupPolicy where
  afterFailure : Bool
  afterSuccess : Bool
  deriving DecidableEq, Inhabited

/-- Whether the policy wants a clean-up. -/
def CleanupPolicy.applies (policy : CleanupPolicy) (failed : Bool) : Bool :=
  if failed then policy.afterFailure else policy.afterSuccess

/-- What a run of a task has come to. -/
structure Outcome where
  /-- The failures, oldest first. -/
  failures : List Event
  /-- The exit code of the main container, if it was run to its end. -/
  exitCode : Option Int
  /-- What is left for the user to remove. -/
  leftovers : List Leftover
  deriving DecidableEq

/-- A run without failures has succeeded, whatever its exit code. -/
def Outcome.succeeded (outcome : Outcome) : Bool := outcome.failures.isEmpty

/-- The state of a task between two events. -/
structure Machine where
  graph : Graph
  policy : CleanupPolicy
  history : History
  stage : Stage
  /-- The plan of the stage. -/
  rules : List Rule
  /-- The positions in the plan whose steps have been handed out. -/
  handedOut : List Nat
  /-- How many steps have been handed out and not finished. -/
  inFlight : Nat
  /-- What was found left over when the last stage was over. -/
  leftovers : List Leftover
  /-- How often something has happened that may make a step ready. -/
  changes : Nat

/-- The answer to somebody who asks for a step. -/
inductive Pop where
  | step (step : Step)
  /-- Nothing is ready now, and steps are still in flight. -/
  | blocked
  /-- The task is over. -/
  | finished
  deriving DecidableEq

namespace Machine

/-- The machine of a task that has not begun. -/
def start (graph : Graph) (policy : CleanupPolicy) : Machine where
  graph
  policy
  history := []
  stage := .run
  rules := Plan.forRun graph
  handedOut := []
  inFlight := 0
  leftovers := []
  changes := 0

/-- The first step in the order of the plan that is ready and has not been handed out, with its
position. -/
def nextReady? (m : Machine) : Option (Nat × Step) :=
  m.rules.zipIdx.findSome? fun (rule, index) =>
    if index ∈ m.handedOut then none
    else
      match rule.evaluate m.history with
      | .ready step => some (index, step)
      | _ => none

/-- Hands out the step at a position of the plan. -/
def handOut (m : Machine) (index : Nat) : Machine :=
  { m with handedOut := index :: m.handedOut, inFlight := m.inFlight + 1 }

/-- The end of the last stage. -/
def finish (m : Machine) (leftovers : List Leftover) : Machine :=
  { m with stage := .finished, rules := [], handedOut := [], leftovers }

/-- Goes on to the next stage. A run that is not cleaned up lists what it leaves behind; a
clean-up does so if it had failures. -/
def enterNextStage (m : Machine) : Machine :=
  match m.stage with
  | .run =>
    if m.policy.applies m.history.hasFailures then
      { m with stage := .cleanup, rules := Plan.forCleanup m.graph m.history, handedOut := [] }
    else m.finish m.history.leftovers
  | .cleanup => m.finish (if m.history.hasCleanupFailures then m.history.leftovers else m.leftovers)
  | .finished => m

/-- Tells those who wait for a step that there may be one now. -/
def notify (m : Machine) : Machine := { m with changes := m.changes + 1 }

/-- Asks for a step; no more than `stages` stages come to their end over it. -/
def popWithin : Nat → Machine → Pop × Machine
  | stages, m =>
    match m.nextReady? with
    | some (index, step) => (.step step, m.handOut index)
    | none =>
      if m.inFlight ≠ 0 then (.blocked, m)
      else if m.stage = .finished then (.finished, m)
      else
        match stages with
        | 0 => (.finished, m)
        | stages + 1 => popWithin stages m.enterNextStage.notify

/-- Asks for a step. If none is ready and none in flight, the stage is over and the next one is
asked. -/
def pop (m : Machine) : Pop × Machine := popWithin m.stage.remaining m

theorem remaining_enterNextStage (m : Machine) (h : m.stage ≠ .finished) :
    m.enterNextStage.stage.remaining < m.stage.remaining := by
  unfold enterNextStage
  cases hs : m.stage with
  | run => dsimp only; split <;> simp [Stage.remaining, finish]
  | cleanup => simp [Stage.remaining, finish]
  | finished => exact absurd hs h

/-- A larger bound on the stages makes no difference. -/
theorem popWithin_eq_pop {stages : Nat} {m : Machine} (h : m.stage.remaining ≤ stages) :
    popWithin stages m = m.pop := by
  suffices ∀ small large (m : Machine), m.stage.remaining ≤ small → small ≤ large →
      popWithin large m = popWithin small m from this _ _ m (Nat.le_refl _) h
  intro small large
  induction large generalizing small with
  | zero =>
    intro m _ h
    rw [Nat.le_zero.1 h]
  | succ large ih =>
    intro m hm h
    unfold popWithin
    split
    · rfl
    · split
      · rfl
      · split
        · rfl
        · next hs =>
          have := remaining_enterNextStage m hs
          cases small with
          | zero => omega
          | succ small =>
            exact ih small _ (by show m.enterNextStage.stage.remaining ≤ small; omega) (by omega)

/-- Asking for a step, one stage at a time. -/
theorem pop_eq (m : Machine) :
    m.pop =
      match m.nextReady? with
      | some (index, step) => (.step step, m.handOut index)
      | none =>
        if m.inFlight ≠ 0 then (.blocked, m)
        else if m.stage = .finished then (.finished, m)
        else m.enterNextStage.notify.pop := by
  conv => lhs; unfold pop popWithin
  split
  · rfl
  · split
    · rfl
    · split
      · rfl
      · next hs =>
        have := remaining_enterNextStage m hs
        cases hr : m.stage.remaining with
        | zero => omega
        | succ n =>
          exact popWithin_eq_pop (by show m.enterNextStage.stage.remaining ≤ n; omega)

/-- Adds an event to the history. An event for the log alone wakes nobody. -/
def post (m : Machine) (e : Event) : Machine :=
  let m := { m with history := m.history ++ [e] }
  if e.isInformational then m else m.notify

/-- Takes back a step that was handed out. -/
def finishStep (m : Machine) : Machine := { m with inFlight := m.inFlight - 1 }.notify

def outcome (m : Machine) : Outcome where
  failures := m.history.failures
  exitCode := m.graph.root.bind m.history.exitCode?
  leftovers := m.leftovers

end Machine

end ContainerTasks
