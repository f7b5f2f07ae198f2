import ContainerTasks.Machine

/-!
# Callers at a machine

Several callers may wait at a machine for its next step. A caller that finds nothing ready goes to
sleep until the machine notes a change, and then tries again. The dispenser keeps the callers that
sleep and the steps that are held, and says after each operation which callers were served.

## Main definitions

* `Dispenser`: a machine, the steps that are held, and the callers that wait
* `Dispenser.Op`: what callers can do
* `Dispenser.apply`: one operation, with the callers served because of it
* `Dispenser.settle`: wakes callers until all of them sleep
-/

namespace ContainerTasks

/-- A caller that waits for a step. -/
structure Waiter where
  id : Nat
  /-- The count of changes when the caller last tried; a new caller has not tried yet. -/
  seen : Option Nat
  deriving DecidableEq

/-- A machine with its callers. -/
structure Dispenser where
  machine : Machine
  /-- The numbers of the steps that were handed out and are held still. -/
  held : List Nat
  /-- How many steps have been handed out. Steps are numbered in that order. -/
  handed : Nat
  /-- The callers that wait, oldest first. -/
  waiters : List Waiter
  /-- How many callers have begun to wait. -/
  opened : Nat

namespace Dispenser

/-- A machine without callers. -/
def ofMachine (machine : Machine) : Dispenser := ⟨machine, [], 0, [], 0⟩

/-- A step as it was handed out. -/
structure Ticket where
  number : Nat
  step : Step
  deriving DecidableEq

/-- What a caller gets that tries once. -/
inductive Attempt where
  | got (ticket : Ticket)
  | blocked
  | finished
  deriving DecidableEq

/-- Tries once to get a step. -/
def attempt (d : Dispenser) : Attempt × Dispenser :=
  match d.machine.pop with
  | (.step step, machine) =>
    (.got ⟨d.handed, step⟩,
      { d with machine, held := d.held ++ [d.handed], handed := d.handed + 1 })
  | (.blocked, machine) => (.blocked, { d with machine })
  | (.finished, machine) => (.finished, { d with machine })

/-- A caller that has waited and is served: with a step, or, when the task is over, without. -/
structure Served where
  waiter : Nat
  ticket : Option Ticket
  deriving DecidableEq

/-- A caller tries if the machine has noted a change since it last did. The callers already dealt
with are those of the dispenser. -/
def retry (d : Dispenser) (w : Waiter) : Dispenser × List Served :=
  if w.seen = some d.machine.changes then ({ d with waiters := d.waiters ++ [w] }, [])
  else
    match d.attempt with
    | (.got ticket, d) => (d, [⟨w.id, some ticket⟩])
    | (.finished, d) => (d, [⟨w.id, none⟩])
    | (.blocked, d) =>
      ({ d with waiters := d.waiters ++ [{ w with seen := some d.machine.changes }] }, [])

/-- All callers are dealt with once, oldest first. -/
def retryAll (d : Dispenser) : Dispenser × List Served :=
  d.waiters.foldl
    (fun (d, served) w =>
      let (d, more) := d.retry w
      (d, served ++ more))
    ({ d with waiters := [] }, [])

/-- Whether no caller has a reason to try again. -/
def isSettled (d : Dispenser) : Bool := d.waiters.all (·.seen = some d.machine.changes)

/-- Deals with all callers until none has a reason to try again, at most `rounds` times. -/
def settleWithin : Nat → Dispenser → Dispenser × List Served
  | 0, d => (d, [])
  | rounds + 1, d =>
    if d.isSettled then (d, [])
    else
      let (d, served) := d.retryAll
      let (d, more) := settleWithin rounds d
      (d, served ++ more)

/-- Deals with all callers until none has a reason to try again. Only the end of a stage gives a
caller a reason that was dealt with in the same round. -/
def settle (d : Dispenser) : Dispenser × List Served :=
  settleWithin (d.machine.stage.remaining + 1) d

/-- What callers can do. -/
inductive Op where
  /-- Ask for a step and leave if there is none; `patient` tells whether the caller would rather
  have waited. -/
  | ask (patient : Bool)
  /-- Ask for a step and wait for it. -/
  | wait
  /-- Give up waiting. -/
  | leave (waiter : Nat)
  /-- Let go of a step. -/
  | finish (ticket : Nat)
  | post (e : Event)

/-- The answer to an operation. -/
inductive Answer where
  | attempted (result : Attempt)
  | waiting (waiter : Nat)
  /-- Whether there was such a waiter. -/
  | left (found : Bool)
  /-- Whether the step was held. -/
  | finished (found : Bool)
  | posted

/-- One operation, before any caller that waits has taken notice. -/
def perform (d : Dispenser) : Op → Answer × Dispenser
  | .ask _ =>
    let (result, d) := d.attempt
    (.attempted result, d)
  | .wait =>
    (.waiting d.opened,
      { d with waiters := d.waiters ++ [⟨d.opened, none⟩], opened := d.opened + 1 })
  | .leave waiter =>
    (.left (d.waiters.any (·.id = waiter)),
      { d with waiters := d.waiters.filter (·.id ≠ waiter) })
  | .finish ticket =>
    if ticket ∈ d.held then
      (.finished true,
        { d with held := d.held.erase ticket, machine := d.machine.finishStep })
    else (.finished false, d)
  | .post e => (.posted, { d with machine := d.machine.post e })

/-- One operation, and the callers that are served because of it. -/
def apply (d : Dispenser) (op : Op) : Answer × List Served × Dispenser :=
  let (answer, d) := d.perform op
  let (d, served) := d.settle
  (answer, served, d)

end Dispenser

end ContainerTasks
