import ContainerTasks.Procedure

/-!
# Turns

A turn carries a procedure on for as long as nothing holds it up: until it ends, or until it waits
for the reply to a call. It tells what was done on the way.

## Main definitions

* `Served`, `Service`: a runtime that says at once how a call ends, or behind which latch the reply
  is held back
* `Act`: a thing done in a turn
* `Procedure.turn`: one turn of a procedure
* `Held.resume`: the turn that follows once the latch is opened, or once the run is cancelled
-/

namespace ContainerTasks

/-- How a runtime deals with a call. -/
structure Served (call : Call) where
  /-- What it tells on the way. -/
  progress : List String
  reply : Reply call.Value
  /-- The latch behind which the reply is held back. -/
  latch : Option String

/-- A runtime with a state of its own. -/
abbrev Service (σ : Type) := (call : Call) → σ → Served call × σ

/-- A thing done in a turn. -/
inductive Act where
  /-- It was looked whether the run is cancelled. -/
  | looked
  | posted (event : Event)
  /-- A call was not begun because the run is cancelled. -/
  | refused (call : Call)
  | began (call : Call)
  | progressed (call : Call) (line : String)
  | answered (answer : Answer)
  | abandoned (call : Call)

/-- The events that an act posts. -/
def Act.events : Act → List Event
  | posted event => [event]
  | progressed call line => (call.progress? line).toList
  | _ => []

/-- The calls that an act begins. -/
def Act.calls : Act → List Call
  | began call => [call]
  | _ => []

/-- A procedure that waits at a latch for the reply to a call. -/
structure Held where
  latch : String
  call : Call
  /-- The reply that is held back. -/
  reply : Reply call.Value
  next : Reply call.Value → Procedure

/-- Whether the procedure is carried on when the run is cancelled. -/
def Held.isAbandonable (h : Held) : Bool := h.call.isAbandonable

/-- How a turn ends. -/
inductive Pause where
  | ended (ending : Ending)
  | held (held : Held)

/-- One turn of a procedure. -/
def Procedure.turn {σ : Type} (service : Service σ) (cancelled : Bool) :
    Procedure → σ → List Act × Pause × σ
  | .ended ending, state => ([], .ended ending, state)
  | .post event rest, state =>
    let (acts, pause, state) := rest.turn service cancelled state
    (.posted event :: acts, pause, state)
  | .check ifCancelled otherwise, state =>
    let (acts, pause, state) :=
      if cancelled then ifCancelled.turn service cancelled state
      else otherwise.turn service cancelled state
    (.looked :: acts, pause, state)
  | .call c next, state =>
    if c.isAbandonable && cancelled then
      let (acts, pause, state) := (next .cancelled).turn service cancelled state
      (.refused c :: acts, pause, state)
    else
      let (served, state) := service c state
      let begun := .began c :: served.progress.map (.progressed c)
      match served.latch with
      | some latch => (begun, .held ⟨latch, c, served.reply, next⟩, state)
      | none =>
        let (acts, pause, state) := (next served.reply).turn service cancelled state
        (begun ++ .answered ⟨c, served.reply⟩ :: acts, pause, state)

/-- The turn of a procedure that has waited. If the run is cancelled, a call that may be given up is
given up; any other call is answered. -/
def Held.resume {σ : Type} (service : Service σ) (cancelled : Bool) (h : Held) (state : σ) :
    List Act × Pause × σ :=
  if h.isAbandonable && cancelled then
    let (acts, pause, state) := (h.next .cancelled).turn service cancelled state
    (.abandoned h.call :: acts, pause, state)
  else
    let (acts, pause, state) := (h.next h.reply).turn service cancelled state
    (.answered ⟨h.call, h.reply⟩ :: acts, pause, state)

end ContainerTasks
