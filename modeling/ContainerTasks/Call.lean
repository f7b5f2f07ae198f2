import ContainerTasks.Container

/-!
# Calls to the container runtime

The runtime makes, starts, watches and removes what a task needs. Whoever runs a step makes calls to
it and gets an answer for each; how the answers come about is not said here.

## Main definitions

* `Call`, and `Call.Value`: what a call gives when it succeeds
* `Call.isAbandonable`: whether a call is given up when the run is cancelled
* `Trouble`: an unexpected error with its causes, and `Trouble.isCancellation`
* `Reply`: how a call can end
-/

namespace ContainerTasks

/-! ### Calls -/

/-- What a command run inside a container has come to. -/
structure ExecResult where
  exitCode : Int
  output : String
  deriving DecidableEq, Inhabited

/-- One call to the runtime. -/
inductive Call where
  | buildImage (container : Container)
  | pullImage (imageName : String) (policy : PullPolicy)
  /-- Make a network for the task. -/
  | createNetwork
  /-- Look a network up that is there already. -/
  | findNetwork (identifier : String)
  | createContainer (container : Container) (image : ImageReference) (network : NetworkReference)
  | startContainer (reference : ContainerReference)
  | awaitExit (reference : ContainerReference)
  | awaitHealth (reference : ContainerReference)
  | exec (reference : ContainerReference) (command : SetupCommand)
  | stopContainer (reference : ContainerReference)
  | removeContainer (reference : ContainerReference)
  | deleteNetwork (network : NetworkReference)
  deriving DecidableEq

namespace Call

/-- What a call gives when it succeeds. -/
abbrev Value : Call → Type
  | buildImage _ | pullImage .. => ImageReference
  | createNetwork | findNetwork _ => NetworkReference
  | createContainer .. => ContainerReference
  | awaitExit _ => Int
  | exec .. => ExecResult
  | startContainer _ | awaitHealth _ | stopContainer _ | removeContainer _ | deleteNetwork _ => Unit

/-- The calls that are given up when the run is cancelled: those that only wait, and those whose
result nobody has to take down. Any other call is awaited to its end, so that what it makes is on
record. -/
def isAbandonable : Call → Bool
  | buildImage _ | pullImage .. | awaitExit _ | awaitHealth _ | exec .. => true
  | createNetwork | findNetwork _ | createContainer .. | startContainer _ | stopContainer _
  | removeContainer _ | deleteNetwork _ => false

end Call

/-! ### Unexpected errors -/

/-- One cause of an unexpected error. -/
inductive Cause where
  | text (message : String)
  /-- The work was given up because the run was cancelled. -/
  | cancellation
  deriving DecidableEq, Inhabited

/-- How a cause is shown. -/
def Cause.message : Cause → String
  | text message => message
  | cancellation => "execution was cancelled"

/-- An unexpected error: what was noticed, and what lies behind it, each cause behind the one
before. -/
structure Trouble where
  outermost : Cause
  behind : List Cause
  deriving DecidableEq, Inhabited

namespace Trouble

/-- An error with a single cause. -/
def ofMessage (message : String) : Trouble := ⟨.text message, []⟩

/-- The work was given up because the run was cancelled. -/
def cancelled : Trouble := ⟨.cancellation, []⟩

/-- The causes, outermost first. -/
def causes (t : Trouble) : List Cause := t.outermost :: t.behind

/-- The error as what lies behind a new outermost cause. -/
def within (t : Trouble) (context : String) : Trouble := ⟨.text context, t.causes⟩

/-- An error counts as a cancellation if one lies anywhere behind it. -/
def isCancellation (t : Trouble) : Bool := .cancellation ∈ t.causes

/-- All causes, outermost first. -/
def text (t : Trouble) : String := ": ".intercalate (t.causes.map Cause.message)

end Trouble

/-- A value that is there at once, unless the run is cancelled: then it does not count. -/
def raceCancellation {α : Type} (cancelled : Bool) (value : α) : Except Cause α :=
  if cancelled then .error .cancellation else .ok value

/-! ### Answers -/

/-- How a call ends that gives an `α` when it succeeds. -/
inductive Reply (α : Type) where
  | ok (value : α)
  /-- The runtime says that the operation has failed. -/
  | failed (message : String)
  /-- The operation was given up. -/
  | cancelled
  | error (trouble : Trouble)
  /-- The call came to a sudden end; the message may be lost. -/
  | panicked (message : Option String)
  deriving DecidableEq

/-- The reply with its value changed. -/
def Reply.map {α β : Type} (f : α → β) : Reply α → Reply β
  | ok value => ok (f value)
  | failed message => failed message
  | cancelled => cancelled
  | error trouble => error trouble
  | panicked message => panicked message

/-- A call together with how it ended. -/
structure Answer where
  call : Call
  reply : Reply call.Value

end ContainerTasks
