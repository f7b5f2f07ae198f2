import ContainerTasks.Encoding
import ContainerTasks.Turn

/-!
# Scripted runtimes

A script plays the part of the container runtime. It is told beforehand how calls end, by a key that
names the operation and what it is about, and which calls are held back until somebody lets them go
on.

## Main definitions

* `Call.key`, `Call.record`: how a call is known to a script, and how it is noted down
* `Cue`: how one call is to end
* `Script`, `Script.serve`, `Script.release`
-/

namespace ContainerTasks

/-! ### How calls are known -/

/-- The name of an operation. -/
def Call.operation : Call → String
  | buildImage _ => "BuildImage"
  | pullImage .. => "PullImage"
  | createNetwork => "CreateNetwork"
  | findNetwork _ => "FindNetwork"
  | createContainer .. => "CreateContainer"
  | startContainer _ => "StartContainer"
  | awaitExit _ => "WaitForExit"
  | awaitHealth _ => "WaitForHealthy"
  | exec .. => "Exec"
  | stopContainer _ => "StopContainer"
  | removeContainer _ => "RemoveContainer"
  | deleteNetwork _ => "DeleteNetwork"

/-- What a call is about. -/
def Call.subject : Call → String
  | buildImage container | createContainer container .. => container.name
  | pullImage imageName _ => imageName
  | createNetwork => "task-network"
  | findNetwork identifier => identifier
  | startContainer reference | awaitExit reference | awaitHealth reference
  | stopContainer reference | removeContainer reference => reference.name
  | exec reference command => reference.name ++ "/" ++ command.command
  | deleteNetwork network => network.id

/-- How a call is known to a script. -/
def Call.key (call : Call) : String := call.operation ++ " " ++ call.subject

/-- What a note of a call has besides the key. -/
def Call.details? : Call → Option Json
  | pullImage _ policy => some (.str policy.word)
  | createContainer container image network =>
    some (.arr [.str image.id, .str network.id, .ofOption container.command,
      .ofOption container.workingDirectory, container.environment.toJson])
  | exec _ command => command.workingDirectory.map .str
  | _ => none

/-- How a call is noted down. -/
def Call.record (call : Call) : String :=
  match call.details? with
  | some details => call.key ++ " " ++ details.render
  | none => call.key

/-! ### Scripts -/

/-- How one call is to end. -/
inductive Cue.Result where
  /-- The call gives the value, exit code and output, as far as it gives any and they are told. -/
  | success (value : Option String) (exitCode : Option Int) (output : Option String)
  | failed (message : String)
  | cancelled
  | error (trouble : Trouble)
  | panicked (message : Option String)

/-- What a script tells about one call. -/
structure Cue where
  /-- What the call tells on the way, if it is one that does. -/
  progress : List String
  result : Cue.Result

/-- The cue for a call of which nothing is told. -/
def Cue.plain : Cue := ⟨[], .success none none none⟩

/-- What a call gives that succeeds. -/
def Call.scriptedValue (value : Option String) (exitCode : Option Int) (output : Option String) :
    (call : Call) → call.Value
  | buildImage container => ⟨value.getD ("image-" ++ container.name)⟩
  | pullImage imageName _ => ⟨value.getD imageName⟩
  | createNetwork => ⟨value.getD "task-network"⟩
  | findNetwork identifier => ⟨value.getD identifier⟩
  | createContainer container .. => ⟨value.getD ("id-" ++ container.name), container.name⟩
  | awaitExit _ => exitCode.getD 0
  | exec .. => ⟨exitCode.getD 0, output.getD ""⟩
  | startContainer _ | awaitHealth _ | stopContainer _ | removeContainer _ | deleteNetwork _ => ()

/-- How a call ends. -/
def Cue.reply (cue : Cue) (call : Call) : Reply call.Value :=
  match cue.result with
  | .success value exitCode output => .ok (call.scriptedValue value exitCode output)
  | .failed message => .failed message
  | .cancelled => .cancelled
  | .error trouble => .error trouble
  | .panicked message => .panicked message

/-- Only calls that fetch or make an image tell how far they are. -/
def Cue.progressOf (cue : Cue) : Call → List String
  | .buildImage _ | .pullImage .. => cue.progress
  | _ => []

/-- A script that has been played up to some point. -/
structure Script where
  /-- The cues that are left for each key, next one first. -/
  cues : List (String × List Cue)
  /-- The keys of the calls that are held back. -/
  holds : List String
  /-- The keys that were let go on before anybody waited there, each as often as that. -/
  credits : List String

namespace Script

/-- The next cue for a key, and the script after it. -/
def next (s : Script) (key : String) : Cue × Script :=
  match s.cues.lookup key with
  | some (cue :: rest) =>
    (cue, { s with cues := s.cues.map fun (k, cues) => if k = key then (k, rest) else (k, cues) })
  | _ => (.plain, s)

/-- Whether the calls of a key are held back. -/
def isHeld (s : Script) (key : String) : Bool := s.holds.contains key

/-- The latch at which a call waits: its key, if that is held back and there is no credit. -/
def latch (s : Script) (key : String) : Option String × Script :=
  if !s.isHeld key then (none, s)
  else if s.credits.contains key then (none, { s with credits := s.credits.erase key })
  else (some key, s)

/-- Plays the script for one call. -/
def serve : Service Script := fun call s =>
  let (cue, s) := s.next call.key
  let (latch, s) := s.latch call.key
  (⟨cue.progressOf call, cue.reply call, latch⟩, s)

/-- Notes that the next call of a key need not wait. -/
def credit (s : Script) (key : String) : Script :=
  if s.isHeld key then { s with credits := s.credits ++ [key] } else s

end Script

end ContainerTasks
