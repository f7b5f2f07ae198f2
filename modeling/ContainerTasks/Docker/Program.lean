/-!
# The docker program

What a client sees of the `docker` program of its machine: an invocation either cannot be started or
gives an exit status and two outputs. The program is described by what it answers to which
arguments, so that a client can be followed without it.

## Main definitions

* `Docker.Output`, `Docker.SpawnFault`
* `Docker.Program`, `Docker.Program.run`
-/

namespace ContainerTasks.Docker

/-- How an invocation ended. -/
inductive ExitStatus where
  | code (n : Nat)
  | signal
  deriving DecidableEq

/-- What an invocation gave. -/
structure Output where
  status : ExitStatus
  stdout : List UInt8
  stderr : List UInt8

/-- An invocation has succeeded if it gives the exit code zero. -/
def Output.succeeded (output : Output) : Bool := output.status = .code 0

/-- Why an invocation could not be started. -/
inductive SpawnFault where
  /-- An argument cannot be passed on. -/
  | nulInArguments
  | noProgram
  | argumentTooLong
  deriving DecidableEq

/-- The wording of a fault. -/
def SpawnFault.message : SpawnFault → String
  | nulInArguments => "nul byte found in provided data"
  | noProgram => "No such file or directory (os error 2)"
  | argumentTooLong => "Argument list too long (os error 7)"

/-- What the program answers to some of its invocations. -/
structure Response where
  /-- The first arguments of the invocations that are answered. -/
  arguments : List String
  output : Output
  /-- How many invocations are still answered, if not all. -/
  times : Option Nat

/-- Whether an invocation is answered. -/
def Response.answers (r : Response) (arguments : List String) : Bool :=
  r.arguments.isPrefixOf arguments && r.times ≠ some 0

/-- The response after one more invocation. -/
def Response.used (r : Response) : Response := { r with times := r.times.map (· - 1) }

/-- The docker program of a machine. -/
structure Program where
  installed : Bool
  /-- An invocation is answered by the first response that does. -/
  responses : List Response

namespace Program

/-- A machine without docker. -/
def absent : Program := ⟨false, []⟩

/-- What is given to invocations that nothing is said about. -/
def silence : Output := ⟨.code 0, [], []⟩

/-- The answer of the first response that has one, and the responses after it. -/
def answer (arguments : List String) : List Response → Output × List Response
  | [] => (silence, [])
  | r :: rest =>
    if r.answers arguments then (r.output, r.used :: rest)
    else
      let (output, rest) := answer arguments rest
      (output, r :: rest)

/-- How many bytes an argument may have. -/
def longestArgument : Nat := 131071

/-- Starts the program with arguments and waits for its end. -/
def run (p : Program) (arguments : List String) : Except SpawnFault Output × Program :=
  if arguments.any (·.toList.contains '\x00') then (.error .nulInArguments, p)
  else if !p.installed then (.error .noProgram, p)
  else if arguments.any fun a => longestArgument < a.utf8ByteSize then
    (.error .argumentTooLong, p)
  else
    let (output, responses) := answer arguments p.responses
    (.ok output, { p with responses })

/-- After as many equal invocations as this, no further one is answered differently. -/
def variety (p : Program) : Nat := p.responses.foldl (fun n r => n + r.times.getD 0) 1

end Program

end ContainerTasks.Docker
