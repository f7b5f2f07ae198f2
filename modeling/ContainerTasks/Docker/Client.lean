import ContainerTasks.Docker.Arguments
import ContainerTasks.Docker.Health
import ContainerTasks.Docker.Program
import ContainerTasks.Text.Blank
import ContainerTasks.Text.Lines
import ContainerTasks.Text.Literal
import ContainerTasks.Text.WholeNumber
import ContainerTasks.Turn

/-!
# The docker client

A container runtime that starts the `docker` program for each of its operations. It believes the
exit status; what the program prints on its standard output is an id, and what it prints on the
other output is the reason of a failure.

## Main definitions

* `Docker.Client`: the client, with all that it has done
* `Docker.Client.serve`: the client as a runtime
-/

namespace ContainerTasks.Docker

/-- A client of the docker program. -/
structure Client where
  naming : Naming
  program : Program
  /-- The arguments of the invocations, oldest first, apart from those that follow the output of a
  container. -/
  invocations : List (List String)
  /-- What containers have printed on their standard output. -/
  echoed : List UInt8
  /-- What they have printed on the other one. -/
  echoedErrors : List UInt8

namespace Client

/-- A client that has done nothing. -/
def new (naming : Naming) (program : Program) : Client :=
  ⟨naming, program, [], [], []⟩

/-! ### Invocations -/

/-- Starts the program. -/
def run (c : Client) (arguments : List String) : Except SpawnFault Output × Client :=
  match c.program.run arguments with
  | (.error fault, program) => (.error fault, { c with program })
  | (.ok output, program) =>
    (.ok output, { c with program, invocations := c.invocations ++ [arguments] })

/-- The program could not be started. -/
def spawnTrouble (invocation : String) (fault : SpawnFault) : Trouble :=
  (Trouble.ofMessage fault.message).within ("spawning `docker " ++ invocation ++ "`")

/-- Why an invocation has failed, from what it has printed. -/
def failureMessage (stderr : String) (status : ExitStatus) : String :=
  let reason := trimmed stderr
  if reason ≠ "" then reason
  else
    match status with
    | .code n => "docker exited with code " ++ toString n
    | .signal => "docker was terminated by a signal"

/-- Starts the program and takes what it prints without the blanks around it. -/
def ask (c : Client) (arguments : List String) : Reply String × Client :=
  match c.run arguments with
  | (.error fault, c) => (.error (spawnTrouble (" ".intercalate arguments) fault), c)
  | (.ok output, c) =>
    if output.succeeded then (.ok (trimmed (Utf8.decodeLossy output.stdout)), c)
    else (.failed (failureMessage (Utf8.decodeLossy output.stderr) output.status), c)

/-- Starts the program and passes on the lines that it prints, apart from blank ones. -/
def stream (c : Client) (arguments : List String) : List String × Reply Unit × Client :=
  match c.run arguments with
  | (.error fault, c) => ([], .error (spawnTrouble (" ".intercalate arguments) fault), c)
  | (.ok output, c) =>
    let progress := (readLines output.stdout).filter (!isBlankText ·)
    if output.succeeded then (progress, .ok (), c)
    else
      let stderr := String.join ((readLines output.stderr).map (· ++ "\n"))
      (progress, .failed (failureMessage stderr output.status), c)

/-! ### Operations -/

/-- Makes the image of a container. -/
def buildImage (c : Client) (container : Container) :
    List String × Reply ImageReference × Client :=
  match container.buildDirectory with
  | none =>
    ([], .error (.ofMessage ("container " ++ quote container.name ++ " has no build directory")), c)
  | some directory =>
    let tag := c.naming.imageName container.name
    let (progress, reply, c) := c.stream (buildArguments tag directory container.dockerfile)
    (progress, reply.map fun _ => ⟨tag⟩, c)

/-- Whether docker has an image. -/
def hasImage (c : Client) (imageName : String) : Bool × Client :=
  match c.ask ["image", "inspect", "--format", "\x7b\x7b.Id\x7d\x7d", imageName] with
  | (.ok _, c) => (true, c)
  | (_, c) => (false, c)

/-- Fetches an image. -/
def fetchImage (c : Client) (imageName : String) : List String × Reply ImageReference × Client :=
  let (progress, reply, c) := c.stream ["pull", imageName]
  (progress, reply.map fun _ => ⟨imageName⟩, c)

/-- Fetches an image, unless it need not be fetched. -/
def pullImage (c : Client) (imageName : String) :
    PullPolicy → List String × Reply ImageReference × Client
  | .always => c.fetchImage imageName
  | .ifNotPresent =>
    match c.hasImage imageName with
    | (true, c) => ([], .ok ⟨imageName⟩, c)
    | (false, c) => c.fetchImage imageName

/-- Uses up a name. -/
def named (c : Client) : Client := { c with naming := c.naming.next }

/-- Makes a network. -/
def createNetwork (c : Client) : Reply NetworkReference × Client :=
  let (reply, c) := c.named.ask ["network", "create", c.naming.networkName]
  (reply.map (⟨·⟩), c)

/-- Looks up a network. -/
def findNetwork (c : Client) (identifier : String) : Reply NetworkReference × Client :=
  let (reply, c) := c.ask ["network", "inspect", "--format", "\x7b\x7b.Id\x7d\x7d", identifier]
  (reply.map (⟨·⟩), c)

/-- Makes a container. -/
def createContainer (c : Client) (container : Container) (image : ImageReference)
    (network : NetworkReference) : Reply ContainerReference × Client :=
  let name := c.naming.containerName container.name
  let (reply, c) := c.named.ask (createArguments container image network name)
  (reply.map (⟨·, name⟩), c)

/-- Follows the output of a container. -/
def follow (c : Client) (reference : ContainerReference) : Except SpawnFault Unit × Client :=
  match c.program.run ["logs", "--follow", reference.id] with
  | (.error fault, program) => (.error fault, { c with program })
  | (.ok output, program) =>
    (.ok (), { c with
      program
      echoed := c.echoed ++ output.stdout
      echoedErrors := c.echoedErrors ++ output.stderr })

/-- The exit code that docker prints. -/
def exitCode (text : String) : Reply Int :=
  match readWholeNumber Int64.minValue.toInt Int64.maxValue.toInt text with
  | .ok n => .ok n
  | .error fault =>
    .error ((Trouble.ofMessage fault.message).within
      ("unexpected output from `docker wait`: " ++ literal text))

/-- Waits for the end of a container and prints its output. -/
def awaitExit (c : Client) (reference : ContainerReference) : Reply Int × Client :=
  match c.follow reference with
  | (.error fault, c) => (.error (spawnTrouble "logs" fault), c)
  | (.ok _, c) =>
    match c.ask ["wait", reference.id] with
    | (.ok text, c) => (exitCode text, c)
    | (reply, c) => (reply.map fun _ => 0, c)

/-- Looks at the state of a container. -/
def inspect (c : Client) (reference : ContainerReference) : Reply ContainerState × Client :=
  match c.ask ["inspect", "--format", "\x7b\x7bjson .State\x7d\x7d", reference.id] with
  | (.ok text, c) =>
    match ContainerState.read? text with
    | some state => (.ok state, c)
    | none => (.error (.ofMessage ("parsing state of " ++ reference.text)), c)
  | (reply, c) => (reply.map fun _ => ⟨false, 0, none⟩, c)

/-- Looks at the state of a container until its health is decided, at most as often as told. -/
def awaitHealthWithin (c : Client) (reference : ContainerReference) :
    Nat → Option (Reply Unit) × Client
  | 0 => (none, c)
  | polls + 1 =>
    match c.inspect reference with
    | (.ok state, c) =>
      match state.verdict with
      | .healthy => (some (.ok ()), c)
      | .failed message => (some (.failed message), c)
      | .undecided => c.awaitHealthWithin reference polls
    | (reply, c) => (some (reply.map fun _ => ()), c)

/-- Waits until the health of a container is decided. It may never be. -/
def awaitHealth (c : Client) (reference : ContainerReference) : Option (Reply Unit) × Client :=
  c.awaitHealthWithin reference c.program.variety

/-- Runs a command in a container. -/
def exec (c : Client) (reference : ContainerReference) (command : SetupCommand) :
    Reply ExecResult × Client :=
  match c.run (execArguments reference command) with
  | (.error fault, c) => (.error (spawnTrouble "exec" fault), c)
  | (.ok output, c) =>
    let exitCode : Int := match output.status with
      | .code n => n
      | .signal => -1
    (.ok ⟨exitCode, Utf8.decodeLossy output.stdout ++ Utf8.decodeLossy output.stderr⟩, c)

/-- Does something of which only the success counts. -/
def order (c : Client) (arguments : List String) : Reply Unit × Client :=
  let (reply, c) := c.ask arguments
  (reply.map fun _ => (), c)

/-! ### As a runtime -/

/-- A call that is answered without anything being told on the way. -/
def served {call : Call} : Reply call.Value × Client → Served call × Client
  | (reply, c) => (⟨[], reply, none⟩, c)

/-- The client as a runtime. A health check that is never decided is waited for without end. -/
def serve : Service Client := fun call c =>
  match call with
  | .buildImage container =>
    let (progress, reply, c) := c.buildImage container
    (⟨progress, reply, none⟩, c)
  | .pullImage imageName policy =>
    let (progress, reply, c) := c.pullImage imageName policy
    (⟨progress, reply, none⟩, c)
  | .createNetwork => served c.createNetwork
  | .findNetwork identifier => served (c.findNetwork identifier)
  | .createContainer container image network => served (c.createContainer container image network)
  | .startContainer reference => served (c.order ["start", reference.id])
  | .awaitExit reference => served (c.awaitExit reference)
  | .awaitHealth reference =>
    match c.awaitHealth reference with
    | (some reply, c) => served (reply, c)
    | (none, c) => (⟨[], .cancelled, some "health"⟩, c)
  | .exec reference command => served (c.exec reference command)
  | .stopContainer reference => served (c.order ["stop", reference.id])
  | .removeContainer reference => served (c.order ["rm", "--volumes", reference.id])
  | .deleteNetwork network => served (c.order ["network", "rm", network.id])

end Client

end ContainerTasks.Docker
