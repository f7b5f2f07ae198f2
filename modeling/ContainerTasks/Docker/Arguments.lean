import ContainerTasks.Container

/-!
# Arguments for docker

The arguments with which the `docker` program is started for each operation, and the names that
images, networks and containers are given there.

## Main definitions

* `Docker.Naming`: how names are made
* `Docker.createArguments`: the arguments that create a container
* `Docker.buildArguments`, `Docker.execArguments`
-/

namespace ContainerTasks.Docker

/-! ### Names -/

/-- How names are made that no other process makes, nor this one twice. -/
structure Naming where
  projectName : String
  /-- The number of the process, as a text. -/
  process : String
  /-- How many names have been made. -/
  counter : UInt64

namespace Naming

/-- The last part of the next name. -/
def suffix (n : Naming) : String := n.process ++ "-" ++ toString n.counter.toNat

/-- The naming after one more name. -/
def next (n : Naming) : Naming := { n with counter := n.counter + 1 }

/-- The next name for a network. -/
def networkName (n : Naming) : String := n.projectName ++ "-" ++ n.suffix

/-- The next name for a container. -/
def containerName (n : Naming) (container : String) : String :=
  n.projectName ++ "-" ++ container ++ "-" ++ n.suffix

/-- The name of the image of a container. It is not made anew for each image. -/
def imageName (n : Naming) (container : String) : String := n.projectName ++ "-" ++ container

end Naming

/-! ### Arguments -/

/-- A flag and its value, if there is a value. -/
def optional (flag : String) : Option String → List String
  | some value => [flag, value]
  | none => []

/-- A flag for each of several values. -/
def repeated (flag : String) (values : List String) : List String := values.flatMap ([flag, ·])

/-- The flags of a health check. -/
def healthArguments (check : HealthCheck) : List String :=
  optional "--health-cmd" check.command ++
  optional "--health-interval" check.interval ++
  optional "--health-retries" (check.retries.map toString) ++
  optional "--health-start-period" check.startPeriod ++
  optional "--health-timeout" check.timeout

/-- A command as a shell runs it. -/
def shell (command : String) : List String := ["sh", "-c", command]

/-- The flags that create a container. -/
def createFlags (container : Container) (network : NetworkReference) (name : String) :
    List String :=
  ["--name", name, "--network", network.id, "--network-alias", container.name,
    "--hostname", container.name] ++
  repeated "--env" (container.environment.entries.map fun (key, value) => key ++ "=" ++ value) ++
  repeated "--publish" container.ports ++
  repeated "--volume" container.volumes ++
  optional "--workdir" container.workingDirectory ++
  (match container.healthCheck with
  | some check => healthArguments check
  | none => [])

/-- The arguments that create a container of a given name. -/
def createArguments (container : Container) (image : ImageReference) (network : NetworkReference)
    (name : String) : List String :=
  "create" :: createFlags container network name ++ image.id ::
    (container.command.map shell).getD []

/-- The arguments that build an image. -/
def buildArguments (tag directory : String) (dockerfile : Option String) : List String :=
  ["build", "--tag", tag] ++ optional "--file" (dockerfile.map (directory ++ "/" ++ ·)) ++
    [directory]

/-- The arguments that run a command in a container. -/
def execArguments (reference : ContainerReference) (command : SetupCommand) : List String :=
  "exec" :: optional "--workdir" command.workingDirectory ++ reference.id :: shell command.command

end ContainerTasks.Docker
