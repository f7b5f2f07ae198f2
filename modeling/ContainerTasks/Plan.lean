import ContainerTasks.Graph
import ContainerTasks.Rule

/-!
# Plans

A task is run in two stages, each with a plan of its own. The plan of the first is made from the
graph alone: it makes, creates and runs every container. The plan of the second is made from what
the first has left behind: it stops and removes what was created, newest first.

## Main definitions

* `Plan.forRun`: the rules of the first stage
* `Plan.forCleanup`: the rules of the second stage
* `History.leftovers`: what nobody has taken down, and `Leftover.command`: how to do it by hand
-/

namespace ContainerTasks

namespace Plan

/-- The policy for an image that several containers may share: each time, if any of them wants
that. -/
def pullPolicy (containers : List Container) (imageName : String) : PullPolicy :=
  if containers.any fun c => c.imageSource = .pull imageName .always then .always
  else .ifNotPresent

/-- The rule by which a container gets its image. An image is pulled for the first container that
wants it; `pulled` holds the images seen to already. -/
def imageRules (containers : List Container) (pulled : List String) (container : Container) :
    List Rule :=
  match container.imageSource with
  | .build .. => [.buildImage container]
  | .pull imageName _ =>
    if imageName ∈ pulled then [] else [.pullImage imageName (pullPolicy containers imageName)]

/-- The rules that lead from a started container to a ready one: the health check, the setup
commands in order, and the word that all went well. -/
def readinessRules (container : Container) : List Rule :=
  (if container.hasHealthCheck then [.awaitHealth container.name] else []) ++
  container.setupCommands.mapIdx (fun index command =>
    .runSetupCommand container.name command index container.hasHealthCheck) ++
  [.markReady container.name container.setupCommands.length container.hasHealthCheck]

/-- The rules of a container that has its image. The main container is run to its end; any other
has to become ready. -/
def containerRules (node : Graph.Node) : List Rule :=
  [.createContainer node.container node.dependsOn,
    .runContainer node.container.name node.isRoot] ++
  (if node.isRoot then [] else readinessRules node.container)

/-- The images that a container makes it needless to pull again. -/
def pulledBy (container : Container) : List String :=
  match container.imageSource with
  | .build .. => []
  | .pull imageName _ => [imageName]

/-- The rules of nodes in turn. -/
def nodeRules (containers : List Container) : List String → List Graph.Node → List Rule
  | _, [] => []
  | pulled, node :: rest =>
    imageRules containers pulled node.container ++ containerRules node ++
      nodeRules containers (pulledBy node.container ++ pulled) rest

/-- The plan of the first stage: the network, then the containers, dependencies first. -/
def forRun (graph : Graph) : List Rule :=
  if graph.isEmpty then []
  else .prepareNetwork ::
    nodeRules (graph.inOrder.map (·.container)) [] graph.inOrder

/-- Whether a container was left running. -/
def needsStop (h : History) (name : String) : Bool :=
  h.created.any (·.1 = name) && h.hasStarted name && !h.isStopped name && !h.isRemoved name

/-- What depends on a container directly and was left running. -/
def stopAfter (graph : Graph) (h : History) (name : String) : NameSet :=
  match graph.dependentsOf? name with
  | some dependents => dependents.filter (needsStop h)
  | none => .empty

/-- The rules that take one container down. -/
def takeDown (graph : Graph) (h : History) (name : String) (reference : ContainerReference) :
    List Rule :=
  (if needsStop h name then [.stopContainer name reference (stopAfter graph h name)] else []) ++
  (if h.isRemoved name then [] else [.removeContainer name reference (needsStop h name)])

/-- The network that the task made and has not deleted. -/
def ownNetwork? (h : History) : Option NetworkReference :=
  if h.networkDeleted then none else h.createdNetwork?

/-- The plan of the second stage: containers newest first, then the network made for the task. -/
def forCleanup (graph : Graph) (h : History) : List Rule :=
  h.created.reverse.flatMap (fun (name, reference) => takeDown graph h name reference) ++
  (ownNetwork? h).toList.map (.deleteNetwork · (h.created.map (·.1)))

end Plan

/-- Something that was made and is still there. -/
inductive Leftover where
  | container (reference : ContainerReference)
  | network (reference : NetworkReference)
  deriving DecidableEq

/-- The command that removes a leftover by hand. -/
def Leftover.command : Leftover → String
  | .container reference => "docker rm --force " ++ reference.id
  | .network reference => "docker network rm " ++ reference.id

/-- The containers not removed, newest first, and the network that was made and not deleted. -/
def History.leftovers (h : History) : List Leftover :=
  (h.created.reverse.filter fun (name, _) => !h.isRemoved name).map (.container ·.2) ++
  (if h.networkDeleted then [] else h.createdNetwork?.toList.map .network)

end ContainerTasks
