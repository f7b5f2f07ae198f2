import ContainerTasks.Container
import ContainerTasks.DepthFirst

/-!
# Container graphs

The graph of a task holds its main container and, step by step, everything these containers depend
on. It is built once for each run of the task.

## Main definitions

* `Graph`, `Graph.Node`
* `Graph.Fault`: why a graph cannot be built, and `Graph.Fault.message`
* `Graph.collect`, `Graph.enterDependents`, `Graph.build`
* `Graph.dependenciesOf?`, `Graph.dependentsOf?`
-/

namespace ContainerTasks

/-- Who mentions a container that does not exist. -/
inductive Mention where
  | byTask (task : String)
  | byContainer (container : String)
  deriving DecidableEq

namespace Mention

/-- How the mention is shown. -/
def text : Mention → String
  | byTask task => "task " ++ quote task
  | byContainer container => "container " ++ quote container

end Mention

namespace Graph

/-- Why a task has no graph. -/
inductive Fault where
  | missingContainer (container : String) (mention : Mention)
  | selfDependency (container : String)
  /-- The listed containers depend on each other in a circle. -/
  | cycle (task : String) (containers : List String)
  deriving DecidableEq

/-- The wording of a fault. -/
def Fault.message : Fault → String
  | missingContainer container mention =>
    "the container " ++ quote container ++ " referenced by " ++ mention.text ++ " does not exist"
  | selfDependency container => "the container " ++ quote container ++ " cannot depend on itself"
  | cycle task containers =>
    "there is a dependency cycle in task " ++ quote task ++ " between containers: " ++
      ", ".intercalate containers

/-- A container of the graph, as the task wants it. -/
structure Node where
  container : Container
  dependsOn : NameSet
  /-- What depends on it. This is known once all containers have been collected. -/
  dependents : NameSet
  /-- Whether it is the main container. -/
  isRoot : Bool
  deriving DecidableEq

end Graph

/-- The containers a task needs. -/
structure Graph where
  task : String
  /-- The main container. -/
  root : Option String
  nodes : NameMap Graph.Node
  /-- The names of the nodes, each after those it depends on. -/
  order : List String
  deriving DecidableEq

namespace Graph

/-- What the container depends on in this task. -/
def dependencySet (task : Task) (container : Container) (isRoot : Bool) : NameSet :=
  let declared := NameSet.ofList container.dependencies
  if isRoot then declared.insertMany task.dependencies else declared

/-- Who is to blame for the mention of a container that does not exist: the task, if only its own
dependencies list it, and else the container. -/
def blame (task : Task) (name : String) (container : Container) (isRoot : Bool)
    (missing : String) : Mention :=
  if isRoot && missing ∈ task.dependencies && missing ∉ container.dependencies
  then .byTask task.name else .byContainer name

/-- The node of a container, provided that it does not depend on itself and that everything it
depends on exists. -/
def resolve (task : Task) (root : String) (catalogue : NameMap Container) (name : String)
    (container : Container) : Except Fault Node :=
  let isRoot := name == root
  let dependsOn := dependencySet task container isRoot
  if name ∈ dependsOn then .error (.selfDependency name)
  else
    match dependsOn.toList.find? fun d => !catalogue.contains d with
    | some missing =>
      .error (.missingContainer missing (blame task name container isRoot missing))
    | none => .ok ⟨container.forTask name task isRoot, dependsOn, .empty, isRoot⟩

/-- Resolves containers in the order in which they are come upon, each once, and collects their
nodes. `pending` holds names that have been come upon and not resolved; the bound is the number of
containers that can still be resolved. -/
def collect (task : Task) (root : String) (catalogue : NameMap Container) :
    Nat → List (String × Node) → List String → Except Fault (List (String × Node))
  | 0, done, _ => .ok done
  | _, done, [] => .ok done
  | bound + 1, done, name :: pending =>
    match catalogue.get? name with
    | none => collect task root catalogue bound done pending
    | some container =>
      match resolve task root catalogue name container with
      | .error fault => .error fault
      | .ok node =>
        let done := done ++ [(name, node)]
        let fresh := node.dependsOn.toList.filter fun d =>
          d ∉ pending && (done.lookup d).isNone
        collect task root catalogue bound done (pending ++ fresh)

/-- What a node of a table depends on. -/
def dependencyList (nodes : NameMap Node) (name : String) : List String :=
  match nodes.get? name with
  | some node => node.dependsOn.toList
  | none => []

/-- The pairs of a container that is depended on and one that depends on it, as the nodes of a table
list what they depend on. -/
def edges (nodes : NameMap Node) : List (String × String) :=
  nodes.entries.flatMap fun (name, node) => node.dependsOn.toList.map fun d => (d, name)

/-- Enters a dependent with the container that it depends on, if the table has that. -/
def enterDependent (nodes : NameMap Node) (edge : String × String) : NameMap Node :=
  match nodes.get? edge.1 with
  | some node => nodes.insert edge.1 { node with dependents := node.dependents.insert edge.2 }
  | none => nodes

/-- Enters the dependents of all nodes of a table. -/
def enterDependents (nodes : NameMap Node) : NameMap Node :=
  (edges nodes).foldl enterDependent nodes

/-- The graph without containers, of a task that runs none. -/
def ofNoContainers (task : String) : Graph := ⟨task, none, .empty, []⟩

/-- The graph of a task. -/
def build (task : Task) (catalogue : NameMap Container) : Except Fault Graph :=
  match task.run with
  | none => .ok (ofNoContainers task.name)
  | some run =>
    if !catalogue.contains run.container then
      .error (.missingContainer run.container (.byTask task.name))
    else
      match collect task run.container catalogue catalogue.size [] [run.container] with
      | .error fault => .error fault
      | .ok collected =>
        let nodes := enterDependents (.ofList collected)
        match topologicalOrder nodes.keys (dependencyList nodes) with
        | .ok order => .ok ⟨task.name, some run.container, nodes, order⟩
        | .error _ =>
          .error (.cycle task.name (firstCycle nodes.keys (dependencyList nodes)))

variable (g : Graph)

def node? (name : String) : Option Node := g.nodes.get? name

def contains (name : String) : Bool := g.nodes.contains name

def size : Nat := g.nodes.size

def isEmpty : Bool := g.nodes.isEmpty

/-- The main container's node. -/
def rootNode? : Option Node := g.root.bind g.node?

/-- The nodes, each after those it depends on. -/
def inOrder : List Node := g.order.filterMap g.node?

/-- What a container of the graph depends on directly. -/
def dependenciesOf? (name : String) : Option NameSet := (g.node? name).map (·.dependsOn)

/-- What depends directly on a container of the graph, as entered with it. -/
def dependentsOf? (name : String) : Option NameSet := (g.node? name).map (·.dependents)

end Graph

end ContainerTasks
