/-!
# Depth-first search

A search visits the nodes of a finite directed graph. It remembers in which order it has come upon
them and in which order it has left them for good. Both orders are wanted: the one for sorting a
graph topologically, the other for naming the culprit when that is impossible.

A visit carries a bound on its depth. A path of distinct nodes is never longer than the list of
all nodes, so a search that is given this length as bound never meets it.

## Main definitions

* `Search`: the nodes found and the nodes closed so far
* `Search.ofNodes`: a search from all nodes of a list
* `reachable`: the nodes that can be reached from one
* `topologicalOrder`: the nodes, dependencies first, or a node on a cycle
* `firstCycle`: the members of the first component of several nodes
-/

namespace ContainerTasks

variable {α : Type} [DecidableEq α]

/-- A search under way. Both lists have the latest node in front. -/
structure Search (α : Type) where
  /-- The nodes come upon. -/
  found : List α
  /-- The nodes left for good, all their successors having been left before. -/
  closed : List α

namespace Search

/-- The search that has seen nothing. -/
def start : Search α := ⟨[], []⟩

/-- Goes on to a node and from there, as deep as the bound allows, to whatever has not been found
yet. -/
def visit (successors : α → List α) : Nat → Search α → α → Search α
  | 0, s, _ => s
  | depth + 1, s, v =>
    if v ∈ s.found then s
    else
      let s := (successors v).foldl (visit successors depth) { s with found := v :: s.found }
      { s with closed := v :: s.closed }

/-- The search that starts at each node of the list in turn. -/
def ofNodes (successors : α → List α) (nodes : List α) : Search α :=
  nodes.foldl (visit successors nodes.length) start

end Search

/-- The nodes that can be reached from `v`, itself among them, in a graph of at most `size`
nodes. -/
def reachable (successors : α → List α) (size : Nat) (v : α) : List α :=
  (Search.start.visit successors size v).found

/-- The nodes of the list that depend on `v`. -/
def dependents (nodes : List α) (dependencies : α → List α) (v : α) : List α :=
  nodes.filter fun n => v ∈ dependencies n

/-- Reads an order from its front and looks for a node that comes before one of its dependencies.
Of several such dependencies the one declared last is returned. -/
def firstMisplaced (dependencies : α → List α) (before : List α) : List α → Option α
  | [] => none
  | v :: rest =>
    match ((dependencies v).eraseDups.filter fun d => d ∉ v :: before).getLast? with
    | some d => some d
    | none => firstMisplaced dependencies (v :: before) rest

/-- All nodes, each after its dependencies. If there is no such order, a node on a cycle: a node
that depends on itself, or else a dependency that the search has left before its dependent.

The search goes from dependencies to dependents and takes the dependents of a node last to first;
the order is that in which nodes are closed, turned round. -/
def topologicalOrder (nodes : List α) (dependencies : α → List α) : Except α (List α) :=
  let s := Search.ofNodes (fun v => (dependents nodes dependencies v).reverse) nodes
  match s.found.reverse.find? fun v => v ∈ dependencies v with
  | some v => .error v
  | none =>
    match firstMisplaced dependencies [] s.closed with
    | some v => .error v
    | none => .ok s.closed

/-- The nodes of the list that `v` can reach and that can reach `v`. -/
def component (nodes : List α) (dependencies : α → List α) (v : α) : List α :=
  let onward := reachable (dependents nodes dependencies) nodes.length v
  let back := reachable dependencies nodes.length v
  nodes.filter fun n => n ∈ onward && n ∈ back

/-- The first component with several members, in the order in which a search from dependencies to
dependents closes the last member of each. -/
def firstCycle (nodes : List α) (dependencies : α → List α) : List α :=
  go (Search.ofNodes (dependents nodes dependencies) nodes).closed.reverse
where
  /-- Looks through nodes in the order of their closing. -/
  go : List α → List α
    | [] => []
    | v :: later =>
      let members := component nodes dependencies v
      if 1 < members.length && members.all (· ∉ later) then members else go later

end ContainerTasks
