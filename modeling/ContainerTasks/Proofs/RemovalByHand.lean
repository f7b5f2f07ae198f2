import ContainerTasks.Proofs.CleanupPlans

/-!
# Taking down by hand

What a task has left behind can be taken down in two ways: by the plan of the second stage, or by
the user, who is told a command for each thing. The plan and the list of commands are made apart
from each other. The plan knows the graph, and has rules to stop containers in between; the list
knows the history alone. Yet they speak of the same things in the same order: a container or the
network is on the list if and only if the plan would remove it.

## Main definitions

* `Rule.leftover?`, `Rule.command?`: what a rule takes down for good, and how to do it by hand

## Main results

* `History.container_mem_leftovers_iff`, `History.network_mem_leftovers_iff`: what is left behind
* `Plan.leftovers_forCleanup`: what the plan takes down is what is left behind
* `Plan.commands_forCleanup`
-/

namespace ContainerTasks

namespace Rule

/-- What a rule takes down for good. -/
def leftover? : Rule → Option Leftover
  | removeContainer _ reference _ => some (.container reference)
  | deleteNetwork network _ => some (.network network)
  | _ => none

/-- The command that does by hand what a rule takes down for good. -/
def command? : Rule → Option String
  | removeContainer _ reference _ => some ("docker rm --force " ++ reference.id)
  | deleteNetwork network _ => some ("docker network rm " ++ network.id)
  | _ => none

theorem map_command_leftover? (r : Rule) : r.leftover?.map Leftover.command = r.command? := by
  cases r <;> rfl

end Rule

/-! ### What is left behind -/

namespace History

variable {h : History} {reference : ContainerReference} {network : NetworkReference}

/-- A container is left behind if it was made under some name, and none of that name was removed. -/
theorem container_mem_leftovers_iff : .container reference ∈ h.leftovers ↔
    ∃ c, .containerCreated c reference ∈ h ∧ .containerRemoved c ∉ h := by
  have hkept : ∀ c, (!h.isRemoved c) = true ↔ .containerRemoved c ∉ h := by
    intro c
    rw [Bool.not_eq_true', ← Bool.not_eq_true, isRemoved_iff]
  have hnetwork : .container reference ∉
      (if h.networkDeleted then [] else h.createdNetwork?.toList.map Leftover.network) := by
    split <;> simp
  rw [leftovers, List.mem_append, or_iff_left hnetwork]
  simp [mem_created, hkept]

/-- A network is left behind if it is the first that was made, and none was deleted. A network that
was only found is not. -/
theorem network_mem_leftovers_iff : .network network ∈ h.leftovers ↔
    h.createdNetwork? = some network ∧ .networkDeleted ∉ h := by
  rw [leftovers, List.mem_append, or_iff_right (by simp), ← networkDeleted_iff]
  cases h.networkDeleted <;> simp

end History

/-! ### The plan -/

namespace Plan

variable (g : Graph) (h : History)

/-- What the plan takes down for good is what is left behind, in the same order. -/
theorem leftovers_forCleanup : (forCleanup g h).filterMap Rule.leftover? = h.leftovers := by
  rw [filterMap_forCleanup (.container ·.2) (fun _ _ _ => rfl) (fun _ _ => rfl), History.leftovers]
  refine congrArg (_ ++ ·) ?_
  unfold ownNetwork?
  split
  · rfl
  · cases h.createdNetwork? <;> rfl

/-- **The commands for the user are those of the plan.** They are the removals of the plan and the
deletion of the network, in the order of the plan, on whatever graph the plan is made. So each is
for a container that was made and of whose name none was removed, or for the first network that was
made if none was deleted, and each such thing has its command. -/
theorem commands_forCleanup :
    h.leftovers.map Leftover.command = (forCleanup g h).filterMap Rule.command? ∧
      (∀ g', (forCleanup g' h).filterMap Rule.command? =
        (forCleanup g h).filterMap Rule.command?) ∧
      (∀ reference, .container reference ∈ h.leftovers ↔
        ∃ c, .containerCreated c reference ∈ h ∧ .containerRemoved c ∉ h) ∧
      ∀ network, .network network ∈ h.leftovers ↔ .networkCreated network ∈ h ∧
        h.createdNetwork? = some network ∧ .networkDeleted ∉ h := by
  have hcommands : ∀ g, (forCleanup g h).filterMap Rule.command? =
      h.leftovers.map Leftover.command := by
    intro g
    rw [← leftovers_forCleanup g h, List.map_filterMap]
    exact List.filterMap_congr fun r _ => r.map_command_leftover?.symm
  refine ⟨(hcommands g).symm, fun g' => (hcommands g').trans (hcommands g).symm,
    fun _ => History.container_mem_leftovers_iff, fun network => ?_⟩
  rw [History.network_mem_leftovers_iff]
  exact ⟨fun hleft => ⟨History.mem_of_createdNetwork? hleft.1, hleft⟩, And.right⟩

end Plan

/-- Containers are listed newest first, and one that was removed is not listed. -/
example : (Plan.forCleanup Sample.graph
      [.networkCreated ⟨"net"⟩, .containerCreated "db" ⟨"1", "db"⟩,
        .containerCreated "app" ⟨"2", "app"⟩, .containerStarted "app", .containerRemoved "db",
        .containerCreated "cache" ⟨"3", "cache"⟩]).filterMap Rule.command? =
    ["docker rm --force 3", "docker rm --force 2", "docker network rm net"] := by
  decide +kernel

end ContainerTasks
