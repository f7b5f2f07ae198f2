import ContainerTasks.Proofs.AcyclicOrders
import Mathlib.Data.List.Perm.Subperm

/-!
# Strongly connected components

A search from one node comes upon everything that can be reached from it, and upon nothing else:
what it comes upon it closes, and it closes a node only when it has come upon all its successors. So
the nodes that a node can reach and that can reach the node are found by two searches, one along the
dependencies and one against them, and these nodes are its strongly connected component.

If there is no topological order, and no node depends on itself, some component has several members:
a node on a cycle leads to another one and back. The components are looked through in the order in
which their last members are closed. Every component has a last member in this order, so one of
several members is not missed, although the order has been found by another search than the one that
has failed.

## Main definitions

* `IsComponent`: the nodes of a list are those of one strongly connected component
* `Search.Explored`: all successors of a closed node have been found

## Main results

* `mem_reachable_iff`: a search from one node finds what can be reached from it
* `isComponent_component`
* `isComponent_firstCycle`: if there is no order, the component that is returned has several members
-/

namespace ContainerTasks

open Relation

variable {α : Type}

/-- The nodes of the list are those that lead to one of them and back. -/
def IsComponent (r : α → α → Prop) (members : List α) : Prop :=
  ∃ v ∈ members, ∀ n, n ∈ members ↔ ReflTransGen r v n ∧ ReflTransGen r n v

/-! ### What a search finds -/

namespace Search

/-- All successors of a closed node have been found. -/
def Explored (successors : α → List α) (s : Search α) : Prop :=
  ∀ a ∈ s.closed, successors a ⊆ s.found

theorem keptBy_explored (successors : α → List α) : KeptBy successors (Explored successors) where
  opened := fun _ _ hexplored a ha => List.subset_cons_of_subset _ (hexplored a ha)
  closed := by
    intro s v hexplored hall a ha
    rcases List.mem_cons.mp ha with rfl | ha
    · exact fun w hw => (hall w hw).1
    · exact hexplored a ha

end Search

variable {successors dependencies : α → List α} {nodes : List α} {v w n : α}

/-- Whatever is reached from one of the nodes is one of them. -/
theorem mem_of_reflTransGen (hclosed : ∀ v ∈ nodes, dependencies v ⊆ nodes) (hv : v ∈ nodes)
    (hreach : ReflTransGen (fun a b => b ∈ dependencies a) v n) : n ∈ nodes := by
  induction hreach with
  | refl => exact hv
  | tail _ hstep ih => exact hclosed _ ih hstep

variable [DecidableEq α]

/-- A search from one node finds what can be reached from it. -/
theorem mem_reachable_iff (hsucc : ∀ a ∈ nodes, successors a ⊆ nodes) (hv : v ∈ nodes) :
    n ∈ reachable successors nodes.length v ↔ ReflTransGen (fun a b => b ∈ successors a) v n := by
  have hnone : ∀ a : α, a ∉ (Search.start : Search α).found := fun a => List.not_mem_nil
  constructor
  · exact Search.forall_found_visit (p := ReflTransGen (fun a b => b ∈ successors a) v)
      (fun _ hreach _ hstep => hreach.tail hstep) _ _ (List.forall_mem_nil _) v .refl n
  · obtain ⟨hexplored, hfound⟩ := (Search.keptBy_explored successors).visit hsucc nodes.length
      List.countP_le_length Search.tidy_start (List.forall_mem_nil _) hv
      fun a ha => absurd ha.1 (hnone a)
    have hext : Search.start.Extends (Search.visit successors nodes.length Search.start v) :=
      (Search.tidy_extends_visit nodes.length Search.start v Search.tidy_start).2
    intro hreach
    induction hreach with
    | refl => exact hfound
    | tail _ hstep ih => exact hexplored _ ((hext.settled _ ih).resolve_left (hnone _)) hstep

/-! ### Components -/

theorem mem_dependents : n ∈ dependents nodes dependencies v ↔ n ∈ nodes ∧ v ∈ dependencies n := by
  simp [dependents]

/-- A way from dependencies to dependents is a way from dependents to dependencies, turned round. -/
theorem reflTransGen_dependents_iff (hclosed : ∀ v ∈ nodes, dependencies v ⊆ nodes)
    (hn : n ∈ nodes) :
    ReflTransGen (fun a b => b ∈ dependents nodes dependencies a) v n ↔
      ReflTransGen (fun a b => b ∈ dependencies a) n v := by
  constructor
  · intro hreach
    exact reflTransGen_swap.mp
      (ReflTransGen.mono (fun _ _ hstep => (mem_dependents.mp hstep).2) _ _ hreach)
  · intro hreach
    induction hreach using ReflTransGen.head_induction_on with
    | refl => exact .refl
    | head hstep _ ih => exact (ih (hclosed _ hn hstep)).tail (mem_dependents.mpr ⟨hn, hstep⟩)

theorem mem_component_iff (hclosed : ∀ v ∈ nodes, dependencies v ⊆ nodes) (hv : v ∈ nodes) :
    n ∈ component nodes dependencies v ↔
      ReflTransGen (fun a b => b ∈ dependencies a) v n ∧
        ReflTransGen (fun a b => b ∈ dependencies a) n v := by
  have honward : ∀ a ∈ nodes, dependents nodes dependencies a ⊆ nodes :=
    fun _ _ _ hb => (mem_dependents.mp hb).1
  simp only [component, List.mem_filter, Bool.and_eq_true, decide_eq_true_eq,
    mem_reachable_iff honward hv, mem_reachable_iff hclosed hv]
  constructor
  · rintro ⟨hn, hto, hfrom⟩
    exact ⟨hfrom, (reflTransGen_dependents_iff hclosed hn).mp hto⟩
  · rintro ⟨hfrom, hto⟩
    have hn : n ∈ nodes := mem_of_reflTransGen hclosed hv hfrom
    exact ⟨hn, (reflTransGen_dependents_iff hclosed hn).mpr hto, hfrom⟩

theorem isComponent_component (hclosed : ∀ v ∈ nodes, dependencies v ⊆ nodes) (hv : v ∈ nodes) :
    IsComponent (fun a b => b ∈ dependencies a) (component nodes dependencies v) :=
  ⟨v, (mem_component_iff hclosed hv).mpr ⟨.refl, .refl⟩, fun _ => mem_component_iff hclosed hv⟩

/-- The members of a component have the same component. -/
theorem component_eq_of_mem (hclosed : ∀ v ∈ nodes, dependencies v ⊆ nodes) (hv : v ∈ nodes)
    (hw : w ∈ component nodes dependencies v) :
    component nodes dependencies w = component nodes dependencies v := by
  obtain ⟨hto, hback⟩ := (mem_component_iff hclosed hv).mp hw
  have hwn : w ∈ nodes := mem_of_reflTransGen hclosed hv hto
  refine List.filter_congr fun n hn => ?_
  have hiff : n ∈ component nodes dependencies w ↔ n ∈ component nodes dependencies v := by
    rw [mem_component_iff hclosed hwn, mem_component_iff hclosed hv]
    exact ⟨fun h => ⟨hto.trans h.1, h.2.trans hback⟩, fun h => ⟨hback.trans h.1, h.2.trans hto⟩⟩
  rw [Bool.eq_iff_iff]
  simpa [component, hn] using hiff

/-- A node on a cycle that does not depend on itself is not alone. -/
theorem one_lt_length_component (hclosed : ∀ v ∈ nodes, dependencies v ⊆ nodes) (hv : v ∈ nodes)
    (hself : v ∉ dependencies v) (hcycle : TransGen (fun a b => b ∈ dependencies a) v v) :
    1 < (component nodes dependencies v).length := by
  obtain ⟨w, hstep, hback⟩ := TransGen.head'_iff.mp hcycle
  have hne : v ≠ w := by
    rintro rfl
    exact hself hstep
  have hmem : v ∈ component nodes dependencies v :=
    (mem_component_iff hclosed hv).mpr ⟨.refl, .refl⟩
  have hmem' : w ∈ component nodes dependencies v :=
    (mem_component_iff hclosed hv).mpr ⟨.single hstep, hback⟩
  have hpair : [v, w] ⊆ component nodes dependencies v := by simp [hmem, hmem']
  exact (List.subperm_of_subset (by simp [hne]) hpair).length_le

/-! ### The component that is returned -/

/-- As long as a node with others in its component is to come, the search for one goes on. The
component that it ends with is that of the first node that is the last one of its component. -/
theorem exists_component_of_go (hclosed : ∀ v ∈ nodes, dependencies v ⊆ nodes) {l : List α}
    (hl : l ⊆ nodes) (hsome : ∃ u ∈ l, 1 < (component nodes dependencies u).length) :
    ∃ u ∈ nodes, firstCycle.go nodes dependencies l = component nodes dependencies u ∧
      1 < (component nodes dependencies u).length := by
  induction l with
  | nil => simp at hsome
  | cons u later ih =>
    obtain ⟨hu, hlater⟩ := List.cons_subset.mp hl
    rw [firstCycle.go]
    by_cases hlast : (1 < (component nodes dependencies u).length &&
        (component nodes dependencies u).all (· ∉ later)) = true
    · rw [if_pos hlast]
      rw [Bool.and_eq_true, decide_eq_true_eq] at hlast
      exact ⟨u, hu, rfl, hlast.1⟩
    · rw [if_neg hlast]
      refine ih hlater ?_
      obtain ⟨u', hu', hlong⟩ := hsome
      rcases List.mem_cons.mp hu' with rfl | hu'
      · -- some member of the same component is still to come
        obtain ⟨w, hw, hwl⟩ : ∃ w ∈ component nodes dependencies u', w ∈ later := by
          simpa [hlong] using hlast
        exact ⟨w, hwl, by rwa [component_eq_of_mem hclosed hu hw]⟩
      · exact ⟨u', hu', hlong⟩

/-- If there is no order, although no node depends on itself, then the component that is returned
has several members. -/
theorem isComponent_firstCycle (hclosed : ∀ v ∈ nodes, dependencies v ⊆ nodes)
    (hself : ∀ v ∈ nodes, v ∉ dependencies v)
    (h : topologicalOrder nodes dependencies = .error v) :
    IsComponent (fun a b => b ∈ dependencies a) (firstCycle nodes dependencies) ∧
      1 < (firstCycle nodes dependencies).length ∧
      (firstCycle nodes dependencies).Sublist nodes := by
  obtain ⟨hv, hcycle⟩ := transGen_of_topologicalOrder_eq_error hclosed h
  have hall : ∀ a, a ∈ (Search.ofNodes (dependents nodes dependencies) nodes).closed.reverse ↔
      a ∈ nodes := by
    intro a
    rw [List.mem_reverse]
    exact Search.mem_closed_ofNodes fun _ _ hb => (mem_dependents.mp hb).1
  obtain ⟨u, hu, heq, hlong⟩ := exists_component_of_go hclosed (fun a => (hall a).mp)
    ⟨v, (hall v).mpr hv, one_lt_length_component hclosed hv (hself v hv) hcycle⟩
  rw [firstCycle, heq]
  exact ⟨isComponent_component hclosed hu, hlong, List.filter_sublist⟩

end ContainerTasks
