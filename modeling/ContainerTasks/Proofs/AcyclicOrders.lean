import ContainerTasks.Proofs.Sorting
import Mathlib.Logic.Relation

/-!
# Graphs that can be ordered

A depth-first search closes a node when it has dealt with all successors of the node. While it does
so the nodes that are open are those of the path that led to the node, so a successor that is found
open closes a cycle. Every successor is therefore closed before its node, but for those that lead
back to it. When the order in which the nodes are closed, turned round, does not pass the check that
is made of it, the check has come upon such a successor, and the node that is returned lies on a
cycle. In a graph without cycles the check is passed.

What is left is the bound on the depth of the search. It is measured by the nodes that have not been
found: a visit that goes on to a node has found one node more.

## Main definitions

* `DependenciesFirst`: each element of a list comes after what it depends on
* `Search.Open`: the nodes of the path
* `Search.missing`: how many nodes have not been found
* `Search.KeptBy`: what holds of a search as long as nodes are opened and closed
* `Search.OrderedUpToCycles`: successors are closed before their nodes, or lead back to them

## Main results

* `Search.KeptBy.visit`: a visit finds its node and keeps what opening and closing keep
* `Search.orderedUpToCycles_ofNodes`: a search from all nodes closes each of them after the
  successors that do not lead back to it
* `transGen_of_topologicalOrder_eq_error`: a node that is returned instead of an order lies on a
  cycle
* `exists_topologicalOrder_iff`: there is an order if and only if no node lies on a cycle
-/

namespace ContainerTasks

open Relation

variable {α : Type}

/-! ### Orders and cycles -/

section Orders

variable {dependencies : α → List α}

/-- Each element of the list comes after what it depends on. -/
def DependenciesFirst (dependencies : α → List α) (order : List α) : Prop :=
  ∀ front v rest, order = front ++ v :: rest → ∀ d ∈ dependencies v, d ∈ front

theorem DependenciesFirst.nil : DependenciesFirst dependencies [] := by
  intro front v rest h
  cases front <;> cases h

/-- An element may come next if what it depends on is there. -/
theorem DependenciesFirst.concat {order : List α} {v : α} (h : DependenciesFirst dependencies order)
    (hv : dependencies v ⊆ order) : DependenciesFirst dependencies (order ++ [v]) := by
  intro front u rest hsplit d hd
  rcases List.eq_nil_or_concat' rest with rfl | ⟨rest, last, rfl⟩
  · obtain ⟨rfl, rfl⟩ := List.append_inj' hsplit rfl |>.imp id fun h => List.cons.inj h |>.1
    exact hv hd
  · rw [← List.cons_append, ← List.append_assoc] at hsplit
    exact h front u rest (List.append_inj' hsplit rfl).1 d hd

/-- Whatever an element depends on, by however many steps, comes before it. -/
theorem DependenciesFirst.mem_of_transGen {order front rest : List α} {v d : α}
    (h : DependenciesFirst dependencies order) (hsplit : order = front ++ v :: rest)
    (hd : TransGen (fun a b => b ∈ dependencies a) v d) : d ∈ front := by
  induction hd with
  | single hstep => exact h front v rest hsplit _ hstep
  | tail _ hstep ih =>
    obtain ⟨before, between, rfl⟩ := List.append_of_mem ih
    exact List.mem_append_left _ (h before _ (between ++ v :: rest)
      (by rw [hsplit, List.append_assoc, List.cons_append]) _ hstep)

/-- No element of such a list lies on a cycle. -/
theorem DependenciesFirst.not_transGen {order : List α} {v : α}
    (h : DependenciesFirst dependencies order) (hnodup : order.Nodup) (hv : v ∈ order) :
    ¬ TransGen (fun a b => b ∈ dependencies a) v v := by
  intro hcycle
  obtain ⟨front, rest, rfl⟩ := List.append_of_mem hv
  have hfront := h.mem_of_transGen rfl hcycle
  exact (List.nodup_append.mp hnodup).2.2 v hfront v (List.mem_cons_self ..) rfl

end Orders

/-! ### Searches -/

namespace Search

/-- The node has been found and not been closed. -/
def Open (s : Search α) (a : α) : Prop := a ∈ s.found ∧ a ∉ s.closed

/-- Every node was closed after its successors, but for those that lead back to it. The latest node
is in front. -/
def OrderedUpToCycles (successors : α → List α) (s : Search α) : Prop :=
  ∀ front v rest, s.closed = front ++ v :: rest →
    ∀ w ∈ successors v, w ∈ rest ∨ ReflTransGen (fun a b => b ∈ successors a) w v

variable {successors : α → List α} {s t : Search α} {nodes : List α} {v : α}

/-- No node is opened and left open. -/
theorem Extends.open_of_open (h : s.Extends t) {a : α} (ha : t.Open a) : s.Open a :=
  ⟨(h.settled a ha.1).resolve_right ha.2, fun hclosed => ha.2 (h.closed a hclosed)⟩

theorem orderedUpToCycles_start (successors : α → List α) :
    (start : Search α).OrderedUpToCycles successors := by
  intro front v rest h
  cases front <;> cases h

/-- To close a node keeps the order if all its successors are closed or lead back to it. -/
theorem OrderedUpToCycles.close (hs : s.OrderedUpToCycles successors)
    (hv : ∀ w ∈ successors v, w ∈ s.closed ∨ ReflTransGen (fun a b => b ∈ successors a) w v) :
    OrderedUpToCycles successors { s with closed := v :: s.closed } := by
  intro front u rest h
  cases front with
  | nil =>
    obtain ⟨rfl, rfl⟩ := List.cons.inj h
    exact hv
  | cons _ front => exact hs front u rest (List.cons.inj h).2

/-- What holds of a search as long as nodes are opened and closed: opening a node keeps it, and so
does closing a node whose successors have all been found and are closed or lead back to it. -/
structure KeptBy (successors : α → List α) (P : Search α → Prop) : Prop where
  opened : ∀ s v, P s → P { s with found := v :: s.found }
  closed : ∀ s v, P s → (∀ w ∈ successors v, w ∈ s.found ∧
    (w ∈ s.closed ∨ ReflTransGen (fun a b => b ∈ successors a) w v)) →
      P { s with closed := v :: s.closed }

/-- Nodes are closed after the successors that do not lead back to them. -/
theorem keptBy_orderedUpToCycles (successors : α → List α) :
    KeptBy successors (OrderedUpToCycles successors) where
  opened := fun _ _ hordered => hordered
  closed := fun _ _ hordered hall => hordered.close fun w hw => (hall w hw).2

/-- Visits one after the other find all their nodes and keep a property, if each of them does so in
any search that goes on from the first one. -/
theorem keeps_foldl {P : Search α → Prop} {step : Search α → α → Search α} {l : List α}
    (hstep : ∀ t, t.Tidy → s.Extends t → P t → ∀ w ∈ l,
      ((step t w).Tidy ∧ t.Extends (step t w)) ∧ P (step t w) ∧ w ∈ (step t w).found)
    (ht : t.Tidy) (hst : s.Extends t) (hP : P t) :
    t.Extends (l.foldl step t) ∧ P (l.foldl step t) ∧ ∀ w ∈ l, w ∈ (l.foldl step t).found := by
  induction l generalizing t with
  | nil => exact ⟨.refl t, hP, List.forall_mem_nil _⟩
  | cons w l ih =>
    obtain ⟨⟨htidy, hext⟩, hP', hw⟩ := hstep t ht hst hP w (List.mem_cons_self ..)
    obtain ⟨hext', hfinal, hl⟩ := ih
      (fun t ht hst hP w hw => hstep t ht hst hP w (List.mem_cons_of_mem _ hw))
      htidy (hst.trans hext) hP'
    exact ⟨hext.trans hext', hfinal, List.forall_mem_cons.mpr ⟨hext'.found w hw, hl⟩⟩

variable [DecidableEq α]

/-- How many of the nodes have not been found. -/
def missing (nodes : List α) (s : Search α) : Nat := nodes.countP (· ∉ s.found)

theorem Extends.missing_le (h : s.Extends t) : t.missing nodes ≤ s.missing nodes := by
  refine List.countP_mono_left fun a _ ha => ?_
  simp only [decide_eq_true_eq] at ha ⊢
  exact fun hs => ha (h.found a hs)

theorem missing_lt (hv : v ∈ nodes) (hfresh : v ∉ s.found) :
    missing nodes { s with found := v :: s.found } < s.missing nodes := by
  obtain ⟨before, after, rfl⟩ := List.append_of_mem hv
  have hle : ∀ l : List α, missing l { s with found := v :: s.found } ≤ s.missing l := by
    refine fun l => List.countP_mono_left fun a _ ha => ?_
    simp only [decide_eq_true_eq] at ha ⊢
    exact fun hs => ha (List.mem_cons_of_mem _ hs)
  have hbefore := hle before
  have hafter := hle after
  simp only [missing, List.countP_append, List.countP_cons, List.mem_cons_self, not_true,
    decide_false, Bool.false_eq_true, if_false, hfresh, not_false_eq_true, decide_true,
    if_true] at hbefore hafter ⊢
  omega

/-- A visit finds its node and keeps whatever opening and closing keep. All nodes of the path have
to lead to the node that is visited. -/
theorem KeptBy.visit {P : Search α → Prop} (hkept : KeptBy successors P)
    (hsucc : ∀ a ∈ nodes, successors a ⊆ nodes) (depth : Nat) (hdepth : s.missing nodes ≤ depth)
    (hs : s.Tidy) (hP : P s) (hv : v ∈ nodes)
    (hopen : ∀ a, s.Open a → TransGen (fun a b => b ∈ successors a) a v) :
    P (Search.visit successors depth s v) ∧ v ∈ (Search.visit successors depth s v).found := by
  induction depth generalizing s v with
  | zero =>
    have hfound : v ∈ s.found := by
      simpa using List.countP_eq_zero.mp (Nat.le_zero.mp hdepth) v hv
    exact ⟨hP, hfound⟩
  | succ depth ih =>
    refine ⟨?_, mem_found_visit depth v hs⟩
    unfold Search.visit
    split
    · exact hP
    · next hfresh =>
      set opened : Search α := { s with found := v :: s.found } with hopened
      have htidy : opened.Tidy :=
        ⟨hs.nodup, fun a ha => List.mem_cons_of_mem _ (hs.found a ha)⟩
      -- the nodes of the path, and the node itself, are those that are open now
      have hpath : ∀ a, opened.Open a → ReflTransGen (fun a b => b ∈ successors a) a v := by
        rintro a ⟨hfound, hnot⟩
        rcases List.mem_cons.mp hfound with rfl | hfound
        · exact .refl
        · exact (hopen a ⟨hfound, hnot⟩).to_reflTransGen
      have hlt : opened.missing nodes < s.missing nodes := missing_lt hv hfresh
      have hstep : ∀ t, t.Tidy → opened.Extends t → P t → ∀ w ∈ successors v,
          ((Search.visit successors depth t w).Tidy ∧
            t.Extends (Search.visit successors depth t w)) ∧
            P (Search.visit successors depth t w) ∧
              w ∈ (Search.visit successors depth t w).found := by
        intro t ht hext hP w hw
        have hless : t.missing nodes ≤ opened.missing nodes := hext.missing_le
        have hto : ∀ a, t.Open a → TransGen (fun a b => b ∈ successors a) a w :=
          fun a ha => .tail' (hpath a (hext.open_of_open ha)) hw
        exact ⟨tidy_extends_visit depth t w ht, ih (by omega) ht hP (hsucc v hv hw) hto⟩
      obtain ⟨hext, hfinal, hall⟩ := keeps_foldl hstep htidy (.refl _) (hkept.opened s v hP)
      refine hkept.closed _ v hfinal fun w hw => ⟨hall w hw, ?_⟩
      by_cases hclosed : w ∈ ((successors v).foldl (Search.visit successors depth) opened).closed
      · exact .inl hclosed
      · exact .inr (hpath w (hext.open_of_open ⟨hall w hw, hclosed⟩))

/-- A search from each node keeps whatever opening and closing keep. -/
theorem KeptBy.ofNodes {P : Search α → Prop} (hkept : KeptBy successors P)
    (hsucc : ∀ a ∈ nodes, successors a ⊆ nodes) (hP : P start) :
    P (Search.ofNodes successors nodes) := by
  have hnone : ∀ t, start.Extends t → ∀ a : α, ¬ t.Open a := by
    intro t hext a ha
    have := (hext.open_of_open ha).1
    simp [start] at this
  refine (keeps_foldl (s := start) (fun t ht hext hP w hw => ?_) tidy_start (.refl _) hP).2.1
  exact ⟨tidy_extends_visit _ t w ht,
    hkept.visit hsucc _ List.countP_le_length ht hP hw fun a ha => absurd ha (hnone t hext a)⟩

/-- A search from each node closes each of them after the successors that do not lead back. -/
theorem orderedUpToCycles_ofNodes (hsucc : ∀ a, successors a ⊆ nodes) :
    (ofNodes successors nodes).OrderedUpToCycles successors :=
  (keptBy_orderedUpToCycles successors).ofNodes (fun a _ => hsucc a)
    (orderedUpToCycles_start successors)

end Search

/-! ### What the check finds -/

variable [DecidableEq α] {dependencies : α → List α} {nodes : List α} {v : α}

/-- What is found comes after a node that depends on it. -/
theorem exists_of_firstMisplaced_eq_some {before order : List α}
    (h : firstMisplaced dependencies before order = some v) :
    ∃ front u rest, order = front ++ u :: rest ∧ v ∈ dependencies u ∧ v ≠ u ∧
      v ∉ front ∧ v ∉ before := by
  induction order generalizing before with
  | nil => cases h
  | cons u rest ih =>
    unfold firstMisplaced at h
    split at h
    · next d hd =>
      obtain rfl := Option.some.inj h
      obtain ⟨hdepends, hlate⟩ := List.mem_filter.mp (List.mem_of_getLast? hd)
      have hlate : d ∉ u :: before := of_decide_eq_true hlate
      rw [List.mem_cons, not_or] at hlate
      exact ⟨[], u, rest, rfl, List.mem_eraseDups.mp hdepends, hlate.1, List.not_mem_nil, hlate.2⟩
    · obtain ⟨front, u', rest', rfl, hdepends, hne, hfront, hbefore⟩ := ih h
      rw [List.mem_cons, not_or] at hbefore
      refine ⟨u :: front, u', rest', rfl, hdepends, hne, fun hmem => ?_, hbefore.2⟩
      exact (List.mem_cons.mp hmem).elim hbefore.1 hfront

/-- A node that is returned instead of an order is one of the nodes and lies on a cycle. -/
theorem transGen_of_topologicalOrder_eq_error (hclosed : ∀ v ∈ nodes, dependencies v ⊆ nodes)
    (h : topologicalOrder nodes dependencies = .error v) :
    v ∈ nodes ∧ TransGen (fun a b => b ∈ dependencies a) v v := by
  set successors : α → List α := fun v => (dependents nodes dependencies v).reverse with hdef
  have hmem : ∀ {a b}, b ∈ successors a ↔ b ∈ nodes ∧ a ∈ dependencies b := by
    intro a b
    simp [hdef, dependents]
  have hsucc : ∀ a, successors a ⊆ nodes := fun a b hb => (hmem.mp hb).1
  have hall : ∀ v, v ∈ (Search.ofNodes successors nodes).closed ↔ v ∈ nodes :=
    fun v => Search.mem_closed_ofNodes hsucc
  unfold topologicalOrder at h
  dsimp only at h
  split at h
  · next w hself =>
    obtain rfl := Except.error.inj h
    have hfound := List.mem_reverse.mp (List.mem_of_find?_eq_some hself)
    have hself : w ∈ dependencies w := by simpa using List.find?_some hself
    exact ⟨Search.found_ofNodes_subset hsucc hfound, .single hself⟩
  · split at h
    · next w hmisplaced =>
      obtain rfl := Except.error.inj h
      obtain ⟨front, u, rest, hsplit, hdepends, hne, hfront, -⟩ :=
        exists_of_firstMisplaced_eq_some hmisplaced
      have hu : u ∈ nodes := (hall u).mp (hsplit ▸ List.mem_append_right _ (List.mem_cons_self ..))
      have hw : w ∈ nodes := hclosed u hu hdepends
      -- `w` was closed before `u`, which depends on it, and so `u` leads back to `w`
      have hback : w ∈ rest := by
        have hmem : w ∈ front ++ u :: rest := hsplit ▸ (hall w).mpr hw
        simpa [hfront, hne] using hmem
      obtain ⟨between, later, rfl⟩ := List.append_of_mem hback
      have honce : u ∉ later := by
        have hnodup := (@Search.tidy_extends_ofNodes _ _ successors nodes).1.nodup
        rw [hsplit] at hnodup
        intro hlater
        exact (List.nodup_cons.mp (List.nodup_append.mp hnodup).2.1).1 (by simp [hlater])
      have hedge : u ∈ successors w := hmem.mpr ⟨hu, hdepends⟩
      have hleads := (Search.orderedUpToCycles_ofNodes hsucc (front ++ u :: between) w later
        (by rw [hsplit]; simp) u hedge).resolve_left honce
      refine ⟨hw, transGen_swap.mp (TransGen.mono (fun b c hbc => (hmem.mp hbc).2) _ _
        (TransGen.head' hedge hleads))⟩
    · cases h

/-- A graph without cycles has an order, and it is found. -/
theorem exists_topologicalOrder (hclosed : ∀ v ∈ nodes, dependencies v ⊆ nodes)
    (hacyclic : ∀ v ∈ nodes, ¬ TransGen (fun a b => b ∈ dependencies a) v v) :
    ∃ order, topologicalOrder nodes dependencies = .ok order := by
  cases h : topologicalOrder nodes dependencies with
  | ok order => exact ⟨order, rfl⟩
  | error v =>
    obtain ⟨hv, hcycle⟩ := transGen_of_topologicalOrder_eq_error hclosed h
    exact absurd hcycle (hacyclic v hv)

/-- There is an order if and only if no node lies on a cycle. -/
theorem exists_topologicalOrder_iff (hclosed : ∀ v ∈ nodes, dependencies v ⊆ nodes) :
    (∃ order, topologicalOrder nodes dependencies = .ok order) ↔
      ∀ v ∈ nodes, ¬ TransGen (fun a b => b ∈ dependencies a) v v := by
  refine ⟨?_, exists_topologicalOrder hclosed⟩
  rintro ⟨order, horder⟩ v hv
  obtain ⟨hnodup, hmem, hfirst⟩ := topologicalOrder_eq_ok horder
  exact DependenciesFirst.not_transGen hfirst hnodup ((hmem v).mpr hv)

end ContainerTasks
