import ContainerTasks.DepthFirst
import Mathlib.Data.List.Nodup

/-!
# The order that a search finds

A depth-first search closes every node that it comes upon, each once, so that its closing order
lists the nodes of the graph. That this order puts dependencies first does not follow from the
search: the order is checked afterwards, and only one that passes is returned. So nothing here
depends on the bound on the depth of the search.

## Main definitions

* `Search.Tidy`: what holds of every search
* `Search.Extends`: how a search goes on

## Main results

* `Search.tidy_extends_visit`: a visit keeps a search tidy and goes on with it
* `topologicalOrder_eq_ok`: an order that is returned lists the nodes, each once and each after what
  it depends on
-/

namespace ContainerTasks

variable {α : Type}

namespace Search

/-- Every node is closed at most once, and after it was found. -/
structure Tidy (s : Search α) : Prop where
  nodup : s.closed.Nodup
  found : ∀ a ∈ s.closed, a ∈ s.found

/-- How a search goes on: it forgets nothing, closes no node that was open before, and leaves none
of the nodes open that it comes upon. -/
structure Extends (s t : Search α) : Prop where
  found : ∀ a ∈ s.found, a ∈ t.found
  closed : ∀ a ∈ s.closed, a ∈ t.closed
  fresh : ∀ a ∈ t.closed, a ∈ s.closed ∨ a ∉ s.found
  settled : ∀ a ∈ t.found, a ∈ s.found ∨ a ∈ t.closed

theorem Extends.refl (s : Search α) : s.Extends s :=
  ⟨fun _ h => h, fun _ h => h, fun _ h => .inl h, fun _ h => .inl h⟩

theorem Extends.trans {s t u : Search α} (hst : s.Extends t) (htu : t.Extends u) :
    s.Extends u where
  found a h := htu.found a (hst.found a h)
  closed a h := htu.closed a (hst.closed a h)
  fresh a h := by
    rcases htu.fresh a h with h | h
    · exact hst.fresh a h
    · exact .inr fun hs => h (hst.found a hs)
  settled a h := by
    rcases htu.settled a h with h | h
    · exact (hst.settled a h).imp_right (htu.closed a)
    · exact .inr h

/-- A node that is left after everything found behind it keeps a search tidy. -/
theorem tidy_extends_close {s t : Search α} {v : α} (hs : s.Tidy) (hv : v ∉ s.found)
    (ht : t.Tidy) (hst : Extends { s with found := v :: s.found } t) :
    Tidy { t with closed := v :: t.closed } ∧ s.Extends { t with closed := v :: t.closed } := by
  have hvt : v ∉ t.closed := by
    intro h
    rcases hst.fresh v h with h | h
    · exact hv (hs.found v h)
    · exact h (List.mem_cons_self ..)
  refine ⟨⟨List.nodup_cons.mpr ⟨hvt, ht.nodup⟩, ?_⟩, ?_⟩
  · intro a ha
    rcases List.mem_cons.mp ha with rfl | ha
    · exact hst.found a (List.mem_cons_self ..)
    · exact ht.found a ha
  · exact {
      found := fun a ha => hst.found a (List.mem_cons_of_mem _ ha)
      closed := fun a ha => List.mem_cons_of_mem _ (hst.closed a ha)
      fresh := fun a ha => by
        rcases List.mem_cons.mp ha with rfl | ha
        · exact .inr hv
        · exact (hst.fresh a ha).imp_right fun h hs => h (List.mem_cons_of_mem _ hs)
      settled := fun a ha => by
        rcases hst.settled a ha with ha | ha
        · rcases List.mem_cons.mp ha with rfl | ha
          · exact .inr (List.mem_cons_self ..)
          · exact .inl ha
        · exact .inr (List.mem_cons_of_mem _ ha) }

theorem tidy_extends_foldl {step : Search α → α → Search α}
    (hstep : ∀ s v, s.Tidy → (step s v).Tidy ∧ s.Extends (step s v)) (l : List α) {s : Search α}
    (hs : s.Tidy) : (l.foldl step s).Tidy ∧ s.Extends (l.foldl step s) := by
  induction l generalizing s with
  | nil => exact ⟨hs, .refl s⟩
  | cons v l ih =>
    obtain ⟨ht, hst⟩ := hstep s v hs
    obtain ⟨hu, htu⟩ := ih ht
    exact ⟨hu, hst.trans htu⟩

theorem tidy_start : (start : Search α).Tidy := ⟨List.nodup_nil, fun _ h => h⟩

theorem forall_found_foldl {p : α → Prop} {step : Search α → α → Search α}
    (hstep : ∀ s, (∀ a ∈ s.found, p a) → ∀ v, p v → ∀ a ∈ (step s v).found, p a) (l : List α)
    (hl : ∀ v ∈ l, p v) {s : Search α} (hs : ∀ a ∈ s.found, p a) :
    ∀ a ∈ (l.foldl step s).found, p a := by
  induction l generalizing s with
  | nil => exact hs
  | cons v l ih =>
    rw [List.forall_mem_cons] at hl
    exact ih hl.2 (hstep s hs v hl.1)

variable [DecidableEq α] {successors : α → List α} {nodes : List α}

theorem tidy_extends_visit (depth : Nat) (s : Search α) (v : α) (hs : s.Tidy) :
    (visit successors depth s v).Tidy ∧ s.Extends (visit successors depth s v) := by
  induction depth generalizing s v with
  | zero => exact ⟨hs, .refl s⟩
  | succ depth ih =>
    unfold visit
    split
    · exact ⟨hs, .refl s⟩
    · next hv =>
      have hopen : Tidy { s with found := v :: s.found } :=
        ⟨hs.nodup, fun a ha => List.mem_cons_of_mem _ (hs.found a ha)⟩
      obtain ⟨ht, hst⟩ := tidy_extends_foldl ih (successors v) hopen
      exact tidy_extends_close hs hv ht hst

theorem mem_found_visit (depth : Nat) {s : Search α} (v : α) (hs : s.Tidy) :
    v ∈ (visit successors (depth + 1) s v).found := by
  unfold visit
  split
  · assumption
  · have hopen : Tidy { s with found := v :: s.found } :=
      ⟨hs.nodup, fun a ha => List.mem_cons_of_mem _ (hs.found a ha)⟩
    exact (tidy_extends_foldl (tidy_extends_visit depth) (successors v) hopen).2.found v
      (List.mem_cons_self ..)

/-- Whatever successors inherit holds of all nodes that a search comes upon. -/
theorem forall_found_visit {p : α → Prop} (hsucc : ∀ v, p v → ∀ w ∈ successors v, p w) (depth : Nat)
    (s : Search α) (hs : ∀ a ∈ s.found, p a) (v : α) (hv : p v) :
    ∀ a ∈ (visit successors depth s v).found, p a := by
  induction depth generalizing s v with
  | zero => exact hs
  | succ depth ih =>
    unfold visit
    split
    · exact hs
    · exact forall_found_foldl ih _ (hsucc v hv) (List.forall_mem_cons.mpr ⟨hv, hs⟩)

/-- A search stays among the nodes of its graph. -/
theorem found_ofNodes_subset (hsucc : ∀ v, successors v ⊆ nodes) :
    (ofNodes successors nodes).found ⊆ nodes :=
  forall_found_foldl (forall_found_visit (fun v _ => hsucc v) _) nodes (fun _ hv => hv)
    (List.forall_mem_nil _)

theorem tidy_extends_ofNodes (nodes : List α) :
    (ofNodes successors nodes).Tidy ∧ start.Extends (ofNodes successors nodes) :=
  tidy_extends_foldl (tidy_extends_visit _) nodes tidy_start

theorem mem_found_ofNodes {v : α} (hv : v ∈ nodes) : v ∈ (ofNodes successors nodes).found := by
  obtain ⟨depth, hdepth⟩ := Nat.exists_eq_add_one_of_ne_zero
    (Nat.ne_of_gt (List.length_pos_of_mem hv))
  obtain ⟨before, after, rfl⟩ := List.append_of_mem hv
  unfold ofNodes
  rw [hdepth, List.foldl_append, List.foldl_cons]
  have hbefore := tidy_extends_foldl (@tidy_extends_visit _ _ successors (depth + 1))
    before tidy_start
  have hvisit := @tidy_extends_visit _ _ successors (depth + 1) _ v hbefore.1
  exact (tidy_extends_foldl (tidy_extends_visit (depth + 1)) after hvisit.1).2.found v
    (mem_found_visit depth v hbefore.1)

/-- A search that starts at each node of a graph closes the nodes of the graph. -/
theorem mem_closed_ofNodes (hsucc : ∀ v, successors v ⊆ nodes) {v : α} :
    v ∈ (ofNodes successors nodes).closed ↔ v ∈ nodes := by
  obtain ⟨htidy, hext⟩ := @tidy_extends_ofNodes _ _ successors nodes
  constructor
  · intro hv
    exact found_ofNodes_subset hsucc (htidy.found v hv)
  · intro hv
    rcases hext.settled v (mem_found_ofNodes hv) with h | h
    · simp [start] at h
    · exact h

end Search

/-! ### Checking the order -/

variable [DecidableEq α] {dependencies : α → List α}

/-- In an order that passes the check, what a node depends on is the node itself or comes before
it. -/
theorem mem_of_firstMisplaced_eq_none {before order : List α}
    (h : firstMisplaced dependencies before order = none) {front rest : List α} {v : α}
    (horder : order = front ++ v :: rest) :
    ∀ d ∈ dependencies v, d = v ∨ d ∈ front ∨ d ∈ before := by
  induction order generalizing before front with
  | nil => simp at horder
  | cons w order ih =>
    unfold firstMisplaced at h
    split at h
    · simp at h
    · next hw =>
      cases front with
      | nil =>
        obtain ⟨rfl, rfl⟩ := List.cons.inj horder
        intro d hd
        rw [List.getLast?_eq_none_iff, List.filter_eq_nil_iff] at hw
        have := hw d (List.mem_eraseDups.mpr hd)
        grind
      | cons u front =>
        obtain ⟨rfl, rfl⟩ := List.cons.inj horder
        intro d hd
        have := ih h rfl d hd
        grind

/-- An order that is returned lists the nodes, each once and each after what it depends on. -/
theorem topologicalOrder_eq_ok {nodes order : List α}
    (h : topologicalOrder nodes dependencies = .ok order) :
    order.Nodup ∧ (∀ v, v ∈ order ↔ v ∈ nodes) ∧
      ∀ front v rest, order = front ++ v :: rest → ∀ d ∈ dependencies v, d ∈ front := by
  have hsucc : ∀ v, (dependents nodes dependencies v).reverse ⊆ nodes := by
    intro v a ha
    exact List.mem_of_mem_filter (List.mem_reverse.mp ha)
  unfold topologicalOrder at h
  dsimp only at h
  split at h
  · cases h
  · next hself =>
    split at h
    · cases h
    · next hplaced =>
      cases h
      obtain ⟨htidy, -⟩ := @Search.tidy_extends_ofNodes _ _
        (fun v => (dependents nodes dependencies v).reverse) nodes
      refine ⟨htidy.nodup, fun v => Search.mem_closed_ofNodes hsucc, ?_⟩
      intro front v rest horder d hd
      -- the check lets a node depend on itself, but this was ruled out before
      have hv : d ≠ v := by
        rintro rfl
        have hfound := htidy.found d (horder ▸ List.mem_append_right _ (List.mem_cons_self ..))
        simpa [hd] using List.find?_eq_none.mp hself d (List.mem_reverse.mpr hfound)
      rcases mem_of_firstMisplaced_eq_none hplaced horder d hd with h | h | h
      · exact absurd h hv
      · exact h
      · simp at h

end ContainerTasks
