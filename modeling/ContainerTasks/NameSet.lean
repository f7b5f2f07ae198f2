/-!
# Sets of names

A set of names is kept as the strictly increasing list of its members, so that two sets with the
same members are equal, and listing a set needs no further choice of order. Names are ordered by
their code points.

## Main definitions

* `NameSet`: a strictly increasing list of names
* `NameSet.insert`, `NameSet.ofList`, `NameSet.union`, `NameSet.filter`

## Main results

* `NameSet.mem_insert`, `NameSet.mem_ofList`, `NameSet.mem_union`, `NameSet.mem_filter`
* `NameSet.ext`: a set is determined by its members
-/

namespace ContainerTasks

/-- A finite set of names, listed in increasing order. -/
structure NameSet where
  /-- The members, smallest first. -/
  toList : List String
  /-- No member is listed twice, and none before a smaller one. -/
  sorted : toList.Pairwise (· < ·)
  deriving DecidableEq

namespace NameSet

instance : Membership String NameSet := ⟨fun s n => n ∈ s.toList⟩

theorem mem_def {n : String} {s : NameSet} : n ∈ s ↔ n ∈ s.toList := Iff.rfl

instance (n : String) (s : NameSet) : Decidable (n ∈ s) :=
  inferInstanceAs (Decidable (n ∈ s.toList))

/-- The set without members. -/
def empty : NameSet := ⟨[], .nil⟩

instance : Inhabited NameSet := ⟨empty⟩

@[simp] theorem not_mem_empty (n : String) : n ∉ empty := by simp [mem_def, empty]

/-- Whether the set has no members. -/
def isEmpty (s : NameSet) : Bool := s.toList.isEmpty

/-- Puts a name at its place in an increasing list; a name that is listed already stays once. -/
def insertName (n : String) : List String → List String
  | [] => [n]
  | m :: rest => if n < m then n :: m :: rest else if n = m then m :: rest
      else m :: insertName n rest

@[simp] theorem mem_insertName {a n : String} {l : List String} :
    a ∈ insertName n l ↔ a = n ∨ a ∈ l := by
  induction l with
  | nil => simp [insertName]
  | cons m rest ih => grind [insertName]

theorem pairwise_insertName {n : String} {l : List String} (h : l.Pairwise (· < ·)) :
    (insertName n l).Pairwise (· < ·) := by
  induction l with
  | nil => simp [insertName]
  | cons m rest ih =>
    rw [List.pairwise_cons] at h
    unfold insertName
    split
    · next hn =>
      refine List.pairwise_cons.2 ⟨fun a ha => ?_, List.pairwise_cons.2 h⟩
      rcases List.mem_cons.1 ha with rfl | ha
      · exact hn
      · exact String.lt_trans hn (h.1 a ha)
    · split
      · exact List.pairwise_cons.2 h
      · next hn hne =>
        refine List.pairwise_cons.2 ⟨fun a ha => ?_, ih h.2⟩
        rcases mem_insertName.1 ha with rfl | ha
        · grind
        · exact h.1 a ha

/-- The set with one more member. -/
def insert (s : NameSet) (n : String) : NameSet :=
  ⟨insertName n s.toList, pairwise_insertName s.sorted⟩

@[simp] theorem mem_insert {a n : String} {s : NameSet} : a ∈ s.insert n ↔ a = n ∨ a ∈ s :=
  mem_insertName

/-- The set with all names of a list added. -/
def insertMany (s : NameSet) (names : List String) : NameSet := names.foldl insert s

@[simp] theorem mem_insertMany {a : String} {s : NameSet} {names : List String} :
    a ∈ s.insertMany names ↔ a ∈ names ∨ a ∈ s := by
  induction names generalizing s with
  | nil => simp [insertMany]
  | cons n rest ih =>
    have step : s.insertMany (n :: rest) = (s.insert n).insertMany rest := rfl
    rw [step, ih, mem_insert, List.mem_cons]
    grind

/-- The members of a list, in any order and with repetitions, as a set. -/
def ofList (names : List String) : NameSet := empty.insertMany names

@[simp] theorem mem_ofList {a : String} {names : List String} : a ∈ ofList names ↔ a ∈ names := by
  simp [ofList]

/-- The members of either set. -/
def union (s t : NameSet) : NameSet := s.insertMany t.toList

@[simp] theorem mem_union {a : String} {s t : NameSet} : a ∈ s.union t ↔ a ∈ s ∨ a ∈ t := by
  rw [union, mem_insertMany, mem_def, mem_def, Or.comm]

/-- The members that satisfy a test. -/
def filter (p : String → Bool) (s : NameSet) : NameSet :=
  ⟨s.toList.filter p, s.sorted.filter p⟩

@[simp] theorem mem_filter {a : String} {p : String → Bool} {s : NameSet} :
    a ∈ s.filter p ↔ a ∈ s ∧ p a := by
  simp [mem_def, filter]

theorem nodup (s : NameSet) : s.toList.Nodup :=
  s.sorted.imp fun h => by grind

/-- Increasing lists with the same members are the same list. -/
theorem eq_of_pairwise_of_mem_iff {l r : List String} (hl : l.Pairwise (· < ·))
    (hr : r.Pairwise (· < ·)) (h : ∀ a, a ∈ l ↔ a ∈ r) : l = r := by
  induction l generalizing r with
  | nil =>
    cases r with
    | nil => rfl
    | cons b r => exact absurd ((h b).2 (by simp)) (by simp)
  | cons a l ih =>
    cases r with
    | nil => exact absurd ((h a).1 (by simp)) (by simp)
    | cons b r =>
      rw [List.pairwise_cons] at hl hr
      have hab : a = b := by
        rcases List.mem_cons.1 ((h a).1 (by simp)) with hab | hab
        · exact hab
        · rcases List.mem_cons.1 ((h b).2 (by simp)) with hba | hba
          · exact hba.symm
          · exact absurd (hr.1 a hab) (String.lt_asymm (hl.1 b hba))
      subst hab
      refine congrArg _ (ih hl.2 hr.2 fun c => ?_)
      have := h c
      have hal : a ∉ l := fun ha => String.lt_irrefl a (hl.1 a ha)
      have har : a ∉ r := fun ha => String.lt_irrefl a (hr.1 a ha)
      grind

/-- A set is determined by its members. -/
@[ext] theorem ext {s t : NameSet} (h : ∀ a, a ∈ s ↔ a ∈ t) : s = t := by
  have := eq_of_pairwise_of_mem_iff s.sorted t.sorted h
  cases s; cases t; simp_all

end NameSet

end ContainerTasks
