import ContainerTasks.NameSet

/-!
# Tables indexed by name

A table maps names to values and is listed in the order of its names, so that tables with the same
entries are equal. It serves environments, catalogues of containers and of tasks.

## Main definitions

* `NameMap`: an association list with strictly increasing names
* `NameMap.get?`, `NameMap.insert`, `NameMap.ofList`, `NameMap.merge`, `NameMap.mapWithName`

## Main results

* `NameMap.get?_insert`, `NameMap.get?_insertMany`: a lookup after insertions
* `NameMap.get?_merge`: a lookup in two tables of which the second has the say
* `NameMap.get?_mapWithName`: a lookup in a table with changed values
* `NameMap.contains_iff_mem_keys`: the names that have a value are the listed ones
-/

namespace ContainerTasks

/-- A table of values, listed by increasing name. -/
structure NameMap (α : Type) where
  /-- The entries, smallest name first. -/
  entries : List (String × α)
  /-- No name is listed twice, and none before a smaller one. -/
  sorted : entries.Pairwise (fun a b => a.1 < b.1)
  deriving DecidableEq

namespace NameMap

variable {α β : Type}

/-- The table without entries. -/
def empty : NameMap α := ⟨[], .nil⟩

instance : Inhabited (NameMap α) := ⟨empty⟩

/-- The names that have a value, in increasing order. -/
def keys (m : NameMap α) : List String := m.entries.map (·.1)

/-- The number of entries. -/
def size (m : NameMap α) : Nat := m.entries.length

/-- Whether the table has no entries. -/
def isEmpty (m : NameMap α) : Bool := m.entries.isEmpty

/-- The value of a name. -/
def get? (m : NameMap α) (n : String) : Option α := m.entries.lookup n

/-- Whether a name has a value. -/
def contains (m : NameMap α) (n : String) : Bool := (m.get? n).isSome

/-- Writes an entry into an increasing list of entries; a value that the name had is replaced. -/
def insertEntry (n : String) (a : α) : List (String × α) → List (String × α)
  | [] => [(n, a)]
  | (m, b) :: rest => if n < m then (n, a) :: (m, b) :: rest
      else if n = m then (n, a) :: rest else (m, b) :: insertEntry n a rest

theorem fst_mem_of_mem_insertEntry {n : String} {a : α} {e : String × α}
    {l : List (String × α)} (h : e ∈ insertEntry n a l) : e.1 = n ∨ e ∈ l := by
  induction l with
  | nil => simp_all [insertEntry]
  | cons m rest ih => grind [insertEntry]

theorem pairwise_insertEntry {n : String} {a : α} {l : List (String × α)}
    (h : l.Pairwise (fun a b => a.1 < b.1)) :
    (insertEntry n a l).Pairwise (fun a b => a.1 < b.1) := by
  induction l with
  | nil => simp [insertEntry]
  | cons m rest ih =>
    obtain ⟨m, b⟩ := m
    rw [List.pairwise_cons] at h
    unfold insertEntry
    split
    · next hn =>
      refine List.pairwise_cons.2 ⟨fun e he => ?_, List.pairwise_cons.2 h⟩
      rcases List.mem_cons.1 he with rfl | he
      · exact hn
      · exact String.lt_trans hn (h.1 e he)
    · split
      · next hne => subst hne; exact List.pairwise_cons.2 ⟨h.1, h.2⟩
      · next hn hne =>
        refine List.pairwise_cons.2 ⟨fun e he => ?_, ih h.2⟩
        rcases fst_mem_of_mem_insertEntry he with he | he
        · show m < e.1
          rw [he]; grind
        · exact h.1 e he

/-- The table with one entry written. -/
def insert (m : NameMap α) (n : String) (a : α) : NameMap α :=
  ⟨insertEntry n a m.entries, pairwise_insertEntry m.sorted⟩

theorem lookup_insertEntry {n k : String} {a : α} {l : List (String × α)}
    (h : l.Pairwise (fun a b => a.1 < b.1)) :
    (insertEntry n a l).lookup k = if k = n then some a else l.lookup k := by
  induction l with
  | nil => simp [insertEntry, List.lookup_cons]; grind
  | cons m rest ih =>
    obtain ⟨m, b⟩ := m
    rw [List.pairwise_cons] at h
    unfold insertEntry
    have := ih h.2
    grind

/-- A lookup after an insertion finds the written value at its name, and elsewhere what it found
before. -/
@[simp] theorem get?_insert {m : NameMap α} {n k : String} {a : α} :
    (m.insert n a).get? k = if k = n then some a else m.get? k :=
  lookup_insertEntry m.sorted

@[simp] theorem get?_empty (n : String) : (empty : NameMap α).get? n = none := rfl

/-- Writes entries one after the other; the last value of a name stays. -/
def insertMany (m : NameMap α) (entries : List (String × α)) : NameMap α :=
  entries.foldl (fun m e => m.insert e.1 e.2) m

theorem insertMany_cons (m : NameMap α) (e : String × α) (rest : List (String × α)) :
    m.insertMany (e :: rest) = (m.insert e.1 e.2).insertMany rest := rfl

/-- A lookup after entries with distinct names were written. -/
theorem get?_insertMany {m : NameMap α} {entries : List (String × α)} {n : String}
    (h : (entries.map (·.1)).Nodup) :
    (m.insertMany entries).get? n = (entries.lookup n).or (m.get? n) := by
  induction entries generalizing m with
  | nil => rfl
  | cons e rest ih =>
    obtain ⟨hfresh, hrest⟩ := List.nodup_cons.mp h
    rw [insertMany_cons, ih hrest, get?_insert, List.lookup_cons]
    by_cases hn : n = e.1
    · have hnone : rest.lookup e.1 = none := List.lookup_eq_none_iff.mpr fun e' he' => by
        have hne : e'.1 ≠ e.1 := fun hc => hfresh (List.mem_map.mpr ⟨e', he', hc⟩)
        simpa using hne.symm
      simp [hn, hnone]
    · rw [if_neg hn, beq_false_of_ne hn]

/-- The table of a list of entries in any order; the last value of a name stays. -/
def ofList (entries : List (String × α)) : NameMap α := empty.insertMany entries

/-- The entries of both tables; where both have a name, the second has the say. -/
def merge (m overrides : NameMap α) : NameMap α := m.insertMany overrides.entries

theorem pairwise_keys (m : NameMap α) : m.keys.Pairwise (· < ·) := by
  rw [keys, List.pairwise_map]; exact m.sorted

theorem nodup_keys (m : NameMap α) : m.keys.Nodup :=
  m.pairwise_keys.imp String.ne_of_lt

@[simp] theorem get?_merge {m overrides : NameMap α} {n : String} :
    (m.merge overrides).get? n = (overrides.get? n).or (m.get? n) :=
  get?_insertMany overrides.nodup_keys

/-- Changes each value, knowing its name. -/
def mapWithName (f : String → α → β) (m : NameMap α) : NameMap β :=
  ⟨m.entries.map fun e => (e.1, f e.1 e.2), by
    rw [List.pairwise_map]; exact m.sorted⟩

theorem lookup_map_entries (f : String → α → β) (l : List (String × α)) (n : String) :
    (l.map fun e => (e.1, f e.1 e.2)).lookup n = (l.lookup n).map (f n) := by
  induction l with
  | nil => rfl
  | cons e rest ih => grind

theorem get?_mapWithName {f : String → α → β} {m : NameMap α} {n : String} :
    (m.mapWithName f).get? n = (m.get? n).map (f n) :=
  lookup_map_entries f m.entries n

theorem keys_mapWithName {f : String → α → β} {m : NameMap α} :
    (m.mapWithName f).keys = m.keys := by
  simp [keys, mapWithName]

theorem lookup_eq_some_iff_mem {l : List (String × α)} {n : String} {a : α}
    (h : (l.map (·.1)).Nodup) : l.lookup n = some a ↔ (n, a) ∈ l := by
  induction l with
  | nil => simp
  | cons e rest ih =>
    obtain ⟨k, b⟩ := e
    obtain ⟨hfresh, hrest⟩ := List.nodup_cons.mp h
    have hnone : k = n → (n, a) ∉ rest := fun hk hmem =>
      hfresh (List.mem_map.mpr ⟨_, hmem, hk.symm⟩)
    have ih := ih hrest
    grind

theorem get?_eq_some_iff_mem {m : NameMap α} {n : String} {a : α} :
    m.get? n = some a ↔ (n, a) ∈ m.entries :=
  lookup_eq_some_iff_mem m.nodup_keys

/-- The names that have a value are the listed ones. -/
theorem contains_iff_mem_keys {m : NameMap α} {n : String} :
    m.contains n = true ↔ n ∈ m.keys := by
  simp only [contains, Option.isSome_iff_exists, get?_eq_some_iff_mem, keys, List.mem_map]
  exact ⟨fun ⟨a, h⟩ => ⟨(n, a), h, rfl⟩, fun ⟨⟨k, a⟩, h, hk⟩ => ⟨a, hk ▸ h⟩⟩

/-- Tables that have the same names list the same names. -/
theorem keys_eq_of_contains {m : NameMap α} {m' : NameMap β}
    (h : ∀ n, m.contains n = m'.contains n) : m.keys = m'.keys :=
  NameSet.eq_of_pairwise_of_mem_iff m.pairwise_keys m'.pairwise_keys fun n => by
    rw [← contains_iff_mem_keys, h, contains_iff_mem_keys]

/-- The names that have a value, as a set. -/
def names (m : NameMap α) : NameSet := ⟨m.keys, m.pairwise_keys⟩

end NameMap

end ContainerTasks
