import ContainerTasks.Toml.Statement

/-!
# TOML documents

Statements build a table bit by bit. A table that was written as a value is complete; one that only
came into being on the way to another may be opened later, once; one that was made by the dots of a
key may get more fields through such keys alone.

## Main definitions

* `Toml.Node`: a document under construction
* `Toml.parse?`: the table that a text describes
-/

namespace ContainerTasks.Toml

/-- How a table came into being. -/
inductive Origin where
  /-- By a header of its own. -/
  | header
  /-- On the way to the table of a header. -/
  | passed
  /-- By a key with dots. -/
  | dotted
  deriving DecidableEq

/-- A part of a document under construction. -/
inductive Node where
  | value (value : Value)
  | table (origin : Origin) (fields : List (String × Node))
  /-- An array of tables, oldest first. -/
  | tables (elements : List (List (String × Node)))
  deriving Inhabited

/-- The fields of a table under construction. -/
abbrev Fields := List (String × Node)

mutual
/-- The value that a part has in the end. -/
def Node.finish : Node → Value
  | .value v => v
  | .table _ fields => .table (finishFields fields)
  | .tables elements => .array (finishElements elements)

/-- The values of fields in the end. -/
def finishFields : List (String × Node) → List (String × Value)
  | [] => []
  | (name, node) :: rest => (name, node.finish) :: finishFields rest

/-- The values of the elements of an array of tables in the end. -/
def finishElements : List (List (String × Node)) → List Value
  | [] => []
  | fields :: rest => .table (finishFields fields) :: finishElements rest
end

/-- Changes the last element of a list. -/
def modifyLast? {α : Type} (f : α → Option α) : List α → Option (List α)
  | [] => none
  | [a] => (f a).map ([·])
  | a :: rest => (modifyLast? f rest).map (a :: ·)

/-- Changes the table at the end of a path, making the tables on the way to it that are missing. Of
an array of tables the last element is entered. -/
def modifyAt? (f : Fields → Option Fields) : Fields → List String → Option Fields
  | fields, [] => f fields
  | fields, name :: path =>
    match fields.lookup name with
    | none => (modifyAt? f [] path).map fun inner => fields ++ [(name, .table .passed inner)]
    | some (.table origin inner) =>
      (modifyAt? f inner path).map fun inner => replaceField name (.table origin inner) fields
    | some (.tables elements) =>
      (modifyLast? (modifyAt? f · path) elements).map fun elements =>
        replaceField name (.tables elements) fields
    | some (.value _) => none

/-- Assigns a value to a key with dots. Tables with a header of their own are not entered, of an
array of tables the last element is, and the table that gets the value must have been made by such
a key. -/
def assign? : Fields → List String → Value → Option Fields
  | _, [], _ => none
  | fields, [name], value =>
    match fields.lookup name with
    | some _ => none
    | none => some (fields ++ [(name, .value value)])
  | fields, name :: key, value =>
    match fields.lookup name with
    | none => (assign? [] key value).map fun inner => fields ++ [(name, .table .dotted inner)]
    | some (.table origin inner) =>
      if origin = .header ∨ (origin ≠ .dotted ∧ key.length = 1) then none
      else (assign? inner key value).map fun inner => replaceField name (.table origin inner) fields
    | some (.tables elements) =>
      if key.length = 1 then none
      else
        (modifyLast? (assign? · key value) elements).map fun elements =>
          replaceField name (.tables elements) fields
    | some (.value _) => none

/-- Opens the table of a header. -/
def openTable? (name : String) (fields : Fields) : Option Fields :=
  match fields.lookup name with
  | none => some (fields ++ [(name, .table .header [])])
  | some (.table .passed inner) => some (replaceField name (.table .header inner) fields)
  | some _ => none

/-- Opens a further element of an array of tables. -/
def openElement? (name : String) (fields : Fields) : Option Fields :=
  match fields.lookup name with
  | none => some (fields ++ [(name, .tables [[]])])
  | some (.tables elements) => some (replaceField name (.tables (elements ++ [[]])) fields)
  | some _ => none

/-- A document under construction: its fields, and the path of the table that is open. -/
structure Draft where
  fields : Fields
  path : List String

/-- Carries out a statement. -/
def Draft.add? (draft : Draft) : Statement → Option Draft
  | .table key => do
    let name ← key.getLast?
    let fields ← modifyAt? (openTable? name) draft.fields key.dropLast
    return ⟨fields, key⟩
  | .element key => do
    let name ← key.getLast?
    let fields ← modifyAt? (openElement? name) draft.fields key.dropLast
    return ⟨fields, key⟩
  | .assignment key value => do
    let fields ← modifyAt? (assign? · key value) draft.fields draft.path
    return { draft with fields }

/-- The table that a text describes. -/
def parse? (s : String) : Option Value := do
  let draft ← (← statements? s).foldlM Draft.add? ⟨[], []⟩
  return .table (finishFields draft.fields)

end ContainerTasks.Toml
