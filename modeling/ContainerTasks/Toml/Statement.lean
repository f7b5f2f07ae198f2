import ContainerTasks.Toml.Quoted
import ContainerTasks.Toml.Scalar

/-!
# TOML statements

A document is a sequence of statements: headers that open a table, and assignments of a value to a
key. This module reads statements; what they amount to is not decided here. Inside of arrays and
inline tables line breaks and comments may stand wherever a blank may, and a comma may follow the
last item.

## Main definitions

* `Toml.Statement`
* `Toml.statements?`: the statements of a text
-/

namespace ContainerTasks.Toml

/-- A statement of a document. Keys are lists of names, outermost first. -/
inductive Statement where
  | table (key : List String)
  /-- Opens a further table of an array of tables. -/
  | element (key : List String)
  | assignment (key : List String) (value : Value)

/-- Takes blanks off the front. -/
def dropBlanks (cs : List Char) : List Char := cs.dropWhile fun c => c = ' ' || c = '\t'

/-- Takes blanks, line breaks and comments off the front. -/
def dropTrivia? (inComment : Bool) : List Char → Option (List Char)
  | [] => some []
  | '\n' :: rest => dropTrivia? false rest
  | '\r' :: '\n' :: rest => dropTrivia? false rest
  | c :: rest =>
    if inComment then if isText c then dropTrivia? true rest else none
    else if c = '#' then dropTrivia? true rest
    else if c = ' ' || c = '\t' then dropTrivia? false rest
    else some (c :: rest)

/-- Takes the rest of a line off the front, in which nothing but a comment may stand. -/
def endOfLine? (inComment : Bool) : List Char → Option (List Char)
  | [] => some []
  | '\n' :: rest => some rest
  | '\r' :: '\n' :: rest => some rest
  | c :: rest =>
    if inComment then if isText c then endOfLine? true rest else none
    else if c = '#' then endOfLine? true rest
    else if c = ' ' || c = '\t' then endOfLine? false rest
    else none

/-- The characters of names without quotes. -/
def isBare (c : Char) : Bool :=
  ('a' ≤ c && c ≤ 'z') || ('A' ≤ c && c ≤ 'Z') || ('0' ≤ c && c ≤ '9') || c = '-' || c = '_'

/-- Reads one name of a key. -/
def name? (cs : List Char) : Option (String × List Char) :=
  match cs with
  | '"' :: _ | '\'' :: _ => quoted? cs
  | _ =>
    let (name, rest) := cs.span isBare
    if name.isEmpty then none else some (String.ofList name, rest)

/-- How far arrays and inline tables may be nested, and of how many names a key may consist. -/
def maxDepth : Nat := 80

/-- Reads names with dots between them; `bound` limits their number. -/
def names? : Nat → List Char → Option (List String × List Char)
  | 0, _ => none
  | bound + 1, cs => do
    let (name, rest) ← name? (dropBlanks cs)
    match dropBlanks rest with
    | '.' :: rest =>
      let (names, rest) ← names? bound rest
      return (name :: names, rest)
    | rest => return ([name], rest)

/-- Reads the names of a key. -/
def key? (cs : List Char) : Option (List String × List Char) := names? maxDepth cs

/-- Whether a value without quotes goes on with a character. -/
def isScalar (c : Char) : Bool :=
  !([' ', '\t', '\r', '\n', '#', '=', ',', '[', ']', '\x7b', '\x7d'].contains c)

/-- Takes an unquoted text off the front. A date may be followed by a blank and a time. -/
def scalarText (cs : List Char) : List Char × List Char :=
  let (text, rest) := cs.span isScalar
  match date? text, rest with
  | some (_, []), ' ' :: c :: tail =>
    if isDecimal c then
      let (time, tail) := (c :: tail).span isScalar
      (text ++ ' ' :: time, tail)
    else (text, rest)
  | _, _ => (text, rest)

/-- An entry of an inline table under construction. A table that was written as a value is closed;
one that the dots of a key have made is open to further such keys. -/
inductive Entry where
  | closed (value : Value)
  | open (fields : List (String × Entry))
  deriving Inhabited

mutual
/-- The value that an entry of an inline table has in the end. -/
def Entry.value : Entry → Value
  | .closed value => value
  | .open fields => .table (fieldValues fields)

/-- The values of the entries of an inline table. -/
def fieldValues : List (String × Entry) → List (String × Value)
  | [] => []
  | (name, entry) :: rest => (name, entry.value) :: fieldValues rest
end

/-- Replaces the value of a name in a list of fields. -/
def replaceField {α : Type} (name : String) (a : α) : List (String × α) → List (String × α)
  | [] => []
  | (n, b) :: rest => if n = name then (n, a) :: rest else (n, b) :: replaceField name a rest

/-- Adds an assignment to an inline table. -/
def assignInline? : List (String × Entry) → List String → Value → Option (List (String × Entry))
  | _, [], _ => none
  | fields, [name], value =>
    match fields.lookup name with
    | some _ => none
    | none => some (fields ++ [(name, .closed value)])
  | fields, name :: key, value =>
    match fields.lookup name with
    | none => (assignInline? [] key value).map fun inner => fields ++ [(name, .open inner)]
    | some (.open inner) =>
      (assignInline? inner key value).map fun inner => replaceField name (.open inner) fields
    | some (.closed _) => none

mutual
/-- Reads a value; `bound` limits the recursion, and `depth` how far arrays and inline tables may
be nested. -/
def value? (bound depth : Nat) (cs : List Char) : Option (Value × List Char) :=
  match bound with
  | 0 => none
  | bound + 1 =>
    match cs with
    | '"' :: '"' :: '"' :: _ | '\'' :: '\'' :: '\'' :: _ =>
      (block? cs).map fun (text, rest) => (.string text, rest)
    | '"' :: _ | '\'' :: _ => (quoted? cs).map fun (text, rest) => (.string text, rest)
    | '[' :: rest => if depth = 0 then none else items? bound (depth - 1) [] rest
    | '\x7b' :: rest =>
      if depth = 0 then none else fields? bound (depth - 1) [] rest
    | _ =>
      let (text, rest) := scalarText cs
      (scalar? text).map (·, rest)

/-- Reads the rest of an array. -/
def items? (bound depth : Nat) (done : List Value) (cs : List Char) :
    Option (Value × List Char) :=
  match bound with
  | 0 => none
  | bound + 1 => do
    match ← dropTrivia? false cs with
    | ']' :: rest => return (.array done, rest)
    | cs =>
      let (value, cs) ← value? bound depth cs
      match ← dropTrivia? false cs with
      | ',' :: rest => items? bound depth (done ++ [value]) rest
      | ']' :: rest => return (.array (done ++ [value]), rest)
      | _ => none

/-- Reads the rest of an inline table. -/
def fields? (bound depth : Nat) (done : List (String × Entry)) (cs : List Char) :
    Option (Value × List Char) :=
  match bound with
  | 0 => none
  | bound + 1 => do
    match ← dropTrivia? false cs with
    | '\x7d' :: rest => return (.table (fieldValues done), rest)
    | cs =>
      let (key, cs) ← key? cs
      let cs ← expect? '=' (← dropTrivia? false cs)
      let (value, cs) ← value? bound depth (← dropTrivia? false cs)
      let done ← assignInline? done key value
      match ← dropTrivia? false cs with
      | ',' :: rest => fields? bound depth done rest
      | '\x7d' :: rest => return (.table (fieldValues done), rest)
      | _ => none
end

/-- Reads one statement, past the trivia before it. -/
def statement? (cs : List Char) : Option (Statement × List Char) := do
  match cs with
  | '[' :: '[' :: rest =>
    let (key, rest) ← key? rest
    let rest ← expect? ']' rest
    let rest ← expect? ']' rest
    return (.element key, ← endOfLine? false rest)
  | '[' :: rest =>
    let (key, rest) ← key? rest
    let rest ← expect? ']' rest
    return (.table key, ← endOfLine? false rest)
  | _ =>
    let (key, rest) ← key? cs
    let rest ← expect? '=' rest
    let (value, rest) ← value? (2 * rest.length + 2) maxDepth (dropBlanks rest)
    return (.assignment key value, ← endOfLine? false rest)

/-- Reads statements to the end of the text; `bound` limits their number. -/
def statementsWithin? : Nat → List Char → Option (List Statement)
  | 0, _ => none
  | bound + 1, cs => do
    match ← dropTrivia? false cs with
    | [] => return []
    | cs =>
      let (statement, rest) ← statement? cs
      return statement :: (← statementsWithin? bound rest)

/-- The statements of a text. A byte order mark at its front is passed over. -/
def statements? (s : String) : Option (List Statement) :=
  let cs :=
    match s.toList with
    | '\ufeff' :: rest => rest
    | cs => cs
  statementsWithin? (cs.length + 1) cs

end ContainerTasks.Toml
