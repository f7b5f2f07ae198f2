/-!
# JSON values and their compact text

Values keep the fields of an object in the order given, and numbers are integers. The compact text
has no blanks between tokens. In strings a quotation mark, a backslash and the control characters
are escaped, the latter by a letter where JSON has one and by four hexadecimal digits where it has
not; every other character stands for itself.

## Main definitions

* `Json`
* `Json.escape`: a character inside a string
* `Json.chars`, `Json.render`: the compact text
-/

namespace ContainerTasks

/-- A JSON value. -/
inductive Json where
  | null
  | bool (b : Bool)
  | int (n : Int)
  | str (s : String)
  | arr (items : List Json)
  | obj (fields : List (String × Json))
  deriving Inhabited

namespace Json

/-- How a character is written inside a string. -/
def escape (c : Char) : List Char :=
  if c = '"' then ['\\', '"']
  else if c = '\\' then ['\\', '\\']
  else if c = '\n' then ['\\', 'n']
  else if c = '\r' then ['\\', 'r']
  else if c = '\t' then ['\\', 't']
  else if c.toNat = 8 then ['\\', 'b']
  else if c.toNat = 12 then ['\\', 'f']
  else if c.toNat < 32 then
    ['\\', 'u', '0', '0', Nat.digitChar (c.toNat / 16), Nat.digitChar (c.toNat % 16)]
  else [c]

/-- The text of a string. -/
def quoted (s : String) : List Char := '"' :: s.toList.flatMap escape ++ ['"']

/-- The text of a whole number. -/
def decimal (n : Int) : List Char := (toString n).toList

mutual
/-- The compact text of a value. -/
def chars : Json → List Char
  | null => ['n', 'u', 'l', 'l']
  | bool true => ['t', 'r', 'u', 'e']
  | bool false => ['f', 'a', 'l', 's', 'e']
  | int n => decimal n
  | str s => quoted s
  | arr items => '[' :: itemChars items ++ [']']
  | obj fields => '\x7b' :: fieldChars fields ++ ['\x7d']

/-- The texts of the items of an array, with commas between them. -/
def itemChars : List Json → List Char
  | [] => []
  | [item] => chars item
  | item :: rest => chars item ++ ',' :: itemChars rest

/-- The texts of the fields of an object, with commas between them. -/
def fieldChars : List (String × Json) → List Char
  | [] => []
  | [(name, value)] => quoted name ++ ':' :: chars value
  | (name, value) :: rest => quoted name ++ ':' :: chars value ++ ',' :: fieldChars rest
end

/-- The compact text of a value. -/
def render (j : Json) : String := String.ofList j.chars

/-- The string, or null. -/
def ofOption : Option String → Json
  | some s => str s
  | none => null

/-- An array of strings. -/
def ofStrings (names : List String) : Json := arr (names.map str)

end Json

end ContainerTasks
