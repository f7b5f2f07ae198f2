import ContainerTasks.Text.Numeral

/-!
# Reading JSON texts

A JSON text is read into a value that keeps what may be asked of it later. A number that is not
whole is only known to be one, and a string that names half of a surrogate pair has no text.

## Main definitions

* `JsonText`: a value as it is read
* `JsonText.read?`: the value of a text
* `JsonText.record?`: the fields of a record
-/

namespace ContainerTasks

/-- A JSON value as it is read. -/
inductive JsonText where
  | null
  | bool (b : Bool)
  | whole (n : Int)
  /-- A number with a fraction, an exponent or a negative sign before a zero. -/
  | fraction
  /-- A string, with its text if it has one. -/
  | string (text : Option String)
  | array (items : List JsonText)
  | object (fields : List (Option String × JsonText))

namespace JsonText

/-! ### Parts of values -/

/-- The blanks between tokens. -/
def isGap (c : Char) : Bool := c = ' ' || c = '\n' || c = '\t' || c = '\r'

def skipGap (cs : List Char) : List Char := cs.dropWhile isGap

/-- A piece of a string: a code point, or half of a surrogate pair. -/
abbrev Piece := Nat

/-- Reads four hexadecimal digits. -/
def hex4? : List Char → Option (Piece × List Char)
  | a :: b :: c :: d :: rest => (ofDigits? 16 [a, b, c, d]).map (·, rest)
  | _ => none

/-- The character that a letter stands for after a backslash. -/
def unescape? : Char → Option Char
  | '"' => some '"'
  | '\\' => some '\\'
  | '/' => some '/'
  | 'b' => some '\x08'
  | 'f' => some '\x0c'
  | 'n' => some '\n'
  | 'r' => some '\r'
  | 't' => some '\t'
  | _ => none

/-- Reads the rest of a string, up to the closing mark. -/
def pieces? : Nat → List Char → Option (List Piece × List Char)
  | 0, _ => none
  | _, [] => none
  | _ + 1, '"' :: rest => some ([], rest)
  | fuel + 1, '\\' :: 'u' :: rest => do
    let (piece, rest) ← hex4? rest
    let (pieces, rest) ← pieces? fuel rest
    return (piece :: pieces, rest)
  | fuel + 1, '\\' :: c :: rest => do
    let c ← unescape? c
    let (pieces, rest) ← pieces? fuel rest
    return (c.toNat :: pieces, rest)
  | fuel + 1, c :: rest =>
    if c.toNat < 32 ∨ c = '\\' then none
    else do
      let (pieces, rest) ← pieces? fuel rest
      return (c.toNat :: pieces, rest)

/-- Joins the halves of surrogate pairs. -/
def join? : List Piece → Option (List Char)
  | [] => some []
  | high :: low :: rest =>
    if 0xd800 ≤ high ∧ high ≤ 0xdbff ∧ 0xdc00 ≤ low ∧ low ≤ 0xdfff then
      (join? rest).map (Char.ofNat (0x10000 + (high - 0xd800) * 0x400 + (low - 0xdc00)) :: ·)
    else if 0xd800 ≤ high ∧ high ≤ 0xdfff then none
    else (join? (low :: rest)).map (Char.ofNat high :: ·)
  | [piece] => if 0xd800 ≤ piece ∧ piece ≤ 0xdfff then none else some [Char.ofNat piece]

/-- Reads the rest of a string as a text, if it has one. -/
def string? (cs : List Char) : Option (Option String × List Char) := do
  let (pieces, rest) ← pieces? (cs.length + 1) cs
  return ((join? pieces).map String.ofList, rest)

/-- Takes the decimal digits off a text. -/
def digits (cs : List Char) : List Char × List Char :=
  (cs.takeWhile isDecimal, cs.dropWhile isDecimal)

/-- Reads a fraction, if there is one. -/
def skipFraction? : List Char → Option (Bool × List Char)
  | '.' :: rest => if (digits rest).1.isEmpty then none else some (true, (digits rest).2)
  | rest => some (false, rest)

/-- Reads an exponent, if there is one. -/
def skipExponent? : List Char → Option (Bool × List Char)
  | c :: rest =>
    if c = 'e' ∨ c = 'E' then
      let rest := match rest with
        | '+' :: rest | '-' :: rest => rest
        | rest => rest
      if (digits rest).1.isEmpty then none else some (true, (digits rest).2)
    else some (false, c :: rest)
  | [] => some (false, [])

/-- Reads a number. A zero in front is the only digit before a fraction or an exponent. -/
def number? (cs : List Char) : Option (JsonText × List Char) := do
  let (negative, cs) := match cs with
    | '-' :: rest => (true, rest)
    | rest => (false, rest)
  let (front, rest) := digits cs
  let n ← ofDigits? 10 front
  if front.isEmpty || (front.head? = some '0' && front.length > 1) then none
  else do
    let (hasFraction, rest) ← skipFraction? rest
    let (hasExponent, rest) ← skipExponent? rest
    let value :=
      if hasFraction || hasExponent || (negative && n = 0) then .fraction
      else .whole (if negative then -n else n)
    return (value, rest)

/-- Reads a word. -/
def word? (word : String) (value : JsonText) (cs : List Char) : Option (JsonText × List Char) :=
  if word.toList.isPrefixOf cs then some (value, cs.drop word.length) else none

/-! ### Values -/

mutual
/-- Reads a value. The fuel is more than the number of characters. -/
def value? : Nat → List Char → Option (JsonText × List Char)
  | 0, _ => none
  | fuel + 1, cs =>
    match skipGap cs with
    | '"' :: rest => (string? rest).map fun (text, rest) => (.string text, rest)
    | '[' :: rest =>
      match skipGap rest with
      | ']' :: rest => some (.array [], rest)
      | rest => (items? fuel rest).map fun (items, rest) => (.array items, rest)
    | '\x7b' :: rest =>
      match skipGap rest with
      | '\x7d' :: rest => some (.object [], rest)
      | rest => (fields? fuel rest).map fun (fields, rest) => (.object fields, rest)
    | 't' :: rest => word? "true" (.bool true) ('t' :: rest)
    | 'f' :: rest => word? "false" (.bool false) ('f' :: rest)
    | 'n' :: rest => word? "null" .null ('n' :: rest)
    | rest => number? rest

/-- Reads the items of an array up to its end. -/
def items? : Nat → List Char → Option (List JsonText × List Char)
  | 0, _ => none
  | fuel + 1, cs => do
    let (item, rest) ← value? fuel cs
    match skipGap rest with
    | ',' :: rest => do
      let (items, rest) ← items? fuel rest
      return (item :: items, rest)
    | ']' :: rest => some ([item], rest)
    | _ => none

/-- Reads the fields of an object up to its end. -/
def fields? : Nat → List Char → Option (List (Option String × JsonText) × List Char)
  | 0, _ => none
  | fuel + 1, cs =>
    match skipGap cs with
    | '"' :: rest => do
      let (name, rest) ← string? rest
      match skipGap rest with
      | ':' :: rest => do
        let (value, rest) ← value? fuel rest
        match skipGap rest with
        | ',' :: rest => do
          let (fields, rest) ← fields? fuel rest
          return ((name, value) :: fields, rest)
        | '\x7d' :: rest => some ([(name, value)], rest)
        | _ => none
      | _ => none
    | _ => none
end

/-- The value of a text. -/
def read? (text : String) : Option JsonText := do
  let cs := text.toList
  let (value, rest) ← value? (2 * cs.length + 2) cs
  if (skipGap rest).isEmpty then some value else none

/-! ### Looking into values -/

/-- The values of the listed fields of a record, each with whether it is there. A record is an
object without a field of no text and with none of the listed fields twice, or an array with no
more items than there are fields listed. -/
def record? (names : List String) : JsonText → Option (List (Option JsonText))
  | object fields =>
    if fields.any (·.1.isNone) then none
    else names.mapM fun name =>
      match fields.filter (·.1 = some name) with
      | [] => some none
      | [(_, value)] => some (some value)
      | _ => none
  | array items =>
    if items.length ≤ names.length then
      some (items.map some ++ List.replicate (names.length - items.length) none)
    else none
  | _ => none

end JsonText

end ContainerTasks
