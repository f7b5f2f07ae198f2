import ContainerTasks.Text.Numeral

/-!
# Quoted TOML texts

A text stands in double quotes, where a backslash begins an escape, or in single quotes, where it
stands for itself. Three quotes on either side let a text go on over several lines; the line break
right after the opening quotes is not part of it, and every other one is kept as it is written.

## Main definitions

* `Toml.quoted?`: a text on one line
* `Toml.block?`: a text over several lines
-/

namespace ContainerTasks.Toml

/-- The characters that may stand in texts and comments: the tab and everything that is not a
control character. -/
def isText (c : Char) : Bool := c = '\t' || (0x20 ≤ c.toNat && c.toNat ≠ 0x7f)

/-- The character with a code point written in hexadecimal digits. -/
def codePoint? (digits : List Char) : Option Char := do
  let n ← ofDigits? 16 digits
  if n.isValidChar then some (Char.ofNat n) else none

/-- Reads an escape, past its backslash. -/
def escape? : List Char → Option (Char × List Char)
  | 'b' :: rest => some ('\x08', rest)
  | 't' :: rest => some ('\t', rest)
  | 'n' :: rest => some ('\n', rest)
  | 'f' :: rest => some ('\x0c', rest)
  | 'r' :: rest => some ('\r', rest)
  | '"' :: rest => some ('"', rest)
  | '\\' :: rest => some ('\\', rest)
  | 'e' :: rest => some ('\x1b', rest)
  | 'x' :: rest => numbered 2 rest
  | 'u' :: rest => numbered 4 rest
  | 'U' :: rest => numbered 8 rest
  | _ => none
where
  /-- The character whose code point is written with so many digits. -/
  numbered (count : Nat) (cs : List Char) : Option (Char × List Char) :=
    if count ≤ cs.length then (codePoint? (cs.take count)).map (·, cs.drop count) else none

/-- Reads to the closing double quote; `bound` limits the number of characters. -/
def basic? : Nat → List Char → Option (List Char × List Char)
  | 0, _ => none
  | _, [] => none
  | _ + 1, '"' :: rest => some ([], rest)
  | bound + 1, '\\' :: rest => do
    let (c, rest) ← escape? rest
    let (text, rest) ← basic? bound rest
    return (c :: text, rest)
  | bound + 1, c :: rest => do
    guard (isText c)
    let (text, rest) ← basic? bound rest
    return (c :: text, rest)

/-- Reads to the closing single quote. -/
def literal? : List Char → Option (List Char × List Char)
  | [] => none
  | '\'' :: rest => some ([], rest)
  | c :: rest => do
    guard (isText c)
    let (text, rest) ← literal? rest
    return (c :: text, rest)

/-- Reads a text on one line, from its opening quote. -/
def quoted? : List Char → Option (String × List Char)
  | '"' :: rest =>
    (basic? (rest.length + 1) rest).map fun (text, rest) => (String.ofList text, rest)
  | '\'' :: rest => (literal? rest).map fun (text, rest) => (String.ofList text, rest)
  | _ => none

/-- Takes a line break off the front. -/
def dropLineBreak : List Char → List Char
  | '\n' :: rest => rest
  | '\r' :: '\n' :: rest => rest
  | cs => cs

/-- Takes blanks and line breaks off the front. -/
def dropBlankLines : List Char → List Char
  | ' ' :: rest => dropBlankLines rest
  | '\t' :: rest => dropBlankLines rest
  | '\n' :: rest => dropBlankLines rest
  | '\r' :: '\n' :: rest => dropBlankLines rest
  | cs => cs

/-- What comes after a backslash at the end of a line: the text goes on at the next character that
is not blank. -/
def continuation? (cs : List Char) : Option (List Char) :=
  match cs.dropWhile fun c => c = ' ' || c = '\t' with
  | '\n' :: rest => some (dropBlankLines rest)
  | '\r' :: '\n' :: rest => some (dropBlankLines rest)
  | _ => none

/-- Three closing quotes at the front. One or two quotes before them belong to the text. -/
def closing? (quote : Char) (cs : List Char) : Option (List Char × List Char) :=
  let quotes := (cs.takeWhile (· = quote)).take 5
  if 3 ≤ quotes.length then some (quotes.drop 3, cs.drop quotes.length) else none

/-- Reads a text of several lines to its closing quotes; `bound` limits the number of
characters. -/
def blockText? (quote : Char) (escapes : Bool) :
    Nat → List Char → Option (List Char × List Char)
  | 0, _ => none
  | bound + 1, cs =>
    match closing? quote cs with
    | some found => some found
    | none => do
      let (piece, rest) ←
        match cs with
        | [] => none
        | '\n' :: rest => some (['\n'], rest)
        | '\r' :: '\n' :: rest => some (['\r', '\n'], rest)
        | c :: rest =>
          if escapes ∧ c = '\\' then
            match continuation? rest with
            | some rest => some ([], rest)
            | none => (escape? rest).map fun (c, rest) => ([c], rest)
          else if isText c then some ([c], rest) else none
      let (text, rest) ← blockText? quote escapes bound rest
      return (piece ++ text, rest)

/-- Reads a text of several lines, from its opening quotes. -/
def block? : List Char → Option (String × List Char)
  | '"' :: '"' :: '"' :: rest => finish (blockText? '"' true (rest.length + 1) (dropLineBreak rest))
  | '\'' :: '\'' :: '\'' :: rest =>
    finish (blockText? '\'' false (rest.length + 1) (dropLineBreak rest))
  | _ => none
where
  /-- The characters read, as a text. -/
  finish (found : Option (List Char × List Char)) : Option (String × List Char) :=
    found.map fun (text, rest) => (String.ofList text, rest)

end ContainerTasks.Toml
