import ContainerTasks.Text.Utf8

/-!
# Lines of bytes

Bytes as they come from a program are read line by line. A line ends with a line feed; neither it
nor a carriage return before it belongs to the line, and what follows the last line feed is a line
too if there is anything. Reading stops at the first line that is no valid text.

## Main definitions

* `rawLines`: the lines with the line feeds that end them
* `readLines`: the lines as texts
-/

namespace ContainerTasks

/-- The lines of bytes, each with the line feed that ends it. `line` holds the bytes of the line
that has been begun. -/
def rawLines (line : List UInt8) : List UInt8 → List (List UInt8)
  | [] => if line.isEmpty then [] else [line]
  | b :: rest => if b = 10 then (line ++ [b]) :: rawLines [] rest else rawLines (line ++ [b]) rest

/-- A line without the bytes that end it. -/
def withoutLineEnd (line : List UInt8) : List UInt8 :=
  match line.reverse with
  | 10 :: 13 :: rest => rest.reverse
  | 10 :: rest => rest.reverse
  | _ => line

/-- The texts of lines up to the first that is none. -/
def validTexts : List (List UInt8) → List String
  | [] => []
  | line :: rest =>
    match Utf8.decode? line with
    | some text => text :: validTexts rest
    | none => []

/-- The lines of bytes as texts. -/
def readLines (bytes : List UInt8) : List String :=
  validTexts ((rawLines [] bytes).map withoutLineEnd)

end ContainerTasks
