/-!
# Blank characters

A character is blank if it has the Unicode property `White_Space`. Trimming a text takes the blank
characters off both ends.

## Main definitions

* `isBlank`, `isBlankText`, `trimmed`

## Main results

* `isBlank_of_isWhitespace`: the blank characters of ASCII are among them
-/

namespace ContainerTasks

/-- The first and the last code point of each run of blank characters. -/
def blankRanges : List (Nat × Nat) :=
  [(0x9, 0xd), (0x20, 0x20), (0x85, 0x85), (0xa0, 0xa0), (0x1680, 0x1680), (0x2000, 0x200a),
    (0x2028, 0x2029), (0x202f, 0x202f), (0x205f, 0x205f), (0x3000, 0x3000)]

/-- Whether a character is blank. -/
def isBlank (c : Char) : Bool :=
  blankRanges.any fun (first, last) => first ≤ c.toNat && c.toNat ≤ last

/-- Whether a text has no other characters than blank ones. -/
def isBlankText (s : String) : Bool := s.toList.all isBlank

/-- The text without the blank characters at its ends. -/
def trimmed (s : String) : String :=
  String.ofList ((s.toList.dropWhile isBlank).reverse.dropWhile isBlank).reverse

theorem isBlank_of_isWhitespace {c : Char} (h : c.isWhitespace = true) : isBlank c = true := by
  simp only [Char.isWhitespace, Bool.or_eq_true, decide_eq_true_eq] at h
  rcases h with ((rfl | rfl) | rfl) | rfl <;> decide

end ContainerTasks
