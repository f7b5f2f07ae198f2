import ContainerTasks.Text.Hidden

/-!
# Texts as literals

A text inside a message is shown between quotation marks, with escapes for what would not be seen.

## Main definitions

* `literal`

## Main results

* `escapeLiteral_eq_singleton_iff`: the characters that stand for themselves
-/

namespace ContainerTasks

/-- How a character is shown inside a literal. -/
def escapeLiteral (c : Char) : List Char :=
  if c = '"' ∨ c = '\\' then ['\\', c]
  else if c = '\n' then ['\\', 'n']
  else if c = '\r' then ['\\', 'r']
  else if c = '\t' then ['\\', 't']
  else if c = '\x00' then ['\\', '0']
  else if isHidden c then
    ['\\', 'u', '\x7b'] ++ Nat.toDigits 16 c.toNat ++ ['\x7d']
  else [c]

theorem escapeLiteral_eq_singleton_iff {c : Char} :
    escapeLiteral c = [c] ↔ isHidden c = false ∧ c ≠ '"' ∧ c ≠ '\\' := by
  have control (d : Char) (hd : d.toNat < ' '.toNat) : c = d → isHidden c = true := fun h =>
    h ▸ isHidden_of_lt_space hd
  have newline := control '\n' (by decide)
  have carriage := control '\r' (by decide)
  have tab := control '\t' (by decide)
  have nul := control '\x00' (by decide)
  grind [escapeLiteral]

/-- A text as a literal. -/
def literal (s : String) : String :=
  String.ofList ('"' :: s.toList.flatMap escapeLiteral ++ ['"'])

end ContainerTasks
