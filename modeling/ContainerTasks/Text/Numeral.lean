/-!
# Numerals

Reading whole numbers written in a given base.

## Main definitions

* `digitValue?`, `ofDigits?`
-/

namespace ContainerTasks

/-- The value of a digit in a base of at most sixteen. -/
def digitValue? (base : Nat) (c : Char) : Option Nat :=
  let value :=
    if '0' ≤ c ∧ c ≤ '9' then c.toNat - '0'.toNat
    else if 'a' ≤ c ∧ c ≤ 'f' then c.toNat - 'a'.toNat + 10
    else if 'A' ≤ c ∧ c ≤ 'F' then c.toNat - 'A'.toNat + 10
    else base
  if value < base then some value else none

/-- The number that digits stand for, most significant first. No digits stand for zero. -/
def ofDigits? (base : Nat) (digits : List Char) : Option Nat :=
  digits.foldlM (fun n c => (digitValue? base c).map (n * base + ·)) 0

/-- Whether a character is a decimal digit. -/
def isDecimal (c : Char) : Bool := (digitValue? 10 c).isSome

end ContainerTasks
