import ContainerTasks.Text.Numeral

/-!
# Whole numbers within bounds

A whole number is written with decimal digits, after a sign if it likes; a minus sign is allowed
only where there are negative numbers. It is read from the left, and the first thing that is wrong
decides how it is refused.

## Main definitions

* `NumberFault`, `NumberFault.message`
* `readWholeNumber`
-/

namespace ContainerTasks

/-- Why a text is no number within the bounds. -/
inductive NumberFault where
  | empty
  | invalidDigit
  | tooLarge
  | tooSmall
  deriving DecidableEq

/-- The wording of a fault. -/
def NumberFault.message : NumberFault → String
  | empty => "cannot parse integer from empty string"
  | invalidDigit => "invalid digit found in string"
  | tooLarge => "number too large to fit in target type"
  | tooSmall => "number too small to fit in target type"

/-- Reads digits after a number; each is added with a sign. -/
def readDigits (least greatest sign : Int) : Int → List Char → Except NumberFault Int
  | n, [] => .ok n
  | n, c :: rest =>
    match digitValue? 10 c with
    | none => .error .invalidDigit
    | some digit =>
      let n := n * 10 + sign * digit
      if greatest < n then .error .tooLarge
      else if n < least then .error .tooSmall
      else readDigits least greatest sign n rest

/-- Reads a whole number between bounds. -/
def readWholeNumber (least greatest : Int) (text : String) : Except NumberFault Int :=
  match text.toList with
  | [] => .error .empty
  | ['+'] | ['-'] => .error .invalidDigit
  | '+' :: digits => readDigits least greatest 1 0 digits
  | '-' :: digits =>
    if least < 0 then readDigits least greatest (-1) 0 digits else .error .invalidDigit
  | digits => readDigits least greatest 1 0 digits

end ContainerTasks
