import ContainerTasks.Text.Numeral
import ContainerTasks.Toml.Value

/-!
# Unquoted TOML values

Booleans, numbers and moments stand without quotes. All of them are decided by their text alone.
That a number is out of range is no fault of its text.

## Main definitions

* `Toml.integer?`, `Toml.float?`, `Toml.moment?`
* `Toml.scalar?`: the value of an unquoted text
-/

namespace ContainerTasks.Toml

/-- Whether a character is a digit in base sixteen, and so in every base. -/
def isDigit (c : Char) : Bool := (digitValue? 16 c).isSome

/-- Takes a sign off the front; the flag tells whether it is a minus. -/
def signed : List Char → Bool × List Char
  | '-' :: rest => (true, rest)
  | '+' :: rest => (false, rest)
  | cs => (false, cs)

/-- Whether underscores stand in front of digits and behind them. The flag tells whether the
character before allows an underscore. -/
def areBetween (isDigit : Char → Bool) : Bool → List Char → Bool
  | _, [] => true
  | allowed, '_' :: c :: rest => allowed && isDigit c && areBetween isDigit true rest
  | _, c :: rest => c ≠ '_' && areBetween isDigit (isDigit c) rest

/-- Whether the underscores of a number separate digits. A sign at the front may take the place of
the digits before the first one. -/
def isGrouped (isDigit : Char → Bool) : List Char → Bool
  | [] => true
  | c :: rest => c ≠ '_' && areBetween isDigit true rest

/-- A text without its underscores. -/
def ungrouped (cs : List Char) : List Char := cs.filter (· ≠ '_')

/-- The whole numbers that have a representation. -/
def isRepresentable (n : Int) : Bool := -Nat.pow 2 127 ≤ n && n < Nat.pow 2 128

/-- The number with the given digits, if there are any and it is in range. -/
def number? (base : Nat) (negative : Bool) (digits : List Char) : Option Int :=
  if digits.isEmpty then none
  else do
    let n ← ofDigits? base digits
    let n : Int := if negative then -n else n
    if isRepresentable n then some n else none

/-- A whole number in a marked base, past the mark. The digits may be missing; then, as for a
number that is out of range, there is no content. -/
def marked? (base : Nat) (cs : List Char) : Option (Option Int) :=
  if isGrouped isDigit cs && (ungrouped cs).all fun c => (digitValue? base c).isSome then
    some (number? base false (ungrouped cs))
  else none

/-- A whole number in base ten, with an optional sign, and without a zero in front unless it is the
only digit. Once there is an underscore, only what is next to one is looked at, and digits of other
bases do there; if the rest is no number in base ten, there is no content. -/
def decimal? (cs : List Char) : Option (Option Int) :=
  let (negative, body) := signed cs
  let (digits, rest) := body.span isDecimal
  let isPlain := rest.isEmpty && !digits.isEmpty
  let isSeparated := rest.head? = some '_' && isGrouped isDigit cs &&
    !body.any fun c => c = '.' || c = 'e' || c = 'E'
  if (isPlain || isSeparated) && (body.head? ≠ some '0' || body = ['0']) then
    some (number? 10 negative (ungrouped body))
  else none

/-- A whole number; it has no content if it is out of range. -/
def integer? : List Char → Option (Option Int)
  | '0' :: 'x' :: rest => marked? 16 rest
  | '0' :: 'o' :: rest => marked? 8 rest
  | '0' :: 'b' :: rest => marked? 2 rest
  | cs => decimal? cs

/-- Whether the decimal `digits · 10 ^ exponent` is rounded to a finite double. -/
def isFiniteDouble (digits : Nat) (exponent : Int) : Bool :=
  let magnitude := (toString digits).length + exponent
  if digits = 0 ∨ magnitude < 309 then true
  else if 310 < magnitude then false
  else
    let limit := Nat.pow 2 1024 - Nat.pow 2 970
    if exponent < 0 then digits < limit * Nat.pow 10 exponent.natAbs
    else digits * Nat.pow 10 exponent.natAbs < limit

/-- The decimal digits of a part of a floating-point number, of which there must be one. -/
def digits? (cs : List Char) : Option (List Char) :=
  let digits := ungrouped cs
  if !digits.isEmpty && digits.all isDecimal then some digits else none

/-- A floating-point number: an infinity, a text for what is not a number, or a decimal with a
fraction or an exponent. The answer tells whether it is in range. -/
def float? (cs : List Char) : Option Bool := do
  let (_, body) := signed cs
  if body = ['i', 'n', 'f'] ∨ body = ['n', 'a', 'n'] then return true
  guard (isGrouped isDecimal cs)
  let (mantissa, tail) := body.span fun c => c ≠ 'e' && c ≠ 'E'
  let (whole, fraction) := mantissa.span (· ≠ '.')
  guard (!(fraction.isEmpty && tail.isEmpty))
  let wholeDigits ← digits? whole
  guard (wholeDigits.length = 1 ∨ whole.head? ≠ some '0')
  let fractionDigits ← if fraction.isEmpty then some [] else digits? (fraction.drop 1)
  let (negative, power) := signed (tail.drop 1)
  let powerDigits ← if tail.isEmpty then some [] else digits? power
  let power ← ofDigits? 10 powerDigits
  let exponent : Int := if negative then -power else power
  let n ← ofDigits? 10 (wholeDigits ++ fractionDigits)
  return isFiniteDouble n (exponent - fractionDigits.length)

/-- A number of two digits within bounds, at the front of a text. -/
def twoDigits? (least greatest : Nat) : List Char → Option (Nat × List Char)
  | a :: b :: rest => do
    let n ← ofDigits? 10 [a, b]
    if least ≤ n && n ≤ greatest then some (n, rest) else none
  | _ => none

/-- A given character at the front of a text. -/
def expect? (c : Char) : List Char → Option (List Char)
  | d :: rest => if d = c then some rest else none
  | [] => none

/-- The number of days in a month. -/
def daysIn (year month : Nat) : Nat :=
  if month = 2 then
    if year % 4 = 0 ∧ (year % 100 ≠ 0 ∨ year % 400 = 0) then 29 else 28
  else if month = 4 ∨ month = 6 ∨ month = 9 ∨ month = 11 then 30 else 31

/-- A date at the front of a text; its text is kept. -/
def date? (cs : List Char) : Option (List Char × List Char) := do
  let year ← if 4 ≤ cs.length then ofDigits? 10 (cs.take 4) else none
  let rest ← expect? '-' (cs.drop 4)
  let (month, rest) ← twoDigits? 1 12 rest
  let rest ← expect? '-' rest
  let (_, rest) ← twoDigits? 1 (daysIn year month) rest
  return (cs.take 10, rest)

/-- The seconds of a time, past the minutes. They may be missing and are zero then. A fraction of a
second is kept to the billionth, without zeros at its end. -/
def seconds? : List Char → Option (List Char × List Char)
  | ':' :: cs => do
    let (_, rest) ← twoDigits? 0 60 cs
    match rest with
    | '.' :: rest =>
      let (digits, rest) := rest.span isDecimal
      guard (!digits.isEmpty)
      let kept := ((digits.take 9).reverse.dropWhile (· = '0')).reverse
      return (cs.take 2 ++ (if kept.isEmpty then [] else '.' :: kept), rest)
    | _ => return (cs.take 2, rest)
  | cs => some (['0', '0'], cs)

/-- A time at the front of a text, in its normal form. -/
def time? (cs : List Char) : Option (List Char × List Char) := do
  let (_, rest) ← twoDigits? 0 23 cs
  let rest ← expect? ':' rest
  let (_, rest) ← twoDigits? 0 59 rest
  let (seconds, rest) ← seconds? rest
  return (cs.take 5 ++ ':' :: seconds, rest)

/-- The distance from universal time, which ends a moment. -/
def offset? : List Char → Option (List Char)
  | [] => some []
  | ['Z'] | ['z'] => some ['Z']
  | c :: rest => do
    guard (c = '+' ∨ c = '-')
    let (hours, tail) ← twoDigits? 0 23 rest
    let tail ← expect? ':' tail
    let (minutes, tail) ← twoDigits? 0 59 tail
    guard tail.isEmpty
    return (if hours = 0 ∧ minutes = 0 then '+' else c) :: rest

/-- A moment in its normal form. -/
def moment? (cs : List Char) : Option String := do
  match date? cs with
  | some (date, []) => return String.ofList date
  | some (date, separator :: rest) =>
    guard (separator = 'T' ∨ separator = 't' ∨ separator = ' ')
    let (time, rest) ← time? rest
    return String.ofList (date ++ 'T' :: time ++ (← offset? rest))
  | none =>
    let (time, rest) ← time? cs
    guard rest.isEmpty
    return String.ofList time

/-- The value of an unquoted text. -/
def scalar? (cs : List Char) : Option Value :=
  if cs = ['t', 'r', 'u', 'e'] then some (.boolean true)
  else if cs = ['f', 'a', 'l', 's', 'e'] then some (.boolean false)
  else
    ((integer? cs).map .integer).or
      (((float? cs).map .float).or ((moment? cs).map .moment))

end ContainerTasks.Toml
