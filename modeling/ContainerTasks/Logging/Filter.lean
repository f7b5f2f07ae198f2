import ContainerTasks.Logging.Pattern
import ContainerTasks.Logging.Record
import ContainerTasks.Text.Alphanumeric
import ContainerTasks.Text.Blank
import ContainerTasks.Text.WholeNumber

/-!
# Log filters

A filter is a list of directives, written with commas between them. A directive gives a level for
the records of a target, or for all records; the one with the longest target that fits decides,
and of two with the same target the later one. A directive may also name a span, in which case it
does not bear on records outside of it, or fields that a record must have, with a value or
without. A value is a number or a pattern.

## Main definitions

* `Directive`, `Directive.read?`
* `LogFilter`, `LogFilter.read?`, `LogFilter.allows`
* `LogFilter.choose`: the filter of the program
-/

namespace ContainerTasks

/-- A directive of a filter. -/
structure Directive where
  /-- The first part of the targets that are meant, if not all are. -/
  target : Option String
  /-- Whether only records inside of some span are meant. -/
  inSpan : Bool
  /-- The fields that a record must have, each with whether a value is asked for. -/
  fields : List (String × Bool)
  /-- The least important level that is let through, if any is. -/
  level : Option LogLevel

/-- The setting of a filter, a level or nothing at all, from its word or number. -/
def readLevel? (text : String) : Option (Option LogLevel) :=
  match readWholeNumber 0 (UInt64.size - 1) text with
  | .ok n => if n = 0 then some none else (LogLevel.all.find? (·.verbosity = n)).map some
  | .error _ =>
    let word := String.ofList (text.toList.map Char.toLower)
    if word = "off" then some none else (LogLevel.ofWord? word).map some

namespace Directive

/-- A directive of which nothing is known yet. -/
def blank : Directive := ⟨none, false, [], some .trace⟩

/-- How far the reading of a directive is; numbers tell where a part begins. -/
inductive Reading where
  | start
  | levelOrTarget (first : Nat)
  | span (first : Nat)
  | field (first : Nat)
  | fields
  | target
  | level (first : Nat)

/-- Whether a directive can begin with a character. -/
def isOpening (c : Char) : Bool := c = '-' || c = ':' || c = '_' || isAlphanumeric c

/-- Whether a text is a number: decimal digits, with a point among them or not, and perhaps with a
sign and an exponent, or a word for what is infinite or not a number. -/
def isNumeral (cs : List Char) : Bool :=
  let unsigned (cs : List Char) : List Char :=
    match cs with
    | '+' :: rest | '-' :: rest => rest
    | _ => cs
  let body := (unsigned cs).map Char.toLower
  let (mantissa, tail) := body.span (· ≠ 'e')
  let (whole, fraction) := mantissa.span (· ≠ '.')
  let digits := whole ++ fraction.drop 1
  let exponent := unsigned (tail.drop 1)
  [['i', 'n', 'f'], ['i', 'n', 'f', 'i', 'n', 'i', 't', 'y'], ['n', 'a', 'n']].contains body ||
    (!digits.isEmpty && digits.all isDecimal &&
      (tail.isEmpty || (!exponent.isEmpty && exponent.all isDecimal)))

/-- The directive with one more field. A value goes from the first equals sign to the next one. -/
def addField? (d : Directive) (text : List Char) : Option Directive := do
  guard (!text.isEmpty)
  let (name, rest) := text.span (· ≠ '=')
  let value := (rest.drop 1).takeWhile (· ≠ '=')
  guard (isNumeral value || isPattern value)
  return { d with fields := d.fields ++ [(String.ofList name, !rest.isEmpty)] }

/-- The text behind so many bytes, unless that is inside of a character. -/
def behind? : Nat → List Char → Option (List Char)
  | 0, cs => some cs
  | _, [] => none
  | count, c :: rest => if c.utf8Size ≤ count then behind? (count - c.utf8Size) rest else none

/-- The first so many bytes of a text, unless they end inside of a character. -/
def front? : Nat → List Char → Option (List Char)
  | 0, _ => some []
  | _, [] => none
  | count, c :: rest =>
    if c.utf8Size ≤ count then (front? (count - c.utf8Size) rest).map (c :: ·) else none

/-- Takes in one character, whose position is counted in bytes. Parts are cut out of the whole text,
blanks in front included, though the reading begins after these. -/
def step? (text : List Char) (d : Directive) (reading : Reading) (c : Char) (i : Nat) :
    Option (Directive × Reading) :=
  let part? (first : Nat) : Option (List Char) := (behind? first text).bind (front? (i - first))
  let target? (first : Nat) : Option Directive :=
    (part? first).map fun part => { d with target := some (String.ofList part) }
  match reading with
  | .start =>
    if c = '[' then some (d, .span (i + 1))
    else if isOpening c then some (d, .levelOrTarget i) else none
  | .levelOrTarget first =>
    if c = '=' then (target? first).map (·, .level (i + 1))
    else if c = '[' then (target? first).map (·, .span (i + 1))
    else some (d, .levelOrTarget first)
  | .span first =>
    if c = ']' then (part? first).map fun _ => ({ d with inSpan := true }, .target)
    else if c = '\x7b' then
      (part? first).map fun part => ({ d with inSpan := !part.isEmpty }, .field (i + 1))
    else some (d, .span first)
  | .field first =>
    if c = '\x7d' then ((part? first).bind d.addField?).map (·, .fields)
    else some (d, .field first)
  | .fields => if c = ']' then some (d, .target) else none
  | .target => if c = '=' then some (d, .level (i + 1)) else none
  | .level first => some (d, .level first)

/-- What is known at the end of a directive. -/
def finish? (text : List Char) (d : Directive) : Reading → Option Directive
  | .levelOrTarget first => do
    let rest := String.ofList (← behind? first text)
    match readLevel? rest with
    | some level => return { d with level }
    | none => return { d with target := some rest }
  | .level first => do
    let rest := String.ofList (← behind? first text)
    if rest = "" then return d
    return { d with level := ← readLevel? rest }
  | .target => some d
  | _ => none

/-- The directive of a text. -/
def read? (text : String) : Option Directive := do
  let chars := text.toList
  let (d, reading, _) ← (trimmed text).toList.foldlM
    (fun (d, reading, i) c =>
      (step? chars d reading c i).map fun (d, reading) => (d, reading, i + c.utf8Size))
    (blank, Reading.start, 0)
  finish? chars d reading

/-- Whether the directive bears on records of a target with some fields. -/
def isAbout (d : Directive) (target : String) (fields : List String) : Bool :=
  !d.inSpan && d.fields.all (fun (name, valued) => !valued && fields.contains name) &&
    d.target.all fun first => first.toList.isPrefixOf target.toList

/-- How closely a directive says what it is about. -/
def precision (d : Directive) : Nat × Nat :=
  ((d.target.map (·.utf8ByteSize + 1)).getD 0, d.fields.length)

/-- Whether a directive says more closely than another, or as closely, what it is about. -/
def isAsPrecise (d e : Directive) : Bool :=
  e.precision.1 < d.precision.1 || (e.precision.1 = d.precision.1 && e.precision.2 ≤ d.precision.2)

end Directive

/-- A log filter. -/
abbrev LogFilter := List Directive

namespace LogFilter

/-- The filter that lets a level and all more important ones through. -/
def ofLevel (level : LogLevel) : LogFilter := [{ Directive.blank with level := some level }]

/-- The filter of a text. Without a directive nothing is let through. -/
def read? (text : String) : Option LogFilter :=
  ((text.splitToList (· = ',')).filter (· ≠ "")).mapM Directive.read?

/-- The directive that decides about records. -/
def deciding? (f : LogFilter) (target : String) (fields : List String) : Option Directive :=
  f.foldl
    (fun best d =>
      if !d.isAbout target fields then best
      else if best.all d.isAsPrecise then some d else best) none

/-- Whether a record is let through. -/
def allows (f : LogFilter) (target : String) (fields : List String) (level : LogLevel) : Bool :=
  (f.deciding? target fields).any fun d => d.level.any fun most => level.verbosity ≤ most.verbosity

/-- The name of the environment variable that holds a filter. -/
def environmentVariable : String := "TASKRIG_LOG"

/-- The filter of the program: the level asked for, or else what the environment says, if that is a
filter, or else everything that is not for finding faults. -/
def choose (level : Option LogLevel) (environment : Option String) : LogFilter :=
  match level with
  | some level => ofLevel level
  | none => (environment.bind read?).getD (ofLevel .info)

end LogFilter

/-- A log record as a line, without the time. -/
def logLine (level : LogLevel) (target message : String) : String :=
  level.title ++ " " ++ target ++ ": " ++ message

/-- What becomes of setting up the log a second time. -/
def loggingTwice : String :=
  "failed to initialise logging: a global default trace dispatcher has already been set"

end ContainerTasks
