/-!
# Log records

What goes to the log of the program is a record: a level, which says how much it matters, and
fields, of which one is the message.

## Main definitions

* `LogLevel`, `LogLevel.allows`
* `LogRecord`
-/

namespace ContainerTasks

/-- How much a record matters, the most important first. -/
inductive LogLevel where
  | error
  | warn
  | info
  | debug
  | trace
  deriving DecidableEq, Inhabited

namespace LogLevel

/-- All levels, the most important first. -/
def all : List LogLevel := [error, warn, info, debug, trace]

/-- The word for a level in directives and on the command line. -/
def word : LogLevel → String
  | error => "error"
  | warn => "warn"
  | info => "info"
  | debug => "debug"
  | trace => "trace"

/-- The title of a level in the log. -/
def title : LogLevel → String
  | error => "ERROR"
  | warn => "WARN"
  | info => "INFO"
  | debug => "DEBUG"
  | trace => "TRACE"

/-- The place of a level, from one for the most important. -/
def verbosity : LogLevel → Nat
  | error => 1
  | warn => 2
  | info => 3
  | debug => 4
  | trace => 5

/-- The level of a word. -/
def ofWord? (word : String) : Option LogLevel := all.find? (·.word = word)

theorem ofWord?_word (level : LogLevel) : ofWord? level.word = some level := by
  cases level <;> decide

end LogLevel

/-- A record of the log. -/
structure LogRecord where
  level : LogLevel
  /-- The fields besides the message. -/
  fields : List (String × String)
  message : String
  deriving DecidableEq

end ContainerTasks
