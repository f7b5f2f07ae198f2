import ContainerTasks.Call
import ContainerTasks.Encoding
import ContainerTasks.Logging.Record

/-!
# Event logs

Every event of a task is told to loggers, one after the other. A logger writes the event as a line
of JSON, makes a log record of it, or remembers it. A line that cannot be written is reported and
lost; nothing else comes of that.

## Main definitions

* `Writer`: where lines go, with a limit after which nothing more can be written
* `Logger`, `Logger.post`
* `EventLog`, `EventLog.post`: several loggers that share a writer
* `Trouble.record`: the log record of an unexpected error
-/

namespace ContainerTasks

/-! ### Writing lines -/

/-- Something that text is written to. -/
structure Writer where
  written : String
  /-- How many lines can be written, if there is a limit. -/
  limit : Option Nat
  /-- The error that comes back when nothing more can be written. -/
  refusal : String

namespace Writer

/-- A disk on which nothing has been written, with room for so many lines. -/
def disk (room : Option Nat) : Writer := ⟨"", room, "disk full"⟩

/-- How many line feeds have been written. -/
def lines (w : Writer) : Nat := w.written.toList.count '\n'

/-- Whether everything is refused from now on. -/
def isFull (w : Writer) : Bool := w.limit.any (· ≤ w.lines)

/-- Writes a text, unless the limit is reached. -/
def write (w : Writer) (text : String) : Except String Unit × Writer :=
  if w.isFull then (.error w.refusal, w) else (.ok (), { w with written := w.written ++ text })

/-- Writes a text and the line feed after it. -/
def writeLine (w : Writer) (text : String) : Except String Unit × Writer :=
  match w.write text with
  | (.ok (), w) => w.write "\n"
  | (.error error, w) => (.error error, w)

end Writer

/-! ### Loggers -/

/-- The line of an event, without the line feed. -/
def Event.line (e : Event) : String := e.toJson.render

/-- How much an event matters. -/
def Event.level (e : Event) : LogLevel :=
  if e.isFailure then .warn else if e.isInformational then .debug else .info

/-- The log record of an event. -/
def Event.record (e : Event) : LogRecord := ⟨e.level, [("event", e.kind)], e.text⟩

/-- The log record of an event whose line could not be written, with the error of the writer. -/
def Event.lostRecord (e : Event) (error : String) : LogRecord :=
  ⟨.warn, [("error", error), ("event", e.kind)], "failed to write event log entry"⟩

/-- The log record of an unexpected error; `caughtAt` tells where it was noticed. -/
def Trouble.record (trouble : Trouble) (caughtAt : String) : LogRecord :=
  ⟨.error, [("caught_at", caughtAt), ("error", trouble.text)], "unhandled exception"⟩

/-- Somebody who is told the events. -/
inductive Logger where
  /-- Writes each event as a line. -/
  | lines
  /-- Makes a log record of each event. -/
  | records
  /-- Remembers the events, oldest first. -/
  | memory (events : List Event)
  deriving DecidableEq

/-- Loggers, with what they share. -/
structure EventLog where
  writer : Writer
  /-- The log records made, oldest first. -/
  records : List LogRecord
  loggers : List Logger

namespace EventLog

/-- Loggers that have been told nothing and share a writer. -/
def on (writer : Writer) (loggers : List Logger) : EventLog := ⟨writer, [], loggers⟩

/-- Loggers that have been told nothing and share a disk with room for so many lines. -/
def new (room : Option Nat) (loggers : List Logger) : EventLog := on (.disk room) loggers

/-- Adds a log record. -/
def addRecord (log : EventLog) (record : LogRecord) : EventLog :=
  { log with records := log.records ++ [record] }

/-- Tells an event to one logger, which goes to the end of the list. -/
def tell (e : Event) (log : EventLog) : Logger → EventLog
  | .lines =>
    let (written, writer) := log.writer.writeLine e.line
    let log := { log with writer, loggers := log.loggers ++ [Logger.lines] }
    match written with
    | .ok () => log
    | .error error => log.addRecord (e.lostRecord error)
  | .records => { log with loggers := log.loggers ++ [Logger.records] }.addRecord e.record
  | .memory events => { log with loggers := log.loggers ++ [Logger.memory (events ++ [e])] }

/-- Tells an event to all loggers in order. -/
def post (log : EventLog) (e : Event) : EventLog :=
  log.loggers.foldl (tell e) { log with loggers := [] }

/-- Tells events to all loggers. -/
def postAll (log : EventLog) (events : List Event) : EventLog := events.foldl post log

/-- How many events are remembered. -/
def remembered (log : EventLog) : Nat :=
  (log.loggers.flatMap fun
    | .memory events => events
    | _ => []).length

end EventLog

/-- The lines of events. -/
def eventLines (events : List Event) : String := String.join (events.map (·.line ++ "\n"))

end ContainerTasks
