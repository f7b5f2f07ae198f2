import ContainerTasks.Command
import ContainerTasks.EventLog
import ContainerTasks.Logging.Filter

/-!
# The program

Reads the arguments and the configuration file, does what they ask for, and prints what comes of it.
There is no way to start other programs from here, so the docker program counts as not installed: a
listing and a forecast are complete, and a run fails at its first step.

## Main definitions

* `main`
-/

namespace ContainerTasks

namespace Program

/-- What the program prints when it is asked how it is used. -/
def usage : List String := [
  "Run tasks in containers, with their dependencies.",
  "",
  "Usage: taskrig [OPTIONS] [TASK]",
  "",
  "Options:",
  "      --config <PATH>             Path to the config file (TOML)",
  "      --max-parallelism <N>       Maximum number of capped steps to run at once",
  "      --no-cleanup-after-failure  Leave containers and networks in place if the task fails",
  "      --no-cleanup-after-success  Leave containers and networks in place if the task succeeds",
  "      --use-network <NETWORK>     Attach containers to this existing network",
  "      --skip-prerequisites        Run only the named task, not its prerequisites",
  "      --event-log <PATH>          Also write every event as JSON lines to this file",
  "      --log-level <LEVEL>         Logging level (error, warn, info, debug, trace)",
  "      --dry-run                   Print the execution plan, but don't touch the runtime",
  "      --list-tasks                List the tasks in the config file and exit",
  "  -h, --help                      Print help",
  "  -V, --version                   Print version"]

/-- What is said about arguments that are refused. -/
def complaint : CommandLine.Fault → String
  | .unknownArgument => "error: unexpected argument found"
  | .unexpectedValue _ => "error: unexpected value for a flag"
  | .missingValue _ => "error: a value is required but none was supplied"
  | .invalidValue _ => "error: invalid value"
  | .invalidParallelism message => "error: invalid value for '--max-parallelism <N>': " ++ message
  | .repeated _ => "error: an argument cannot be used multiple times"
  | .missingTask => "error: the task to run was not provided"
  | .help | .version => ""

/-- Why a file could not be dealt with. -/
def fileFault : IO.Error → FileFault
  | .noFileOrDirectory .. => .notFound
  | .inappropriateType .. => .isDirectory
  | e => .other (toString e)

/-- The content of a file. -/
def readFile (path : String) : IO (Except FileFault (List UInt8)) := do
  try return .ok (← IO.FS.readBinFile path).toList
  catch e => return .error (fileFault e)

/-- Writes a file. -/
def writeFile (path text : String) : IO (Except FileFault Unit) := do
  try
    IO.FS.writeFile path text
    return .ok ()
  catch e => return .error (fileFault e)

/-- The target of log records about events. -/
def target : String := "taskrig::engine"

/-- The lines of the log for events. -/
def logLines (filter : LogFilter) (events : List Event) : List String :=
  (((EventLog.new none [.records]).postAll events).records.filter fun r =>
    filter.allows target ("message" :: r.fields.map (·.1)) r.level).map fun r =>
      logLine r.level target r.message

/-- Does what a command line asks for. -/
def run (line : CommandLine) (filter : LogFilter) : IO UInt32 := do
  let path := Command.configPath line
  match Command.load path (← readFile path) >>= Command.errand line with
  | .error fault =>
    (← IO.getStderr).putStrLn ("taskrig error: " ++ fault.message)
    return 1
  | .ok todo =>
    let created : Except Command.Fault Unit ←
      match line.eventLog, todo with
      | some path, .run .. =>
        pure ((← writeFile path "").mapError (Command.Fault.noEventLog path))
      | _, _ => pure (.ok ())
    let report := Command.perform "0" .absent created todo
    (← IO.getStdout).write ⟨report.stdout.toArray⟩
    for text in logLines filter report.events do
      (← IO.getStderr).putStrLn text
    (← IO.getStderr).write ⟨report.stderr.toArray⟩
    if let some path := line.eventLog then
      if created.isOk && !report.events.isEmpty then
        discard (writeFile path (eventLines report.events))
    match report.result with
    | some (.ok exitCode) => return UInt32.ofInt exitCode
    | some (.error fault) =>
      (← IO.getStderr).putStrLn ("taskrig error: " ++ fault.message)
      return 1
    | none => return 1

end Program

end ContainerTasks

open ContainerTasks in
/-- The program. -/
def main (arguments : List String) : IO UInt32 := do
  match CommandLine.read arguments with
  | .error .help =>
    for text in Program.usage do IO.println text
    return 0
  | .error .version =>
    IO.println "taskrig 0.1.0"
    return 0
  | .error fault =>
    (← IO.getStderr).putStrLn (Program.complaint fault)
    return 2
  | .ok line =>
    Program.run line (.choose line.logLevel (← IO.getEnv LogFilter.environmentVariable))
