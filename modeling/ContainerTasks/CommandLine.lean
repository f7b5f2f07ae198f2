import ContainerTasks.Logging.Record
import ContainerTasks.Session
import ContainerTasks.Text.WholeNumber

/-!
# Command lines

The arguments of the program: the name of a task, flags, and options with a value. A value follows
its option as the next argument or after an equals sign; as the next argument it must not look like
an option. After two dashes every argument counts as a name. An option without its value is noticed
when the next argument is dealt with, and its value is looked at then too.

## Main definitions

* `CommandLine`: what the arguments ask for
* `CommandLine.Fault`: why arguments are refused, or that only a text is asked for
* `CommandLine.read`
* `CommandLine.runOptions`: the options of a session under a command line
-/

namespace ContainerTasks

/-- What the arguments ask for. -/
structure CommandLine where
  task : Option String
  /-- The file that holds the configuration, if it is named. -/
  config : Option String
  maxParallelism : Option Nat
  noCleanupAfterFailure : Bool
  noCleanupAfterSuccess : Bool
  useNetwork : Option String
  skipPrerequisites : Bool
  /-- The file to which events are written. -/
  eventLog : Option String
  logLevel : Option LogLevel
  dryRun : Bool
  listTasks : Bool
  deriving DecidableEq

namespace CommandLine

/-- A command line without arguments. -/
def empty : CommandLine where
  task := none
  config := none
  maxParallelism := none
  noCleanupAfterFailure := false
  noCleanupAfterSuccess := false
  useNetwork := none
  skipPrerequisites := false
  eventLog := none
  logLevel := none
  dryRun := false
  listTasks := false

/-! ### Options and flags -/

/-- An option that takes a value. -/
inductive Setting where
  | config
  | maxParallelism
  | useNetwork
  | eventLog
  | logLevel
  deriving DecidableEq

/-- An option that takes none. -/
inductive Flag where
  | noCleanupAfterFailure
  | noCleanupAfterSuccess
  | skipPrerequisites
  | dryRun
  | listTasks
  | help
  | version
  deriving DecidableEq

/-- What a name stands for after two dashes. -/
inductive Named where
  | setting (s : Setting)
  | flag (f : Flag)
  deriving DecidableEq

/-- What a name stands for. -/
def named? : String → Option Named
  | "config" => some (.setting .config)
  | "max-parallelism" => some (.setting .maxParallelism)
  | "use-network" => some (.setting .useNetwork)
  | "event-log" => some (.setting .eventLog)
  | "log-level" => some (.setting .logLevel)
  | "no-cleanup-after-failure" => some (.flag .noCleanupAfterFailure)
  | "no-cleanup-after-success" => some (.flag .noCleanupAfterSuccess)
  | "skip-prerequisites" => some (.flag .skipPrerequisites)
  | "dry-run" => some (.flag .dryRun)
  | "list-tasks" => some (.flag .listTasks)
  | "help" => some (.flag .help)
  | "version" => some (.flag .version)
  | _ => none

/-- What a letter stands for after one dash. -/
def short? : Char → Option Flag
  | 'h' => some .help
  | 'V' => some .version
  | _ => none

/-- Why arguments are refused. -/
inductive Fault where
  | unknownArgument
  /-- A flag was given a value. -/
  | unexpectedValue (flag : Flag)
  | missingValue (setting : Setting)
  /-- A value is none of those that an option takes. -/
  | invalidValue (setting : Setting)
  | invalidParallelism (message : String)
  /-- An option was given twice. -/
  | repeated (option : Named)
  | missingTask
  /-- Not a fault: the description of the arguments is asked for. -/
  | help
  /-- Not a fault: the version is asked for. -/
  | version
  deriving DecidableEq

/-- Reads a limit on parallel work. -/
def parallelism (value : String) : Except String Nat :=
  match readWholeNumber 0 (UInt64.size - 1) value with
  | .ok n => if n = 0 then .error "must be at least 1" else .ok n.toNat
  | .error fault => .error fault.message

/-- Whether an option has been given. -/
def has (c : CommandLine) : Named → Bool
  | .setting .config => c.config.isSome
  | .setting .maxParallelism => c.maxParallelism.isSome
  | .setting .useNetwork => c.useNetwork.isSome
  | .setting .eventLog => c.eventLog.isSome
  | .setting .logLevel => c.logLevel.isSome
  | .flag .noCleanupAfterFailure => c.noCleanupAfterFailure
  | .flag .noCleanupAfterSuccess => c.noCleanupAfterSuccess
  | .flag .skipPrerequisites => c.skipPrerequisites
  | .flag .dryRun => c.dryRun
  | .flag .listTasks => c.listTasks
  | .flag .help | .flag .version => false

/-- A file cannot be without a name. -/
def path (setting : Setting) (value : String) : Except Fault (Option String) :=
  if value = "" then .error (.missingValue setting) else .ok (some value)

/-- Gives an option its value. -/
def assign (c : CommandLine) (setting : Setting) (value : String) : Except Fault CommandLine := do
  if c.has (.setting setting) then throw (.repeated (.setting setting))
  match setting with
  | .config => return { c with config := ← path setting value }
  | .maxParallelism =>
    match parallelism value with
    | .ok n => return { c with maxParallelism := some n }
    | .error message => throw (.invalidParallelism message)
  | .useNetwork => return { c with useNetwork := some value }
  | .eventLog => return { c with eventLog := ← path setting value }
  | .logLevel =>
    match LogLevel.ofWord? value with
    | some level => return { c with logLevel := some level }
    | none => throw (.invalidValue setting)

/-- Sets a flag. -/
def raise (c : CommandLine) (flag : Flag) : Except Fault CommandLine := do
  if c.has (.flag flag) then throw (.repeated (.flag flag))
  match flag with
  | .noCleanupAfterFailure => return { c with noCleanupAfterFailure := true }
  | .noCleanupAfterSuccess => return { c with noCleanupAfterSuccess := true }
  | .skipPrerequisites => return { c with skipPrerequisites := true }
  | .dryRun => return { c with dryRun := true }
  | .listTasks => return { c with listTasks := true }
  | .help => throw .help
  | .version => throw .version

/-! ### Arguments in turn -/

/-- How far the reading of arguments is. -/
structure Progress where
  line : CommandLine
  /-- The option given last, if it takes a value, with the value if that is there. It is not part of
  the command line yet. -/
  pending : Option (Setting × Option String)
  /-- Whether two dashes have been seen. -/
  namesOnly : Bool

namespace Progress

/-- Deals with the option given last. -/
def settle (p : Progress) : Except Fault Progress :=
  match p.pending with
  | none => .ok p
  | some (setting, none) => .error (.missingValue setting)
  | some (setting, some value) => do
    return { p with line := ← p.line.assign setting value, pending := none }

/-- An argument that is no option: the value of the option before it, or the name of the task. -/
def plain (p : Progress) (argument : String) : Except Fault Progress :=
  match p.namesOnly, p.pending with
  | false, some (setting, none) => .ok { p with pending := some (setting, some argument) }
  | _, _ =>
    if p.line.task.isSome then .error .unknownArgument
    else do
      let p ← p.settle
      return { p with line := { p.line with task := some argument } }

/-- An option in full, with what follows its equals sign. -/
def long (p : Progress) (name : String) (value : Option String) : Except Fault Progress :=
  match named? name, value with
  | none, _ => .error .unknownArgument
  | some (.flag flag), some _ => .error (.unexpectedValue flag)
  | some (.flag flag), none => do
    let p ← p.settle
    return { p with line := ← p.line.raise flag }
  | some (.setting setting), some value => do
    let p ← p.settle
    return { p with line := ← p.line.assign setting value }
  | some (.setting setting), none => do
    let p ← p.settle
    return { p with pending := some (setting, none) }

/-- Options of one letter each. -/
def letters (p : Progress) : List Char → Except Fault Progress
  | [] => .ok p
  | c :: rest =>
    match short? c with
    | none => .error .unknownArgument
    | some flag => do
      let p ← p.settle
      letters { p with line := ← p.line.raise flag } rest

/-- Takes in one argument. -/
def step (p : Progress) (argument : String) : Except Fault Progress :=
  if p.namesOnly then p.plain argument
  else
    match argument.toList with
    | ['-', '-'] => .ok { p with namesOnly := true }
    | '-' :: '-' :: rest =>
      let name := String.ofList (rest.takeWhile (· ≠ '='))
      match rest.dropWhile (· ≠ '=') with
      | _ :: value => p.long name (some (String.ofList value))
      | [] => p.long name none
    | '-' :: c :: rest => p.letters (c :: rest)
    | _ => p.plain argument

end Progress

/-- What arguments ask for. -/
def read (arguments : List String) : Except Fault CommandLine := do
  let p ← arguments.foldlM Progress.step ⟨empty, none, false⟩
  let c := (← p.settle).line
  if c.task.isNone && !c.listTasks then throw .missingTask
  return c

/-! ### Effect on a session -/

/-- The options of a session: those of the configuration, as far as the command line does not
differ. -/
def runOptions (c : CommandLine) (settings : Settings) : RunOptions where
  maxParallelism := c.maxParallelism.or settings.maxParallelism
  cleanupPolicy :=
    ⟨settings.cleanupAfterFailure && !c.noCleanupAfterFailure,
      settings.cleanupAfterSuccess && !c.noCleanupAfterSuccess⟩
  existingNetwork := c.useNetwork.or settings.network
  skipPrerequisites := c.skipPrerequisites

end CommandLine

end ContainerTasks
