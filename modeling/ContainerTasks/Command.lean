import ContainerTasks.CommandLine
import ContainerTasks.Config.Loading
import ContainerTasks.Docker.Client
import ContainerTasks.Forecast
import ContainerTasks.Schedule
import ContainerTasks.WorkingDirectory

/-!
# The command

What the program does for its arguments: it loads the configuration and then lists the tasks, shows
what would be done for one of them, or does it.

## Main definitions

* `Command.load`: the configuration of a file
* `Command.Errand`, `Command.errand`: what there is to do
* `Command.Report`: what comes of it
* `Command.perform`, `Command.runIn`
-/

namespace ContainerTasks.Command

/-- Why the program gives up. -/
inductive Fault where
  | notLoaded (path : String) (fault : Config.LoadFault)
  | noTask
  | noEventLog (path : String) (fault : FileFault)
  | session (fault : Session.Fault)
  deriving DecidableEq

/-- The wording of a fault, with everything that lies behind it. -/
def Fault.message : Fault → String
  | notLoaded path fault => ": ".intercalate (("loading " ++ path) :: fault.messages)
  | noTask => "no task given (use --list-tasks to see the available tasks)"
  | noEventLog path fault => "creating event log " ++ path ++ ": " ++ fault.message
  | session fault => fault.message

/-! ### Loading -/

/-- The file that holds the configuration. -/
def configPath (line : CommandLine) : String := line.config.getD Config.defaultPath

/-- The configuration that a file holds. -/
def load (path : String) (content : Except FileFault (List UInt8)) : Except Fault Config :=
  (Config.load content).mapError (.notLoaded path)

/-! ### Errands -/

/-- What there is to do. -/
inductive Errand where
  | list (config : Config)
  | forecast (config : Config) (options : RunOptions) (task : String)
  | run (config : Config) (options : RunOptions) (task : String)

/-- What a command line asks for, under a configuration. -/
def errand (line : CommandLine) (config : Config) : Except Fault Errand :=
  if line.listTasks then .ok (.list config)
  else
    match line.task with
    | none => .error .noTask
    | some task =>
      let options := line.runOptions config.settings
      if line.dryRun then .ok (.forecast config options task) else .ok (.run config options task)

/-- The lines of a list of tasks. -/
def listLines (config : Config) : List String :=
  ("tasks (" ++ toString config.tasks.size ++ "):") ::
    config.tasks.entries.map fun (name, task) =>
      "  - " ++ name ++
        match task.description with
        | some description => ": " ++ description
        | none => ""

/-- The lines about a task that is over: its failures, and how to remove what it has left. -/
def resultLines (result : TaskResult) : List String :=
  let title := "task " ++ quote result.task
  result.outcome.failures.map (title ++ ": " ++ ·.text) ++
    if result.outcome.leftovers.isEmpty then []
    else (title ++ " left resources behind; remove them with:") ::
      result.outcome.leftovers.map ("  " ++ ·.command)

/-! ### Doing them -/

/-- What comes of a command. -/
structure Report where
  /-- The exit code, or why there is none. There is neither if the command does not come to an
  end. -/
  result : Option (Except Fault Int)
  /-- What is printed on the standard output. -/
  stdout : List UInt8
  /-- What is printed on the other output. -/
  stderr : List UInt8
  /-- The events of the session, oldest first. -/
  events : List Event
  /-- The arguments with which docker was started, each time. -/
  invocations : List (List String)

/-- Lines as they are printed. -/
def printed (lines : List String) : List UInt8 :=
  (String.join (lines.map (· ++ "\n"))).toUTF8.toList

/-- A command that does not get to docker. -/
def Report.quick (lines : List String) (result : Except Fault Int) : Report :=
  ⟨some result, printed lines, [], [], []⟩

/-- The lines about a session that is over. -/
def sessionLines : Option (Except Session.Fault SessionOutcome) → List String
  | some (.ok outcome) => outcome.results.flatMap resultLines
  | _ => []

/-- Carries out a task with a docker client. -/
def carryOut (client : Docker.Client) (config : Config) (options : RunOptions) (task : String) :
    Report :=
  let s := (Schedule.start Docker.Client.serve client
    (Session.start config options task false)).settle
  let result := s.session.result?
  { result := result.map fun
      | .ok outcome => .ok outcome.exitCode
      | .error fault => .error (.session fault)
    stdout := s.state.echoed
    stderr := s.state.echoedErrors ++ printed (sessionLines result)
    events := s.session.trace.filterMap fun
      | .logged event => some event
      | _ => none
    invocations := s.state.invocations }

/-- Does what there is to do. `process` is the number of the process as a text, and `created` tells
whether the file for events could be made. -/
def perform (process : String) (program : Docker.Program) (created : Except Fault Unit) :
    Errand → Report
  | .list config => .quick (listLines config) (.ok 0)
  | .forecast config options task =>
    match config.forecast options task with
    | .error fault => .quick [] (.error (.session (.order fault)))
    | .ok forecast =>
      .quick forecast.lines
        (match forecast.fault? with
        | some fault => .error (.session (.graph fault))
        | none => .ok 0)
  | .run config options task =>
    match created with
    | .error fault => .quick [] (.error fault)
    | .ok _ =>
      carryOut (.new ⟨config.settings.projectName, process, 0⟩ program) config options task

/-- Does what a command line asks for, in a directory. -/
def runIn (directory : WorkingDirectory) (process : String) (program : Docker.Program)
    (line : CommandLine) : Report :=
  let path := configPath line
  match load path (directory.read path) >>= errand line with
  | .error fault => .quick [] (.error fault)
  | .ok todo =>
    let created : Except Fault Unit :=
      match line.eventLog with
      | none => .ok ()
      | some path => (directory.create path).map (fun _ => ()) |>.mapError (.noEventLog path)
    perform process program created todo

/-- The file of the directory in which the events of a command are found. -/
def eventFile? (directory : WorkingDirectory) (line : CommandLine) : Option String := do
  (directory.create (← line.eventLog)).toOption.join

end ContainerTasks.Command
