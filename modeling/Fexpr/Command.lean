import Fexpr.FileTree
import Fexpr.Options.Help
import Fexpr.Session

/-!
# The command

What one call of the command does: it runs the files that its arguments name, in order and in one
global frame, or else a session on its input. Programs and sessions print to the output; reports
on failures, and the log unless it has a file of its own, go to the error stream.
-/

namespace Fexpr

/-- A call of the command between two files. -/
structure Command where
  config : Config
  machine : Machine
  /-- The global frame that all files share. -/
  frame : FrameId
  /-- What went to the error stream. -/
  errors : String
  /-- What went to the log file. -/
  logged : String
  /-- What is left of the input. -/
  input : String

namespace Command

/-- How a call ends. -/
inductive Exit where
  | code (n : Nat)
  /-- A fault that no report covers. -/
  | fault (f : RunFault)
  /-- A file holds no text. -/
  | undecodable
  /-- The configuration that the arguments ask for is none. -/
  | badConfig (faults : List Config.FieldFault)
  /-- A path cannot be used, and no report covers it. -/
  | badPath (f : PathFault)

/-- The file that the log goes to; an empty name means none. -/
def logFile? (config : Config) : Option String :=
  config.logFile.filter (!·.isEmpty)

/-- Adds text to the error stream. -/
def complain (c : Command) (text : String) : Command :=
  { c with errors := c.errors ++ text }

/-- Moves what the machine has logged to where the log goes. -/
def flush (c : Command) : Command :=
  let level := (LogLevel.ofName? c.config.logLevel).getD .warning
  let text := logLines level c.machine.log.reverse
  let c := { c with machine := { c.machine with log := [] } }
  match logFile? c.config with
  | some _ => { c with logged := c.logged ++ text }
  | none => c.complain text

/-- Logs a record, after what the machine has logged. -/
def log (c : Command) (record : LogRecord) : Command :=
  { c with machine := { c.machine with log := record :: c.machine.log } }.flush

/-- The part of the program that logs about files. -/
def logger : String := "crisp.main"

/-- A call before its first file. -/
def start (config : Config) (input : String) : Command :=
  let c : Command :=
    { config
      machine := { Machine.empty with store := Store.empty.global [] }
      frame := Store.empty.next
      errors := ""
      logged := ""
      input }
  c.log (LogLevel.opening config.logLevel)

/-- Runs a source and reports on the form that fails. -/
def runText (limits : Limits) (c : Command) (path source : String) : Option Exit × Command :=
  let (outcome, machine) := runSource limits source c.frame c.machine
  let c := { c with machine }.flush
  match outcome with
  | .error (.read (.invalid fault)) =>
    (some (.code 1),
      c.complain ("crisp: " ++ path ++ ": syntax error: " ++ (fault.report source).text ++ "\n"))
  | .error fault => (some (.fault fault), c)
  | .ok result =>
    match result.failure? with
    | some { index, expression, outcome := .failed kind message } =>
      (some (.code 1),
        c.complain ("crisp: " ++ path ++ ": form " ++ Text.natString (index + 1) ++ " "
          ++ expression ++ ": " ++ kind.name ++ ": " ++ message ++ "\n"))
    | _ => (none, c)

/-- Runs what was found under a path. -/
def runFile (limits : Limits) (c : Command) (path : String)
    (content : Except PathFault (Option String)) : Option Exit × Command :=
  match content with
  | .error (.system fault) =>
    let text := fault.text path
    let c := c.log
      { logger, severity := .error, text := "Cannot read " ++ path ++ ": " ++ text }
    (some (.code 1), c.complain ("crisp: cannot read " ++ path ++ ": " ++ text ++ "\n"))
  | .error fault => (some (.badPath fault), c)
  | .ok none => (some .undecodable, c)
  | .ok (some source) =>
    let c := c.log { logger, severity := .info, text := "Running " ++ path }
    c.runText limits path source

/-- What is found under a path: a dash stands for what is left of the input, and the log file, if
the log has one, holds what has been logged. -/
def find (c : Command) (tree : FileTree) (log : Option Place) (path : String) :
    Except PathFault (Option String) × Command :=
  if path = "-" then (.ok (some c.input), { c with input := "" })
  else
    let tree := match log with
      | some place => tree.append place c.logged
      | none => tree
    ((tree.read path).map sourceOfBytes?, c)

/-- Runs files in order, up to the first that fails. -/
def runFiles (limits : Limits) (tree : FileTree) (log : Option Place) (c : Command) :
    List String → Exit × Command
  | [] => (.code 0, c)
  | path :: paths =>
    let (content, c) := c.find tree log path
    match c.runFile limits path content with
    | (some exit, c) => (exit, c)
    | (none, c) => runFiles limits tree log c paths

/-- The lines of an input. -/
def inputLines (input : String) : List String :=
  let lines := input.splitOn "\n"
  if lines.getLast? = some "" then lines.dropLast else lines

/-- A session of the call. -/
def session (c : Command) : Session where
  machine := c.machine
  frame := c.frame
  echo := c.config.echoResults
  running := false

/-- Runs a session on the input. -/
def converse (limits : Limits) (c : Command) : Exit × Command :=
  let ending := c.session.start limits Session.prompt ((inputLines c.input).map some)
  let c := { c with machine := ending.session.machine }.flush
  match ending.fault with
  | some fault => (.fault fault, c)
  | none => (.code 0, c)

/-- What a call leaves behind. -/
structure Report where
  exit : Exit
  output : String
  errors : String
  /-- The files that were made below the folder of the call, by their paths from there. -/
  made : List (String × String)

/-- The tree with the log file opened, if the log goes to one, and its place. -/
def openLog (tree : FileTree) (config : Config) :
    Except PathFault (FileTree × Option Place) := do
  match logFile? config with
  | some path =>
    let (tree, place) ← tree.openEnd path
    return (tree, some place)
  | none => return (tree, none)

/-- What a call has made that was not there before: the log file. -/
def madeFiles (before : FileTree) (log : Option Place) (logged : String) :
    List (String × String) :=
  let new := log.filter fun place => (before.content? place).isNone
  ((new.bind before.pathBelow?).map (·, logged)).toList

/-- A call of the command that has its configuration. -/
def runConfigured (limits : Limits) (config : Config) (tree : FileTree) (input : String) :
    Report :=
  match openLog tree config with
  | .error fault => ⟨.badPath fault, "", "", []⟩
  | .ok (opened, log) =>
    let c := start config input
    let (exit, c) :=
      if config.files.isEmpty then c.converse limits
      else c.runFiles limits opened log config.files
    ⟨exit, c.machine.output, c.errors, madeFiles tree log c.logged⟩

/-- A whole call of the command. -/
def run (limits : Limits) (arguments : List String) (tree : FileTree) (input : String) : Report :=
  match Options.parse arguments with
  | .error fault => ⟨.code 2, "", Options.complaint fault, []⟩
  | .ok .help => ⟨.code 0, Options.help, "", []⟩
  | .ok (.options options) =>
    match options.config with
    | .error faults => ⟨.badConfig faults, "", "", []⟩
    | .ok config => runConfigured limits config tree input

end Command
end Fexpr
