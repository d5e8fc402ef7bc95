import Fexpr.Program

/-!
# Interactive sessions

A session takes one line at a time: a command, which starts with a slash, or a source, which is
run in the session's global frame. Results, errors and what programs print go to one output, in
order.
-/

namespace Fexpr

/-- A session between two lines. -/
structure Session where
  machine : Machine
  /-- The global frame that sources run in. -/
  frame : FrameId
  /-- Whether results are printed. -/
  echo : Bool
  /-- Whether more lines are wanted. -/
  running : Bool

namespace Session

/-- What asks for a line. -/
def prompt : String := "crisp> "

/-- The words that end a session, apart from the command. -/
def exitWords : List String := ["exit", "quit"]

/-- A session on a machine of its own, with more bindings than the builtins. -/
def new (echo : Bool) (bindings : List (String × Value)) : Session where
  machine := { Machine.empty with store := Store.empty.global bindings }
  frame := Store.empty.next
  echo := echo
  running := false

/-- Adds text to the output. -/
def print (s : Session) (text : String) : Session :=
  { s with machine := { s.machine with output := s.machine.output ++ text } }

/-- Adds a line to the output. -/
def printLine (s : Session) (text : String) : Session :=
  s.print (text ++ "\n")

/-- Adds lines to the output. -/
def printLines (s : Session) (lines : List String) : Session :=
  lines.foldl printLine s

/-- Runs a source and prints what came of it: the value of the last form, or the error. -/
def source (limits : Limits) (s : Session) (text : String) : Except RunFault Unit × Session :=
  let (outcome, machine) := runSource limits text s.frame s.machine
  let s := { s with machine }
  match outcome with
  | .error (.read (.invalid fault)) => (.ok (), s.printLine ("Syntax error: " ++ fault.message))
  | .error fault => (.error fault, s)
  | .ok result =>
    match result.results.getLast? with
    | none => (.ok (), s)
    | some last =>
      match last.outcome with
      | .failed kind message =>
        (.ok (), s.printLine ("Error [" ++ kind.name ++ "]: " ++ message))
      | .complete _ rendered => (.ok (), if s.echo then s.printLine rendered else s)

/-! ## Commands -/

/-- What the help command prints. -/
def helpLines : List String :=
  ["Available commands:",
    "  /help - Show this help",
    "  /env - List the bindings defined in this session",
    "  /reset - Discard all session bindings",
    "  /exit - Exit the REPL (also: exit, quit)"]

/-- The bindings that a session made: all but the builtins and `t`, in the order of their names. -/
def ownBindings (s : Session) : Bindings :=
  let own := (s.machine.store.bindings s.frame).filter fun (name, value) =>
    match value with
    | .builtin .. | .raiser .. => false
    | _ => name != "t"
  own.mergeSort fun a b => decide (a.1 ≤ b.1)

/-- Prints bindings, up to the first whose value has no written form. -/
def printBindings (limits : Limits) (s : Session) : Bindings → Except RunFault Unit × Session
  | [] => (.ok (), s)
  | (name, value) :: bs =>
    match value.render limits.top.room with
    | .ok text => printBindings limits (s.printLine ("  " ++ name ++ " = " ++ text)) bs
    | .error fault => (.error (.eval fault.toFault), s)

/-- Lists the bindings that the session made. -/
def listBindings (limits : Limits) (s : Session) : Except RunFault Unit × Session :=
  match s.ownBindings with
  | [] => (.ok (), s.printLine "No bindings defined.")
  | bs => s.printBindings limits bs

/-- Starts over with a new global frame. The frames there were stay where they are, and so do the
numbers given so far. -/
def reset (s : Session) : Session :=
  let store := s.machine.store
  { s with
    machine := { s.machine with store := store.global [] }
    frame := store.next }.printLine "Environment reset"

/-- Ends the session. -/
def exit (s : Session) : Session :=
  { s.printLine "Goodbye!" with running := false }

/-- Carries out a command, which may be written in any case. -/
def command (limits : Limits) (s : Session) (line : List Char) : Except RunFault Unit × Session :=
  let name := String.ofList (Text.lower (Text.firstWord line))
  if name = "/help" then (.ok (), s.printLines helpLines)
  else if name = "/env" then s.listBindings limits
  else if name = "/reset" then (.ok (), s.reset)
  else if name = "/exit" then (.ok (), s.exit)
  else
    (.ok (), s.printLines ["Unknown command: " ++ name, "Type /help for available commands"])

/-- Takes one line. -/
def line (limits : Limits) (s : Session) (text : String) : Except RunFault Unit × Session :=
  let cs := Text.trim text.toList
  match cs with
  | [] => (.ok (), s)
  | c :: _ =>
    if exitWords.contains (String.ofList cs) then (.ok (), s.exit)
    else if c = '/' then s.command limits cs
    else s.source limits (String.ofList cs)

/-! ## Whole sessions -/

/-- Greets the user and wants lines. -/
def greet (s : Session) : Session :=
  { s.printLine "Crisp REPL. Type /help for commands, /exit to leave." with running := true }

/-- Says goodbye at the end of the input or when interrupted. -/
def farewell (s : Session) : Session :=
  s.printLine "\nGoodbye!"

/-- What came of a whole session. -/
structure Ending where
  session : Session
  /-- How often a line was asked for. -/
  prompts : Nat
  /-- What ended the session early. -/
  fault : Option RunFault

/-- Takes lines until none is wanted, none is left, or a missing one shows an interrupt. `asked`
is what asking for a line prints. -/
def lines (limits : Limits) (asked : String) (s : Session) (prompts : Nat) :
    List (Option String) → Ending
  | [] =>
    if s.running then ⟨(s.print asked).farewell, prompts + 1, none⟩ else ⟨s, prompts, none⟩
  | input :: inputs =>
    if s.running then
      let s := s.print asked
      match input with
      | none => ⟨s.farewell, prompts + 1, none⟩
      | some text =>
        match s.line limits text with
        | (.ok (), s) => lines limits asked s (prompts + 1) inputs
        | (.error fault, s) => ⟨s, prompts + 1, some fault⟩
    else ⟨s, prompts, none⟩

/-- A whole session, from the greeting on. -/
def start (limits : Limits) (asked : String) (s : Session) (inputs : List (Option String)) :
    Ending :=
  lines limits asked s.greet 0 inputs

end Session
end Fexpr
