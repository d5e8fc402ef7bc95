import Fexpr.Command

/-!
# The program

The command on real files and streams. It reads and prints; what is printed, and when the command
stops, is decided elsewhere.
-/

namespace Fexpr

/-- Where a running command prints. -/
structure Streams where
  output : IO.FS.Stream
  errors : IO.FS.Stream
  log : Option IO.FS.Handle

/-- Prints what a call of the command has to say, and leaves it with nothing said. -/
def Streams.show (s : Streams) (c : Command) : IO Command := do
  s.output.putStr c.machine.output
  s.output.flush
  s.errors.putStr c.errors
  if let some log := s.log then
    log.putStr c.logged
    log.flush
  return { c with machine := { c.machine with output := "" }, errors := "", logged := "" }

/-- The fault behind an error of the system. -/
def faultOfError : IO.Error → FileFault
  | .noFileOrDirectory .. => .missing
  | .inappropriateType _ number _ =>
    if number.toNat = FileFault.notDirectory.number then .notDirectory else .isDirectory
  | .invalidArgument .. => .nameTooLong
  | .permissionDenied .. => .denied
  | .alreadyExists .. => .fileExists
  | e => ⟨5, toString e⟩

/-- Everything that is left in a stream. -/
partial def readAll (stream : IO.FS.Stream) (before : ByteArray) : IO ByteArray := do
  let chunk ← stream.read 65536
  if chunk.isEmpty then return before else readAll stream (before ++ chunk)

/-- What is found under a path, a dash standing for the input. -/
def findFile (input : IO.FS.Stream) (path : String) : IO (Except PathFault (Option String)) := do
  if path = "-" then return .ok (String.fromUTF8? (← readAll input ByteArray.empty))
  else if FileTree.hasNull path then return .error .nullCharacter
  else
    try return .ok (sourceOfBytes? (← IO.FS.readBinFile path))
    catch e => return .error (.system (faultOfError e))

/-- What a call that ends this way returns to the system. -/
def exitCode (errors : IO.FS.Stream) : Command.Exit → IO UInt32
  | .code n => return n.toUInt32
  | .undecodable => do errors.putStr "crisp: not a UTF-8 text\n"; return 1
  | .badConfig faults => do
    for f in faults do errors.putStr ("crisp: " ++ f.field ++ ": " ++ f.fault.message ++ "\n")
    return 1
  | .badPath .nullCharacter => do errors.putStr ("crisp: " ++ nullCharacterText ++ "\n"); return 1
  | .badPath (.system f) => do errors.putStr ("crisp: " ++ f.reason ++ "\n"); return 1
  | .badPath .tooDeep | .fault (.read .tooDeep) | .fault (.eval .tooDeep) => do
    errors.putStr "crisp: nested too deep\n"; return 1
  | .fault (.read (.longNumeral digits)) => do
    errors.putStr ("crisp: " ++ longNumeralText digits ++ "\n"); return 1
  | .fault _ => do errors.putStr ("crisp: " ++ tooLongText ++ "\n"); return 1

/-- Runs files in order. -/
def runPaths (s : Streams) (input : IO.FS.Stream) (c : Command) : List String → IO UInt32
  | [] => return 0
  | path :: paths => do
    let (exit, c) := c.runFile {} path (← findFile input path)
    let c ← s.show c
    match exit with
    | some exit => exitCode s.errors exit
    | none => runPaths s input c paths

/-- Takes lines from the input until the session ends. -/
partial def converseWith (s : Streams) (input : IO.FS.Stream) (c : Command) (session : Session) :
    IO UInt32 := do
  let c := { c with machine := session.machine }.flush
  let c ← s.show c
  let session := { session with machine := c.machine }
  if !session.running then return 0
  s.output.putStr Session.prompt
  s.output.flush
  let text ← input.getLine
  if text.isEmpty then
    let _ ← s.show { c with machine := session.farewell.machine }
    return 0
  match session.line {} text with
  | (.ok (), session) => converseWith s input c session
  | (.error fault, session) =>
    let _ ← s.show { c with machine := session.machine }.flush
    exitCode s.errors (.fault fault)

end Fexpr

open Fexpr in
/-- Runs the files that the arguments name, or a session on the input. -/
def main (arguments : List String) : IO UInt32 := do
  let output ← IO.getStdout
  let errors ← IO.getStderr
  let input ← IO.getStdin
  match Options.parse arguments with
  | .error fault => errors.putStr (Options.complaint fault); return 2
  | .ok .help => output.putStr Options.help; return 0
  | .ok (.options options) =>
    match options.config with
    | .error faults => exitCode errors (.badConfig faults)
    | .ok config =>
      let log ← (Command.logFile? config).mapM fun path => do
        let above := FileTree.pathOfReversed ((FileTree.names path).reverse.drop 1)
        if !above.isEmpty then IO.FS.createDirAll above
        IO.FS.Handle.mk path .append
      let s : Streams := { output, errors, log }
      let c ← s.show (Command.start config "")
      if config.files.isEmpty then converseWith s input c c.session.greet
      else runPaths s input c config.files
