import Fexpr.Config
import Fexpr.Text.Quotation

/-!
# Command line options

How the arguments of a command line are understood. First each argument is classified by itself: a
flag, which may be shortened and may have a value attached, an unknown flag, the separator after
which nothing is a flag, or a plain argument. Then they are taken from left to right. The plain
arguments must stand together; those that come after another flag are left over, as unknown flags
are.

The separator is dropped wherever it stands, even as a value attached to a flag. The flag is then
set without a value, which the check of the whole configuration does not let pass.
-/

namespace Fexpr

/-- What a flag that takes a value is set to. -/
inductive Setting where
  | unset
  | text (s : String)
  /-- The flag stands with a value that was dropped. -/
  | dropped
deriving DecidableEq, Repr

/-- A setting as it is handed on, a dropped value being the list of no values. -/
def Setting.datum : Setting → Datum
  | unset => .none
  | text s => .text s
  | dropped => .list []

/-- What a command line asks for. -/
structure Options where
  files : List String := []
  logLevel : Setting := .text "WARNING"
  logFile : Setting := .unset
  noEcho : Bool := false
deriving DecidableEq, Repr

namespace Options

/-- The configuration that the options ask for, or all that is wrong with it. -/
def config (o : Options) : Except (List Config.FieldFault) Config :=
  Config.ofFields
    [("log_level", o.logLevel.datum), ("log_file", o.logFile.datum),
      ("files", .list (o.files.map .text)), ("echo_results", .bool !o.noEcho)]

/-- The flags. -/
inductive Flag where
  | help
  | logLevel
  | logFile
  | noEcho
deriving DecidableEq, Repr

/-- The spellings of flags, in the order in which ambiguities list them. -/
def spellings : List (String × Flag) :=
  [("-h", .help), ("--help", .help), ("--log-level", .logLevel), ("--log-file", .logFile),
    ("--no-echo", .noEcho)]

/-- A flag as errors name it. -/
def Flag.title : Flag → String
  | help => "-h/--help"
  | logLevel => "--log-level"
  | logFile => "--log-file"
  | noEcho => "--no-echo"

/-- What an argument is by itself. -/
inductive Argument where
  | plain
  | separator
  /-- A flag, and the value attached to it by an equals sign. -/
  | flag (flag : Flag) (value : Option (List Char))
  /-- The short flag for help with letters attached to it, by an equals sign or without one. -/
  | helpLetters (letters : List Char)
  | unknown
deriving DecidableEq, Repr

/-- Why a command line is not accepted. -/
inductive UsageFault where
  | ambiguous (argument : String) (candidates : List String)
  | missingValue (flag : Flag)
  | unwantedValue (flag : Flag) (value : String)
  | badLevel (given : String)
  | leftOver (arguments : List String)
deriving DecidableEq, Repr

/-- The fault in words. -/
def UsageFault.message : UsageFault → String
  | ambiguous argument candidates =>
    "ambiguous option: " ++ argument ++ " could match " ++ ", ".intercalate candidates
  | missingValue flag => "argument " ++ flag.title ++ ": expected one argument"
  | unwantedValue flag value =>
    "argument " ++ flag.title ++ ": ignored explicit argument " ++ Text.quote value
  | badLevel given =>
    "argument --log-level: invalid choice: " ++ Text.quote given ++ " (choose from "
      ++ ", ".intercalate (logLevelNames.map Text.quote) ++ ")"
  | leftOver arguments => "unrecognized arguments: " ++ " ".intercalate arguments

/-! ## One argument -/

/-- Whether an argument is a negative number: digits, which may have a decimal point among them
but not after them. One line break may end it. -/
def isNegativeNumber (cs : List Char) : Bool :=
  match cs with
  | '-' :: cs =>
    let cs := if cs.getLast? = some '\n' then cs.dropLast else cs
    let whole := cs.takeWhile Text.isDecimalDigit
    match cs.dropWhile Text.isDecimalDigit with
    | [] => !whole.isEmpty
    | '.' :: decimals => !decimals.isEmpty && decimals.all Text.isDecimalDigit
    | _ => false
  | _ => false

/-- The part of an argument before its first equals sign and, if there is one, the part after it. -/
def splitValue (cs : List Char) : List Char × Option (List Char) :=
  match cs.dropWhile (· ≠ '=') with
  | [] => (cs, none)
  | _ :: value => (cs.takeWhile (· ≠ '='), some value)

/-- Classifies an argument that starts with a dash, but spells no flag in full, by the flags it
could be short for. -/
def classifyShortened (cs : List Char) : Except UsageFault Argument :=
  match cs with
  | '-' :: '-' :: _ =>
    let (start, value) := splitValue cs
    match spellings.filter fun (spelling, _) => start.isPrefixOf spelling.toList with
    | [] => .ok rest
    | [(_, flag)] => .ok (.flag flag value)
    | candidates => .error (.ambiguous (String.ofList cs) (candidates.map (·.1)))
  | '-' :: 'h' :: letters => .ok (.helpLetters letters)
  | _ => .ok rest
where
  /-- What the argument is if it could be no flag. -/
  rest : Argument :=
    if isNegativeNumber cs || cs.contains ' ' then .plain else .unknown

/-- Classifies an argument before the separator. -/
def classify (argument : String) : Except UsageFault Argument :=
  let cs := argument.toList
  match cs with
  | '-' :: _ :: _ =>
    match splitValue cs with
    | (['-', 'h'], some letters) => .ok (.helpLetters letters)
    | (start, value) =>
      match spellings.find? (·.1 == String.ofList start) with
      | some (_, flag) => .ok (.flag flag value)
      | none => classifyShortened cs
  | _ => .ok .plain

/-- The argument after which nothing is a flag. -/
def separatorText : String := "--"

/-- Classifies all arguments. Everything after the separator is plain. -/
def classifyAll : List String → Except UsageFault (List (String × Argument))
  | [] => .ok []
  | argument :: arguments =>
    if argument = separatorText then
      .ok ((argument, .separator) :: arguments.map (·, .plain))
    else do
      let here ← classify argument
      return (argument, here) :: (← classifyAll arguments)

/-! ## All arguments -/

/-- Where the reader stands with the plain arguments: before their run, in it, or past it. -/
inductive Stage where
  | before
  | within
  | past
deriving DecidableEq, Repr

/-- The stage after a flag. -/
def Stage.afterFlag : Stage → Stage
  | before => before
  | within => past
  | past => past

/-- What has been taken from a command line so far; arguments newest first. -/
structure Taken where
  options : Options := {}
  stage : Stage := .before
  files : List String := []
  leftOver : List String := []

namespace Taken

/-- Takes a plain argument. -/
def plain (t : Taken) (argument : String) : Taken :=
  if t.stage = .past then { t with leftOver := argument :: t.leftOver }
  else { t with stage := .within, files := argument :: t.files }

/-- Takes the separator, which is dropped at the run of plain arguments. -/
def separator (t : Taken) (argument : String) : Taken :=
  if t.stage = .past then { t with leftOver := argument :: t.leftOver }
  else { t with stage := .within }

/-- Takes an unknown flag. -/
def unknown (t : Taken) (argument : String) : Taken :=
  { t with leftOver := argument :: t.leftOver, stage := t.stage.afterFlag }

/-- Takes the value of a flag. -/
def value (t : Taken) (flag : Flag) (given : String) : Except UsageFault Taken :=
  let t := { t with stage := t.stage.afterFlag }
  match flag with
  | .logLevel =>
    let level := LogLevel.upper given
    if given = separatorText then
      .ok { t with options := { t.options with logLevel := .dropped } }
    else if logLevelNames.contains level then
      .ok { t with options := { t.options with logLevel := .text level } }
    else .error (.badLevel level)
  | .logFile =>
    let setting := if given = separatorText then Setting.dropped else .text given
    .ok { t with options := { t.options with logFile := setting } }
  | .help | .noEcho => .error (.unwantedValue flag given)

/-- Takes the flag against results. -/
def noEcho (t : Taken) : Taken :=
  { t with options := { t.options with noEcho := true }, stage := t.stage.afterFlag }

end Taken

/-- What a command line comes to: options, or the wish for help. -/
inductive Request where
  | options (o : Options)
  | help
deriving DecidableEq, Repr

/-- What letters attached to the short flag for help ask for. Each `h` asks for help again, and
whatever comes after them is a value, which the flag does not take. -/
def takeHelpLetters (letters : List Char) : Except UsageFault Request :=
  let rest := letters.dropWhile (· == 'h')
  if letters.isEmpty || !rest.isEmpty then
    .error (.unwantedValue .help (String.ofList rest))
  else .ok .help

/-- Takes arguments from left to right. The first fault, or the first wish for help, decides. -/
def takeAll (t : Taken) : List (String × Argument) → Except UsageFault Request
  | [] =>
    if t.leftOver.isEmpty then .ok (.options { t.options with files := t.files.reverse })
    else .error (.leftOver t.leftOver.reverse)
  | (argument, .plain) :: rest => takeAll (t.plain argument) rest
  | (argument, .separator) :: rest => takeAll (t.separator argument) rest
  | (argument, .unknown) :: rest => takeAll (t.unknown argument) rest
  | (_, .helpLetters letters) :: _ => takeHelpLetters letters
  | (_, .flag flag (some value)) :: rest => do takeAll (← t.value flag (String.ofList value)) rest
  | (_, .flag .help none) :: _ => .ok .help
  | (_, .flag .noEcho none) :: rest => takeAll t.noEcho rest
  | (_, .flag flag none) :: (given, .plain) :: rest => do takeAll (← t.value flag given) rest
  | (_, .flag flag none) :: _ => .error (.missingValue flag)

/-- What a command line asks for. -/
def parse (arguments : List String) : Except UsageFault Request := do
  takeAll {} (← classifyAll arguments)

end Options
end Fexpr
