import Fexpr.Datum
import Fexpr.Log

/-!
# Configuration

The settings of the interpreter, and how they are checked when a host hands them in as data. Every
setting has a default, settings of other names are ignored, and all faults are reported, in the
order of the settings.
-/

namespace Fexpr

/-- The names of log levels that a configuration accepts. -/
def logLevelNames : List String := ["DEBUG", "INFO", "WARNING", "ERROR", "CRITICAL"]

/-- The settings of the interpreter. -/
structure Config where
  /-- The name of the log level, in capitals. -/
  logLevel : String := "WARNING"
  /-- Where log records go instead of the error stream. -/
  logFile : Option String := none
  /-- The files to run, in order; a dash stands for the input. -/
  files : List String := []
  /-- Whether a session prints results. -/
  echoResults : Bool := true
deriving DecidableEq, Repr

namespace Config

/-- What is wrong with a setting. -/
inductive SettingFault where
  /-- No name of a log level; the name as it was given. -/
  | level (given : String)
  | notText
  | notList
  /-- A text or number that is no truth value. -/
  | notTruth
  | notBool
deriving DecidableEq, Repr

namespace SettingFault

/-- The name of the kind of fault. -/
def kind : SettingFault → String
  | level _ => "value_error"
  | notText => "string_type"
  | notList => "list_type"
  | notTruth => "bool_parsing"
  | notBool => "bool_type"

/-- The fault in words. -/
def message : SettingFault → String
  | level given =>
    "Value error, log_level must be one of " ++ ", ".intercalate logLevelNames ++ ", got "
      ++ Text.quote given
  | notText => "Input should be a valid string"
  | notList => "Input should be a valid list"
  | notTruth => "Input should be a valid boolean, unable to interpret input"
  | notBool => "Input should be a valid boolean"

end SettingFault

/-- A fault of a setting, or of one item of it. -/
structure FieldFault where
  field : String
  item : Option Nat := none
  fault : SettingFault
deriving DecidableEq, Repr

/-- A text. -/
def checkText (field : String) : Datum → Except (List FieldFault) String
  | .text s => .ok s
  | _ => .error [{ field, fault := .notText }]

/-- The name of a log level, in any case. -/
def checkLevel (field : String) (d : Datum) : Except (List FieldFault) String := do
  let given ← checkText field d
  let level := LogLevel.upper given
  if logLevelNames.contains level then return level
  else throw [{ field, fault := .level given }]

/-- A text that may be missing. -/
def checkOptionalText (field : String) : Datum → Except (List FieldFault) (Option String)
  | .none => .ok none
  | d => (checkText field d).map some

/-- Texts in a list, the first of them being item number `index`, and the faults of the other
items. -/
def checkItems (field : String) (index : Nat) : List Datum → List String × List FieldFault
  | [] => ([], [])
  | d :: ds =>
    let (texts, faults) := checkItems field (index + 1) ds
    match d with
    | .text s => (s :: texts, faults)
    | _ => (texts, { field, item := some index, fault := .notText } :: faults)

/-- A list of texts. -/
def checkTexts (field : String) : Datum → Except (List FieldFault) (List String)
  | .list items =>
    match checkItems field 0 items with
    | (texts, []) => .ok texts
    | (_, faults) => .error faults
  | _ => .error [{ field, fault := .notList }]

/-- The words that stand for a truth value. -/
def truthWords : List (String × Bool) :=
  [("0", false), ("off", false), ("f", false), ("false", false), ("n", false), ("no", false),
    ("1", true), ("on", true), ("t", true), ("true", true), ("y", true), ("yes", true)]

/-- The truth value that an integer stands for. One that does not fit a signed word of 64 bits is
not even taken for a number that might stand for one. -/
def truthOfInteger (n : Int) : Except SettingFault Bool :=
  if n = 0 then .ok false
  else if n = 1 then .ok true
  else .error (if -wordLimit ≤ n ∧ n < wordLimit then .notTruth else .notBool)

/-- A truth value, or a word or number that stands for one. -/
def checkBool (field : String) : Datum → Except (List FieldFault) Bool
  | .bool b => .ok b
  | .integer n => (truthOfInteger n).mapError fun fault => [{ field, fault }]
  | .decimal negative digits exponent =>
    match Datum.wholeSize? digits exponent with
    | some size =>
      (truthOfInteger (if negative then -size else size)).mapError fun fault => [{ field, fault }]
    | none => .error [{ field, fault := .notBool }]
  | .text s =>
    match truthWords.find? (·.1 == String.ofList (Text.lower s.toList)) with
    | some (_, b) => .ok b
    | none => .error [{ field, fault := .notTruth }]
  | _ => .error [{ field, fault := .notBool }]

/-- A checked setting, or its default when it is not given. -/
def setting {α : Type} (fields : List (String × Datum)) (name : String) (default : α)
    (check : String → Datum → Except (List FieldFault) α) : Except (List FieldFault) α :=
  match fields.find? (·.1 == name) with
  | some (_, d) => check name d
  | none => .ok default

/-- The faults of a checked setting. -/
def faultsOf {α : Type} : Except (List FieldFault) α → List FieldFault
  | .ok _ => []
  | .error faults => faults

/-- The configuration with the given settings, or all that is wrong with them. -/
def ofFields (fields : List (String × Datum)) : Except (List FieldFault) Config :=
  let plain : Config := {}
  let level := setting fields "log_level" plain.logLevel checkLevel
  let file := setting fields "log_file" plain.logFile checkOptionalText
  let files := setting fields "files" plain.files checkTexts
  let echo := setting fields "echo_results" plain.echoResults checkBool
  match level, file, files, echo with
  | .ok logLevel, .ok logFile, .ok files, .ok echoResults =>
    .ok { logLevel, logFile, files, echoResults }
  | _, _, _, _ => .error (faultsOf level ++ faultsOf file ++ faultsOf files ++ faultsOf echo)

end Config
end Fexpr
