import Fexpr.Text.Case
import Fexpr.Text.Decimal
import Fexpr.Text.Quotation

/-!
# Log records

A record has a severity, a number; the log keeps the records that are at least as severe as its
own level. Some severities have names, in which a level may be given in any case.
-/

namespace Fexpr

/-- How severe a record is. -/
abbrev Severity := Int

namespace Severity

def critical : Severity := 50
def error : Severity := 40
def warning : Severity := 30
def info : Severity := 20
def debug : Severity := 10

/-- The named severities. Of two names for one, the first is shown. -/
def names : List (String × Severity) :=
  [("CRITICAL", critical), ("FATAL", critical), ("ERROR", error), ("WARNING", warning),
    ("WARN", warning), ("INFO", info), ("DEBUG", debug), ("NOTSET", 0)]

/-- The severity that a name in capitals stands for. -/
def ofName? (name : String) : Option Severity :=
  (names.find? (·.1 == name)).map (·.2)

/-- The name of a severity, or its number. -/
def label (s : Severity) : String :=
  match names.find? (·.2 == s) with
  | some (name, _) => name
  | none => "Level " ++ Text.integerString s

end Severity

/-- A text that one part of the program logs. -/
structure LogRecord where
  logger : String
  severity : Severity
  text : String
deriving DecidableEq, Repr

namespace LogRecord

/-- The record as a line of the log. -/
def line (r : LogRecord) : String :=
  r.logger ++ " - " ++ r.severity.label ++ " - " ++ r.text ++ "\n"

/-- Whether a log of this level keeps the record. No log keeps records without any severity. -/
def isKept (level : Severity) (r : LogRecord) : Bool :=
  0 < r.severity && level ≤ r.severity

end LogRecord

/-- The lines that a log of this level holds after the records. -/
def logLines (level : Severity) (records : List LogRecord) : String :=
  String.join ((records.filter (LogRecord.isKept level)).map LogRecord.line)

namespace LogLevel

/-- A text in capitals. -/
def upper (name : String) : String :=
  String.ofList (Text.upper name.toList)

/-- The level that a name stands for, in any case. -/
def ofName? (name : String) : Option Severity :=
  Severity.ofName? (upper name)

/-- What is said of a name that stands for no level. -/
def unknownText (name : String) : String :=
  "Unknown log level: " ++ Text.quote name

/-- The first record of every log, which tells its level. -/
def opening (name : String) : LogRecord where
  logger := "crisp.config.logging_config"
  severity := .info
  text := "Logging initialized at " ++ upper name ++ " level"

end LogLevel
end Fexpr
