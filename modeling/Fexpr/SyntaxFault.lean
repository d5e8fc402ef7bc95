import Fexpr.Token
import Fexpr.Text.Decimal

/-!
# Syntax faults

Why a source has no forms, and how that is reported: a message, details, the place if one token is
to blame, and the beginning of the source.
-/

namespace Fexpr

/-- A report on a source: what is wrong, where, and the source itself. A line of zero means that
no place is known. -/
structure SyntaxReport where
  message : String
  source : String
  details : String := ""
  line : Int := 0
  column : Int := 0
deriving DecidableEq, Repr

namespace SyntaxReport

/-- How much of a source a report shows. -/
def shownLength : Nat := 200

/-- The beginning of a source, as a report shows it. -/
def excerpt (source : String) : String :=
  let cs := source.toList
  if cs.length ≤ shownLength then source else String.ofList (cs.take shownLength) ++ "..."

/-- The whole report as a text. -/
def text (r : SyntaxReport) : String :=
  r.message
    ++ (if r.line = 0 then "" else
      " (line " ++ Text.integerString r.line ++ ", column " ++ Text.integerString r.column ++ ")")
    ++ "\nInput: '" ++ excerpt r.source ++ "'"
    ++ (if r.details.isEmpty then "" else "\nDetails: " ++ r.details)

end SyntaxReport

/-- Why a source has no forms. -/
inductive SyntaxFault where
  /-- A string is never closed. -/
  | unclosedString (position : Position)
  /-- A closing bracket stands where no list is open, or after a mark. -/
  | unexpectedCloser (found : Bracket) (position : Position)
  /-- A list is closed in the other style than it was opened in. -/
  | mismatchedCloser (found : Bracket) (expected : Bracket) (position : Position)
  /-- A list is never closed. -/
  | unclosedList (bracket : Bracket) (position : Position)
  /-- The source ends after a mark. -/
  | nothingMarked (mark : Mark) (position : Position)
  /-- One form is wanted and there is none. -/
  | noForm
  /-- One form is wanted and there are more. -/
  | manyForms (count : Nat)
deriving DecidableEq, Repr

namespace SyntaxFault

/-- What is wrong, in words. -/
def message : SyntaxFault → String
  | unclosedString _ => "Unterminated string literal"
  | unexpectedCloser found _ => "Unexpected '" ++ found.closer.toString ++ "'"
  | mismatchedCloser found expected _ =>
    "Mismatched '" ++ found.closer.toString ++ "', expected '" ++ expected.closer.toString ++ "'"
  | unclosedList bracket _ =>
    "Unbalanced parentheses: missing '" ++ bracket.closer.toString ++ "'"
  | nothingMarked mark _ =>
    "Unexpected end of input after " ++ mark.name ++ " (" ++ mark.char.toString ++ ")"
  | noForm => "Input string is empty or contains only whitespace."
  | manyForms _ => "Multiple top-level expressions found. Use (progn ...) or parse_program."

/-- What else is known. -/
def details : SyntaxFault → String
  | unexpectedCloser .. => "Unbalanced parentheses or brackets."
  | unclosedList .. => "List opened here was never closed"
  | manyForms count => "Found " ++ Text.natString count ++ " expressions"
  | _ => ""

/-- The place of the token to blame. -/
def position? : SyntaxFault → Option Position
  | unclosedString p => some p
  | unexpectedCloser _ p => some p
  | mismatchedCloser _ _ p => some p
  | unclosedList _ p => some p
  | nothingMarked _ p => some p
  | noForm => none
  | manyForms _ => none

/-- The report on a source with this fault. -/
def report (f : SyntaxFault) (source : String) : SyntaxReport where
  message := f.message
  source := source
  details := f.details
  line := (f.position?.map fun p => (p.line : Int)).getD 0
  column := (f.position?.map fun p => (p.column : Int)).getD 0

end SyntaxFault

/-- Why reading a source ends without forms. -/
inductive ReadFault where
  /-- The source is not well formed. -/
  | invalid (fault : SyntaxFault)
  /-- An integer has more digits than the limit. -/
  | longNumeral (digits : Nat)
  /-- The source nests deeper than there is room for. -/
  | tooDeep
deriving DecidableEq, Repr

/-- What is said of a numeral that is too long to be read. -/
def longNumeralText (digits : Nat) : String :=
  "Exceeds the limit (4300 digits) for integer string conversion: value has "
    ++ Text.natString digits
    ++ " digits; use sys.set_int_max_str_digits() to increase the limit"

end Fexpr
