import Fexpr.Evaluate
import Fexpr.Reader

/-!
# Programs

A program is a source with any number of forms, which are evaluated one after the other; the first
that fails ends the program. `evaluateSource` is for the value of the last form, `runSource` for a
report on each form. All forms are read before the first one is evaluated.

A form is evaluated at the top level: whatever ends the evaluation becomes an error of the
program, which names the form.
-/

namespace Fexpr

/-- What ends a program that was to be read and evaluated. -/
inductive RunFault where
  /-- The source has no forms. -/
  | read (fault : ReadFault)
  /-- An evaluation ended without a value. -/
  | eval (fault : Fault)
deriving DecidableEq, Repr

/-- A computation on the machine that reads source texts. -/
abbrev Run := ExceptT RunFault (StateM Machine)

/-- How the evaluation of a form ended. -/
inductive Outcome where
  | complete (value : Value) (rendered : String)
  | failed (kind : ErrorKind) (message : String)

/-- The report on one form of a program. -/
structure FormResult where
  /-- How many forms stand before it. -/
  index : Nat
  /-- The form as a text. -/
  expression : String
  outcome : Outcome

namespace FormResult

/-- The value of a form that was evaluated. -/
def value? (r : FormResult) : Option Value :=
  match r.outcome with
  | .complete v _ => some v
  | .failed .. => none

/-- The written form of the value, if there is one. -/
def rendered? (r : FormResult) : Option String :=
  match r.outcome with
  | .complete _ text => some text
  | .failed .. => none

/-- The kind and the message of the error, if there was one. -/
def error? (r : FormResult) : Option (ErrorKind × String) :=
  match r.outcome with
  | .complete .. => none
  | .failed kind message => some (kind, message)

end FormResult

/-- The report on a program: one result for each form up to the first that failed. -/
structure RunResult where
  results : List FormResult

namespace RunResult

/-- The result of the form that failed. -/
def failure? (r : RunResult) : Option FormResult :=
  r.results.getLast?.filter (·.error?.isSome)

/-- The value of the last form that has one. -/
def lastValue? (r : RunResult) : Option Value :=
  r.results.reverse.findSome? FormResult.value?

end RunResult

namespace Eval

/-- The outcome of an evaluation as a value. -/
def attempt {α : Type} (x : Eval α) : Eval (Except Fault α) := fun m =>
  let (outcome, m) := x m
  (.ok outcome, m)

/-- An evaluation as a part of a run. -/
def toRun {α : Type} (x : Eval α) : Run α := fun m =>
  let (outcome, m) := x m
  (outcome.mapError .eval, m)

end Eval

/-- The part of the program that logs about evaluation. -/
def evaluationLogger : String := "crisp.evaluator.evaluator"

/-- Logs about a form that fails and ends it with an error. -/
def failToplevel {α : Type} (logged : String) (e : EvalError) : Eval α := do
  Eval.log { logger := evaluationLogger, severity := .error, text := logged }
  throw (.error e)

/-- Evaluates one form at the top level. -/
def evaluateToplevel (limits : Limits) (form : Value) (frame : FrameId) : Eval Value := do
  let text ← limits.top.write form
  let unexpected (message : String) : Eval Value :=
    failToplevel ("Unexpected error during evaluation of " ++ text ++ ": " ++ message)
      (.arising (.failed message) text)
  match ← Eval.attempt (evaluate limits form frame) with
  | .ok value => return value
  | .error (.error e) =>
    failToplevel ("Evaluation error in " ++ text ++ ": " ++ e.summary) (e.attach text)
  | .error .tooDeep =>
    failToplevel ("Maximum evaluation depth exceeded in " ++ text) (.arising .tooDeep text)
  | .error .tooLong => unexpected tooLongText
  | .error (.host message) => unexpected message
  | .error .endless => throw .endless

/-- Evaluates forms in order, for the value of the last one, or else `last`. -/
def evaluateForms (limits : Limits) (frame : FrameId) (last : Value) : List Value → Eval Value
  | [] => pure last
  | form :: forms => do
    evaluateForms limits frame (← evaluateToplevel limits form frame) forms

/-- Evaluates forms in order and reports on each, the first one being the form number `index`. -/
def runForms (limits : Limits) (frame : FrameId) (index : Nat) :
    List Value → Eval (List FormResult)
  | [] => pure []
  | form :: forms => do
    let expression ← limits.top.write form
    match ← Eval.attempt (evaluateToplevel limits form frame) with
    | .ok value =>
      let rendered ← limits.top.write value
      let results ← runForms limits frame (index + 1) forms
      return ⟨index, expression, .complete value rendered⟩ :: results
    | .error (.error e) =>
      Eval.log
        { logger := evaluationLogger
          severity := .warning
          text := "Run halted at form " ++ Text.natString index ++ ": " ++ e.summary }
      return [⟨index, expression, .failed e.cause.kind e.cause.message⟩]
    | .error fault => throw fault

/-- Reads a source. -/
def readSource (source : String) : Run (List Value) :=
  match readForms source with
  | .ok forms => pure forms
  | .error fault => throw (.read fault)

/-- Evaluates a source for the value of its last form, nil if it has none. The value must have a
written form. -/
def evaluateSource (limits : Limits) (source : String) (frame : FrameId) : Run Value := do
  let forms ← readSource source
  Eval.toRun do
    let value ← evaluateForms limits frame .nil forms
    let _ ← limits.top.write value
    return value

/-- Evaluates a source for a report on each form. -/
def runSource (limits : Limits) (source : String) (frame : FrameId) : Run RunResult := do
  let forms ← readSource source
  Eval.toRun do return ⟨← runForms limits frame 0 forms⟩

/-- The text of a source file: UTF-8, where every style of line break counts as a line feed. -/
def sourceOfBytes? (bytes : ByteArray) : Option String :=
  (String.fromUTF8? bytes).map fun s => String.ofList (lineFeeds s.toList)
where
  /-- The text with line feeds for all line breaks. -/
  lineFeeds : List Char → List Char
    | [] => []
    | '\r' :: '\n' :: rest => '\n' :: lineFeeds rest
    | '\r' :: rest => '\n' :: lineFeeds rest
    | c :: rest => c :: lineFeeds rest

end Fexpr
