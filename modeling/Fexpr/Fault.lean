import Fexpr.Value.Printer

/-!
# Faults of evaluation

A `Cause` says why an expression has no value; its kind, message and details are functions of it.
An `EvalError` adds the expressions it arose in. A `Fault` is whatever ends an evaluation without
a value: an error of the program, or a limit of the machine, which the top level turns into an
error.
-/

namespace Fexpr

/-- The kinds of error that a program can meet. -/
inductive ErrorKind where
  | evaluation
  | unboundSymbol
  | typeMismatch
  | notCallable
  | malformed
deriving DecidableEq, Repr

/-- The name of a kind of error. -/
def ErrorKind.name : ErrorKind → String
  | evaluation => "EvaluationError"
  | unboundSymbol => "UnboundSymbol"
  | typeMismatch => "TypeMismatch"
  | notCallable => "NotCallable"
  | malformed => "Malformed"

/-- A report on a failed evaluation: what went wrong, in which expression, and more if known. -/
structure ErrorReport where
  kind : ErrorKind
  message : String
  expression : String := ""
  details : String := ""
deriving DecidableEq, Repr

/-- The whole report as a text. -/
def ErrorReport.text (r : ErrorReport) : String :=
  r.message
    ++ (if r.expression.isEmpty then "" else "\nExpression: '" ++ r.expression ++ "'")
    ++ (if r.details.isEmpty then "" else "\nDetails: " ++ r.details)

/-- What is said of a name without a binding. -/
def unboundMessage (name : String) : String :=
  "Unbound symbol: '" ++ name ++ "' is not defined."

/-- Why an expression has no value. Values are named by their written form. -/
inductive Cause where
  /-- A name is looked up that no frame of the chain binds. -/
  | unbound (name : String)
  /-- A name is set that no frame of the chain binds. -/
  | setUnbound (name : String)
  | divisionByZero
  /-- An operand of an arithmetic builtin is no number; positions count from one. -/
  | notANumber (op : Builtin) (position : Nat) (got : String)
  | notAList (op : Builtin) (got : String)
  /-- The head of a list is no combiner. -/
  | notCallable (got : String)
  /-- A builtin has too few operands or too many. -/
  | operandCount (op : Builtin)
  /-- A fexpr has too few operands or too many. -/
  | arity (name : String) (required : Nat) (hasRest : Bool) (got : Nat)
  /-- What `let` or `set` should bind is no symbol. -/
  | target (op : Builtin) (got : String)
  /-- What `defun` should bind is no symbol. -/
  | definedName (got : String)
  | paramList (got : String)
  | param (got : String)
  | restNotLast (got : String)
  | duplicateParam (name : String)
  /-- What is evaluated is no expression. -/
  | notEvaluable (typeName : String)
  /-- The evaluation nests too deep. -/
  | tooDeep
  /-- The evaluation ends with a failure of the host. -/
  | failed (text : String)
deriving DecidableEq, Repr

namespace Builtin

/-- What is said of a builtin with too few operands or too many. -/
def countMessage : Builtin → String
  | ifForm => "'if' requires a test and a then branch: (if test then else...)"
  | letForm => "'let' requires a symbol and a value expression: (let 'symbol expression)"
  | setForm => "'set' requires a symbol and a value expression: (set 'symbol expression)"
  | defun =>
    "'defun' requires a name, a parameter list and at least one body expression: "
      ++ "(defun name [params] body...)"
  | whenForm => "'when' requires a test and at least one body expression"
  | whileForm => "'while' requires a test and at least one body expression"
  | add => "'+' requires at least one numeric argument."
  | subtract => "'-' requires at least one numeric argument."
  | multiply => "'*' requires at least one numeric argument."
  | divide => "'/' requires at least one numeric argument."
  | equal => "'=' requires at least one argument."
  | unequal => "'=' requires at least one argument."
  | car => "'car' requires exactly one argument."
  | cdr => "'cdr' requires exactly one argument."
  | debug => "'debug' requires exactly one argument."
  | progn => ""
  | list => ""

end Builtin

namespace Cause

/-- The kind of error that a cause makes. -/
def kind : Cause → ErrorKind
  | unbound _ | setUnbound _ => .unboundSymbol
  | notANumber .. | notAList .. => .typeMismatch
  | notCallable _ => .notCallable
  | divisionByZero | tooDeep | failed _ => .evaluation
  | operandCount _ | arity .. | target .. | definedName _ | paramList _ | param _ | restNotLast _
  | duplicateParam _ | notEvaluable _ => .malformed

/-- The cause in words. -/
def message : Cause → String
  | unbound name => unboundMessage name
  | setUnbound name => unboundMessage name
  | divisionByZero => "Division by zero"
  | notANumber op position got =>
    "'" ++ op.name ++ "' argument " ++ Text.natString position ++ " must be a number, got " ++ got
      ++ "."
  | notAList op got => "'" ++ op.name ++ "' argument must be a list, got " ++ got ++ "."
  | notCallable got => "Cannot apply non-combiner " ++ got
  | operandCount op => op.countMessage
  | arity name required hasRest got =>
    "Arity mismatch: '" ++ name ++ "' expects " ++ Text.natString required
      ++ (if hasRest then " or more" else "") ++ " arguments, got " ++ Text.natString got
  | target op got => "'" ++ op.name ++ "' target must be a symbol, got " ++ got
  | definedName got => "'defun' name must be a symbol, got " ++ got
  | paramList got => "'defun' parameters must be a list, got " ++ got
  | param got => "'defun' parameter must be a symbol or a quoted symbol, got " ++ got
  | restNotLast got => "Rest parameter '" ++ got ++ "' must be the last parameter"
  | duplicateParam name => "Duplicate parameter name '" ++ name ++ "'"
  | notEvaluable typeName => "Cannot evaluate object of type " ++ typeName
  | tooDeep => "Maximum evaluation depth exceeded"
  | failed text => "Evaluation failed: " ++ text

/-- What else is known of a cause. -/
def details : Cause → String
  | setUnbound _ => "set only updates existing bindings; use let to create one"
  | failed text => text
  | _ => ""

/-- The report on a cause in an expression. -/
def report (c : Cause) (expression : String) : ErrorReport where
  kind := c.kind
  message := c.message
  expression := expression
  details := c.details

end Cause

/-- An error of the program. -/
structure EvalError where
  cause : Cause
  /-- The expression known when the error arose, empty if none was. -/
  origin : String
  /-- The expression to blame, attached at the top level if none was known before. -/
  expression : String
deriving DecidableEq, Repr

namespace EvalError

/-- An error that arises in an expression. -/
def arising (cause : Cause) (expression : String) : EvalError :=
  ⟨cause, expression, expression⟩

/-- The error with a form to blame, if it has none yet. -/
def attach (e : EvalError) (form : String) : EvalError :=
  if e.expression.isEmpty then { e with expression := form } else e

/-- The report as it stood when the error arose. -/
def text (e : EvalError) : String :=
  (e.cause.report e.origin).text

/-- The kind and the message of the error, as logs and sessions show them. -/
def summary (e : EvalError) : String :=
  e.cause.kind.name ++ ": " ++ e.cause.message

end EvalError

/-- What ends an evaluation without a value. -/
inductive Fault where
  /-- The program is in error. -/
  | error (e : EvalError)
  /-- An integer has too many digits to be written. -/
  | tooLong
  /-- Evaluation, or a value on its way, nests deeper than there is room for. -/
  | tooDeep
  /-- A combiner of the host fails. -/
  | host (message : String)
  /-- A loop takes more turns than the machine allows. -/
  | endless
deriving DecidableEq, Repr

/-- A value without a written form ends the evaluation that wants to write it. -/
def TextFault.toFault : TextFault → Fault
  | tooLong => .tooLong
  | tooDeep => .tooDeep

end Fexpr
