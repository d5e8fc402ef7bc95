import Fexpr.Machine
import Fexpr.Value.Equality

/-!
# Levels of evaluation

Evaluation nests: an expression is evaluated by evaluating others on lower levels. A `Level` is
what an evaluation may rely on: the evaluations below, how many levels there are for them, and how
many turns a loop may take. The rules of the language are functions of a level; the levels are
stacked elsewhere.

How far down an expression is evaluated depends on what leads there. Every way takes one level, and
skips more: there is work between a call and the operands of it, which takes levels too.

When `tracing`, the forms that report their progress write out the values they report. Nobody sees
the texts, but a value without a written form ends the evaluation.
-/

namespace Fexpr

/-- How deep a value may nest to be written or compared, above a number of levels. It takes more
levels than one to go into a list. -/
def roomOf (levels : Nat) : Nat := levels * 7 / 12

/-- What the evaluation of an expression may rely on. -/
structure Level where
  /-- The evaluation one level below, or as many levels further down as are skipped. -/
  below : Nat → Value → FrameId → Eval Value
  /-- How many levels there are below. -/
  levels : Nat
  /-- How many turns a loop may take. -/
  turns : Nat
  /-- Whether values are written out to report progress. -/
  tracing : Bool

/-! ## What is skipped -/

/-- How many levels a call of a builtin skips before it evaluates an operand. -/
def Builtin.skipped : Builtin → Nat
  | ifForm | letForm | setForm | defun | whenForm | whileForm | debug => 5
  | progn | add | subtract | multiply | divide | car | cdr => 6
  | equal | list => 7
  | unequal => 8

namespace Level

/-- How many levels a call of a fexpr skips before it evaluates operands or its body. -/
def skippedByFexpr : Nat := 4

/-- How many levels a list skips before it evaluates its head. -/
def skippedByHead : Nat := 1

/-- How many levels an unquoted name skips before it evaluates the operand it stands for. -/
def skippedByForcing : Nat := 2

/-- How many levels any other unquoted expression skips before it is evaluated. -/
def skippedByUnquoting : Nat := 1

end Level

/-! ## Calls -/

/-- A combiner's operands, the frame they are in, and the text of the whole call. -/
structure Call where
  operands : List Value
  frame : FrameId
  text : String

namespace Call

/-- Ends a call with an error of the program. -/
def fail {α : Type} (c : Call) (cause : Cause) : Eval α :=
  throw (.error (.arising cause c.text))

end Call

/-! ## What a level does -/

namespace Level

/-- The evaluation one level below. -/
def evaluate (lv : Level) : Value → FrameId → Eval Value :=
  lv.below 0

/-- The level that is left when some are skipped. -/
def deeper (lv : Level) (skipped : Nat) : Level :=
  { lv with
    below := fun more => lv.below (skipped + more)
    levels := lv.levels - skipped }

/-- How deep a value may nest to be written or compared. -/
def room (lv : Level) : Nat := roomOf lv.levels

/-- The written form of a value, without which the evaluation ends. -/
def write (lv : Level) (v : Value) : Eval String :=
  match v.render lv.room with
  | .ok text => pure text
  | .error fault => throw fault.toFault

/-- Writes out a value to report progress. -/
def trace (lv : Level) (v : Value) : Eval Unit :=
  if lv.tracing then discard (lv.write v) else pure ()

/-- Evaluates expressions in order, for the value of the last one, or else `last`. -/
def sequenceAfter (lv : Level) (frame : FrameId) (last : Value) : List Value → Eval Value
  | [] => pure last
  | e :: es => do lv.sequenceAfter frame (← lv.evaluate e frame) es

/-- Evaluates expressions in order, for the value of the last one, nil if there are none. -/
def sequence (lv : Level) (frame : FrameId) (es : List Value) : Eval Value :=
  lv.sequenceAfter frame .nil es

/-- Evaluates expressions in order, for the values of all. -/
def evaluateAll (lv : Level) (frame : FrameId) : List Value → Eval (List Value)
  | [] => pure []
  | e :: es => do
    let v ← lv.evaluate e frame
    return v :: (← lv.evaluateAll frame es)

/-- Evaluates a suspended expression in its own frame, anew each time. -/
def force (lv : Level) (expression : Value) (frame : FrameId) (sequence : Bool) : Eval Value := do
  lv.trace expression
  if sequence then
    match expression with
    | .list items _ => lv.sequence frame items
    | _ => return .nil
  else lv.evaluate expression frame

end Level
end Fexpr
