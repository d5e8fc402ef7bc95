import Fexpr.Arithmetic
import Fexpr.Level

/-!
# Computation

The builtins that evaluate all their operands, from left to right, and compute from the values.
-/

namespace Fexpr.Level

/-- Evaluates operands that must be numbers, up to the first that is none. The first operand
stands at `position`. -/
def numbers (lv : Level) (op : Builtin) (c : Call) (position : Nat) :
    List Value → Eval (List Int)
  | [] => pure []
  | e :: es => do
    match ← lv.evaluate e c.frame with
    | .number n => return n :: (← lv.numbers op c (position + 1) es)
    | other => c.fail (.notANumber op position (← lv.write other))

/-- Evaluates the operands of an arithmetic builtin, of which there must be one. -/
def operandNumbers (lv : Level) (op : Builtin) (c : Call) : Eval (List Int) :=
  if c.operands.isEmpty then c.fail (.operandCount op) else lv.numbers op c 1 c.operands

/-- `(+ n...)` is the sum, and reports it. -/
def add (lv : Level) (c : Call) : Eval Value := do
  let total := Value.number (Arithmetic.sum (← lv.operandNumbers .add c))
  lv.trace total
  return total

/-- `(- n m...)` is the first without the others, or the opposite of a number by itself. -/
def subtract (lv : Level) (c : Call) : Eval Value := do
  return .number (Arithmetic.difference (← lv.operandNumbers .subtract c))

/-- `(* n...)` is the product. -/
def multiply (lv : Level) (c : Call) : Eval Value := do
  return .number (Arithmetic.product (← lv.operandNumbers .multiply c))

/-- `(/ n m...)` divides from left to right, toward zero. -/
def divide (lv : Level) (c : Call) : Eval Value := do
  match ← lv.operandNumbers .divide c with
  | [] => c.fail (.operandCount .divide)
  | n :: divisors =>
    match Arithmetic.quotient? n divisors with
    | some q => return .number q
    | none => c.fail .divisionByZero

/-- Whether all operands have equal values. -/
def allEqual (lv : Level) (c : Call) : Eval Bool := do
  if c.operands.isEmpty then c.fail (.operandCount .equal)
  match ← lv.evaluateAll c.frame c.operands with
  | [] => return true
  | first :: others =>
    match Value.allSame? lv.room first others with
    | some answer => return answer
    | none => throw .tooDeep

/-- `(= a...)` tells whether all operands have equal values. -/
def equal (lv : Level) (c : Call) : Eval Value := do
  return .ofBool (← lv.allEqual c)

/-- `(/= a...)` tells whether some operands have different values. -/
def unequal (lv : Level) (c : Call) : Eval Value := do
  return .ofBool (!(← lv.allEqual c))

/-- `(list a...)` is a new list of the values. -/
def list (lv : Level) (c : Call) : Eval Value := do
  Eval.makeList (← lv.evaluateAll c.frame c.operands)

/-- Evaluates the one operand of `car` or `cdr`, which must be a list. -/
def operandItems (lv : Level) (op : Builtin) (c : Call) : Eval (List Value) :=
  match c.operands with
  | [e] => do
    match ← lv.evaluate e c.frame with
    | .nil => return []
    | .list items _ => return items
    | other => c.fail (.notAList op (← lv.write other))
  | _ => c.fail (.operandCount op)

/-- `(car xs)` is the first item, nil if there is none. -/
def car (lv : Level) (c : Call) : Eval Value := do
  return (← lv.operandItems .car c).headD .nil

/-- `(cdr xs)` is a new list without the first item. -/
def cdr (lv : Level) (c : Call) : Eval Value := do
  Eval.makeList (← lv.operandItems .cdr c).tail

/-- `(debug e)` prints the value and is the value. -/
def debug (lv : Level) (c : Call) : Eval Value :=
  match c.operands with
  | [e] => do
    let value ← lv.evaluate e c.frame
    Eval.printLine (← lv.write value)
    return value
  | _ => c.fail (.operandCount .debug)

end Fexpr.Level
