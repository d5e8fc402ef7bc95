import Fexpr.Level.Binding
import Fexpr.Level.Computation
import Fexpr.Level.Control

/-!
# Application

A combiner gets its operands unevaluated. A builtin decides by itself what to evaluate. A fexpr
binds its parameters in the frame of the call, all at once and only when every operand is settled,
and its body runs in that frame too.
-/

namespace Fexpr.Level

/-- What a suspended parameter is bound to: the operand with the frame of the call, or, if the
operand forces a name that is bound to a suspended operand, that one as it is. -/
def suspend (frame : FrameId) (operand : Value) : Eval Value :=
  match operand with
  | .unquote (.symbol name) => do
    match ← Eval.lookup? frame name with
    | some (.suspended e f s id) => return .suspended e f s id
    | _ => Eval.suspend operand frame false
  | _ => Eval.suspend operand frame false

/-- What a parameter is bound to for an operand. -/
def argument (lv : Level) (frame : FrameId) (param : Param) (operand : Value) : Eval Value :=
  if param.suspended then suspend frame operand else lv.evaluate operand frame

/-- What parameters are bound to, operand by operand. -/
def arguments (lv : Level) (frame : FrameId) :
    List Param → List Value → Eval (List (String × Value))
  | param :: params, operand :: operands => do
    let value ← lv.argument frame param operand
    return (param.name, value) :: (← lv.arguments frame params operands)
  | _, _ => pure []

/-- What the parameter for all remaining operands is bound to. -/
def restArgument (lv : Level) (frame : FrameId) (param : Param) (operands : List Value) :
    Eval Value :=
  if param.suspended then Eval.suspend (.ofItems operands) frame true
  else do Eval.makeList (← lv.evaluateAll frame operands)

/-- Applies a fexpr. -/
def applyFexpr (lv : Level) (name : String) (params : List Param) (body : List Value) (c : Call) :
    Eval Value := do
  let required := Param.required params
  let rest := Param.rest? params
  let count := c.operands.length
  if count < required.length || (rest.isNone && required.length < count) then
    c.fail (.arity name required.length rest.isSome count)
  let fixed ← lv.arguments c.frame required c.operands
  let extra ← match rest with
    | some param => do
      let value ← lv.restArgument c.frame param (c.operands.drop required.length)
      pure [(param.name, value)]
    | none => pure []
  Eval.defineAll c.frame (fixed ++ extra)
  lv.sequence c.frame body

/-- Applies a builtin. -/
def applyBuiltin (lv : Level) : Builtin → Call → Eval Value
  | .ifForm => lv.ifForm
  | .letForm => lv.letForm
  | .setForm => lv.setForm
  | .defun => lv.defun
  | .progn => lv.progn
  | .whenForm => lv.whenForm
  | .whileForm => lv.whileForm
  | .add => lv.add
  | .subtract => lv.subtract
  | .multiply => lv.multiply
  | .divide => lv.divide
  | .equal => lv.equal
  | .unequal => lv.unequal
  | .list => lv.list
  | .car => lv.car
  | .cdr => lv.cdr
  | .debug => lv.debug

/-- Applies a combiner; nothing else can be applied. -/
def apply (lv : Level) (combiner : Value) (c : Call) : Eval Value :=
  match combiner with
  | .builtin op _ => (lv.deeper op.skipped).applyBuiltin op c
  | .raiser message _ =>
    throw (.host (message ++ ":" ++ Text.natString c.operands.length ++ ":" ++ c.text))
  | .fexpr _ name params body _ => (lv.deeper skippedByFexpr).applyFexpr name params body c
  | other => do c.fail (.notCallable (← lv.write other))

end Fexpr.Level
