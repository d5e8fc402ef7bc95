import Fexpr.Level
import Fexpr.ParamList

/-!
# Binding

The builtins that bind names: `let` in the frame of the call, `set` where the name is bound
already, and `defun`, which makes a fexpr and evaluates nothing.
-/

namespace Fexpr

/-- The name that an operand of `let` or `set` spells, quoted or not. -/
def Value.targetName? : Value → Option String
  | .symbol name => some name
  | .quote (.symbol name) => some name
  | _ => none

namespace Level

/-- The name that `let` or `set` binds: the one that the operand spells, or else the symbol that it
evaluates to. -/
def target (lv : Level) (op : Builtin) (c : Call) (operand : Value) : Eval String :=
  match operand.targetName? with
  | some name => pure name
  | none => do
    match ← lv.evaluate operand c.frame with
    | .symbol name => return name
    | other => c.fail (.target op (← lv.write other))

/-- `(let 'name expr)` binds the name in the frame of the call. -/
def letForm (lv : Level) (c : Call) : Eval Value :=
  match c.operands with
  | [operand, e] => do
    let name ← lv.target .letForm c operand
    let value ← lv.evaluate e c.frame
    Eval.define c.frame name value
    lv.trace value
    return value
  | _ => c.fail (.operandCount .letForm)

/-- `(set 'name expr)` changes the nearest binding of the name. -/
def setForm (lv : Level) (c : Call) : Eval Value :=
  match c.operands with
  | [operand, e] => do
    let name ← lv.target .setForm c operand
    let value ← lv.evaluate e c.frame
    if ← Eval.assign c.frame name value then
      lv.trace value
      return value
    else throw (.error (.arising (.setUnbound name) ""))
  | _ => c.fail (.operandCount .setForm)

/-- The parameters that an operand of `defun` spells. -/
def params (lv : Level) (c : Call) (tree : Value) : Eval (List Param) :=
  match Param.listOfTree tree with
  | .ok params => pure params
  | .error (.notAList tree) => do c.fail (.paramList (← lv.write tree))
  | .error (.notAName item) => do c.fail (.param (← lv.write item))
  | .error (.restNotLast item) => do c.fail (.restNotLast (← lv.write item))
  | .error (.duplicate name) => c.fail (.duplicateParam name)

/-- `(defun name (param...) body...)` binds a new fexpr in the frame of the call. -/
def defun (lv : Level) (c : Call) : Eval Value :=
  match c.operands with
  | nameTree :: paramTree :: e :: body => do
    match nameTree.targetName? with
    | some name =>
      let params ← lv.params c paramTree
      let fexpr := Value.fexpr (← Eval.freshId) name params (e :: body) c.frame
      Eval.define c.frame name fexpr
      return fexpr
    | none => c.fail (.definedName (← lv.write (unquoted nameTree)))
  | _ => c.fail (.operandCount .defun)
where
  /-- A tree without the quote around it. -/
  unquoted : Value → Value
    | .quote body => body
    | tree => tree

end Level
end Fexpr
