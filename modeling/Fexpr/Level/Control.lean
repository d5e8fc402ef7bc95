import Fexpr.Level

/-!
# Control

The builtins that choose which operands are evaluated, and how often.
-/

namespace Fexpr.Level

/-- `(if test then else...)` evaluates one branch; the second may be missing or be a sequence. -/
def ifForm (lv : Level) (c : Call) : Eval Value :=
  match c.operands with
  | test :: yes :: no => do
    let condition ← lv.evaluate test c.frame
    lv.trace test
    lv.trace condition
    if condition.isNil then lv.sequence c.frame no else lv.evaluate yes c.frame
  | _ => c.fail (.operandCount .ifForm)

/-- `(progn expr...)` evaluates all operands for the value of the last. -/
def progn (lv : Level) (c : Call) : Eval Value :=
  lv.sequence c.frame c.operands

/-- `(when test body...)` evaluates the body unless the test is nil. -/
def whenForm (lv : Level) (c : Call) : Eval Value :=
  match c.operands with
  | test :: e :: body => do
    if (← lv.evaluate test c.frame).isNil then return .nil
    else lv.sequence c.frame (e :: body)
  | _ => c.fail (.operandCount .whenForm)

/-- Evaluates the body as long as the test is not nil, in at most `turns` turns. -/
def loop (lv : Level) (frame : FrameId) (test : Value) (body : List Value) : Nat → Eval Value
  | 0 => throw .endless
  | turns + 1 => do
    if (← lv.evaluate test frame).isNil then return .nil
    else
      let _ ← lv.sequence frame body
      lv.loop frame test body turns

/-- `(while test body...)` evaluates the body as long as the test is not nil; its value is nil. -/
def whileForm (lv : Level) (c : Call) : Eval Value :=
  match c.operands with
  | test :: e :: body => lv.loop c.frame test (e :: body) lv.turns
  | _ => c.fail (.operandCount .whileForm)

end Fexpr.Level
