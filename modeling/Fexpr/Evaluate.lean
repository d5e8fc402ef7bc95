import Fexpr.Level.Application

/-!
# Evaluation

The rules of the language for one expression (`Level.step`), and the levels stacked on one another
(`evaluate`). A stack of `levels` is finite; an evaluation that would nest deeper ends in a fault.
-/

namespace Fexpr

namespace Level

/-- What a name stands for, a suspended operand as it is. -/
def resolve (frame : FrameId) (name : String) : Eval Value := do
  match ← Eval.lookup? frame name with
  | some value => return value
  | none => throw (.error (.arising (.unbound name) ""))

/-- Evaluates one expression.

Numbers, strings, nil and combiners are their own values. A name bound to a suspended operand
gives the operand's expression; unquoting the name evaluates it. A list applies the value of its
head. -/
def step (lv : Level) (expression : Value) (frame : FrameId) : Eval Value :=
  match expression with
  | .number _ | .string _ | .nil | .builtin .. | .raiser .. | .fexpr .. => return expression
  | .symbol name => do
    match ← resolve frame name with
    | .suspended e .. => return e
    | value => return value
  | .quote (.list [] _) => return .nil
  | .quote body => return body
  | .unquote (.symbol name) => do
    match ← resolve frame name with
    | .suspended e f s _ => (lv.deeper skippedByForcing).force e f s
    | value => return value
  | .unquote body => (lv.deeper skippedByUnquoting).evaluate body frame
  | .list [] _ => return .nil
  | .list (head :: operands) _ => do
    let text ← lv.write expression
    let combiner ← (lv.deeper skippedByHead).evaluate head frame
    lv.apply combiner { operands, frame, text }
  | .suspended .. | .hostNumber _ | .hostText _ =>
    match expression.constructorText lv.room with
    | .ok text => throw (.error (.arising (.notEvaluable expression.typeName) text))
    | .error fault => throw fault.toFault

end Level

/-- What bounds an evaluation. -/
structure Limits where
  /-- How many levels an evaluation may take. -/
  levels : Nat := 1400
  /-- How many turns a loop may take. -/
  turns : Nat := 0x10000000000000000
  /-- Whether values are written out to report progress. -/
  tracing : Bool := true

/-- Evaluates an expression in a frame, with a number of levels, of which some are skipped. -/
def evaluateWithin (limits : Limits) : Nat → Nat → Value → FrameId → Eval Value
  | 0, _, _, _ => throw .tooDeep
  | levels + 1, skipped + 1, expression, frame =>
    evaluateWithin limits levels skipped expression frame
  | levels + 1, 0, expression, frame =>
    Level.step
      { below := evaluateWithin limits levels
        levels
        turns := limits.turns
        tracing := limits.tracing }
      expression frame

namespace Limits

/-- What an evaluation may rely on that has a number of levels below. -/
def level (limits : Limits) (levels : Nat) : Level where
  below := evaluateWithin limits levels
  levels := levels
  turns := limits.turns
  tracing := limits.tracing

/-- The level that the whole stack of levels carries. -/
def top (limits : Limits) : Level := limits.level limits.levels

end Limits

/-- Without a level left, every evaluation is too deep. -/
@[simp] theorem evaluateWithin_zero (limits : Limits) (skipped : Nat) (expression : Value)
    (frame : FrameId) : evaluateWithin limits 0 skipped expression frame = throw .tooDeep := rfl

/-- One level more evaluates an expression by the rules, and what it needs on the levels below. -/
theorem evaluateWithin_succ (limits : Limits) (levels : Nat) (expression : Value)
    (frame : FrameId) :
    evaluateWithin limits (levels + 1) 0 expression frame =
      (limits.level levels).step expression frame := rfl

/-- To skip levels is to have fewer of them. -/
theorem evaluateWithin_skip (limits : Limits) (levels skipped : Nat) (expression : Value)
    (frame : FrameId) :
    evaluateWithin limits levels skipped expression frame =
      evaluateWithin limits (levels - skipped) 0 expression frame := by
  induction levels generalizing skipped with
  | zero => simp
  | succ levels ih =>
    cases skipped with
    | zero => rfl
    | succ skipped =>
      rw [Nat.add_sub_add_right]
      exact ih skipped

/-- The level left when some are skipped is the one with fewer levels below. -/
theorem Limits.deeper_level (limits : Limits) (levels skipped : Nat) :
    (limits.level levels).deeper skipped = limits.level (levels - skipped) := by
  have below : (fun more => evaluateWithin limits levels (skipped + more)) =
      evaluateWithin limits (levels - skipped) := by
    funext more expression frame
    rw [evaluateWithin_skip, evaluateWithin_skip limits (levels - skipped), Nat.sub_add_eq]
  simp [level, Level.deeper, below]

/-- Evaluates an expression in a frame. -/
def evaluate (limits : Limits) (expression : Value) (frame : FrameId) : Eval Value :=
  evaluateWithin limits limits.levels 0 expression frame

end Fexpr
