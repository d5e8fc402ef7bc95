import Fexpr.Evaluate

/-!
# Watched evaluation

A condition on machines may hold at the start of an evaluation and at its end, and not in between.
`watchedWithin` evaluates as `evaluateWithin` does, but looks at the machine whenever it starts on
an expression, and ends with an alarm if the condition does not hold there. The condition holds
throughout an evaluation when no alarm, whichever it is, makes a difference.
-/

namespace Fexpr

/-- Evaluates an expression in a frame, as long as a condition on the machine holds whenever the
evaluation of an expression starts. -/
def watchedWithin (limits : Limits) (condition : Machine → Bool) (alarm : Fault) :
    Nat → Nat → Value → FrameId → Eval Value
  | 0, _, _, _ => throw .tooDeep
  | levels + 1, skipped + 1, expression, frame =>
    watchedWithin limits condition alarm levels skipped expression frame
  | levels + 1, 0, expression, frame => do
    if condition (← get) then
      Level.step
        { below := watchedWithin limits condition alarm levels
          levels
          turns := limits.turns
          tracing := limits.tracing }
        expression frame
    else throw alarm

/-- The condition on the machine holds whenever the evaluation of an expression starts, in the
course of one evaluation: that does not end in the alarm, for an alarm that is no fault of its
own. -/
def HoldsThroughout (condition : Machine → Bool) (limits : Limits) (levels : Nat)
    (expression : Value) (frame : FrameId) (m : Machine) : Prop :=
  ∃ alarm, (watchedWithin limits condition alarm levels 0 expression frame m).1 ≠ .error alarm

namespace Limits

/-- What a watched evaluation may rely on that has a number of levels below. -/
def watchedLevel (limits : Limits) (condition : Machine → Bool) (alarm : Fault) (levels : Nat) :
    Level where
  below := watchedWithin limits condition alarm levels
  levels := levels
  turns := limits.turns
  tracing := limits.tracing

end Limits

variable {limits : Limits} {condition : Machine → Bool} {alarm : Fault} {levels : Nat}
  {expression : Value} {frame : FrameId} {m : Machine}

/-- Where the condition holds, one level more evaluates an expression by the rules. -/
theorem watchedWithin_of_holds (h : condition m = true) :
    watchedWithin limits condition alarm (levels + 1) 0 expression frame m =
      (limits.watchedLevel condition alarm levels).step expression frame m := by
  change (if condition m = true then _ else _ : Eval Value) m = _
  rw [if_pos h]
  rfl

/-- Where the condition does not hold, there is an alarm. -/
theorem watchedWithin_of_not_holds (h : condition m = false) :
    watchedWithin limits condition alarm (levels + 1) 0 expression frame m =
      (.error alarm, m) := by
  change (if condition m = true then _ else _ : Eval Value) m = _
  rw [if_neg (by rw [h]; exact Bool.false_ne_true)]
  rfl

/-- To skip levels is to have fewer of them. -/
theorem watchedWithin_skip (limits : Limits) (condition : Machine → Bool) (alarm : Fault)
    (levels skipped : Nat) :
    watchedWithin limits condition alarm levels skipped =
      watchedWithin limits condition alarm (levels - skipped) 0 := by
  induction levels generalizing skipped with
  | zero => simp only [Nat.zero_sub]; rfl
  | succ levels ih =>
    cases skipped with
    | zero => rfl
    | succ skipped =>
      rw [Nat.add_sub_add_right]
      exact ih skipped

/-- A condition that always holds watches nothing. -/
theorem watchedWithin_true (limits : Limits) (alarm : Fault) (levels : Nat) :
    watchedWithin limits (fun _ => true) alarm levels = evaluateWithin limits levels := by
  induction levels with
  | zero => rfl
  | succ levels ih =>
    funext skipped expression frame
    cases skipped with
    | zero =>
      funext m
      rw [watchedWithin_of_holds rfl, evaluateWithin_succ, Limits.watchedLevel, ih]
      rfl
    | succ skipped => exact congrFun (congrFun (congrFun ih skipped) expression) frame

end Fexpr
