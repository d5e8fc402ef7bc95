import Fexpr.Proofs.Reader.RoundTrip
import Fexpr.Proofs.Relocation.Combiners
import Fexpr.Proofs.Toplevel

/-!
# Programs on top of other machines

Evaluation on top of a base does what it does by itself (`moves_evaluateWithin`): the rules of the
language do so on every level if the levels below do. A source is read without the machine, so its
forms are the same on top of the base, and so are the texts in the report on its run.
-/

namespace Fexpr

variable {base : Machine}

/-! ## Evaluation -/

namespace Level

theorem moves_resolve (frame : FrameId) (name : String) :
    Moves base (Value.moved base) (resolve frame name) (resolve (base.place frame) name) := by
  refine (Moves.lookup? frame name).bind fun bound => ?_
  cases bound with
  | some v => exact .pure v
  | none => exact .throw _

theorem moves_notEvaluable (lv : Level) (v : Value) :
    Moves base (Value.moved base)
      (match v.constructorText lv.room with
        | .ok text => throw (.error (.arising (.notEvaluable v.typeName) text))
        | .error fault => throw fault.toFault : Eval Value)
      (match (v.moved base).constructorText lv.room with
        | .ok text => throw (.error (.arising (.notEvaluable (v.moved base).typeName) text))
        | .error fault => throw fault.toFault : Eval Value) := by
  rw [Value.constructorText_moved, Value.typeName_moved]
  cases v.constructorText lv.room with
  | ok text => exact .throw _
  | error fault => exact .throw _

/-- The rules of the language do on top of the base what they do by themselves. -/
theorem moves_step {lv : Level} (h : lv.Movable base) (e : Value) (frame : FrameId) :
    Moves base (Value.moved base) (lv.step e frame)
      (lv.step (e.moved base) (base.place frame)) := by
  cases e with
  | number | string | nil | builtin | raiser | fexpr => exact .pure _
  | symbol name =>
    refine (moves_resolve frame name).bind fun v => ?_
    cases v with
    | suspended e => exact .pure e
    | _ => exact .pure _
  | quote body =>
    cases body with
    | list items made =>
      cases items with
      | nil => exact .pure Value.nil
      | cons item items => exact .pure _
    | _ => exact .pure _
  | unquote body =>
    cases body with
    | symbol name =>
      refine (moves_resolve frame name).bind fun v => ?_
      cases v with
      | suspended e f s => exact moves_force (h.deeper _) e f s
      | _ => exact .pure _
    | _ => exact h.deeper skippedByUnquoting 0 _ frame
  | list items made =>
    cases items with
    | nil => exact .pure Value.nil
    | cons head operands =>
      have hwrite : Moves base id _ _ := moves_write lv (.list (head :: operands) made)
      rw [Value.moved_list] at hwrite ⊢
      refine hwrite.bind fun text => ?_
      refine (h.deeper skippedByHead 0 head frame).bind fun combiner => ?_
      exact moves_apply h combiner ⟨operands, frame, text⟩
  | suspended | hostNumber | hostText => exact moves_notEvaluable lv _

end Level

variable (limits : Limits)

/-- Evaluation does on top of the base what it does by itself. The induction is on the levels: what
an expression needs is evaluated on levels below. -/
theorem moves_evaluateWithin (levels skipped : Nat) (e : Value) (frame : FrameId) :
    Moves base (Value.moved base) (evaluateWithin limits levels skipped e frame)
      (evaluateWithin limits levels skipped (e.moved base) (base.place frame)) := by
  induction levels generalizing skipped e frame with
  | zero => exact .throw .tooDeep
  | succ levels ih =>
    cases skipped with
    | zero =>
      have hbelow : (limits.level levels).Movable base := ih
      exact Level.moves_step hbelow e frame
    | succ skipped => exact ih skipped e frame

/-! ## Forms -/

/-- An attempt turns the fault into a value, which is not moved. -/
theorem Moves.attempt {α β : Type} {f : α → β} {x : Eval α} {y : Eval β} (h : Moves base f x y) :
    Moves base (Except.map f) (Eval.attempt x) (Eval.attempt y) := by
  intro m
  unfold Eval.attempt
  rw [h m]
  rfl

theorem moves_failToplevel (logged : String) (e : EvalError) :
    Moves base (Value.moved base) (failToplevel logged e) (failToplevel logged e) :=
  (Moves.log _).bind fun _ => .throw _

/-- A form that was read is evaluated on top of the base as it is by itself. -/
theorem moves_evaluateToplevel {form : Value} (hform : form.moved base = form) (frame : FrameId) :
    Moves base (Value.moved base) (evaluateToplevel limits form frame)
      (evaluateToplevel limits form (base.place frame)) := by
  have hwrite : Moves base _ _ _ := Level.moves_write limits.top form
  have hevaluate : Moves base _ _ _ := moves_evaluateWithin limits limits.levels 0 form frame
  rw [hform] at hwrite hevaluate
  refine hwrite.bind fun text => ?_
  refine hevaluate.attempt.bind fun outcome => ?_
  rcases outcome with (e | _ | _ | message | _) | v
  · exact moves_failToplevel _ _
  · exact moves_failToplevel _ _
  · exact moves_failToplevel _ _
  · exact moves_failToplevel _ _
  · exact .throw _
  · exact .pure v

/-! ## Reports -/

/-- The outcome on top of the base. -/
def Outcome.moved (base : Machine) : Outcome → Outcome
  | .complete value rendered => .complete (value.moved base) rendered
  | .failed kind message => .failed kind message

/-- The result on top of the base: its value is there, and its texts are the same. -/
def FormResult.moved (base : Machine) (r : FormResult) : FormResult :=
  { r with outcome := r.outcome.moved base }

/-- Forms that were read are run on top of the base as they are by themselves. -/
theorem moves_runForms {forms : List Value} (hforms : ∀ form ∈ forms, form.moved base = form)
    (frame : FrameId) (index : Nat) :
    Moves base (List.map (FormResult.moved base)) (runForms limits frame index forms)
      (runForms limits (base.place frame) index forms) := by
  induction forms generalizing index with
  | nil => exact .pure []
  | cons form forms ih =>
    obtain ⟨hform, hforms⟩ := List.forall_mem_cons.1 hforms
    have hwrite : Moves base _ _ _ := Level.moves_write limits.top form
    rw [hform] at hwrite
    refine hwrite.bind fun text => ?_
    refine (moves_evaluateToplevel limits hform frame).attempt.bind fun outcome => ?_
    rcases outcome with (e | _ | _ | message | _) | v
    · let failed : FormResult := ⟨index, text, .failed e.cause.kind e.cause.message⟩
      exact (Moves.log _).bind fun _ => .pure [failed]
    · exact .throw _
    · exact .throw _
    · exact .throw _
    · exact .throw _
    · refine (Level.moves_write limits.top v).bind fun rendered => ?_
      let complete : FormResult := ⟨index, text, .complete v rendered⟩
      exact (ih hforms (index + 1)).bind fun results => .pure (complete :: results)

/-- The forms of a source are nowhere. -/
theorem moved_of_readForms {source : String} {forms : List Value}
    (h : readForms source = .ok forms) (base : Machine) : ∀ form ∈ forms, form.moved base = form :=
  fun form hform =>
    have hbuilt := built_of_readForms h form hform
    form.moved_eq_self base hbuilt.readable hbuilt.asRead_eq

/-- The report on top of the base. -/
def RunResult.moved (base : Machine) (r : RunResult) : RunResult :=
  ⟨r.results.map (FormResult.moved base)⟩

/-- A source is run on top of the base as it is by itself. -/
theorem runSource_moved (base : Machine) (source : String) (frame : FrameId) (m : Machine) :
    runSource limits source (base.place frame) (m.moved base) =
      ((runSource limits source frame m).1.map (RunResult.moved base),
        (runSource limits source frame m).2.moved base) := by
  cases hread : readForms source with
  | error fault => rw [runSource_of_fault hread, runSource_of_fault hread]; rfl
  | ok forms =>
    rw [runSource_of_forms hread, runSource_of_forms hread,
      moves_runForms limits (moved_of_readForms hread base) frame 0 m]
    rcases runForms limits frame 0 forms m with ⟨_ | _, _⟩ <;> rfl

end Fexpr
