import Mathlib.Tactic.SplitIfs
import Fexpr.Session

/-!
# Lines of a session

What a session does with a single line. A source is run, and then at most one thing is remarked, on
what is wrong or else on the last value (`source_eq`); any other line is blank or a command. No line
changes whether values are remarked on (`echo_line`).
-/

namespace Fexpr

/-- A fault that is reported on as a fault of the source. -/
def RunFault.IsInvalid (fault : RunFault) : Prop :=
  ∃ invalid, fault = .read (.invalid invalid)

namespace Session

variable {limits : Limits}

/-! ## Sources -/

/-- What a session should say of a run: what is wrong with the source, or with the form that failed,
or else, if it echoes, the text of the last value. -/
def remark (echo : Bool) : Except RunFault RunResult → Option String
  | .error (.read (.invalid fault)) => some ("Syntax error: " ++ fault.message)
  | .error _ => none
  | .ok result =>
    match result.failure?.bind FormResult.error? with
    | some (kind, message) => some ("Error [" ++ kind.name ++ "]: " ++ message)
    | none => if echo then result.results.getLast?.bind FormResult.rendered? else none

/-- What a session passes on of a run: a fault that it makes no remark on. -/
def passedOn : Except RunFault RunResult → Except RunFault Unit
  | .error (.read (.invalid _)) => .ok ()
  | .error fault => .error fault
  | .ok _ => .ok ()

theorem passedOn_eq_ok_iff {outcome : Except RunFault RunResult} :
    passedOn outcome = .ok () ↔ ∀ fault, outcome = .error fault → fault.IsInvalid := by
  constructor
  · rintro hok fault rfl
    match fault, hok with
    | .read (.invalid invalid), _ => exact ⟨invalid, rfl⟩
  · intro h
    rcases outcome with fault | result
    · obtain ⟨invalid, rfl⟩ := h fault rfl
      rfl
    · rfl

theorem error?_failure?_of_getLast? {result : RunResult} {last : FormResult}
    (h : result.results.getLast? = some last) :
    result.failure?.bind FormResult.error? = last.error? := by
  unfold RunResult.failure?
  rw [h]
  rcases last with ⟨index, expression, value | ⟨kind, message⟩⟩ <;> rfl

/-- A session runs a source, says what it should of the run, and passes on what else went wrong. -/
theorem source_eq (s : Session) (text : String) :
    s.source limits text =
      (passedOn (runSource limits text s.frame s.machine).1,
        { s with machine := (runSource limits text s.frame s.machine).2 }.printLines
          (remark s.echo (runSource limits text s.frame s.machine).1).toList) := by
  unfold source
  rcases runSource limits text s.frame s.machine with ⟨(fault | eval) | result, m'⟩
  · cases fault <;> rfl
  · rfl
  · simp only [remark]
    cases hlast : result.results.getLast? with
    | none =>
      rw [RunResult.failure?, hlast]
      cases s.echo <;> rfl
    | some last =>
      rw [error?_failure?_of_getLast? hlast]
      rcases last with ⟨index, expression, value | ⟨kind, message⟩⟩
      · cases hecho : s.echo <;>
          simp [FormResult.error?, FormResult.rendered?, printLines, passedOn]
      · rfl

/-! ## Lines -/

/-- A line that is neither blank nor a command is run as a source. -/
theorem line_eq_source (s : Session) {text : String}
    (htrim : Text.trim text.toList = text.toList) (hne : text.toList ≠ [])
    (hexit : exitWords.contains text = false) (hcommand : text.toList.head? ≠ some '/') :
    s.line limits text = s.source limits text := by
  obtain ⟨c, cs, htext⟩ := List.exists_cons_of_ne_nil hne
  have hc : c ≠ '/' := fun h => hcommand (by rw [htext, h, List.head?_cons])
  have hofList : String.ofList (c :: cs) = text := by rw [← htext, String.ofList_toList]
  unfold line
  rw [htrim, htext]
  dsimp only
  rw [hofList, hexit, if_neg Bool.false_ne_true, if_neg hc]

theorem line_reset (s : Session) :
    s.line limits "/reset" = (.ok (), s.reset) := by
  rfl

/-! ## Printing results -/

theorem echo_printLines (s : Session) (texts : List String) :
    (s.printLines texts).echo = s.echo := by
  induction texts generalizing s with
  | nil => rfl
  | cons text texts ih => exact ih (s.printLine text)

theorem echo_printBindings (s : Session) (bs : Bindings) :
    (s.printBindings limits bs).2.echo = s.echo := by
  induction bs generalizing s with
  | nil => rfl
  | cons b bs ih =>
    unfold printBindings
    cases b.2.render limits.top.room with
    | ok text => exact ih _
    | error fault => rfl

theorem echo_source (s : Session) (text : String) : (s.source limits text).2.echo = s.echo := by
  rw [source_eq]
  exact echo_printLines _ _

theorem echo_command (s : Session) (text : List Char) :
    (s.command limits text).2.echo = s.echo := by
  unfold command
  dsimp only
  split_ifs
  · exact echo_printLines s _
  · unfold listBindings
    split
    · rfl
    · exact echo_printBindings s _
  · rfl
  · rfl
  · exact echo_printLines s _

/-- No line changes whether results are printed. -/
theorem echo_line (s : Session) (text : String) : (s.line limits text).2.echo = s.echo := by
  unfold line
  dsimp only
  split
  · rfl
  · split_ifs
    · rfl
    · exact echo_command s _
    · exact echo_source s _

end Session
end Fexpr
