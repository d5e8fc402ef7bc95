import Fexpr.Program
import Fexpr.Proofs.Correspondence

/-!
# One program in two runs

A correspondence of expressions is one of programs too, if it excuses nothing and tells no two
faults apart: then what the top level and the runners do with the outcome of a form is the same in
both runs, and the induction over the forms of a program needs no more than that.
-/

namespace Fexpr
namespace Correspondence

open Comparison

/-- Runs that are to end in the same fault, if in any, and may log the same records. -/
structure Strict (C : Correspondence) : Prop where
  fault : ∀ {f g}, C.fault f g → f = g
  excused₁ : ∀ f, ¬ C.excused₁ f
  excused₂ : ∀ f, ¬ C.excused₂ f
  log : ∀ {m n}, C.state m n → ∀ record : LogRecord,
    C.state { m with log := record :: m.log } { n with log := record :: n.log }

variable {C : Correspondence} {limits : Limits} {frame : FrameId}

theorem beside_self (lv : Level) : C.Beside lv lv :=
  ⟨Or.inl rfl, Or.inl rfl, Or.inl rfl⟩

/-- Where nothing is excused, two runs end on machines that they may be in at the same time, in the
same fault if in any. -/
theorem Strict.after {α β : Type} {Q : α → β → Prop} {x : Eval α} {y : Eval β} (h : C.Strict)
    (hagree : C.Agree Q x y) {m n : Machine} (hmn : C.state m n) :
    C.state (x m).2 (y n).2 ∧ C.Ends Q (x m).1 (y n).1 := by
  rcases hagree m n hmn with ⟨f, -, hexcused⟩ | ⟨f, -, hexcused⟩ | hend
  · exact absurd hexcused (h.excused₁ f)
  · exact absurd hexcused (h.excused₂ f)
  · exact hend

theorem agree_log (h : C.Strict) (record : LogRecord) :
    C.Agree Eq (Eval.log record) (Eval.log record) :=
  fun _ _ hmn => Or.inr (Or.inr ⟨h.log hmn record, .value rfl⟩)

/-- How two computations end together can be looked at. -/
theorem agree_attempt {α β : Type} {Q : α → β → Prop} {x : Eval α} {y : Eval β} (h : C.Strict)
    (hagree : C.Agree Q x y) : C.Agree (C.Ends Q) (Eval.attempt x) (Eval.attempt y) := by
  intro m n hmn
  have hend := h.after hagree hmn
  exact Or.inr (Or.inr ⟨hend.1, .value hend.2⟩)

theorem agree_failToplevel {α : Type} {Q : α → α → Prop} (h : C.Strict) (logged : String)
    (e : EvalError) : C.Agree Q (failToplevel logged e) (failToplevel logged e) :=
  (agree_log h _).bind fun _ _ _ => .throw_self (Fault.error_ne_endless e)

/-- At the top level too, a form ends alike in both runs. -/
theorem agree_evaluateToplevel (h : C.Strict) {form : Value} (hform : C.code form)
    (hframe : C.frame frame) :
    C.Agree (Both C.data) (evaluateToplevel limits form frame)
      (evaluateToplevel limits form frame) := by
  unfold evaluateToplevel
  have hevaluate : C.Agree (Both C.data) (evaluate limits form frame)
      (evaluate limits form frame) :=
    agree_evaluateWithin (beside_self _) 0 hform hframe
  refine ((beside_self limits.top).write form).bind ?_
  rintro text _ rfl
  refine (agree_attempt h hevaluate).bind ?_
  intro a b hab
  cases hab with
  | value hv =>
    obtain ⟨rfl, hv⟩ := hv
    exact .pure ⟨rfl, hv⟩
  | @fault f g hfg =>
    obtain rfl : f = g := h.fault hfg
    cases f with
    | endless => exact .throw hfg
    | error | tooDeep | tooLong | host => exact agree_failToplevel h _ _

/-- The forms of a program have the same last value in both runs. -/
theorem agree_evaluateForms (h : C.Strict) {forms : List Value} (hforms : ∀ e ∈ forms, C.code e)
    (hframe : C.frame frame) {last : Value} (hlast : C.data last) :
    C.Agree (Both C.data) (evaluateForms limits frame last forms)
      (evaluateForms limits frame last forms) := by
  induction forms generalizing last with
  | nil => exact .pure ⟨rfl, hlast⟩
  | cons form forms ih =>
    rw [evaluateForms]
    have hform := hforms form List.mem_cons_self
    have hrest : ∀ e ∈ forms, C.code e := fun e he => hforms e (List.mem_cons_of_mem form he)
    refine (agree_evaluateToplevel h hform hframe).bind ?_
    rintro v _ ⟨rfl, hv⟩
    exact ih hrest hv

/-- Results of values that satisfy the condition, or of errors. -/
def ResultsIn (D : Value → Prop) (results : List FormResult) : Prop :=
  ∀ r ∈ results, ∀ v, r.value? = some v → D v

/-- The forms of a program have the same report in both runs. -/
theorem agree_runForms (h : C.Strict) {forms : List Value} (hforms : ∀ e ∈ forms, C.code e)
    (hframe : C.frame frame) (index : Nat) :
    C.Agree (fun rs ss => rs = ss ∧ ResultsIn C.data rs) (runForms limits frame index forms)
      (runForms limits frame index forms) := by
  induction forms generalizing index with
  | nil => exact .pure ⟨rfl, fun r hr => nomatch hr⟩
  | cons form forms ih =>
    rw [runForms]
    have hform := hforms form List.mem_cons_self
    have hrest : ∀ e ∈ forms, C.code e := fun e he => hforms e (List.mem_cons_of_mem form he)
    refine ((beside_self limits.top).write form).bind ?_
    rintro text _ rfl
    refine (agree_attempt h (agree_evaluateToplevel h hform hframe)).bind ?_
    intro a b hab
    cases hab with
    | @value v _ hv =>
      obtain ⟨rfl, hv⟩ := hv
      refine ((beside_self limits.top).write v).bind ?_
      rintro rendered _ rfl
      refine (ih hrest (index + 1)).bind ?_
      rintro results _ ⟨rfl, hresults⟩
      refine .pure ⟨rfl, List.forall_mem_cons.2 ⟨fun w hw => ?_, hresults⟩⟩
      exact Option.some.inj hw ▸ hv
    | @fault f g hfg =>
      obtain rfl : f = g := h.fault hfg
      cases f with
      | error error =>
        refine (agree_log h _).bind fun _ _ _ => .pure ⟨rfl, ?_⟩
        exact List.forall_mem_singleton.2 fun w hw => nomatch hw
      | endless | tooDeep | tooLong | host => exact .throw hfg

end Correspondence
end Fexpr
