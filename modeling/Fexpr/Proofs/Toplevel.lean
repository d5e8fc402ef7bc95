import Fexpr.Program
import Fexpr.Proofs.Steps

/-!
# Forms at the top level

How the evaluation of a form at the top level ends, told from the evaluation below it: in the same
value, or in an error with the same cause. From there follows what the run of a program does with
one form, in each way in which it can go on or stop.
-/

namespace Fexpr

/-- The cause of the error that the top level makes of a fault, if it makes one. -/
def Fault.cause? : Fault → Option Cause
  | .error e => some e.cause
  | .tooDeep => some .tooDeep
  | .tooLong => some (.failed tooLongText)
  | .host message => some (.failed message)
  | .endless => none

section

variable {limits : Limits} {frame : FrameId} {form v : Value} {forms : List Value}
  {m m' : Machine} {fault : Fault} {cause : Cause} {index : Nat} {text rendered : String}
  {textFault : TextFault} {e : EvalError} {last : Value} {source : String}

theorem cause?_eq_none_iff : fault.cause? = none ↔ fault = .endless := by
  cases fault <;> simp [Fault.cause?]

theorem exists_cause (h : fault ≠ .endless) : ∃ cause, fault.cause? = some cause :=
  Option.ne_none_iff_exists'.1 fun hnone => h (cause?_eq_none_iff.1 hnone)

/-! ## One form at the top level -/

/-- A form with a value has that value at the top level. -/
theorem evaluateToplevel_of_value (htext : form.render limits.top.room = .ok text)
    (hvalue : evaluate limits form frame m = (.ok v, m')) :
    evaluateToplevel limits form frame m = (.ok v, m') := by
  unfold evaluateToplevel Eval.attempt
  rw [Eval.bind_run, write_run htext]
  simp only [Eval.bind_run, hvalue]
  rfl

/-- A form without a value is an error at the top level, of the cause that ended it. -/
theorem evaluateToplevel_of_cause (htext : form.render limits.top.room = .ok text)
    (hfault : evaluate limits form frame m = (.error fault, m'))
    (hcause : fault.cause? = some cause) :
    ∃ e log, evaluateToplevel limits form frame m = (.error (.error e), { m' with log := log }) ∧
      e.cause = cause := by
  unfold evaluateToplevel Eval.attempt
  rw [Eval.bind_run, write_run htext]
  simp only [Eval.bind_run, hfault]
  cases fault with
  | error e =>
    -- An error keeps its cause; the top level only adds the form to blame.
    obtain rfl := Option.some.inj hcause
    refine ⟨e.attach text, _, rfl, ?_⟩
    unfold EvalError.attach
    split <;> rfl
  | endless => cases hcause
  | tooDeep | tooLong | host message =>
    obtain rfl := Option.some.inj hcause
    exact ⟨_, _, rfl, rfl⟩

/-- What the top level makes no error of, it passes on. -/
theorem evaluateToplevel_of_no_cause (htext : form.render limits.top.room = .ok text)
    (hfault : evaluate limits form frame m = (.error fault, m')) (hcause : fault.cause? = none) :
    evaluateToplevel limits form frame m = (.error .endless, m') := by
  unfold evaluateToplevel Eval.attempt
  rw [Eval.bind_run, write_run htext]
  simp only [Eval.bind_run, hfault]
  cases fault with
  | endless => rfl
  | _ => cases hcause

/-! ## One form of a run -/

/-- A form that cannot be written ends the run. -/
theorem runForms_of_no_text (htext : form.render limits.top.room = .error textFault) :
    runForms limits frame index (form :: forms) m = (.error textFault.toFault, m) := by
  rw [runForms, Eval.bind_run, write_run_of_error htext]

/-- A value that can be written is reported complete, and the run goes on. -/
theorem runForms_of_toplevel_value (htext : form.render limits.top.room = .ok text)
    (hvalue : evaluateToplevel limits form frame m = (.ok v, m'))
    (hrendered : v.render limits.top.room = .ok rendered) :
    runForms limits frame index (form :: forms) m =
      ((runForms limits frame (index + 1) forms m').1.map
          (⟨index, text, .complete v rendered⟩ :: ·),
        (runForms limits frame (index + 1) forms m').2) := by
  rw [runForms, Eval.bind_run, write_run htext]
  unfold Eval.attempt
  simp only [Eval.bind_run, hvalue, write_run hrendered]
  rcases runForms limits frame (index + 1) forms m' with ⟨_ | _, _⟩ <;> rfl

/-- A value that cannot be written ends the run without a report. -/
theorem runForms_of_toplevel_no_rendered (htext : form.render limits.top.room = .ok text)
    (hvalue : evaluateToplevel limits form frame m = (.ok v, m'))
    (hrendered : v.render limits.top.room = .error textFault) :
    runForms limits frame index (form :: forms) m = (.error textFault.toFault, m') := by
  rw [runForms, Eval.bind_run, write_run htext]
  unfold Eval.attempt
  simp only [Eval.bind_run, hvalue, write_run_of_error hrendered]

/-- An error is reported, and ends the run, whatever comes after it. -/
theorem runForms_of_toplevel_error (htext : form.render limits.top.room = .ok text)
    (herror : evaluateToplevel limits form frame m = (.error (.error e), m')) (index : Nat) :
    ∃ log, ∀ forms, runForms limits frame index (form :: forms) m =
      (.ok [⟨index, text, .failed e.cause.kind e.cause.message⟩], { m' with log := log }) := by
  let halted : LogRecord :=
    { logger := evaluationLogger
      severity := .warning
      text := "Run halted at form " ++ Text.natString index ++ ": " ++ e.summary }
  refine ⟨halted :: m'.log, fun forms => ?_⟩
  rw [runForms, Eval.bind_run, write_run htext]
  unfold Eval.attempt
  simp only [Eval.bind_run, herror]
  rfl

/-- Any other fault ends the run without a report. -/
theorem runForms_of_toplevel_fault (htext : form.render limits.top.room = .ok text)
    (hfault : evaluateToplevel limits form frame m = (.error fault, m'))
    (hne : ∀ e, fault ≠ .error e) :
    runForms limits frame index (form :: forms) m = (.error fault, m') := by
  rw [runForms, Eval.bind_run, write_run htext]
  unfold Eval.attempt
  simp only [Eval.bind_run, hfault]
  cases fault with
  | error e => exact absurd rfl (hne e)
  | _ => rfl

/-- A form with a value that can be written is reported complete, and the run goes on. -/
theorem runForms_of_value (htext : form.render limits.top.room = .ok text)
    (hvalue : evaluate limits form frame m = (.ok v, m'))
    (hrendered : v.render limits.top.room = .ok rendered) :
    runForms limits frame index (form :: forms) m =
      ((runForms limits frame (index + 1) forms m').1.map
          (⟨index, text, .complete v rendered⟩ :: ·),
        (runForms limits frame (index + 1) forms m').2) :=
  runForms_of_toplevel_value htext (evaluateToplevel_of_value htext hvalue) hrendered

/-- A value that cannot be written ends the run. -/
theorem runForms_of_no_rendered (htext : form.render limits.top.room = .ok text)
    (hvalue : evaluate limits form frame m = (.ok v, m'))
    (hrendered : v.render limits.top.room = .error textFault) :
    runForms limits frame index (form :: forms) m = (.error textFault.toFault, m') :=
  runForms_of_toplevel_no_rendered htext (evaluateToplevel_of_value htext hvalue) hrendered

/-- A form without a value is reported failed, and is the last one. -/
theorem runForms_of_cause (htext : form.render limits.top.room = .ok text)
    (hfault : evaluate limits form frame m = (.error fault, m'))
    (hcause : fault.cause? = some cause) :
    ∃ log, runForms limits frame index (form :: forms) m =
      (.ok [⟨index, text, .failed cause.kind cause.message⟩], { m' with log := log }) := by
  obtain ⟨e, log, htop, rfl⟩ := evaluateToplevel_of_cause htext hfault hcause
  obtain ⟨log', hrun⟩ := runForms_of_toplevel_error htext htop index
  exact ⟨log', hrun forms⟩

/-- What the top level makes no error of ends the run. -/
theorem runForms_of_no_cause (htext : form.render limits.top.room = .ok text)
    (hfault : evaluate limits form frame m = (.error fault, m')) (hcause : fault.cause? = none) :
    runForms limits frame index (form :: forms) m = (.error .endless, m') :=
  runForms_of_toplevel_fault htext (evaluateToplevel_of_no_cause htext hfault hcause) nofun

/-! ## One form for its value -/

/-- After a form with a value, the next forms are evaluated. -/
theorem evaluateForms_of_value (hvalue : evaluateToplevel limits form frame m = (.ok v, m')) :
    evaluateForms limits frame last (form :: forms) m = evaluateForms limits frame v forms m' := by
  rw [evaluateForms, Eval.bind_run, hvalue]

/-- A form without a value is the last one. -/
theorem evaluateForms_of_fault
    (hfault : evaluateToplevel limits form frame m = (.error fault, m')) :
    evaluateForms limits frame last (form :: forms) m = (.error fault, m') := by
  rw [evaluateForms, Eval.bind_run, hfault]

/-! ## Sources -/

/-- A source that is not read has no run. -/
theorem runSource_of_fault {fault : ReadFault} (h : readForms source = .error fault) :
    runSource limits source frame m = (.error (.read fault), m) := by
  unfold runSource readSource
  rw [h]
  rfl

/-- A source is run by running its forms. -/
theorem runSource_of_forms {forms : List Value} (h : readForms source = .ok forms) :
    runSource limits source frame m =
      (((runForms limits frame 0 forms m).1.map RunResult.mk).mapError .eval,
        (runForms limits frame 0 forms m).2) := by
  unfold runSource readSource
  rw [h]
  change
    Eval.toRun (runForms limits frame 0 forms >>= fun results => pure (RunResult.mk results)) m = _
  unfold Eval.toRun
  rw [Eval.bind_run]
  rcases runForms limits frame 0 forms m with ⟨_ | _, _⟩ <;> rfl

/-- A source that is not read has no value. -/
theorem evaluateSource_of_fault {fault : ReadFault} (h : readForms source = .error fault) :
    evaluateSource limits source frame m = (.error (.read fault), m) := by
  unfold evaluateSource readSource
  rw [h]
  rfl

/-- A source is evaluated by evaluating its forms, and the value is written out. -/
theorem evaluateSource_eq (h : readForms source = .ok forms) (limits : Limits) (frame : FrameId)
    (m : Machine) :
    evaluateSource limits source frame m =
      Eval.toRun (evaluateForms limits frame .nil forms >>= fun value =>
        limits.top.write value >>= fun _ => pure value) m := by
  unfold evaluateSource readSource
  rw [h]
  rfl

/-- A source has the value of its forms, if that can be written. -/
theorem evaluateSource_of_value (h : readForms source = .ok forms)
    (hvalue : evaluateForms limits frame .nil forms m = (.ok v, m'))
    (hrendered : v.render limits.top.room = .ok rendered) :
    evaluateSource limits source frame m = (.ok v, m') := by
  rw [evaluateSource_eq h]
  unfold Eval.toRun
  rw [Eval.bind_run, hvalue]
  simp only [Eval.bind_run, write_run hrendered]
  rfl

/-- A source with forms has no value but that of its forms, and changes what they change. -/
theorem evaluateSource_of_forms (h : readForms source = .ok forms) (limits : Limits)
    (frame : FrameId) (m : Machine) :
    (evaluateSource limits source frame m).2 = (evaluateForms limits frame .nil forms m).2 ∧
      ∀ v, (evaluateSource limits source frame m).1 = .ok v →
        (evaluateForms limits frame .nil forms m).1 = .ok v := by
  rw [evaluateSource_eq h]
  unfold Eval.toRun
  rw [Eval.bind_run]
  rcases evaluateForms limits frame .nil forms m with ⟨fault | w, m'⟩
  · exact ⟨rfl, fun v hv => nomatch hv⟩
  · cases hrendered : w.render limits.top.room with
    | ok rendered =>
      dsimp only
      rw [Eval.bind_run, write_run hrendered]
      exact ⟨rfl, fun v hv => by cases hv; rfl⟩
    | error textFault =>
      dsimp only
      rw [Eval.bind_run, write_run_of_error hrendered]
      exact ⟨rfl, fun v hv => nomatch hv⟩

/-- A source whose forms have no value ends in the same fault. -/
theorem evaluateSource_of_forms_fault (h : readForms source = .ok forms)
    (hfault : evaluateForms limits frame .nil forms m = (.error fault, m')) :
    evaluateSource limits source frame m = (.error (.eval fault), m') := by
  rw [evaluateSource_eq h]
  unfold Eval.toRun
  rw [Eval.bind_run, hfault]
  rfl

end

end Fexpr
