import Fexpr.Proofs.Reader.RoundTrip
import Fexpr.Proofs.Toplevel
import Fexpr.Proofs.Value.Room
import Mathlib.Data.List.Induction

/-!
# The two ways to run a source

A source can be evaluated for the value of its last form (`evaluateSource`) or run for a report on
each form (`runSource`). The one stops at the first form without a value, the other at the first
result of a form that failed; each has its own loop over the forms.

As long as forms have values, the two loops go through the same machines, so it is said once where
they come to a form (`ComesTo`). At the first form without a value both end. From the last form on,
the induction takes away one form at a time; so what is said of a form is said of the forms before
it and the machine that they lead to.

Main statement (`runners_agree`): where the forms and their values can be written, the two end on
the same machine but for the log; one has a value exactly if the other reports nothing but values,
this one last; and one ends in an error at a form exactly if the other reports it there, and last.
-/

namespace Fexpr

variable {limits : Limits} {frame : FrameId} {source : String} {forms before after : List Value}
  {form v last : Value} {m m' m'' : Machine} {fault : Fault} {e : EvalError} {i index n : Nat}
  {results : List FormResult}

/-! ## Where the loops come to -/

/-- The evaluation of the forms comes to the form number `i`, on the machine `m'`: all forms before
it have values. -/
def ComesTo (limits : Limits) (frame : FrameId) (forms : List Value) (m : Machine) (i : Nat)
    (form : Value) (m' : Machine) : Prop :=
  forms[i]? = some form ∧
    ∃ last, evaluateForms limits frame .nil (forms.take i) m = (.ok last, m')

/-- All forms that are come to can be written, and so can their values. -/
def AllWritable (limits : Limits) (frame : FrameId) (forms : List Value) (m : Machine) : Prop :=
  ∀ i form m', ComesTo limits frame forms m i form m' →
    form.IsWritable limits.top.room ∧
      ∀ v m'', evaluateToplevel limits form frame m' = (.ok v, m'') →
        v.IsWritable limits.top.room

/-- The first `n` results report values: each has the number and the text of its form, the value
that the form has where it is come to, and the text of the value. -/
def Completed (limits : Limits) (frame : FrameId) (forms : List Value) (m : Machine)
    (results : List FormResult) (n : Nat) : Prop :=
  ∀ i < n, ∃ form expression m' v m'' rendered,
    ComesTo limits frame forms m i form m' ∧
      form.render limits.top.room = .ok expression ∧
      evaluateToplevel limits form frame m' = (.ok v, m'') ∧
      v.render limits.top.room = .ok rendered ∧
      results[i]? = some ⟨i, expression, .complete v rendered⟩

/-- The form number `i` is the first without a value. -/
def FailsAt (limits : Limits) (frame : FrameId) (forms : List Value) (m : Machine) (i : Nat) :
    Prop :=
  ∃ form m', ComesTo limits frame forms m i form m' ∧
    ∀ v m'', evaluateToplevel limits form frame m' ≠ (.ok v, m'')

/-- What comes after a form does not change how it is come to. -/
theorem comesTo_append (hi : i < before.length) :
    ComesTo limits frame (before ++ after) m i form m' ↔
      ComesTo limits frame before m i form m' := by
  have hget : (before ++ after)[i]? = before[i]? := List.getElem?_append_left hi
  have htake : (before ++ after).take i = before.take i :=
    List.take_append_of_le_length (Nat.le_of_lt hi)
  unfold ComesTo
  rw [hget, htake]

/-- The form after forms with values is come to where they end. -/
theorem comesTo_length (h : evaluateForms limits frame .nil before m = (.ok last, m')) :
    ComesTo limits frame (before ++ form :: after) m before.length form m' := by
  have hget : (before ++ form :: after)[before.length]? = some form := by
    rw [List.getElem?_append_right (Nat.le_refl _), Nat.sub_self]
    rfl
  refine ⟨hget, last, ?_⟩
  rw [List.take_left]
  exact h

/-- A form that is come to stands among the forms. -/
theorem ComesTo.lt_length (h : ComesTo limits frame forms m i form m') : i < forms.length :=
  (List.getElem?_eq_some_iff.1 h.1).1

/-- A form is come to on one machine only. -/
theorem ComesTo.unique {form' : Value} (h : ComesTo limits frame forms m i form m')
    (h' : ComesTo limits frame forms m i form' m'') : form = form' ∧ m' = m'' := by
  obtain ⟨hform, last, hlast⟩ := h
  obtain ⟨hform', last', hlast'⟩ := h'
  have heq : (Except.ok last, m') = (Except.ok last', m'') := hlast.symm.trans hlast'
  exact ⟨Option.some.inj (hform.symm.trans hform'), (Prod.mk.inj heq).2⟩

theorem AllWritable.left (h : AllWritable limits frame (before ++ after) m) :
    AllWritable limits frame before m := by
  intro i form m' hcomes
  exact h i form m' ((comesTo_append hcomes.lt_length).2 hcomes)

theorem Completed.append (h : Completed limits frame before m results before.length)
    (more : List FormResult) :
    Completed limits frame (before ++ after) m (results ++ more) before.length := by
  intro i hi
  obtain ⟨form, expression, m', v, m'', rendered, hcomes, hform, hvalue, hrendered, hresult⟩ :=
    h i hi
  have hlt : i < results.length := (List.getElem?_eq_some_iff.1 hresult).1
  refine ⟨form, expression, m', v, m'', rendered, (comesTo_append hi).2 hcomes, hform, hvalue,
    hrendered, ?_⟩
  rw [List.getElem?_append_left hlt]
  exact hresult

/-! ## The loop for the last value -/

/-- After forms with values, the next forms are evaluated. -/
theorem evaluateForms_append_of_value
    (h : evaluateForms limits frame last before m = (.ok v, m')) :
    evaluateForms limits frame last (before ++ after) m =
      evaluateForms limits frame v after m' := by
  induction before generalizing last m with
  | nil =>
    have heq : (Except.ok last, m) = (Except.ok v, m') := h
    obtain ⟨hlast, rfl⟩ := Prod.mk.inj heq
    obtain rfl := Except.ok.inj hlast
    rfl
  | cons form before ih =>
    rcases hform : evaluateToplevel limits form frame m with ⟨fault | w, mid⟩
    · rw [evaluateForms_of_fault hform] at h
      cases h
    · rw [evaluateForms_of_value hform] at h
      rw [List.cons_append, evaluateForms_of_value hform]
      exact ih h

/-- A fault of the first forms is that of all of them. -/
theorem evaluateForms_append_of_fault
    (h : evaluateForms limits frame last before m = (.error fault, m')) :
    evaluateForms limits frame last (before ++ after) m = (.error fault, m') := by
  induction before generalizing last m with
  | nil => cases h
  | cons form before ih =>
    rcases hform : evaluateToplevel limits form frame m with ⟨fault' | w, mid⟩
    · rw [evaluateForms_of_fault hform] at h
      rw [List.cons_append, evaluateForms_of_fault hform]
      exact h
    · rw [evaluateForms_of_value hform] at h
      rw [List.cons_append, evaluateForms_of_value hform]
      exact ih h

/-- Where forms have a value, it is that of the last one. -/
theorem exists_of_evaluateForms_concat
    (h : evaluateForms limits frame last (before ++ [form]) m = (.ok v, m'')) :
    ∃ w m', evaluateForms limits frame last before m = (.ok w, m') ∧
      evaluateToplevel limits form frame m' = (.ok v, m'') := by
  rcases hbefore : evaluateForms limits frame last before m with ⟨fault | w, m'⟩
  · rw [evaluateForms_append_of_fault hbefore] at h
    cases h
  · rw [evaluateForms_append_of_value hbefore] at h
    rcases hform : evaluateToplevel limits form frame m' with ⟨fault | v', mid⟩
    · rw [evaluateForms_of_fault hform] at h
      cases h
    · rw [evaluateForms_of_value hform] at h
      have hend : (Except.ok v', mid) = (Except.ok v, m'') := h
      exact ⟨w, m', rfl, hform.trans hend⟩

/-- Forms have a value, or the loop ends at the first form without one, whatever comes after it. -/
theorem evaluateForms_cases (limits : Limits) (frame : FrameId) (forms : List Value)
    (m : Machine) :
    (∃ v m', evaluateForms limits frame .nil forms m = (.ok v, m')) ∨
      ∃ before form after w m' fault m'', forms = before ++ form :: after ∧
        evaluateForms limits frame .nil before m = (.ok w, m') ∧
        evaluateToplevel limits form frame m' = (.error fault, m'') := by
  -- The induction takes away the last form, as the first one with a fault is looked for.
  induction forms using List.reverseRecOn with
  | nil => exact Or.inl ⟨.nil, m, rfl⟩
  | append_singleton forms form ih =>
    rcases ih with ⟨v, m', hvalue⟩ | ⟨before, stop, after, w, m', fault, m'', rfl, hbefore, hstop⟩
    · rcases hform : evaluateToplevel limits form frame m' with ⟨fault | w, m''⟩
      · exact Or.inr ⟨forms, form, [], v, m', fault, m'', rfl, hvalue, hform⟩
      · refine Or.inl ⟨w, m'', ?_⟩
        rw [evaluateForms_append_of_value hvalue, evaluateForms_of_value hform]
        rfl
    · refine Or.inr ⟨before, stop, after ++ [form], w, m', fault, m'', ?_, hbefore, hstop⟩
      rw [List.append_assoc, List.cons_append]

/-! ## The loop for a report -/

/-- Forms with values are reported, and the run goes on where they end. -/
theorem runForms_append_of_value (h : AllWritable limits frame before m)
    (hvalue : evaluateForms limits frame .nil before m = (.ok v, m')) :
    ∃ results, results.length = before.length ∧
      Completed limits frame before m results before.length ∧
      ∀ after, runForms limits frame 0 (before ++ after) m =
        ((runForms limits frame before.length after m').1.map (results ++ ·),
          (runForms limits frame before.length after m').2) := by
  induction before using List.reverseRecOn generalizing v m' with
  | nil =>
    have heq : (Except.ok Value.nil, m) = (Except.ok v, m') := hvalue
    obtain ⟨-, rfl⟩ := Prod.mk.inj heq
    refine ⟨[], rfl, fun i hi => absurd hi (Nat.not_lt_zero i), fun after => ?_⟩
    rw [List.nil_append, List.length_nil]
    rcases runForms limits frame 0 after m with ⟨_ | _, _⟩ <;> rfl
  | append_singleton before form ih =>
    obtain ⟨w, mid, hbefore, hform⟩ := exists_of_evaluateForms_concat hvalue
    have hcomes : ComesTo limits frame (before ++ [form]) m before.length form mid :=
      comesTo_length hbefore
    have hwritable := h before.length form mid hcomes
    obtain ⟨expression, hexpression⟩ := Value.exists_render_iff.2 hwritable.1
    obtain ⟨rendered, hrendered⟩ := Value.exists_render_iff.2 (hwritable.2 v m' hform)
    obtain ⟨results, hlength, hcompleted, hrun⟩ := ih h.left hbefore
    refine ⟨results ++ [⟨before.length, expression, .complete v rendered⟩], ?_, ?_, fun after => ?_⟩
    · rw [List.length_append, List.length_append, hlength]
      rfl
    · intro i hi
      rw [List.length_append, List.length_singleton] at hi
      by_cases hlt : i < before.length
      · exact hcompleted.append _ i hlt
      · have hi : i = before.length := by omega
        subst hi
        refine ⟨form, expression, mid, v, m', rendered, hcomes, hexpression, hform, hrendered, ?_⟩
        rw [List.getElem?_append_right (Nat.le_of_eq hlength), hlength, Nat.sub_self]
        rfl
    · rw [List.append_assoc, List.singleton_append, hrun,
        runForms_of_toplevel_value hexpression hform hrendered, List.length_append,
        List.length_singleton]
      rcases runForms limits frame (before.length + 1) after m' with ⟨_ | more, _⟩
      · rfl
      · simp [Except.map]

/-! ## Reports -/

/-- A report of nothing but values, one for each form, of which the last is `v`; a report on no
forms has no value, and nil stands for that. -/
structure ReportsValue (limits : Limits) (frame : FrameId) (forms : List Value) (m : Machine)
    (run : RunResult) (v : Value) : Prop where
  complete : run.failure? = none
  length : run.results.length = forms.length
  completed : Completed limits frame forms m run.results forms.length
  last : run.lastValue? = some v ∨ forms = [] ∧ run.lastValue? = none ∧ v = .nil

/-- A report of values up to the form number `i`, and of an error there, which ends it. -/
structure ReportsError (limits : Limits) (frame : FrameId) (forms : List Value) (m : Machine)
    (run : RunResult) (i : Nat) (kind : ErrorKind) (message : String) : Prop where
  length : run.results.length = i + 1
  completed : Completed limits frame forms m run.results i
  failed : ∃ form expression, forms[i]? = some form ∧
    form.render limits.top.room = .ok expression ∧
    run.results[i]? = some ⟨i, expression, .failed kind message⟩
  failure : run.failure? = run.results[i]?

theorem failure?_eq_none {run : RunResult} {r : FormResult} (h : run.results.getLast? = some r)
    (herror : r.error? = none) : run.failure? = none := by
  unfold RunResult.failure?
  rw [h, Option.filter_some, herror]
  rfl

theorem lastValue?_eq_some {run : RunResult} {r : FormResult} (h : run.results.getLast? = some r)
    (hv : r.value? = some v) : run.lastValue? = some v := by
  unfold RunResult.lastValue?
  rw [← List.head?_reverse] at h
  obtain ⟨before, hresults⟩ := List.head?_eq_some_iff.1 h
  rw [hresults, List.findSome?_cons, hv]

/-- Forms with values are reported so, and the last value can be written. -/
theorem runForms_of_all_values (hroom : 0 < limits.top.room)
    (h : AllWritable limits frame forms m)
    (hvalue : evaluateForms limits frame .nil forms m = (.ok v, m')) :
    (∃ rendered, v.render limits.top.room = .ok rendered) ∧
      ∃ results, runForms limits frame 0 forms m = (.ok results, m') ∧
        ReportsValue limits frame forms m ⟨results⟩ v := by
  obtain ⟨results, hlength, hcompleted, hrun⟩ := runForms_append_of_value h hvalue
  have hall : runForms limits frame 0 forms m = (.ok results, m') := by
    have hrun := hrun []
    rw [List.append_nil] at hrun
    rw [hrun, runForms]
    show (Except.ok (results ++ []), m') = (Except.ok results, m')
    rw [List.append_nil]
  rcases List.eq_nil_or_concat forms with rfl | ⟨before, form, hforms⟩
  · have hempty : results = [] := List.eq_nil_of_length_eq_zero hlength
    subst hempty
    have hnil : (Except.ok Value.nil, m) = (Except.ok v, m') := hvalue
    have hv : v = .nil := (Except.ok.inj (Prod.mk.inj hnil).1).symm
    subst hv
    have hwritable : Value.nil.IsWritable limits.top.room := ⟨hroom, trivial⟩
    exact ⟨Value.exists_render_iff.2 hwritable, [], hall, rfl, rfl, hcompleted,
      Or.inr ⟨rfl, rfl, rfl⟩⟩
  · -- The last result is that of the last form, which gives the value of all of them.
    rw [List.concat_eq_append] at hforms
    subst hforms
    obtain ⟨w, mid, hbefore, hform⟩ := exists_of_evaluateForms_concat hvalue
    have hlast : before.length < (before ++ [form]).length := by
      rw [List.length_append, List.length_singleton]
      omega
    obtain ⟨form', expression, mid', v', m'', rendered, hcomes, -, hform', hrendered, hresult⟩ :=
      hcompleted before.length hlast
    obtain ⟨rfl, rfl⟩ := hcomes.unique (comesTo_length hbefore)
    have heq : (Except.ok v', m'') = (Except.ok v, m') := hform'.symm.trans hform
    have hv : v' = v := Except.ok.inj (Prod.mk.inj heq).1
    subst hv
    have hgetLast : results.getLast? =
        some ⟨before.length, expression, .complete v' rendered⟩ := by
      rw [List.getLast?_eq_getElem?, hlength, List.length_append, List.length_singleton,
        Nat.add_sub_cancel]
      exact hresult
    exact ⟨⟨rendered, hrendered⟩, results, hall, failure?_eq_none hgetLast rfl, hlength,
      hcompleted, Or.inl (lastValue?_eq_some hgetLast rfl)⟩

/-- After forms with values, an error is reported and nothing that comes after it. -/
theorem runForms_of_stop_error (h : AllWritable limits frame (before ++ form :: after) m)
    (hbefore : evaluateForms limits frame .nil before m = (.ok last, m'))
    (herror : evaluateToplevel limits form frame m' = (.error (.error e), m'')) :
    ∃ results log,
      (∀ later, runForms limits frame 0 (before ++ form :: later) m =
        (.ok results, { m'' with log := log })) ∧
      ReportsError limits frame (before ++ form :: after) m ⟨results⟩ before.length e.cause.kind
        e.cause.message := by
  have hcomes : ComesTo limits frame (before ++ form :: after) m before.length form m' :=
    comesTo_length hbefore
  obtain ⟨expression, hexpression⟩ := Value.exists_render_iff.2 (h _ _ _ hcomes).1
  obtain ⟨results, hlength, hcompleted, hrun⟩ := runForms_append_of_value h.left hbefore
  obtain ⟨log, hstop⟩ := runForms_of_toplevel_error hexpression herror before.length
  let failed : FormResult := ⟨before.length, expression, .failed e.cause.kind e.cause.message⟩
  have hget : (results ++ [failed])[before.length]? = some failed := by
    rw [List.getElem?_append_right (Nat.le_of_eq hlength), hlength, Nat.sub_self]
    rfl
  refine ⟨results ++ [failed], log, fun later => ?_, ?_, hcompleted.append _, ?_, ?_⟩
  · rw [hrun, hstop]
    rfl
  · rw [List.length_append, List.length_singleton, hlength]
  · exact ⟨form, expression, hcomes.1, hexpression, hget⟩
  · unfold RunResult.failure?
    rw [hget, List.getLast?_concat]
    rfl

/-- After forms with values, any other fault ends the run, whatever comes after it. -/
theorem runForms_of_stop_fault (h : AllWritable limits frame (before ++ form :: after) m)
    (hbefore : evaluateForms limits frame .nil before m = (.ok last, m'))
    (hfault : evaluateToplevel limits form frame m' = (.error fault, m''))
    (hne : ∀ e, fault ≠ .error e) (later : List Value) :
    runForms limits frame 0 (before ++ form :: later) m = (.error fault, m'') := by
  have hcomes : ComesTo limits frame (before ++ form :: after) m before.length form m' :=
    comesTo_length hbefore
  obtain ⟨expression, hexpression⟩ := Value.exists_render_iff.2 (h _ _ _ hcomes).1
  obtain ⟨results, -, -, hrun⟩ := runForms_append_of_value h.left hbefore
  rw [hrun, runForms_of_toplevel_fault hexpression hfault hne]
  rfl

/-- The loops stop at a form if those before it have values and it has none. -/
theorem failsAt_iff :
    FailsAt limits frame forms m i ↔
      ∃ before form after last m' fault m'', forms = before ++ form :: after ∧
        before.length = i ∧ evaluateForms limits frame .nil before m = (.ok last, m') ∧
        evaluateToplevel limits form frame m' = (.error fault, m'') := by
  constructor
  · rintro ⟨form, m', hcomes, hstop⟩
    have hlt := hcomes.lt_length
    obtain ⟨hget, last, hbefore⟩ := hcomes
    rcases hform : evaluateToplevel limits form frame m' with ⟨fault | v, m''⟩
    · refine ⟨forms.take i, form, forms.drop (i + 1), last, m', fault, m'', ?_, ?_, hbefore,
        hform⟩
      · have hform : forms[i] = form := (List.getElem?_eq_some_iff.1 hget).2
        rw [← hform, List.getElem_cons_drop, List.take_append_drop]
      · exact List.length_take_of_le (Nat.le_of_lt hlt)
    · exact absurd hform (hstop v m'')
  · rintro ⟨before, form, after, last, m', fault, m'', rfl, rfl, hbefore, hfault⟩
    refine ⟨form, m', comesTo_length hbefore, fun v mid hvalue => ?_⟩
    rw [hfault] at hvalue
    cases hvalue

/-- The loops come to no form after the one at which they stop. -/
theorem FailsAt.not_comesTo {j : Nat} (h : FailsAt limits frame forms m i) (hlt : i < j) :
    ¬ ComesTo limits frame forms m j form m' := by
  rintro ⟨-, w, hw⟩
  obtain ⟨before, stop, after, last, mid, fault, m'', rfl, rfl, hbefore, hfault⟩ :=
    failsAt_iff.1 h
  obtain ⟨k, rfl⟩ := Nat.exists_eq_add_of_lt hlt
  have htake : (before ++ stop :: after).take (before.length + k + 1) =
      before ++ stop :: after.take k := by
    rw [Nat.add_assoc, List.take_length_add_append, List.take_succ_cons]
  rw [htake, evaluateForms_append_of_value hbefore, evaluateForms_of_fault hfault] at hw
  cases hw

/-- The loops stop at one form only. -/
theorem FailsAt.unique {j : Nat} (h : FailsAt limits frame forms m i)
    (h' : FailsAt limits frame forms m j) : i = j := by
  obtain ⟨form, m', hcomes, -⟩ := id h
  obtain ⟨form', m'', hcomes', -⟩ := id h'
  by_contra hne
  rcases Nat.lt_or_gt_of_ne hne with hlt | hgt
  · exact h.not_comesTo hlt hcomes'
  · exact h'.not_comesTo hgt hcomes

/-- A report is of one value only. -/
theorem ReportsValue.unique {run : RunResult} {w : Value}
    (h : ReportsValue limits frame forms m run v) (h' : ReportsValue limits frame forms m run w) :
    v = w := by
  rcases h.last with hv | ⟨-, hnone, hv⟩
  · rcases h'.last with hw | ⟨-, hnone, -⟩
    · exact Option.some.inj (hv.symm.trans hw)
    · rw [hv] at hnone
      cases hnone
  · rcases h'.last with hw | ⟨-, -, hw⟩
    · rw [hw] at hnone
      cases hnone
    · rw [hv, hw]

/-- A report of an error is no report of a value. -/
theorem ReportsError.not_reportsValue {run : RunResult} {kind : ErrorKind} {message : String}
    (h : ReportsError limits frame forms m run i kind message) :
    ¬ ReportsValue limits frame forms m run v := by
  intro hvalue
  obtain ⟨form, expression, -, -, hresult⟩ := h.failed
  have hnone := hvalue.complete
  rw [h.failure, hresult] at hnone
  cases hnone

/-- A report is of one error only. -/
theorem ReportsError.unique {run : RunResult} {j : Nat} {kind kind' : ErrorKind}
    {message message' : String} (h : ReportsError limits frame forms m run i kind message)
    (h' : ReportsError limits frame forms m run j kind' message') :
    i = j ∧ kind = kind' ∧ message = message' := by
  have hi : i = j := Nat.succ.inj (h.length.symm.trans h'.length)
  subst hi
  obtain ⟨form, expression, -, -, hresult⟩ := h.failed
  obtain ⟨form', expression', -, -, hresult'⟩ := h'.failed
  have heq := Option.some.inj (hresult.symm.trans hresult')
  have houtcome : Outcome.failed kind message = .failed kind' message' :=
    congrArg FormResult.outcome heq
  exact ⟨rfl, Outcome.failed.inj houtcome⟩

/-! ## The theorem -/

/-- The two ways in which a source with forms can end, both ways to run it together. -/
theorem runners_cases (hroom : 0 < limits.top.room) (hread : readForms source = .ok forms)
    (h : AllWritable limits frame forms m) :
    (∃ v run m', evaluateSource limits source frame m = (.ok v, m') ∧
        runSource limits source frame m = (.ok run, m') ∧
        ReportsValue limits frame forms m run v) ∨
      ∃ i fault m', FailsAt limits frame forms m i ∧
        evaluateSource limits source frame m = (.error (.eval fault), m') ∧
        ((∃ e run log, fault = .error e ∧
            runSource limits source frame m = (.ok run, { m' with log := log }) ∧
            ReportsError limits frame forms m run i e.cause.kind e.cause.message) ∨
          (∀ e, fault ≠ .error e) ∧
            runSource limits source frame m = (.error (.eval fault), m')) := by
  rcases evaluateForms_cases limits frame forms m with
    ⟨v, m', hvalue⟩ | ⟨before, form, after, last, mid, fault, m', hforms, hbefore, hfault⟩
  · obtain ⟨⟨rendered, hrendered⟩, results, hrun, hreports⟩ :=
      runForms_of_all_values hroom h hvalue
    refine Or.inl ⟨v, ⟨results⟩, m', evaluateSource_of_value hread hvalue hrendered, ?_, hreports⟩
    rw [runSource_of_forms hread, hrun]
    rfl
  · have hfails : FailsAt limits frame forms m before.length :=
      failsAt_iff.2 ⟨before, form, after, last, mid, fault, m', hforms, rfl, hbefore, hfault⟩
    subst hforms
    have hends : evaluateForms limits frame .nil (before ++ form :: after) m =
        (.error fault, m') := by
      rw [evaluateForms_append_of_value hbefore, evaluateForms_of_fault hfault]
    refine Or.inr ⟨before.length, fault, m', hfails, evaluateSource_of_forms_fault hread hends, ?_⟩
    by_cases herror : ∃ e, fault = .error e
    · obtain ⟨e, rfl⟩ := herror
      obtain ⟨results, log, hrun, hreports⟩ := runForms_of_stop_error h hbefore hfault
      refine Or.inl ⟨e, ⟨results⟩, log, rfl, ?_, hreports⟩
      rw [runSource_of_forms hread, hrun]
      rfl
    · have hne : ∀ e, fault ≠ .error e := fun e heq => herror ⟨e, heq⟩
      refine Or.inr ⟨hne, ?_⟩
      rw [runSource_of_forms hread, runForms_of_stop_fault h hbefore hfault hne]
      rfl

/-- What comes after the form at which the loops stop makes no difference to either. -/
theorem stops_whatever_follows (h : AllWritable limits frame forms m)
    (hfails : FailsAt limits frame forms m i) (later : List Value) :
    evaluateForms limits frame .nil (forms.take (i + 1) ++ later) m =
        evaluateForms limits frame .nil forms m ∧
      runForms limits frame 0 (forms.take (i + 1) ++ later) m =
        runForms limits frame 0 forms m := by
  obtain ⟨before, form, after, last, m', fault, m'', rfl, rfl, hbefore, hfault⟩ :=
    failsAt_iff.1 hfails
  have htake : (before ++ form :: after).take (before.length + 1) ++ later =
      before ++ form :: later := by
    have hsplit : before ++ form :: after = (before ++ [form]) ++ after := by
      rw [List.append_assoc, List.singleton_append]
    have hlength : (before ++ [form]).length = before.length + 1 := by
      rw [List.length_append, List.length_singleton]
    rw [hsplit, List.take_left' hlength, List.append_assoc, List.singleton_append]
  rw [htake]
  constructor
  · rw [evaluateForms_append_of_value hbefore, evaluateForms_append_of_value hbefore,
      evaluateForms_of_fault hfault, evaluateForms_of_fault hfault]
  · by_cases herror : ∃ e, fault = .error e
    · obtain ⟨e, rfl⟩ := herror
      obtain ⟨results, log, hrun, -⟩ := runForms_of_stop_error h hbefore hfault
      rw [hrun, hrun]
    · have hne : ∀ e, fault ≠ .error e := fun e heq => herror ⟨e, heq⟩
      rw [runForms_of_stop_fault h hbefore hfault hne, runForms_of_stop_fault h hbefore hfault hne]

/-- The two ways to run a source agree. A source that cannot be read ends both in the same fault,
before anything has happened. Let each form that is come to have a text, and so its value. Then both
end on the same machine, but for the log: the source has a value exactly if the report is complete
and ends in this value, and it ends in an error at a form exactly if the report does, of the kind
and with the message of the error. Forms after that are not evaluated: any others could stand there.
-/
theorem runners_agree (hroom : 0 < limits.top.room)
    (hwritable : ∀ forms, readForms source = .ok forms → AllWritable limits frame forms m) :
    (∀ fault, readForms source = .error fault →
      evaluateSource limits source frame m = (.error (.read fault), m) ∧
        runSource limits source frame m = (.error (.read fault), m)) ∧
    ∀ forms, readForms source = .ok forms →
      (∃ log, (runSource limits source frame m).2 =
        { (evaluateSource limits source frame m).2 with log := log }) ∧
      (∀ v, (evaluateSource limits source frame m).1 = .ok v ↔
        ∃ run, (runSource limits source frame m).1 = .ok run ∧
          ReportsValue limits frame forms m run v) ∧
      (∀ i kind message,
        (∃ e, (evaluateSource limits source frame m).1 = .error (.eval (.error e)) ∧
            FailsAt limits frame forms m i ∧ e.cause.kind = kind ∧ e.cause.message = message) ↔
          ∃ run, (runSource limits source frame m).1 = .ok run ∧
            ReportsError limits frame forms m run i kind message) ∧
      ∀ i, FailsAt limits frame forms m i → ∀ later,
        evaluateForms limits frame .nil (forms.take (i + 1) ++ later) m =
            evaluateForms limits frame .nil forms m ∧
          runForms limits frame 0 (forms.take (i + 1) ++ later) m =
            runForms limits frame 0 forms m := by
  refine ⟨fun fault hread => ⟨evaluateSource_of_fault hread, runSource_of_fault hread⟩,
    fun forms hread => ?_⟩
  have h := hwritable forms hread
  have hfollows : ∀ i, FailsAt limits frame forms m i → ∀ later, _ :=
    fun i hfails later => stops_whatever_follows h hfails later
  rcases runners_cases hroom hread h with ⟨v, run, m', hevaluate, hrun, hreports⟩ |
    ⟨i, fault, m', hfails, hevaluate, ⟨e, run, log, rfl, hrun, hreports⟩ | ⟨hne, hrun⟩⟩
  · rw [hevaluate, hrun]
    refine ⟨⟨m'.log, rfl⟩, fun w => ⟨?_, ?_⟩, fun j kind message => ⟨?_, ?_⟩, hfollows⟩
    · intro hw
      have hvw : v = w := Except.ok.inj hw
      exact ⟨run, rfl, hvw ▸ hreports⟩
    · rintro ⟨run', hrun', hreports'⟩
      obtain rfl := Except.ok.inj hrun'
      rw [hreports.unique hreports']
    · rintro ⟨e, he, -⟩
      cases he
    · rintro ⟨run', hrun', herror⟩
      obtain rfl := Except.ok.inj hrun'
      exact absurd hreports herror.not_reportsValue
  · rw [hevaluate, hrun]
    refine ⟨⟨log, rfl⟩, fun w => ⟨nofun, ?_⟩, fun j kind message => ⟨?_, ?_⟩, hfollows⟩
    · rintro ⟨run', hrun', hvalue⟩
      obtain rfl := Except.ok.inj hrun'
      exact absurd hvalue hreports.not_reportsValue
    · rintro ⟨e', he', hfails', rfl, rfl⟩
      obtain rfl := Fault.error.inj (RunFault.eval.inj (Except.error.inj he'))
      obtain rfl := hfails.unique hfails'
      exact ⟨run, rfl, hreports⟩
    · rintro ⟨run', hrun', herror⟩
      obtain rfl := Except.ok.inj hrun'
      obtain ⟨rfl, rfl, rfl⟩ := hreports.unique herror
      exact ⟨e, rfl, hfails, rfl, rfl⟩
  · rw [hevaluate, hrun]
    refine ⟨⟨m'.log, rfl⟩, fun w => ⟨nofun, ?_⟩, fun j kind message => ⟨?_, ?_⟩, hfollows⟩
    · rintro ⟨run', hrun', -⟩
      cases hrun'
    · rintro ⟨e, he, -⟩
      exact absurd (RunFault.eval.inj (Except.error.inj he)) (hne e)
    · rintro ⟨run', hrun', -⟩
      cases hrun'

/-- In a new global frame `t` has a value and `y` has none, so the two ways to run a source with
both agree. -/
theorem runners_agree_unbound :
    let fresh := { Machine.empty with store := Store.empty.global [] }
    let forms := [Value.symbol "t", Value.symbol "y"]
    (evaluateSource {} "t y" 0 fresh).1 =
        .error (.eval (.error ⟨.unbound "y", "", "y"⟩)) ∧
      FailsAt {} 0 forms fresh 1 ∧
      ∃ run, (runSource {} "t y" 0 fresh).1 = .ok run ∧
        ReportsError {} 0 forms fresh run 1 .unboundSymbol (Cause.unbound "y").message := by
  intro fresh forms
  have hread : readForms "t y" = .ok forms := by
    have hlexemes : lexemes "t y".toList =
        ([.token (.atom ['t']), .blanks [' '], .token (.atom ['y'])], []) := by
      decide +kernel
    rw [readForms_of_lexemes hlexemes]
    rfl
  have hroom : 0 < (Limits.top {}).room := by decide
  have ht : evaluateToplevel {} (.symbol "t") 0 fresh = (.ok (.symbol "t"), fresh) := by rfl
  have hy : (evaluateToplevel {} (.symbol "y") 0 fresh).1 =
      .error (.error ⟨.unbound "y", "", "y"⟩) := rfl
  have hfirst : evaluateForms {} 0 .nil [.symbol "t"] fresh = (.ok (.symbol "t"), fresh) := by rfl
  have hwritable : AllWritable {} 0 forms fresh := by
    intro i form m' hcomes
    match i, hcomes with
    | 0, ⟨hget, w, hw⟩ =>
      obtain rfl := Option.some.inj hget
      obtain ⟨-, rfl⟩ := Prod.mk.inj hw
      refine ⟨⟨hroom, trivial⟩, fun v m'' hvalue => ?_⟩
      rw [ht] at hvalue
      cases hvalue
      exact ⟨hroom, trivial⟩
    | 1, ⟨hget, w, hw⟩ =>
      obtain rfl := Option.some.inj hget
      obtain ⟨-, rfl⟩ := Prod.mk.inj (hfirst.symm.trans hw)
      refine ⟨⟨hroom, trivial⟩, fun v m'' hvalue => ?_⟩
      rw [hvalue] at hy
      cases hy
    | i + 2, ⟨hget, _⟩ => cases hget
  have hfails : FailsAt {} 0 forms fresh 1 := by
    refine ⟨.symbol "y", fresh, ⟨rfl, .symbol "t", hfirst⟩, fun v m'' hvalue => ?_⟩
    rw [hvalue] at hy
    cases hy
  have hevaluate : (evaluateSource {} "t y" 0 fresh).1 =
      .error (.eval (.error ⟨.unbound "y", "", "y"⟩)) := by
    rcases hend : evaluateToplevel {} (.symbol "y") 0 fresh with ⟨outcome, m''⟩
    rw [hend] at hy
    obtain rfl : outcome = .error (.error ⟨.unbound "y", "", "y"⟩) := hy
    rw [evaluateSource_of_forms_fault hread
      ((evaluateForms_of_value ht).trans (evaluateForms_of_fault hend))]
  have hforms : ∀ forms', readForms "t y" = .ok forms' → AllWritable {} 0 forms' fresh := by
    intro forms' hread'
    obtain rfl := Except.ok.inj (hread.symm.trans hread')
    exact hwritable
  obtain ⟨-, -, herror, -⟩ := (runners_agree hroom hforms).2 forms hread
  exact ⟨hevaluate, hfails,
    (herror 1 .unboundSymbol (Cause.unbound "y").message).1 ⟨_, hevaluate, hfails, rfl, rfl⟩⟩

end Fexpr
