import Fexpr.Command
import Fexpr.Proofs.Reader.RoundTrip
import Fexpr.Proofs.Session
import Fexpr.Proofs.Toplevel

/-!
# What a program reports

A program is run for a report on its forms. An evaluation may end in a fault, and the top level
makes an error of every fault but one: that of a loop which does not end. What is written out around
the evaluation is not covered by that: the text of a form is made before the form is evaluated, that
of its value afterwards, and either may be missing; so may be an integer or a depth that the reader
has no room for. `Reportable` says where none of this happens, in terms of the evaluation alone;
`Contained` says how a run should end, and `Reports` what its report should be.

The conditions are on the height of values and on the size of their integers
(`Value.IsWritable`), and so are those for sessions and for files.
-/

namespace Fexpr

/-! ## Reports -/

section

variable {limits : Limits} {frame : FrameId} {forms : List Value} {m m' : Machine} {index : Nat}

variable (limits frame) in
/-- What a report should say: for each form in turn, as long as they have values, the value and its
text; for the first form without a value, and for none after it, the cause. -/
inductive Reports : Nat → List Value → Machine → List FormResult → Machine → Prop
  | done {index : Nat} {m : Machine} : Reports index [] m [] m
  | complete {index : Nat} {form v : Value} {forms : List Value} {m m' m'' : Machine}
      {expression rendered : String} {results : List FormResult}
      (hform : form.render limits.top.room = .ok expression)
      (hvalue : evaluate limits form frame m = (.ok v, m'))
      (hrendered : v.render limits.top.room = .ok rendered)
      (hrest : Reports (index + 1) forms m' results m'') :
      Reports index (form :: forms) m (⟨index, expression, .complete v rendered⟩ :: results) m''
  | failed {index : Nat} {form : Value} {forms : List Value} {m m' : Machine}
      {expression : String} {fault : Fault} {cause : Cause} {log : List LogRecord}
      (hform : form.render limits.top.room = .ok expression)
      (hfault : evaluate limits form frame m = (.error fault, m'))
      (hcause : fault.cause? = some cause) :
      Reports index (form :: forms) m
        [⟨index, expression, .failed cause.kind cause.message⟩] { m' with log := log }

variable (limits frame) in
/-- Where nothing stands in the way of a report: each form that a run comes to can be written, and
so can its value, and its evaluation ends. -/
def Reportable : List Value → Machine → Prop
  | [], _ => True
  | form :: forms, m =>
    form.IsWritable limits.top.room ∧
      match evaluate limits form frame m with
      | (.ok v, m') => v.IsWritable limits.top.room ∧ Reportable forms m'
      | (.error fault, _) => fault ≠ .endless

/-- Where nothing stands in the way, a run ends in a report that says what it should. -/
theorem runForms_of_reportable (h : Reportable limits frame forms m) (index : Nat) :
    ∃ results m', runForms limits frame index forms m = (.ok results, m') ∧
      Reports limits frame index forms m results m' := by
  -- The induction is on the forms, from any machine: the next form starts where this one ended.
  induction forms generalizing m index with
  | nil => exact ⟨[], m, rfl, .done⟩
  | cons form forms ih =>
    obtain ⟨hwritable, hnext⟩ := h
    obtain ⟨text, htext⟩ := Value.exists_render_iff.2 hwritable
    rcases heval : evaluate limits form frame m with ⟨fault | v, m'⟩ <;> rw [heval] at hnext
    · obtain ⟨cause, hcause⟩ := exists_cause hnext
      obtain ⟨log, hrun⟩ := runForms_of_cause htext heval hcause
      exact ⟨_, _, hrun, .failed htext heval hcause⟩
    · obtain ⟨rendered, hrendered⟩ := Value.exists_render_iff.2 hnext.1
      obtain ⟨results, m'', hrest, hreports⟩ := ih hnext.2 (index + 1)
      refine ⟨_, m'', ?_, .complete htext heval hrendered hreports⟩
      rw [runForms_of_value htext heval hrendered, hrest]
      rfl

/-- A run ends in a report only where nothing stands in the way. -/
theorem reportable_of_runForms {results : List FormResult}
    (h : runForms limits frame index forms m = (.ok results, m')) :
    Reportable limits frame forms m := by
  -- A run can end without a report at the text of a form, at its evaluation, and at the text of its
  -- value; each of these would show in the outcome.
  induction forms generalizing m index results with
  | nil => trivial
  | cons form forms ih =>
    cases htext : form.render limits.top.room with
    | error textFault =>
      rw [runForms_of_no_text htext] at h
      cases h
    | ok text =>
      refine ⟨Value.exists_render_iff.1 ⟨text, htext⟩, ?_⟩
      rcases heval : evaluate limits form frame m with ⟨fault | v, mid⟩
      · rintro rfl
        rw [runForms_of_no_cause htext heval rfl] at h
        cases h
      · cases hrendered : v.render limits.top.room with
        | error textFault =>
          rw [runForms_of_no_rendered htext heval hrendered] at h
          cases h
        | ok rendered =>
          refine ⟨Value.exists_render_iff.1 ⟨rendered, hrendered⟩, ?_⟩
          rw [runForms_of_value htext heval hrendered] at h
          rcases hrest : runForms limits frame (index + 1) forms mid with ⟨fault | rest, last⟩
          · rw [hrest] at h
            cases h
          · rw [hrest] at h
            cases h
            exact ih hrest

end

namespace Reports

variable {limits : Limits} {frame : FrameId} {index : Nat} {forms : List Value} {m m' : Machine}
  {results : List FormResult}

/-- Results are numbered from the first one on. -/
theorem index_eq (h : Reports limits frame index forms m results m') {i : Nat} {r : FormResult}
    (hr : results[i]? = some r) : r.index = index + i := by
  induction h generalizing i with
  | done => cases hr
  | complete hform hvalue hrendered hrest ih =>
    cases i with
    | zero =>
      cases hr
      rfl
    | succ i =>
      rw [ih hr]
      omega
  | failed hform hfault hcause =>
    cases i with
    | zero =>
      cases hr
      rfl
    | succ i => cases hr

/-- A result of a form that failed is the last one. -/
theorem last_of_failed (h : Reports limits frame index forms m results m') {i : Nat}
    {r : FormResult} (hr : results[i]? = some r) (herror : r.error?.isSome) :
    results.length = i + 1 := by
  induction h generalizing i with
  | done => cases hr
  | complete hform hvalue hrendered hrest ih =>
    cases i with
    | zero =>
      cases hr
      cases herror
    | succ i => rw [List.length_cons, ih hr]
  | failed hform hfault hcause =>
    cases i with
    | zero => rfl
    | succ i => cases hr

/-- A form that was evaluated is not the one that failed. -/
theorem failure?_cons {r : FormResult} (h : r.error? = none) :
    (⟨r :: results⟩ : RunResult).failure? = (⟨results⟩ : RunResult).failure? := by
  cases results with
  | nil => simp [RunResult.failure?, h]
  | cons head tail =>
    unfold RunResult.failure?
    rw [List.getLast?_cons_cons]

/-- A report without a failure has a result for each form; else the form of the last result is one
that was evaluated without a value, and the result gives its text and the cause. -/
theorem failure_cases (h : Reports limits frame index forms m results m') :
    ((⟨results⟩ : RunResult).failure? = none ∧ results.length = forms.length) ∨
      ∃ i r form m₁ m₂ fault cause, (⟨results⟩ : RunResult).failure? = some r ∧
        results.length = i + 1 ∧ forms[i]? = some form ∧
        form.render limits.top.room = .ok r.expression ∧
        evaluate limits form frame m₁ = (.error fault, m₂) ∧ fault.cause? = some cause ∧
        r.error? = some (cause.kind, cause.message) := by
  induction h with
  | done => exact Or.inl ⟨rfl, rfl⟩
  | complete hform hvalue hrendered hrest ih =>
    rw [failure?_cons rfl, List.length_cons]
    rcases ih with ⟨hnone, hlength⟩ |
      ⟨i, r, form, m₁, m₂, fault, cause, hsome, hlength, hform, hrest⟩
    · exact Or.inl ⟨hnone, by rw [hlength, List.length_cons]⟩
    · exact Or.inr ⟨i + 1, r, form, m₁, m₂, fault, cause, hsome, by rw [hlength], hform, hrest⟩
  | @failed index form forms m m₂ expression fault cause log hform hfault hcause =>
    exact Or.inr ⟨0, _, form, m, m₂, fault, cause, rfl, rfl, rfl, hform, hfault, hcause, rfl⟩

end Reports

/-- What can be told from a report on forms. -/
structure Accounts (limits : Limits) (frame : FrameId) (forms : List Value)
    (results : List FormResult) : Prop where
  /-- Results are numbered like the forms. -/
  numbered : ∀ i (r : FormResult), results[i]? = some r → r.index = i
  /-- Nothing follows on the result of a form that failed. -/
  failed_last : ∀ i (r : FormResult), results[i]? = some r → r.error?.isSome →
    results.length = i + 1
  /-- There is a result for each form; or else the last result is that of a form that was evaluated
  without a value, and gives its text and the cause. -/
  failure : ((⟨results⟩ : RunResult).failure? = none ∧ results.length = forms.length) ∨
    ∃ i r form m₁ m₂ fault cause, (⟨results⟩ : RunResult).failure? = some r ∧
      results.length = i + 1 ∧ forms[i]? = some form ∧
      form.render limits.top.room = .ok r.expression ∧
      evaluate limits form frame m₁ = (.error fault, m₂) ∧ fault.cause? = some cause ∧
      r.error? = some (cause.kind, cause.message)

/-- A report that says what it should can be told these things from. -/
theorem Reports.accounts {limits : Limits} {frame : FrameId} {forms : List Value} {m m' : Machine}
    {results : List FormResult} (h : Reports limits frame 0 forms m results m') :
    Accounts limits frame forms results where
  numbered _ _ hr := (h.index_eq hr).trans (Nat.zero_add _)
  failed_last _ _ := h.last_of_failed
  failure := h.failure_cases

/-! ## Programs -/

/-- Where a program is reported on: its source can be read or is not well formed, and if it has
forms, nothing stands in the way of a report on them. -/
def SourceReportable (limits : Limits) (source : String) (frame : FrameId) (m : Machine) : Prop :=
  match readForms source with
  | .ok forms => Reportable limits frame forms m
  | .error fault => ∃ invalid, fault = .invalid invalid

/-- How a run of a program should end: with what is wrong with the source, before anything has
happened, or with a report on its forms. -/
inductive Contained (limits : Limits) (source : String) (frame : FrameId) (m : Machine) : Prop
  | invalid {fault : SyntaxFault} (hread : readForms source = .error (.invalid fault))
      (hrun : runSource limits source frame m = (.error (.read (.invalid fault)), m))
  | reported {forms : List Value} {results : List FormResult} {m' : Machine}
      (hread : readForms source = .ok forms)
      (hrun : runSource limits source frame m = (.ok ⟨results⟩, m'))
      (hreports : Reports limits frame 0 forms m results m')

section

variable {limits : Limits} {source : String} {frame : FrameId} {m : Machine}

/-- Where nothing stands in the way of a report, a run ends as it should. -/
theorem contained_of_reportable (h : SourceReportable limits source frame m) :
    Contained limits source frame m := by
  unfold SourceReportable at h
  cases hread : readForms source with
  | error fault =>
    rw [hread] at h
    obtain ⟨invalid, rfl⟩ := h
    exact .invalid hread (runSource_of_fault hread)
  | ok forms =>
    rw [hread] at h
    obtain ⟨results, m', hrun, hreports⟩ := runForms_of_reportable h 0
    refine .reported hread ?_ hreports
    rw [runSource_of_forms hread, hrun]
    rfl

/-- A run that ends as it should ends in no other fault. -/
theorem Contained.isInvalid (h : Contained limits source frame m) {fault : RunFault}
    (hfault : (runSource limits source frame m).1 = .error fault) : fault.IsInvalid := by
  rcases h with ⟨-, hrun⟩ | ⟨-, hrun, -⟩
  · rw [hrun] at hfault
    exact ⟨_, (Except.error.inj hfault).symm⟩
  · rw [hrun] at hfault
    cases hfault

/-- Where a run ends in no other fault, nothing stands in the way of a report. -/
theorem reportable_of_isInvalid
    (h : ∀ fault, (runSource limits source frame m).1 = .error fault → fault.IsInvalid) :
    SourceReportable limits source frame m := by
  unfold SourceReportable
  cases hread : readForms source with
  | error fault =>
    obtain ⟨invalid, hinvalid⟩ := h (.read fault) (by rw [runSource_of_fault hread])
    exact ⟨invalid, RunFault.read.inj hinvalid⟩
  | ok forms =>
    rcases hresult : runForms limits frame 0 forms m with ⟨fault | results, m'⟩
    · obtain ⟨_, hinvalid⟩ := h (.eval fault) (by rw [runSource_of_forms hread, hresult]; rfl)
      cases hinvalid
    · exact reportable_of_runForms hresult

/-- A run ends as it should exactly where nothing stands in the way of a report. -/
theorem contained_iff :
    Contained limits source frame m ↔ SourceReportable limits source frame m :=
  ⟨fun h => reportable_of_isInvalid fun _ hfault => h.isInvalid hfault, contained_of_reportable⟩

end

/-! ## Sessions -/

namespace Session

variable {limits : Limits} {s : Session} {text : String}

/-- A session that meets no other fault in a run says what it should, and goes on. -/
theorem source_of_isInvalid
    (h : ∀ fault, (runSource limits text s.frame s.machine).1 = .error fault → fault.IsInvalid) :
    s.source limits text =
      (.ok (), { s with machine := (runSource limits text s.frame s.machine).2 }.printLines
        (remark s.echo (runSource limits text s.frame s.machine).1).toList) := by
  rw [source_eq, passedOn_eq_ok_iff.2 h]

/-- A session goes on after a run exactly where nothing stands in the way of a report. -/
theorem source_ok_iff :
    (s.source limits text).1 = .ok () ↔ SourceReportable limits text s.frame s.machine := by
  rw [source_eq, passedOn_eq_ok_iff]
  exact ⟨reportable_of_isInvalid, fun h _ hfault => (contained_of_reportable h).isInvalid hfault⟩

end Session

/-! ## Files -/

namespace Command

/-- A call that ends with a report: all went well, or what did not was reported. -/
def Exit.IsReported (exit : Exit) : Prop :=
  exit = .code 0 ∨ exit = .code 1

theorem Exit.not_isReported {exit : Exit} (h : ∀ n, exit ≠ .code n) : ¬ exit.IsReported := by
  rintro (hzero | hone)
  · exact h 0 hzero
  · exact h 1 hone

/-- Where a call reports on every file that it comes to: the system refuses to read it, or it holds
a text, and nothing stands in the way of a report on the program there. -/
def FilesReportable (limits : Limits) (tree : FileTree) (log : Option Place) :
    Command → List String → Prop
  | _, [] => True
  | c, path :: paths =>
    match c.find tree log path with
    | (.error fault, _) => ∃ refused, fault = .system refused
    | (.ok none, _) => False
    | (.ok (some source), c) =>
      SourceReportable limits source c.frame { c.machine with log := [] } ∧
        match c.runFile limits path (.ok (some source)) with
        | (none, c) => FilesReportable limits tree log c paths
        | (some _, _) => True

variable {limits : Limits} {tree : FileTree} {log : Option Place} {c : Command}
  {path source : String} {paths : List String}

@[simp] theorem machine_flush (c : Command) : c.flush.machine = { c.machine with log := [] } := by
  unfold flush
  dsimp only
  cases logFile? c.config <;> rfl

@[simp] theorem frame_flush (c : Command) : c.flush.frame = c.frame := by
  unfold flush
  dsimp only
  cases logFile? c.config <;> rfl

@[simp] theorem input_flush (c : Command) : c.flush.input = c.input := by
  unfold flush
  dsimp only
  cases logFile? c.config <;> rfl

@[simp] theorem machine_log (c : Command) (record : LogRecord) :
    (c.log record).machine = { c.machine with log := [] } := by
  simp [Command.log]

@[simp] theorem frame_log (c : Command) (record : LogRecord) : (c.log record).frame = c.frame := by
  simp [Command.log]

@[simp] theorem input_log (c : Command) (record : LogRecord) : (c.log record).input = c.input := by
  simp [Command.log]

/-- A file whose program meets no other fault ends the call with a report, if it ends it. -/
theorem runText_isReported
    (h : ∀ fault, (runSource limits source c.frame c.machine).1 = .error fault → fault.IsInvalid) :
    ∀ exit ∈ (c.runText limits path source).1, exit.IsReported := by
  unfold runText
  rcases hrun : runSource limits source c.frame c.machine with ⟨fault | result, m'⟩
  · rw [hrun] at h
    obtain ⟨invalid, rfl⟩ := h fault rfl
    rintro _ ⟨⟩
    exact Or.inr rfl
  · simp only
    split
    · rintro _ ⟨⟩
      exact Or.inr rfl
    · rintro _ ⟨⟩

/-- A file whose program meets another fault ends the call with that. -/
theorem runText_of_not_isInvalid {fault : RunFault}
    (hrun : (runSource limits source c.frame c.machine).1 = .error fault)
    (hfault : ¬ fault.IsInvalid) :
    (c.runText limits path source).1 = some (.fault fault) := by
  unfold runText
  rcases hall : runSource limits source c.frame c.machine with ⟨outcome, m'⟩
  rw [hall] at hrun
  obtain rfl : outcome = .error fault := hrun
  match fault, hfault with
  | .read (.invalid invalid), hfault => exact absurd ⟨invalid, rfl⟩ hfault
  | .read (.longNumeral digits), _ => rfl
  | .read .tooDeep, _ => rfl
  | .eval fault, _ => rfl

/-- A file ends a call without a report exactly where something stands in the way of one. -/
theorem runText_isReported_iff :
    (∀ exit ∈ (c.runText limits path source).1, exit.IsReported) ↔
      SourceReportable limits source c.frame c.machine := by
  constructor
  · intro h
    refine reportable_of_isInvalid fun fault hrun => ?_
    by_contra hfault
    have hexit := h _ (runText_of_not_isInvalid hrun hfault)
    exact absurd hexit (Exit.not_isReported fun _ => nofun)
  · exact fun h => runText_isReported fun _ hrun => (contained_of_reportable h).isInvalid hrun

/-- A call on files ends with a report exactly where nothing stands in the way of one. -/
theorem runFiles_isReported_iff :
    (c.runFiles limits tree log paths).1.IsReported ↔ FilesReportable limits tree log c paths := by
  induction paths generalizing c with
  | nil => exact ⟨fun _ => trivial, fun _ => Or.inl rfl⟩
  | cons path paths ih =>
    rw [runFiles, FilesReportable]
    rcases c.find tree log path with ⟨fault | _ | source, c⟩
    · cases fault with
      | system refused => exact ⟨fun _ => ⟨refused, rfl⟩, fun _ => Or.inr rfl⟩
      | nullCharacter | tooDeep =>
        constructor
        · exact fun h => absurd h (Exit.not_isReported fun _ => nofun)
        · exact fun ⟨_, h⟩ => (nomatch h)
    · constructor
      · exact fun h => absurd h (Exit.not_isReported fun _ => nofun)
      · exact fun h => h.elim
    · -- The file is announced in the log first, which changes neither the frame nor the bindings.
      have hfile : (∀ exit ∈ (c.runFile limits path (.ok (some source))).1, exit.IsReported) ↔
          SourceReportable limits source c.frame { c.machine with log := [] } := by
        rw [← machine_log c, ← frame_log c]
        exact runText_isReported_iff
      simp only
      rw [← hfile]
      rcases c.runFile limits path (.ok (some source)) with ⟨_ | exit, c⟩
      · simp [ih]
      · simp

/-- A call on its input runs that first, in a new global frame. -/
theorem reportable_of_input {config : Config}
    (h : FilesReportable limits tree log (start config source) ("-" :: paths)) :
    SourceReportable limits source Store.empty.next
      { Machine.empty with store := Store.empty.global [] } := by
  rw [FilesReportable] at h
  have hframe : (start config source).frame = Store.empty.next := by
    rw [start, frame_log]
  have hmachine : (start config source).machine =
      { Machine.empty with store := Store.empty.global [] } := by
    rw [start, machine_log]
    rfl
  have hinput : (start config source).input = source := by
    rw [start, input_log]
  have hfind : (start config source).find tree log "-" =
      (.ok (some source), { start config source with input := "" }) := by
    unfold find
    rw [if_pos rfl, hinput]
  rw [hfind] at h
  have h := h.1
  simp only [hframe, hmachine] at h
  exact h

end Command

/-! ## The theorem -/

/-- A form that was read can be written exactly if it is not too high: its integers are short. -/
theorem isWritable_of_read {source : String} {forms : List Value} (h : readForms source = .ok forms)
    {form : Value} (hform : form ∈ forms) (room : Nat) :
    form.IsWritable room ↔ form.height ≤ room := by
  have hreadable := (built_of_readForms h form hform).readable
  obtain ⟨text, htext, -⟩ := Value.render_of_readable hreadable (Nat.lt_succ_self form.nesting)
  have hshort := (Value.exists_render_iff.1 ⟨text, htext⟩).2
  exact ⟨fun h => h.1, fun h => ⟨h, hshort⟩⟩

/-- A run ends as it should exactly where nothing stands in the way of a report: the source is read,
or not well formed; every form that the run comes to can be written, and so can its value; and
evaluations end. A form that was read can be written exactly if it is not too high. What a report
says then is one result for each form, in order, up to the first form that failed, whose result is
the last one and gives the cause. Exactly there a session says what it should and goes on, and a
call on files ends with a report exactly if that is so for each file that it comes to. -/
theorem contained_iff_reportable (limits : Limits) :
    (∀ source frame m,
      Contained limits source frame m ↔ SourceReportable limits source frame m) ∧
    (∀ source forms, readForms source = .ok forms → ∀ form ∈ forms,
      (form.IsWritable limits.top.room ↔ form.height ≤ limits.top.room)) ∧
    (∀ frame forms m results m',
      Reports limits frame 0 forms m results m' → Accounts limits frame forms results) ∧
    (∀ (s : Session) text,
      ((s.source limits text).1 = .ok () ↔ SourceReportable limits text s.frame s.machine) ∧
      (SourceReportable limits text s.frame s.machine →
        (s.source limits text).2 =
          { s with machine := (runSource limits text s.frame s.machine).2 }.printLines
            (Session.remark s.echo (runSource limits text s.frame s.machine).1).toList)) ∧
    (∀ tree log c paths,
      (Command.runFiles limits tree log c paths).1.IsReported ↔
        Command.FilesReportable limits tree log c paths) := by
  refine ⟨fun source frame m => contained_iff,
    fun source forms hread form hform => isWritable_of_read hread hform limits.top.room,
    fun frame forms m results m' hreports => hreports.accounts,
    fun s text => ⟨Session.source_ok_iff, fun h => ?_⟩,
    fun tree log c paths => Command.runFiles_isReported_iff⟩
  rw [Session.source_of_isInvalid fun _ hfault => (contained_of_reportable h).isInvalid hfault]

/-! ## A value without a text -/

/-- A call of the product that squares a number. -/
def squareForm (n : Int) : Value :=
  .list (.symbol "*" :: [n, n].map .number) none

/-- A program that squares a number. -/
def squareSource (n : Int) : String :=
  "(* " ++ Text.integerString n ++ " " ++ Text.integerString n ++ ")"

section

variable {n : Int}

theorem render_squareForm (hshort : n.natAbs < Text.tooLongFrom) {room : Nat} (hroom : 2 ≤ room) :
    (squareForm n).render room = .ok (squareSource n) := by
  obtain ⟨room, rfl⟩ := Nat.exists_eq_add_of_le' hroom
  have hnumber : (Value.number n).render (room + 1) = .ok (Text.integerString n) := by
    rw [Value.render]
    exact Value.numeral_of_lt hshort
  have hsymbol : (Value.symbol "*").render (room + 1) = .ok "*" := by rw [Value.render]
  rw [squareForm, Value.render, List.mapM_cons, hsymbol, List.map_cons, List.map_cons, List.map_nil,
    List.mapM_cons, hnumber, List.mapM_cons, hnumber, List.mapM_nil]
  refine congrArg Except.ok (String.toList_inj.1 ?_)
  simp [squareSource, String.intercalate_cons_cons]

theorem readForms_squareSource (hshort : n.natAbs < Text.tooLongFrom) :
    readForms (squareSource n) = .ok [squareForm n] := by
  have hname : IsName "*" := by
    refine ⟨by decide, List.all_eq_true.1 (by decide), by decide, ?_⟩
    rw [← Text.Numeral.ofText?_eq_none_iff]
    decide
  have hnumber : (Value.number n).IsReadableNode :=
    (Text.length_toDigits_le_digitLimit_iff _).2 hshort
  have hreadable : (squareForm n).Readable := by
    refine .node (List.cons_ne_nil _ _) fun v hv => ?_
    simp only [squareForm, Value.parts, List.map_cons, List.map_nil, List.mem_cons,
      List.not_mem_nil, or_false, or_self] at hv
    rcases hv with rfl | rfl
    · exact .leaf hname rfl
    · exact .leaf hnumber rfl
  have hnesting : (squareForm n).nesting ≤ readingRoom := by
    simp [squareForm, Value.nesting, Value.nestingOfAll, readingRoom]
  have hread := readForm_text hreadable hnesting (render_squareForm hshort (le_refl 2))
  exact readForm_eq_ok_iff.1 hread

theorem evaluateWithin_squareForm {limits : Limits} {levels : Nat} {frame home : FrameId}
    {m : Machine} (hshort : n.natAbs < Text.tooLongFrom) (hlevels : 10 ≤ levels)
    (hbound : m.store.lookup? frame "*" = some (.builtin .multiply home)) :
    evaluateWithin limits levels 0 (squareForm n) frame m = (.ok (.number (n * n)), m) := by
  obtain ⟨levels, rfl⟩ := Nat.exists_eq_add_of_le' hlevels
  have hroom : 2 ≤ roomOf (levels + 9) := by
    unfold roomOf
    omega
  rw [squareForm, evaluateWithin_product hbound (render_squareForm hshort hroom),
    Arithmetic.product, List.foldl_cons, List.foldl_cons, List.foldl_nil, Int.one_mul]

/-- A number that can be written and whose square cannot: where the product is bound to its name,
the program that squares the number cannot be reported on. -/
theorem not_reportable_square {limits : Limits} {frame home : FrameId} {m : Machine}
    (hshort : n.natAbs < Text.tooLongFrom) (hlong : ¬ (n * n).natAbs < Text.tooLongFrom)
    (hlevels : 10 ≤ limits.levels)
    (hbound : m.store.lookup? frame "*" = some (.builtin .multiply home)) :
    ¬ SourceReportable limits (squareSource n) frame m := by
  unfold SourceReportable
  rw [readForms_squareSource hshort]
  rintro ⟨-, hvalue⟩
  rw [evaluate, evaluateWithin_squareForm hshort hlevels hbound] at hvalue
  exact hlong hvalue.1.2

end

/-- A one and zeros. -/
def powerOfTen (zeros : Nat) : Int := (10 ^ zeros : Nat)

theorem natAbs_powerOfTen_lt_iff {zeros : Nat} :
    (powerOfTen zeros).natAbs < Text.tooLongFrom ↔ zeros < Text.digitLimit := by
  rw [powerOfTen, Int.natAbs_natCast, Text.tooLongFrom_eq]
  exact Nat.pow_lt_pow_iff_right (by omega)

theorem powerOfTen_mul (zeros zeros' : Nat) :
    powerOfTen zeros * powerOfTen zeros' = powerOfTen (zeros + zeros') := by
  unfold powerOfTen
  rw [Nat.pow_add, Int.natCast_mul]

/-- In a new global frame the square of a number with half the digits is not contained: the run ends
in a fault, and so does a session or a call on a file with that program. -/
theorem not_contained_square :
    let fresh := { Machine.empty with store := Store.empty.global [] }
    let source := squareSource (powerOfTen 2150)
    ¬ Contained {} source Store.empty.next fresh ∧
      ((Session.new true []).source {} source).1 ≠ .ok () ∧
      ¬ ((Command.start {} source).runFiles {} (.ofFiles [] []) none ["-"]).1.IsReported := by
  intro fresh source
  -- The factor can be written and read, so the form can be called; the product has no text.
  have hbound : fresh.store.lookup? Store.empty.next "*" =
      some (.builtin .multiply Store.empty.next) := rfl
  have hnot : ¬ SourceReportable {} source Store.empty.next fresh := by
    refine not_reportable_square (natAbs_powerOfTen_lt_iff.2 (by decide)) ?_ (by decide) hbound
    rw [powerOfTen_mul, natAbs_powerOfTen_lt_iff]
    decide
  refine ⟨fun h => hnot (contained_iff.1 h), fun h => ?_, fun h => ?_⟩
  · exact hnot (Session.source_ok_iff.1 h)
  · exact hnot (Command.reportable_of_input (Command.runFiles_isReported_iff.1 h))

end Fexpr
