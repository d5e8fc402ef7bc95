import Fexpr.Proofs.Containment
import Fexpr.Proofs.Correspondence.Logging
import Fexpr.Proofs.Reader.Lines

/-!
# Files run in order

A call on several files runs each of them in the same global frame, up to the first form that fails.
That is to run one source, made of their texts with a line feed after each but the last one: it
reads as the forms of all (`readForms_intercalate`), and the forms of one file start on the machine
that the forms before left, but for the log. A result of the one run and of the other differ in the
number of the form only, which each file counts from one on.

Main statement: `runFiles_joined`.
-/

namespace Fexpr

variable {limits : Limits} {frame : FrameId} {index : Nat} {form : Value} {forms : List Value}
  {m m' : Machine} {results more : List FormResult}

/-! ## A run in pieces -/

/-- A run goes on after a form, with one result more, or ends at it, whatever comes after. -/
theorem runForms_cons_cases (limits : Limits) (frame : FrameId) (index : Nat) (form : Value)
    (m : Machine) :
    (∃ r m', r.error? = none ∧ ∀ forms, runForms limits frame index (form :: forms) m =
      ((runForms limits frame (index + 1) forms m').1.map (r :: ·),
        (runForms limits frame (index + 1) forms m').2)) ∨
    ∃ outcome m', (∀ results, outcome = .ok results →
        ∃ r, results = [r] ∧ r.error?.isSome ∧ r.index = index) ∧
      ∀ forms, runForms limits frame index (form :: forms) m = (outcome, m') := by
  cases htext : form.render limits.top.room with
  | error textFault =>
    exact Or.inr ⟨.error textFault.toFault, m, nofun, fun forms => runForms_of_no_text htext⟩
  | ok text =>
    rcases htop : evaluateToplevel limits form frame m with ⟨fault | v, m'⟩
    · by_cases herror : ∃ e, fault = .error e
      · obtain ⟨e, rfl⟩ := herror
        obtain ⟨log, hrun⟩ := runForms_of_toplevel_error htext htop index
        refine Or.inr ⟨_, _, fun results h => ?_, hrun⟩
        exact ⟨_, (Except.ok.inj h).symm, rfl, rfl⟩
      · have hne : ∀ e, fault ≠ .error e := fun e heq => herror ⟨e, heq⟩
        exact Or.inr ⟨.error fault, m', nofun,
          fun forms => runForms_of_toplevel_fault htext htop hne⟩
    · cases hrendered : v.render limits.top.room with
      | error textFault =>
        exact Or.inr ⟨.error textFault.toFault, m', nofun,
          fun forms => runForms_of_toplevel_no_rendered htext htop hrendered⟩
      | ok rendered =>
        exact Or.inl ⟨_, m', rfl, fun forms => runForms_of_toplevel_value htext htop hrendered⟩

/-- A run goes on after forms, without a failure so far, or ends at one of them, whatever comes
after that one. -/
theorem runForms_append_cases (limits : Limits) (frame : FrameId) (index : Nat)
    (before : List Value) (m : Machine) :
    (∃ results m', (⟨results⟩ : RunResult).failure? = none ∧
      ∀ after, runForms limits frame index (before ++ after) m =
        ((runForms limits frame (index + before.length) after m').1.map (results ++ ·),
          (runForms limits frame (index + before.length) after m').2)) ∨
    ∃ j outcome m', j < before.length ∧
      (∀ results, outcome = .ok results →
        ∃ r, (⟨results⟩ : RunResult).failure? = some r ∧ r.index = index + j) ∧
      ∀ later, runForms limits frame index (before.take (j + 1) ++ later) m = (outcome, m') := by
  induction before generalizing index m with
  | nil =>
    refine Or.inl ⟨[], m, rfl, fun after => ?_⟩
    rw [List.nil_append, List.length_nil, Nat.add_zero]
    rcases runForms limits frame index after m with ⟨_ | _, _⟩ <;> rfl
  | cons form before ih =>
    rcases runForms_cons_cases limits frame index form m with
      ⟨r, mid, hr, hnext⟩ | ⟨outcome, m', hend, hstop⟩
    · rcases ih (index + 1) mid with
        ⟨results, m', hnone, hrun⟩ | ⟨j, outcome, m', hj, hend, hrun⟩
      · refine Or.inl ⟨r :: results, m', ?_, fun after => ?_⟩
        · rw [Reports.failure?_cons hr]
          exact hnone
        · rw [List.cons_append, hnext, hrun, List.length_cons, Nat.add_assoc, Nat.add_comm 1]
          rcases runForms limits frame (index + (before.length + 1)) after m' with ⟨_ | _, _⟩
          · rfl
          · rfl
      · refine Or.inr ⟨j + 1, outcome.map (r :: ·), m', Nat.succ_lt_succ hj, ?_, fun later => ?_⟩
        · intro results h
          cases outcome with
          | error fault => cases h
          | ok rest =>
            cases h
            obtain ⟨r', hsome, hindex⟩ := hend rest rfl
            rw [Reports.failure?_cons hr]
            exact ⟨r', hsome, by omega⟩
        · rw [List.take_succ_cons, List.cons_append, hnext, hrun]
    · refine Or.inr ⟨0, outcome, m', Nat.succ_pos _, fun results h => ?_, fun later => ?_⟩
      · obtain ⟨r, rfl, hr, hindex⟩ := hend results h
        refine ⟨r, ?_, hindex⟩
        unfold RunResult.failure?
        rw [List.getLast?_singleton, Option.filter_some, if_pos hr]
      · exact hstop later

/-- Forms that are evaluated without a failure are followed by the next ones. -/
theorem runForms_append_of_complete
    (hrun : runForms limits frame index forms m = (.ok results, m'))
    (hnone : (⟨results⟩ : RunResult).failure? = none) (after : List Value) :
    runForms limits frame index (forms ++ after) m =
      ((runForms limits frame (index + forms.length) after m').1.map (results ++ ·),
        (runForms limits frame (index + forms.length) after m').2) := by
  rcases runForms_append_cases limits frame index forms m with
    ⟨results', m'', -, hafter⟩ | ⟨j, outcome, m'', -, hend, hlater⟩
  · have hself := hafter []
    rw [List.append_nil, hrun] at hself
    obtain ⟨hresults, rfl⟩ := Prod.mk.inj hself
    obtain rfl : results = results' ++ [] := Except.ok.inj hresults
    rw [List.append_nil]
    exact hafter after
  · have hself := hlater (forms.drop (j + 1))
    rw [List.take_append_drop, hrun] at hself
    obtain ⟨rfl, rfl⟩ := Prod.mk.inj hself
    obtain ⟨r, hsome, -⟩ := hend results rfl
    rw [hnone] at hsome
    cases hsome

/-- A form that fails is the last one that is evaluated, whatever comes after it. -/
theorem runForms_append_of_failure {r : FormResult}
    (hrun : runForms limits frame index forms m = (.ok results, m'))
    (hsome : (⟨results⟩ : RunResult).failure? = some r) :
    ∃ j < forms.length, r.index = index + j ∧
      ∀ later, runForms limits frame index (forms.take (j + 1) ++ later) m = (.ok results, m') := by
  rcases runForms_append_cases limits frame index forms m with
    ⟨results', m'', hnone, hafter⟩ | ⟨j, outcome, m'', hj, hend, hlater⟩
  · have hself := hafter []
    rw [List.append_nil, hrun] at hself
    obtain rfl : results = results' ++ [] := Except.ok.inj (Prod.mk.inj hself).1
    rw [List.append_nil, hnone] at hsome
    cases hsome
  · have hself := hlater (forms.drop (j + 1))
    rw [List.take_append_drop, hrun] at hself
    obtain ⟨rfl, rfl⟩ := Prod.mk.inj hself
    obtain ⟨r', hsome', hindex⟩ := hend results rfl
    obtain rfl : r = r' := Option.some.inj (hsome.symm.trans hsome')
    exact ⟨j, hj, hindex, hlater⟩

/-- A fault that is not reported ends the run, whatever comes after it. -/
theorem runForms_append_of_fault {fault : Fault}
    (hrun : runForms limits frame index forms m = (.error fault, m')) (after : List Value) :
    runForms limits frame index (forms ++ after) m = (.error fault, m') := by
  rcases runForms_append_cases limits frame index forms m with
    ⟨results', m'', -, hafter⟩ | ⟨j, outcome, m'', -, -, hlater⟩
  · have hself := hafter []
    rw [List.append_nil, hrun] at hself
    cases (Prod.mk.inj hself).1
  · have hself := hlater (forms.drop (j + 1))
    rw [List.take_append_drop, hrun] at hself
    rw [← List.take_append_drop (j + 1) forms, List.append_assoc, hlater, hself]

/-- Behind results without a failure, it is the other results that decide. -/
theorem failure?_append (h : (⟨results⟩ : RunResult).failure? = none) :
    (⟨results ++ more⟩ : RunResult).failure? = (⟨more⟩ : RunResult).failure? := by
  rcases List.eq_nil_or_concat more with rfl | ⟨before, last, rfl⟩
  · rw [List.append_nil, h]
    rfl
  · unfold RunResult.failure?
    rw [List.concat_eq_append, ← List.append_assoc, List.getLast?_concat, List.getLast?_concat]

/-- To number forms from another place on makes no difference to which one fails. -/
theorem failure?_after (n : Nat) (results : List FormResult) :
    (⟨results.map (FormResult.after n)⟩ : RunResult).failure? =
      (⟨results⟩ : RunResult).failure?.map (FormResult.after n) := by
  unfold RunResult.failure?
  rw [List.getLast?_map]
  cases results.getLast? with
  | none => rfl
  | some r =>
    have herror : (FormResult.after n r).error? = r.error? := rfl
    rw [Option.map_some, Option.filter_some, Option.filter_some, herror]
    split <;> rfl

/-- The form that failed has an error. -/
theorem exists_outcome_of_failure? {r : FormResult}
    (h : (⟨results⟩ : RunResult).failure? = some r) :
    ∃ kind message, r.outcome = .failed kind message := by
  unfold RunResult.failure? at h
  have herror := (Option.filter_eq_some_iff.1 h).2
  rcases r with ⟨i, expression, v | ⟨kind, message⟩⟩
  · cases herror
  · exact ⟨kind, message, rfl⟩

namespace Command

variable {tree : FileTree} {logPlace : Option Place} {c c' c'' : Command}
  {path text report : String} {fault : Fault}

/-! ## What goes to the error stream -/

/-- What of logged records goes to the error stream: nothing if the log has a file of its own. -/
def shown (config : Config) (records : List LogRecord) : String :=
  match logFile? config with
  | some _ => ""
  | none => logLines ((LogLevel.ofName? config.logLevel).getD .warning) records

theorem shown_nil (config : Config) : shown config [] = "" := by
  unfold shown
  split <;> rfl

theorem shown_append (config : Config) (rs ss : List LogRecord) :
    shown config (rs ++ ss) = shown config rs ++ shown config ss := by
  unfold shown logLines
  split
  · rfl
  · rw [List.filter_append, List.map_append, String.join_append]

theorem errors_flush (c : Command) :
    c.flush.errors = c.errors ++ shown c.config c.machine.log.reverse := by
  unfold flush shown
  dsimp only
  cases logFile? c.config with
  | none => rfl
  | some file => exact (String.append_empty).symm

@[simp] theorem config_flush (c : Command) : c.flush.config = c.config := by
  unfold flush
  dsimp only
  cases logFile? c.config <;> rfl

/-- The call has gone on in the same frame. The error stream holds what it held, then what was
logged, and then the report. -/
structure Leads (c c' : Command) (report : String) : Prop where
  config : c'.config = c.config
  frame : c'.frame = c.frame
  errors : ∃ records, c'.errors = c.errors ++ shown c.config records ++ report

namespace Leads

theorem refl (c : Command) : c.Leads c "" :=
  ⟨rfl, rfl, [], by rw [shown_nil, String.append_empty, String.append_empty]⟩

theorem trans (h : c.Leads c' "") (h' : c'.Leads c'' report) : c.Leads c'' report := by
  obtain ⟨records, hrecords⟩ := h.errors
  obtain ⟨records', hrecords'⟩ := h'.errors
  refine ⟨h'.config.trans h.config, h'.frame.trans h.frame, records ++ records', ?_⟩
  rw [hrecords', hrecords, h.config, shown_append, String.append_empty]
  simp only [String.append_assoc]

theorem flush (h : c.Leads c' "") (m : Machine) :
    c.Leads ({ c' with machine := m }.flush) "" := by
  refine h.trans ⟨config_flush _, frame_flush _, m.log.reverse, ?_⟩
  rw [errors_flush, String.append_empty]

theorem log (h : c.Leads c' "") (record : LogRecord) : c.Leads (c'.log record) "" :=
  h.flush _

theorem complain (h : c.Leads c' "") (report : String) : c.Leads (c'.complain report) report := by
  refine h.trans ⟨rfl, rfl, [], ?_⟩
  rw [shown_nil, String.append_empty]
  rfl

/-- To look for a file changes nothing but what is left of the input. -/
theorem find (tree : FileTree) (log : Option Place) (c : Command) (path : String) :
    c.Leads (c.find tree log path).2 "" ∧ (c.find tree log path).2.machine = c.machine := by
  unfold Command.find
  split
  · exact ⟨⟨rfl, rfl, (refl c).errors⟩, rfl⟩
  · exact ⟨refl c, rfl⟩

end Leads

/-! ## One file -/

/-- The report on a form of a file that failed; forms are counted from one on. -/
def failureReport (path : String) (position : Nat) (expression : String) (kind : ErrorKind)
    (message : String) : String :=
  "crisp: " ++ path ++ ": form " ++ Text.natString position ++ " " ++ expression ++ ": "
    ++ kind.name ++ ": " ++ message ++ "\n"

theorem runText_of_fault (hread : readForms text = .ok forms)
    (hrun : runForms limits c.frame 0 forms c.machine = (.error fault, m')) :
    c.runText limits path text = (some (.fault (.eval fault)), { c with machine := m' }.flush) := by
  unfold runText
  rw [runSource_of_forms hread, hrun]
  rfl

theorem runText_of_complete (hread : readForms text = .ok forms)
    (hrun : runForms limits c.frame 0 forms c.machine = (.ok results, m'))
    (hnone : (⟨results⟩ : RunResult).failure? = none) :
    c.runText limits path text = (none, { c with machine := m' }.flush) := by
  unfold runText
  rw [runSource_of_forms hread, hrun]
  simp only [Except.map, Except.mapError, hnone]

theorem runText_of_failure (hread : readForms text = .ok forms)
    (hrun : runForms limits c.frame 0 forms c.machine = (.ok results, m')) {i : Nat}
    {expression : String} {kind : ErrorKind} {message : String}
    (hsome : (⟨results⟩ : RunResult).failure? = some ⟨i, expression, .failed kind message⟩) :
    c.runText limits path text =
      (some (.code 1), { c with machine := m' }.flush.complain
        (failureReport path (i + 1) expression kind message)) := by
  unfold runText
  rw [runSource_of_forms hread, hrun]
  simp only [Except.map, Except.mapError, hsome]
  rfl

/-! ## Several files -/

variable {paths : List String} {content : Except PathFault (Option String)} {exit : Exit}

/-- A file that does not end the call is followed by the next one. -/
theorem runFiles_cons_of_none (hfind : (c.find tree logPlace path).1 = content)
    (hfile : (c.find tree logPlace path).2.runFile limits path content = (none, c'))
    (paths : List String) :
    c.runFiles limits tree logPlace (path :: paths) = c'.runFiles limits tree logPlace paths := by
  rw [runFiles]
  rcases hfound : c.find tree logPlace path with ⟨content', c₁⟩
  rw [hfound] at hfind hfile
  obtain rfl : content' = content := hfind
  simp only [hfile]

/-- A file that ends the call is the last one, whatever comes after it. -/
theorem runFiles_cons_of_some (hfind : (c.find tree logPlace path).1 = content)
    (hfile : (c.find tree logPlace path).2.runFile limits path content = (some exit, c'))
    (paths : List String) :
    c.runFiles limits tree logPlace (path :: paths) = (exit, c') := by
  rw [runFiles]
  rcases hfound : c.find tree logPlace path with ⟨content', c₁⟩
  rw [hfound] at hfind hfile
  obtain rfl : content' = content := hfind
  simp only [hfile]

/-- A file that can be run: its path, and the text and the forms that it holds. -/
structure ProgramFile where
  path : String
  text : String
  forms : List Value
  read : readForms text = .ok forms

/-- Each file that the call comes to is found under its path. -/
def Finds (limits : Limits) (tree : FileTree) (logPlace : Option Place) :
    Command → List ProgramFile → Prop
  | _, [] => True
  | c, f :: files =>
    (c.find tree logPlace f.path).1 = .ok (some f.text) ∧
      ∀ c', (c.find tree logPlace f.path).2.runFile limits f.path (.ok (some f.text)) = (none, c') →
        Finds limits tree logPlace c' files

/-- The forms of all files, in order. -/
def allForms (files : List ProgramFile) : List Value :=
  files.flatMap ProgramFile.forms

theorem allForms_cons (f : ProgramFile) (files : List ProgramFile) :
    allForms (f :: files) = f.forms ++ allForms files :=
  List.flatMap_cons

/-- How a call on files should end, in the light of a run of all their forms, of which the first one
is the number `n`: well, with a report on the form that failed, or in the same fault. -/
inductive EndsAs (limits : Limits) (tree : FileTree) (logPlace : Option Place)
    (files : List ProgramFile) (n : Nat) (c : Command) :
    Except Fault (List FormResult) → Exit × Command → Prop
  | complete {results : List FormResult} {c' : Command}
      (hnone : (⟨results⟩ : RunResult).failure? = none) (hleads : c.Leads c' "") :
      EndsAs limits tree logPlace files n c (.ok results) (.code 0, c')
  | failed {results : List FormResult} {c' : Command} {before after : List ProgramFile}
      {f : ProgramFile} {j : Nat} {expression : String} {kind : ErrorKind} {message : String}
      (hfiles : files = before ++ f :: after) (hj : j < f.forms.length)
      (hsome : (⟨results⟩ : RunResult).failure? =
        some ⟨n + (allForms before).length + j, expression, .failed kind message⟩)
      (hleads : c.Leads c' (failureReport f.path (j + 1) expression kind message))
      (hlater : ∀ paths, c.runFiles limits tree logPlace
        (before.map ProgramFile.path ++ f.path :: paths) = (.code 1, c')) :
      EndsAs limits tree logPlace files n c (.ok results) (.code 1, c')
  | fault {fault : Fault} {c' : Command} (hleads : c.Leads c' "") :
      EndsAs limits tree logPlace files n c (.error fault) (.fault (.eval fault), c')

/-- One more file in front, of which no form fails. -/
theorem EndsAs.cons {f : ProgramFile} {files : List ProgramFile} {n : Nat}
    {outcome : Except Fault (List FormResult)} {ending : Exit × Command}
    (hfind : (c.find tree logPlace f.path).1 = .ok (some f.text))
    (hfile : (c.find tree logPlace f.path).2.runFile limits f.path (.ok (some f.text)) = (none, c'))
    (hleads : c.Leads c' "") (hnone : (⟨results⟩ : RunResult).failure? = none)
    (h : EndsAs limits tree logPlace files (n + f.forms.length) c' outcome ending) :
    EndsAs limits tree logPlace (f :: files) n c (outcome.map (results ++ ·)) ending := by
  cases h with
  | complete hnone' hleads' =>
    exact .complete ((failure?_append hnone).trans hnone') (hleads.trans hleads')
  | @failed rest c'' before after g j expression kind message hfiles hj hsome hleads' hlater =>
    have hindex : n + f.forms.length + (allForms before).length + j =
        n + (allForms (f :: before)).length + j := by
      rw [allForms_cons, List.length_append]
      omega
    rw [hindex] at hsome
    have hfiles : f :: files = (f :: before) ++ g :: after := by rw [hfiles]; rfl
    refine .failed hfiles hj ((failure?_append hnone).trans hsome) (hleads.trans hleads')
      fun paths => ?_
    rw [List.map_cons, List.cons_append, runFiles_cons_of_none hfind hfile, hlater]
  | fault hleads' => exact .fault (hleads.trans hleads')

/-- Files are run as their forms are, one after the other: on machines that differ in their logs
only, and to the same end. -/
theorem runFiles_endsAs (files : List ProgramFile) (n : Nat) (hm : m.SameButLog c.machine)
    (hfinds : c.Finds limits tree logPlace files) :
    (runForms limits c.frame n (allForms files) m).2.SameButLog
        (c.runFiles limits tree logPlace (files.map ProgramFile.path)).2.machine ∧
      EndsAs limits tree logPlace files n c (runForms limits c.frame n (allForms files) m).1
        (c.runFiles limits tree logPlace (files.map ProgramFile.path)) := by
  induction files generalizing c m n with
  | nil => exact ⟨hm, .complete rfl (.refl c)⟩
  | cons f files ih =>
    obtain ⟨hfind, hrest⟩ := hfinds
    -- The file is announced in the log first, so its forms start on a machine with another log.
    let announced := (c.find tree logPlace f.path).2.log
      { logger, severity := .info, text := "Running " ++ f.path }
    have hannounced : c.Leads announced "" := (Leads.find tree logPlace c f.path).1.log _
    have hmachine : announced.machine.SameButLog m := by
      rw [machine_log, (Leads.find tree logPlace c f.path).2]
      exact (hm.trans (.withLog _ _)).symm
    have hrunFile : (c.find tree logPlace f.path).2.runFile limits f.path (.ok (some f.text)) =
        announced.runText limits f.path f.text := rfl
    obtain ⟨hsame, houtcome⟩ := runForms_after hmachine limits c.frame n f.forms
    rw [List.map_cons, allForms_cons]
    rw [← hannounced.frame] at hsame houtcome ⊢
    rcases hfirst : runForms limits announced.frame 0 f.forms announced.machine with
      ⟨outcome, mid⟩
    rcases hjoined : runForms limits announced.frame n f.forms m with ⟨outcome', mid'⟩
    rw [hfirst, hjoined] at hsame houtcome
    obtain rfl : outcome' = outcome.map (List.map (FormResult.after n)) := houtcome
    let next := { announced with machine := mid }.flush
    have hnext : c.Leads next "" := hannounced.flush mid
    have hsame' : mid'.SameButLog next.machine := by
      rw [machine_flush]
      exact hsame.symm.trans (.withLog _ _)
    cases outcome with
    | error fault =>
      have hfile := hrunFile.trans (runText_of_fault f.read hfirst)
      rw [runForms_append_of_fault hjoined, runFiles_cons_of_some hfind hfile]
      exact ⟨hsame', .fault hnext⟩
    | ok results =>
      have hafter := failure?_after n results
      cases hfailure : (⟨results⟩ : RunResult).failure? with
      | none =>
        rw [hfailure] at hafter
        have hfile := hrunFile.trans (runText_of_complete f.read hfirst hfailure)
        obtain ⟨hmachine', hends⟩ := ih (n + f.forms.length) hsame' (hrest next hfile)
        rw [show next.frame = announced.frame from frame_flush _] at hmachine' hends
        rw [runForms_append_of_complete hjoined hafter, runFiles_cons_of_none hfind hfile]
        exact ⟨hmachine', hends.cons hfind hfile hnext hafter⟩
      | some r =>
        obtain ⟨kind, message, houtcome⟩ := exists_outcome_of_failure? hfailure
        obtain ⟨i, expression, _⟩ := r
        obtain rfl : _ = Outcome.failed kind message := houtcome
        rw [hfailure] at hafter
        obtain ⟨j, hj, hindex, hlater⟩ := runForms_append_of_failure hjoined hafter
        obtain rfl : i = j := Nat.add_left_cancel hindex
        have hfile := hrunFile.trans (runText_of_failure f.read hfirst hfailure)
        have hall := hlater (f.forms.drop (i + 1) ++ allForms files)
        rw [← List.append_assoc, List.take_append_drop] at hall
        rw [hall, runFiles_cons_of_some hfind hfile]
        have hfiles : f :: files = [] ++ f :: files := rfl
        exact ⟨hsame', .failed hfiles hj hafter (hnext.complain _)
          fun paths => runFiles_cons_of_some hfind hfile paths⟩

/-! ## Files that cannot be run -/

/-- What is reported of what was found under a path if it cannot be run: the system refuses to read
it, or it is not well formed. -/
def refusal? (path : String) : Except PathFault (Option String) → Option String
  | .error (.system fault) =>
    some ("crisp: cannot read " ++ path ++ ": " ++ fault.text path ++ "\n")
  | .ok (some text) =>
    match readForms text with
    | .error (.invalid fault) =>
      some ("crisp: " ++ path ++ ": syntax error: " ++ (fault.report text).text ++ "\n")
    | _ => none
  | _ => none

/-- What cannot be run is reported, and nothing else happens. -/
theorem runFile_of_refusal (limits : Limits) (c : Command)
    (h : refusal? path content = some report) :
    ∃ c', c.runFile limits path content = (some (.code 1), c') ∧ c.Leads c' report ∧
      c.machine.SameButLog c'.machine := by
  unfold refusal? at h
  split at h
  next fault =>
    cases h
    refine ⟨_, rfl, ((Leads.refl c).log _).complain _, ?_⟩
    exact (machine_log c _).symm ▸ .withLog c.machine []
  next text =>
    split at h
    next fault hread =>
      cases h
      let announced := c.log { logger, severity := .info, text := "Running " ++ path }
      refine ⟨({ announced with machine := announced.machine }.flush).complain _, ?_,
        (((Leads.refl c).log _).flush announced.machine).complain _, ?_⟩
      · show announced.runText limits path text = _
        unfold runText
        rw [runSource_of_fault hread]
      · show c.machine.SameButLog announced.flush.machine
        rw [machine_flush, machine_log]
        exact .withLog c.machine []
    · cases h
  · cases h

theorem runText_ne_zero (limits : Limits) (c : Command) (path text : String) :
    (c.runText limits path text).1 ≠ some (.code 0) := by
  unfold runText
  rcases runSource limits text c.frame c.machine with ⟨fault | run, m'⟩
  · dsimp only
    split
    · simp
    · simp
    · contradiction
  · dsimp only
    split <;> simp

/-- Only a call that has run all its files ends well. -/
theorem runFile_ne_zero (limits : Limits) (c : Command) (path : String)
    (content : Except PathFault (Option String)) :
    (c.runFile limits path content).1 ≠ some (.code 0) := by
  unfold runFile
  split
  · simp
  · simp
  · simp
  · exact runText_ne_zero limits _ path _

/-- Files that are run well are followed by the others. -/
theorem runFiles_append (h : c.runFiles limits tree logPlace paths = (.code 0, c'))
    (more : List String) :
    c.runFiles limits tree logPlace (paths ++ more) = c'.runFiles limits tree logPlace more := by
  induction paths generalizing c with
  | nil =>
    obtain ⟨-, rfl⟩ := Prod.mk.inj h
    rfl
  | cons path paths ih =>
    rcases hfile : (c.find tree logPlace path).2.runFile limits path
      (c.find tree logPlace path).1 with ⟨_ | exit, next⟩
    · rw [runFiles_cons_of_none rfl hfile] at h
      rw [List.cons_append, runFiles_cons_of_none rfl hfile]
      exact ih h
    · rw [runFiles_cons_of_some rfl hfile] at h
      obtain ⟨rfl, -⟩ := Prod.mk.inj h
      have hzero := runFile_ne_zero limits (c.find tree logPlace path).2 path
        (c.find tree logPlace path).1
      rw [hfile] at hzero
      exact absurd rfl hzero

/-- A file that cannot be run ends a call after files that were run well. -/
theorem runFiles_of_refusal (hzero : c.runFiles limits tree logPlace paths = (.code 0, c'))
    (hrefusal : refusal? path (c'.find tree logPlace path).1 = some report) (more : List String) :
    ∃ c'', c.runFiles limits tree logPlace (paths ++ path :: more) = (.code 1, c'') ∧
      c'.machine.SameButLog c''.machine ∧ c'.Leads c'' report := by
  obtain ⟨hfind, hmachine⟩ := Leads.find tree logPlace c' path
  obtain ⟨c'', hfile, hleads, hsame⟩ := runFile_of_refusal limits _ hrefusal
  refine ⟨c'', ?_, hmachine ▸ hsame, hfind.trans hleads⟩
  rw [runFiles_append hzero, runFiles_cons_of_some rfl hfile]

/-! ## The theorem -/

/-- The call ends at the form that failed in a run of all forms: the form number `j` of the file
`f`, counted from zero. There is one report, on that form. Forms and files after it are not come to,
so any others could stand there. -/
structure EndsAtForm (limits : Limits) (tree : FileTree) (logPlace : Option Place)
    (files : List ProgramFile) (c : Command) (r : FormResult) (ending : Exit × Command)
    (before : List ProgramFile) (f : ProgramFile) (j : Nat) (kind : ErrorKind)
    (message : String) : Prop where
  among : ∃ after, files = before ++ f :: after
  form : j < f.forms.length
  index : r.index = (allForms before).length + j
  outcome : r.outcome = .failed kind message
  exit : ending.1 = .code 1
  leads : c.Leads ending.2 (failureReport f.path (j + 1) r.expression kind message)
  laterForms : ∀ later,
    runForms limits c.frame 0 ((allForms files).take (r.index + 1) ++ later) c.machine =
      runForms limits c.frame 0 (allForms files) c.machine
  laterFiles : ∀ paths,
    c.runFiles limits tree logPlace (before.map ProgramFile.path ++ f.path :: paths) = ending

section

variable {files : List ProgramFile} {ending : Exit × Command}

theorem EndsAs.code_zero_iff {n : Nat}
    (h : EndsAs limits tree logPlace files n c (.ok results) ending) :
    ending.1 = .code 0 ↔ (⟨results⟩ : RunResult).failure? = none := by
  cases h with
  | complete hnone => exact iff_of_true rfl hnone
  | failed _ _ hsome =>
    rw [hsome]
    exact iff_of_false nofun nofun

theorem EndsAs.leads_of_complete {n : Nat}
    (h : EndsAs limits tree logPlace files n c (.ok results) ending)
    (hnone : (⟨results⟩ : RunResult).failure? = none) : c.Leads ending.2 "" := by
  cases h with
  | complete _ hleads => exact hleads
  | failed _ _ hsome =>
    rw [hsome] at hnone
    cases hnone

theorem EndsAs.exit_of_fault {n : Nat}
    (h : EndsAs limits tree logPlace files n c (.error fault) ending) :
    ending.1 = .fault (.eval fault) := by
  cases h with
  | fault => rfl

theorem EndsAs.endsAtForm {r : FormResult}
    (h : EndsAs limits tree logPlace files 0 c (.ok results) ending)
    (hrun : runForms limits c.frame 0 (allForms files) c.machine = (.ok results, m'))
    (hr : (⟨results⟩ : RunResult).failure? = some r) : ∃ before f j kind message,
      EndsAtForm limits tree logPlace files c r ending before f j kind message := by
  cases h with
  | complete hnone =>
    rw [hnone] at hr
    cases hr
  | @failed _ c' before after f j expression kind message hfiles hj hsome hleads hlater =>
    obtain rfl := Option.some.inj (hsome.symm.trans hr)
    obtain ⟨i, -, hindex, hforms⟩ := runForms_append_of_failure hrun hsome
    dsimp only at hindex
    rw [Nat.zero_add, Nat.zero_add] at hindex
    refine ⟨before, f, j, kind, message, ⟨after, hfiles⟩, hj, ?_, rfl, rfl, hleads, ?_, hlater⟩
    · rw [Nat.zero_add]
    · intro later
      rw [Nat.zero_add, hindex, hforms, hrun]

theorem readForms_allForms (files : List ProgramFile) :
    readForms ("\n".intercalate (files.map ProgramFile.text)) = .ok (allForms files) := by
  unfold allForms
  rw [List.flatMap_def]
  refine readForms_intercalate ?_
  rw [List.forall₂_map_left_iff, List.forall₂_map_right_iff, List.forall₂_same]
  exact fun f _ => f.read

end

/-- Files are run as one source is, which their texts make up with a line feed between each two. Let
each file that the call comes to be found. Then the call and the run of that source end on machines
that differ in their logs only: with the same bindings and the same output. The call ends well
exactly if the run is complete. If a form fails in the run, the call ends there, with one report. A
fault that the run does not report ends the call too.

After files that were run well, a file that cannot be read, or is not well formed, ends the call
with a report of that, and nothing else happens. -/
theorem runFiles_joined (files : List ProgramFile) (hfinds : c.Finds limits tree logPlace files) :
    let joined := runSource limits ("\n".intercalate (files.map ProgramFile.text)) c.frame c.machine
    let ending := c.runFiles limits tree logPlace (files.map ProgramFile.path)
    joined.2.SameButLog ending.2.machine ∧
    (ending.1 = .code 0 ↔ ∃ run, joined.1 = .ok run ∧ run.failure? = none) ∧
    (∀ run, joined.1 = .ok run → run.failure? = none → c.Leads ending.2 "") ∧
    (∀ run r, joined.1 = .ok run → run.failure? = some r → ∃ before f j kind message,
      EndsAtForm limits tree logPlace files c r ending before f j kind message) ∧
    (∀ fault, joined.1 = .error fault → ending.1 = .fault fault) ∧
    ∀ path report, ending.1 = .code 0 →
      refusal? path (ending.2.find tree logPlace path).1 = some report → ∀ paths, ∃ stopped,
        c.runFiles limits tree logPlace (files.map ProgramFile.path ++ path :: paths) =
            (.code 1, stopped) ∧
          ending.2.machine.SameButLog stopped.machine ∧ ending.2.Leads stopped report := by
  intro joined ending
  have hjoined : joined = (((runForms limits c.frame 0 (allForms files) c.machine).1.map
      RunResult.mk).mapError .eval, (runForms limits c.frame 0 (allForms files) c.machine).2) :=
    runSource_of_forms (readForms_allForms files)
  obtain ⟨hmachine, hends⟩ := runFiles_endsAs files 0 (.refl c.machine) hfinds
  have hrefused (path report : String) (hzero : ending.1 = .code 0)
      (hrefusal : refusal? path (ending.2.find tree logPlace path).1 = some report) :=
    runFiles_of_refusal (Prod.ext hzero rfl) hrefusal
  rcases hrun : runForms limits c.frame 0 (allForms files) c.machine with ⟨fault | results, m'⟩
  · rw [hrun] at hjoined hmachine hends
    have hfirst : joined.1 = .error (.eval fault) := by rw [hjoined]; rfl
    rw [hfirst, hjoined]
    have hexit : ending.1 = .fault (.eval fault) := hends.exit_of_fault
    refine ⟨hmachine, ⟨fun hzero => ?_, fun ⟨_, h, _⟩ => nomatch h⟩, nofun, nofun, ?_, hrefused⟩
    · rw [hexit] at hzero
      cases hzero
    · rintro _ ⟨⟩
      exact hexit
  · rw [hrun] at hjoined hmachine hends
    have hfirst : joined.1 = .ok ⟨results⟩ := by rw [hjoined]; rfl
    rw [hfirst, hjoined]
    refine ⟨hmachine, ⟨fun hzero => ⟨_, rfl, ?_⟩, ?_⟩, ?_, ?_, nofun, hrefused⟩
    · exact hends.code_zero_iff.1 hzero
    · rintro ⟨_, ⟨⟩, hnone⟩
      exact hends.code_zero_iff.2 hnone
    · rintro _ ⟨⟩ hnone
      exact hends.leads_of_complete hnone
    · rintro _ r ⟨⟩ hr
      exact hends.endsAtForm hrun hr

/-- A file with `t` and `y`, where `y` is not bound, ends a call with a report on its second form,
and no other file is looked for. -/
theorem runFiles_joined_unbound :
    let c : Command :=
      { config := {}, machine := { Machine.empty with store := Store.empty.global [] }
        frame := 0, errors := "", logged := "", input := "t y" }
    let ending := c.runFiles {} (.ofFiles [] []) none ["-", "missing"]
    ending.1 = .code 1 ∧
      c.Leads ending.2 (failureReport "-" 2 "y" .unboundSymbol (Cause.unbound "y").message) := by
  intro c ending
  have hlexemes : lexemes "t y".toList =
      ([.token (.atom ['t']), .blanks [' '], .token (.atom ['y'])], []) := by
    decide +kernel
  have hread : readForms "t y" = .ok [.symbol "t", .symbol "y"] := by
    rw [readForms_of_lexemes hlexemes]
    rfl
  let file : ProgramFile := ⟨"-", "t y", _, hread⟩
  have hfinds : c.Finds {} (.ofFiles [] []) none [file] := ⟨rfl, fun _ _ => trivial⟩
  have hrun : (runForms {} 0 0 [.symbol "t", .symbol "y"] c.machine).1 = .ok
      [⟨0, "t", .complete (.symbol "t") "t"⟩,
        ⟨1, "y", .failed .unboundSymbol (Cause.unbound "y").message⟩] := by
    rfl
  have hjoined : (runSource {} ("\n".intercalate ([file].map ProgramFile.text)) c.frame
      c.machine).1 = .ok ⟨[⟨0, "t", .complete (.symbol "t") "t"⟩,
        ⟨1, "y", .failed .unboundSymbol (Cause.unbound "y").message⟩]⟩ := by
    rw [runSource_of_forms (readForms_allForms [file])]
    show (((runForms {} 0 0 [.symbol "t", .symbol "y"] c.machine).1.map RunResult.mk).mapError
      RunFault.eval) = _
    rw [hrun]
    rfl
  obtain ⟨-, -, -, hfails, -⟩ := runFiles_joined [file] hfinds
  obtain ⟨before, f, j, kind, message, hends⟩ := hfails _ _ hjoined rfl
  obtain ⟨after, hfiles⟩ := hends.among
  obtain ⟨rfl, rfl⟩ := Outcome.failed.inj hends.outcome
  cases before with
  | nil =>
    obtain rfl : file = f := (List.cons.inj hfiles).1
    have hindex : 1 = 0 + j := hends.index
    obtain rfl : 1 = j := by rwa [Nat.zero_add] at hindex
    have hending : ending = _ := hends.laterFiles ["missing"]
    rw [hending]
    exact ⟨hends.exit, hends.leads⟩
  | cons g before => cases before <;> cases (List.cons.inj hfiles).2

end Command
end Fexpr
