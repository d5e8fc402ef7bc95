import Fexpr.Proofs.Relocation.Program
import Fexpr.Proofs.Session

/-!
# What a reset forgets

A session that is reset goes on in a new global frame, on a machine that still holds all old frames.
What it holds from then on is that of a new session, put on top of the machine that was left
(`reset_eq_moved`). A session does with a line on top of a base what it does by itself
(`line_moved`), so nothing of what was left shows in what comes after.

Main statement (`start_reset`): whatever the lines before a reset did, the lines after it print what
they print in a new session, and end it at the same line.
-/

namespace Fexpr.Session

/-! ## Lines on top of a base -/

variable (limits : Limits) (base : Machine)

/-- The session on top of the base. -/
def moved (base : Machine) (s : Session) : Session :=
  { s with machine := s.machine.moved base, frame := base.place s.frame }

theorem print_moved (s : Session) (text : String) :
    (s.moved base).print text = (s.print text).moved base := by
  have houtput : base.output ++ s.machine.output ++ text =
      base.output ++ (s.machine.output ++ text) := String.append_assoc
  exact congrArg
    (fun output => { s.moved base with machine := { s.machine.moved base with output } }) houtput

theorem printLine_moved (s : Session) (text : String) :
    (s.moved base).printLine text = (s.printLine text).moved base :=
  print_moved base s (text ++ "\n")

theorem printLines_moved (s : Session) (texts : List String) :
    (s.moved base).printLines texts = (s.printLines texts).moved base := by
  induction texts generalizing s with
  | nil => rfl
  | cons text texts ih =>
    show ((s.moved base).printLine text).printLines texts = _
    rw [printLine_moved]
    exact ih (s.printLine text)

theorem exit_moved (s : Session) : (s.moved base).exit = s.exit.moved base :=
  congrArg (fun s : Session => { s with running := false }) (printLine_moved base s "Goodbye!")

/-- The same is said of a run on top of the base, as its texts are the same. -/
theorem remark_moved (echo : Bool) (outcome : Except RunFault RunResult) :
    remark echo (outcome.map (RunResult.moved base)) = remark echo outcome := by
  rcases outcome with fault | result
  · rfl
  · unfold remark Except.map RunResult.failure? RunResult.moved
    dsimp only
    rw [List.getLast?_map]
    rcases result.results.getLast? with _ | ⟨index, expression, ⟨v, rendered⟩ | ⟨kind, message⟩⟩ <;>
      rfl

theorem passedOn_moved (outcome : Except RunFault RunResult) :
    passedOn (outcome.map (RunResult.moved base)) = passedOn outcome := by
  cases outcome <;> rfl

theorem source_moved (s : Session) (text : String) :
    (s.moved base).source limits text = (s.source limits text).map id (moved base) := by
  have hrun := runSource_moved limits base text s.frame s.machine
  rw [source_eq, source_eq, show (s.moved base).frame = base.place s.frame from rfl,
    show (s.moved base).machine = s.machine.moved base from rfl, hrun]
  dsimp only
  rw [passedOn_moved, remark_moved]
  exact congrArg _
    (printLines_moved base { s with machine := (runSource limits text s.frame s.machine).2 } _)

/-- A session on top of the base has made the bindings that it has made by itself. -/
theorem ownBindings_moved (s : Session) :
    (s.moved base).ownBindings = Bindings.moved base s.ownBindings := by
  have hbindings : (s.moved base).machine.store.bindings (s.moved base).frame =
      Bindings.moved base (s.machine.store.bindings s.frame) :=
    s.machine.store.bindings_moved base s.frame
  have hsort (own : Bindings) :
      (Bindings.moved base own).mergeSort (fun a b => decide (a.1 ≤ b.1)) =
        Bindings.moved base (own.mergeSort fun a b => decide (a.1 ≤ b.1)) := by
    let move (b : String × Value) : String × Value := (b.1, b.2.moved base)
    exact (List.map_mergeSort (f := move) fun _ _ _ _ => rfl).symm
  unfold ownBindings
  rw [hbindings]
  dsimp only
  rw [← hsort, Bindings.moved, List.filter_map, Bindings.moved]
  congr 3
  funext ⟨name, v⟩
  cases v <;> rfl

theorem printBindings_moved (s : Session) (bs : Bindings) :
    (s.moved base).printBindings limits (Bindings.moved base bs) =
      (s.printBindings limits bs).map id (moved base) := by
  induction bs generalizing s with
  | nil => rfl
  | cons b bs ih =>
    show (s.moved base).printBindings limits ((b.1, b.2.moved base) :: Bindings.moved base bs) = _
    rw [printBindings, printBindings, Value.render_moved]
    cases b.2.render limits.top.room with
    | ok text =>
      dsimp only
      rw [printLine_moved, ih]
    | error fault => rfl

theorem listBindings_moved (s : Session) :
    (s.moved base).listBindings limits = (s.listBindings limits).map id (moved base) := by
  unfold listBindings
  rw [ownBindings_moved]
  cases s.ownBindings with
  | nil => exact congrArg (Except.ok (), ·) (printLine_moved base s _)
  | cons b bs => exact printBindings_moved limits base s (b :: bs)

/-- A reset on top of the base leaves the base alone too. -/
theorem reset_moved (s : Session) : (s.moved base).reset = s.reset.moved base := by
  unfold reset
  dsimp only
  rw [← printLine_moved]
  dsimp only [moved, Machine.moved]
  rw [Store.global_moved, Store.next_moved]

theorem command_moved (s : Session) (text : List Char) :
    (s.moved base).command limits text = (s.command limits text).map id (moved base) := by
  unfold command
  dsimp only
  split_ifs
  · exact congrArg (Except.ok (), ·) (printLines_moved base s _)
  · exact listBindings_moved limits base s
  · exact congrArg (Except.ok (), ·) (reset_moved base s)
  · exact congrArg (Except.ok (), ·) (exit_moved base s)
  · exact congrArg (Except.ok (), ·) (printLines_moved base s _)

/-- A session takes a line on top of the base as it does by itself. -/
theorem line_moved (s : Session) (text : String) :
    (s.moved base).line limits text = (s.line limits text).map id (moved base) := by
  unfold line
  dsimp only
  cases Text.trim text.toList with
  | nil => rfl
  | cons c cs =>
    dsimp only
    split_ifs
    · exact congrArg (Except.ok (), ·) (exit_moved base s)
    · exact command_moved limits base s (c :: cs)
    · exact source_moved limits base s _

/-! ## Sessions on top of a base -/

/-- The ending on top of the base, when lines were asked for before. -/
def Ending.moved (base : Machine) (asked : Nat) (e : Ending) : Ending :=
  ⟨e.session.moved base, asked + e.prompts, e.fault⟩

/-- A session takes lines on top of the base as it does by itself, and ends at the same one. -/
theorem lines_moved (asked : String) (s : Session) (before prompts : Nat)
    (inputs : List (Option String)) :
    lines limits asked (s.moved base) (before + prompts) inputs =
      (lines limits asked s prompts inputs).moved base before := by
  have hrunning (s : Session) : (s.moved base).running = s.running := rfl
  induction inputs generalizing s prompts with
  | nil =>
    rw [lines, lines, hrunning, print_moved, farewell, printLine_moved]
    split <;> rfl
  | cons input inputs ih =>
    rw [lines, lines, hrunning, print_moved]
    split
    · cases input with
      | none =>
        dsimp only
        rw [farewell, printLine_moved]
        rfl
      | some text =>
        dsimp only
        rw [line_moved]
        rcases (s.print asked).line limits text with ⟨fault | _, next⟩
        · rfl
        · exact ih next (prompts + 1)
    · rfl

/-! ## The history -/

/-- The session is come to by taking lines, of which none ends it. -/
inductive GoesOn (limits : Limits) (asked : String) : Session → List String → Session → Prop
  | nil {s : Session} (running : s.running = true) : GoesOn limits asked s [] s
  | cons {s next last : Session} {text : String} {texts : List String} (running : s.running = true)
      (line : (s.print asked).line limits text = (.ok (), next))
      (rest : GoesOn limits asked next texts last) : GoesOn limits asked s (text :: texts) last

variable {limits} {asked : String}

theorem GoesOn.echo {s last : Session} {texts : List String}
    (h : GoesOn limits asked s texts last) : last.echo = s.echo := by
  induction h with
  | nil => rfl
  | @cons s next last text texts _ hline _ ih =>
    have hecho : ((s.print asked).line limits text).2.echo = s.echo := echo_line _ text
    rw [hline] at hecho
    exact ih.trans hecho

/-- Lines that end no session are taken before all others. -/
theorem GoesOn.lines_append {s last : Session} {texts : List String}
    (h : GoesOn limits asked s texts last) (prompts : Nat) (inputs : List (Option String)) :
    lines limits asked s prompts (texts.map some ++ inputs) =
      lines limits asked last (prompts + texts.length) inputs := by
  induction h generalizing prompts with
  | nil => rfl
  | @cons s next last text texts hrunning hline _ ih =>
    rw [List.map_cons, List.cons_append, lines, if_pos hrunning]
    dsimp only
    rw [hline]
    dsimp only
    rw [ih, List.length_cons, Nat.add_assoc, Nat.add_comm 1]

theorem GoesOn.running {s last : Session} {texts : List String}
    (h : GoesOn limits asked s texts last) : last.running = true := by
  induction h with
  | nil hrunning => exact hrunning
  | cons _ _ _ ih => exact ih

/-! ## The reset -/

/-- A new session that wants lines and has printed nothing. -/
def fresh (echo : Bool) : Session :=
  { new echo [] with running := true }

/-- What is left to a session that is reset is a new session on top of the machine that is left. -/
theorem reset_eq_moved {s : Session} (hrunning : s.running = true) :
    s.reset = (fresh s.echo).moved (s.printLine "Environment reset").machine := by
  show Session.mk _ _ _ s.running = Session.mk ⟨_, _, _, _ ++ "", _⟩ _ _ _
  rw [String.append_empty, hrunning]
  rfl

/-- A machine that holds nothing but the greeting. -/
def greeting : Machine :=
  { Machine.empty with output := (new true []).greet.machine.output }

theorem greet_eq_moved (echo : Bool) : (new echo []).greet = (fresh echo).moved greeting := by
  show _ = Session.mk ⟨_, _, _, _ ++ "", _⟩ _ _ _
  rw [String.append_empty]
  rfl

/-- The lines after a reset are taken as in a new session, on top of the machine that was left. -/
theorem lines_reset {s : Session} (hrunning : s.running = true) (prompts : Nat)
    (continuation : List (Option String)) :
    lines limits asked s prompts (some "/reset" :: continuation) =
      (lines limits asked (fresh s.echo) 0 continuation).moved
        ((s.print asked).printLine "Environment reset").machine (prompts + 1) := by
  rw [lines, if_pos hrunning]
  dsimp only
  have hasked : (s.print asked).running = true := hrunning
  rw [line_reset, reset_eq_moved hasked, ← lines_moved]
  rfl

/-- A reset forgets everything. Whatever the lines before it did, if none ended the session, the
lines after it print what they print in a new session that prints results alike, are asked for as
often, and end it in the same fault, if in any. -/
theorem start_reset {first last : Session} {history : List String}
    (h : GoesOn limits asked first.greet history last) (continuation : List (Option String)) :
    let whole := first.start limits asked (history.map some ++ some "/reset" :: continuation)
    let anew := (new first.echo []).start limits asked continuation
    ∃ text,
      whole.session.machine.output =
        last.machine.output ++ asked ++ "Environment reset\n" ++ text ∧
      anew.session.machine.output = (new first.echo []).greet.machine.output ++ text ∧
      whole.prompts = history.length + 1 + anew.prompts ∧
      whole.fault = anew.fault ∧
      whole.session.running = anew.session.running := by
  intro whole anew
  let ending := lines limits asked (fresh first.echo) 0 continuation
  have hwhole : whole = ending.moved ((last.print asked).printLine "Environment reset").machine
      (history.length + 1) := by
    have hecho : last.echo = first.echo := h.echo
    show lines limits asked first.greet 0 _ = _
    rw [h.lines_append, lines_reset h.running, hecho, Nat.zero_add]
  have hanew : anew = ending.moved greeting 0 := by
    show lines limits asked (new first.echo []).greet 0 _ = _
    rw [greet_eq_moved, ← lines_moved]
  refine ⟨ending.session.machine.output, ?_, ?_, ?_, ?_, ?_⟩
  · rw [hwhole]
    rfl
  · rw [hanew]
    rfl
  · rw [hwhole, hanew, Ending.moved, Ending.moved, Nat.zero_add]
  · rw [hwhole, hanew]
    rfl
  · rw [hwhole, hanew]
    rfl

/-- A session that has bound `car` to a fexpr, and a name to an operand that this keeps unevaluated,
goes on as a new one after the reset. -/
theorem start_reset_redefined :
    let source := "(defun car ('x) x) (car y)"
    let continuation := [some "(car '(1 2))", some "x", some "/env", some "/exit", some "1"]
    let first := new true []
    let whole := first.start {} prompt (some source :: some "/reset" :: continuation)
    let anew := first.start {} prompt continuation
    ∃ last, GoesOn {} prompt first.greet [source] last ∧
      last.machine.store.lookup? last.frame "x" = some (.suspended (.symbol "y") 0 false 0) ∧
      ∃ text,
        whole.session.machine.output =
          last.machine.output ++ prompt ++ "Environment reset\n" ++ text ∧
        anew.session.machine.output = first.greet.machine.output ++ text ∧
        whole.prompts = 2 + anew.prompts ∧
        whole.fault = anew.fault ∧
        whole.session.running = anew.session.running := by
  intro source continuation first whole anew
  let forms : List Value :=
    [.list [.symbol "defun", .symbol "car", .list [.quote (.symbol "x")] none, .symbol "x"] none,
      .list [.symbol "car", .symbol "y"] none]
  have hread : readForms source = .ok forms := by
    have hlexemes : lexemes source.toList =
        ([.token (.opener .round), .token (.atom ['d', 'e', 'f', 'u', 'n']), .blanks [' '],
          .token (.atom ['c', 'a', 'r']), .blanks [' '], .token (.opener .round),
          .token (.mark .quote), .token (.atom ['x']), .token (.closer .round), .blanks [' '],
          .token (.atom ['x']), .token (.closer .round), .blanks [' '], .token (.opener .round),
          .token (.atom ['c', 'a', 'r']), .blanks [' '], .token (.atom ['y']),
          .token (.closer .round)], []) := by
      decide +kernel
    rw [readForms_of_lexemes hlexemes]
    rfl
  let before := first.greet.print prompt
  let m := (runForms {} 0 0 forms before.machine).2
  have hrun : runForms {} 0 0 forms before.machine = (.ok
      [⟨0, "(defun car ('x) x)",
          .complete (.fexpr 0 "car" [⟨"x", true, false⟩] [.symbol "x"] 0) "<fexpr car>"⟩,
        ⟨1, "(car y)", .complete (.symbol "y") "y"⟩], m) :=
    Prod.ext (by rfl) rfl
  let last := { before with machine := m }.printLine "y"
  have hline : before.line {} source = (.ok (), last) := by
    rw [line_eq_source _ (by decide +kernel) (by decide) (by decide +kernel) (by decide)]
    unfold Session.source
    rw [runSource_of_forms hread, show before.frame = 0 from rfl, hrun]
    rfl
  have hgoesOn : GoesOn {} prompt first.greet [source] last := .cons rfl hline (.nil rfl)
  have hbound : last.machine.store.lookup? last.frame "x" =
      some (.suspended (.symbol "y") 0 false 0) := by
    rfl
  exact ⟨last, hgoesOn, hbound, start_reset hgoesOn continuation⟩

end Fexpr.Session
