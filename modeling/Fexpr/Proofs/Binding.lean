import Fexpr.Proofs.Containment
import Fexpr.Proofs.Invariant
import Fexpr.Proofs.Tracing

/-!
# What `let` and `set` write

The operands of a binding form are evaluated first: they come to a name and a value, or they do not
(`Level.bindingOperands`). Then there is a frame to write in (`Builtin.bindsIn?`), always for `let`,
and for `set` if the name is bound. Only then is anything written, one name in that frame.

Main statement: a form that succeeds has written the value that it returns and nothing else, and a
form that fails has written nothing (`binding_form_writes`), unless it fails because it reports a
value that has no text: then the value has been written already (`let_writes_what_has_no_text`).
-/

namespace Fexpr

/-! ## Operands and frames -/

/-- The frame in which a binding form writes a name: for `let` the frame of the call, for `set` the
nearest one that binds the name. -/
def Builtin.bindsIn? (op : Builtin) (s : Store) (frame : FrameId) (name : String) :
    Option FrameId :=
  match op with
  | letForm => some frame
  | setForm => (s.chain frame).find? fun f => (s.get? f name).isSome
  | _ => none

namespace Level

/-- The name that the first operand of a binding form comes to: the one that it spells, or else the
symbol that it evaluates to. -/
def targetName? (lv : Level) (frame : FrameId) (operand : Value) : Eval (Option String) :=
  match operand.targetName? with
  | some name => return some name
  | none => do
    match ← lv.evaluate operand frame with
    | .symbol name => return some name
    | _ => return none

/-- What the operands of a binding form come to: a name and the value of the second operand, which
is not evaluated if there is no name. -/
def bindingOperands (lv : Level) (operands : List Value) (frame : FrameId) :
    Eval (Option (String × Value)) :=
  match operands with
  | [operand, e] => do
    match ← lv.targetName? frame operand with
    | some name => return some (name, ← lv.evaluate e frame)
    | none => return none
  | _ => return none

/-- Writes the value of a name where the form binds it, if there is a frame for that, and then
reports and returns it. -/
def bindName (lv : Level) (op : Builtin) (frame : FrameId) (name : String) (v : Value) :
    Eval Value := do
  match op.bindsIn? (← get).store frame name with
  | some g => do
    Eval.define g name v
    lv.trace v
    return v
  | none => throw (.error (.arising (.setUnbound name) ""))

variable {lv : Level} {op : Builtin} {c : Call} {m m' : Machine} {name : String} {v : Value}

theorem bindName_run_of_some {g : FrameId} {frame : FrameId}
    (h : op.bindsIn? m.store frame name = some g) :
    lv.bindName op frame name v m =
      (lv.trace v >>= fun _ => pure v) { m with store := m.store.define g name v } := by
  unfold bindName
  rw [Eval.bind_run, Eval.get_run]
  dsimp only
  rw [h]
  rfl

theorem bindName_run_of_none {frame : FrameId} (h : op.bindsIn? m.store frame name = none) :
    lv.bindName op frame name v m = (.error (.error (.arising (.setUnbound name) "")), m) := by
  unfold bindName
  rw [Eval.bind_run, Eval.get_run]
  dsimp only
  rw [h]
  rfl

/-- A binding form evaluates its operands before it writes. -/
theorem applyBuiltin_binding (hop : op = .letForm ∨ op = .setForm) {operand e : Value}
    (hoperands : c.operands = [operand, e]) :
    lv.applyBuiltin op c = (do
      let name ← lv.target op c operand
      let v ← lv.evaluate e c.frame
      lv.bindName op c.frame name v) := by
  rcases hop with rfl | rfl
  · dsimp only [applyBuiltin, letForm]
    rw [hoperands]
    rfl
  · dsimp only [applyBuiltin, setForm]
    rw [hoperands]
    refine congrArg (lv.target .setForm c operand >>= ·) (funext fun name => ?_)
    refine congrArg (lv.evaluate e c.frame >>= ·) (funext fun v => funext fun m => ?_)
    have hassign : m.store.assign? c.frame name v =
        (Builtin.setForm.bindsIn? m.store c.frame name).map (m.store.define · name v) := rfl
    rw [Eval.bind_run]
    cases hframe : Builtin.setForm.bindsIn? m.store c.frame name with
    | some g =>
      rw [hframe] at hassign
      rw [bindName_run_of_some hframe, Eval.assign_run_of_some hassign]
      rfl
    | none =>
      rw [hframe] at hassign
      rw [bindName_run_of_none hframe, Eval.assign_run_of_none hassign]
      rfl

/-- With another number of operands, a binding form fails at once. -/
theorem applyBuiltin_binding_of_count (hop : op = .letForm ∨ op = .setForm)
    (hcount : ¬ ∃ operand e, c.operands = [operand, e]) :
    lv.applyBuiltin op c = c.fail (.operandCount op) := by
  rcases hop with rfl | rfl
  · dsimp only [applyBuiltin, letForm]
    split
    next operand e heq => exact absurd ⟨operand, e, heq⟩ hcount
    · rfl
  · dsimp only [applyBuiltin, setForm]
    split
    next operand e heq => exact absurd ⟨operand, e, heq⟩ hcount
    · rfl

/-- A form has a target just if its first operand comes to a name; if that comes to anything else,
the form fails without more ado. -/
theorem target_cases (lv : Level) (op : Builtin) (c : Call) (operand : Value) (m : Machine) :
    (∃ name m', lv.targetName? c.frame operand m = (.ok (some name), m') ∧
      lv.target op c operand m = (.ok name, m')) ∨
    (∃ fault m', lv.targetName? c.frame operand m = (.ok none, m') ∧
      lv.target op c operand m = (.error fault, m')) ∨
    ∃ fault m', lv.targetName? c.frame operand m = (.error fault, m') ∧
      lv.target op c operand m = (.error fault, m') := by
  unfold targetName? target
  cases htarget : operand.targetName? with
  | some name => exact Or.inl ⟨name, m, rfl, rfl⟩
  | none =>
    dsimp only
    rw [Eval.bind_run, Eval.bind_run]
    rcases lv.evaluate operand c.frame m with ⟨fault | v, m'⟩
    · exact Or.inr (Or.inr ⟨fault, m', rfl, rfl⟩)
    · obtain ⟨fault, hfault⟩ := exists_complaint (α := String) lv c (.target op) v m'
      cases v with
      | symbol name => exact Or.inl ⟨name, m', rfl, rfl⟩
      | _ => exact Or.inr (Or.inl ⟨fault, m', rfl, hfault⟩)

/-- What a binding form is to write: its operands come to the name and the value, and it binds the
name in the frame. -/
def IsToWrite (lv : Level) (op : Builtin) (operands : List Value) (frame : FrameId) (m : Machine)
    (name : String) (v : Value) (g : FrameId) : Prop :=
  (lv.bindingOperands operands frame m).1 = .ok (some (name, v)) ∧
    op.bindsIn? (lv.bindingOperands operands frame m).2.store frame name = some g

/-- A call of a binding form either fails with nothing to write, where its operands leave the
machine, or it writes there what it is to write, and only then reports it. -/
theorem applyBuiltin_binding_cases (lv : Level) (hop : op = .letForm ∨ op = .setForm) (c : Call)
    (m : Machine) :
    ((¬ ∃ name v g, lv.IsToWrite op c.operands c.frame m name v g) ∧
      ∃ fault, lv.applyBuiltin op c m =
        (.error fault, (lv.bindingOperands c.operands c.frame m).2)) ∨
    ∃ name v g, lv.IsToWrite op c.operands c.frame m name v g ∧
      lv.applyBuiltin op c m =
        (lv.trace v >>= fun _ => pure v)
          { (lv.bindingOperands c.operands c.frame m).2 with
            store := (lv.bindingOperands c.operands c.frame m).2.store.define g name v } := by
  unfold IsToWrite
  by_cases hcount : ∃ operand e, c.operands = [operand, e]
  · obtain ⟨operand, e, hoperands⟩ := hcount
    rw [applyBuiltin_binding hop hoperands, hoperands]
    dsimp only [bindingOperands]
    rw [Eval.bind_run, Eval.bind_run]
    rcases lv.target_cases op c operand m with
      ⟨name, m', hname, htarget⟩ | ⟨fault, m', hname, htarget⟩ | ⟨fault, m', hname, htarget⟩
    · rw [hname, htarget]
      dsimp only
      rw [Eval.bind_run, Eval.bind_run]
      rcases lv.evaluate e c.frame m' with ⟨fault | v, m''⟩
      · exact Or.inl ⟨(fun ⟨_, _, _, hwrite, _⟩ => nomatch hwrite), fault, rfl⟩
      · dsimp only
        cases hframe : op.bindsIn? m''.store c.frame name with
        | some g =>
          rw [bindName_run_of_some hframe]
          exact Or.inr ⟨name, v, g, ⟨rfl, hframe⟩, rfl⟩
        | none =>
          rw [bindName_run_of_none hframe]
          refine Or.inl ⟨?_, _, rfl⟩
          rintro ⟨name', v', g, hwrite, hframe'⟩
          cases hwrite
          exact absurd (hframe.symm.trans hframe') nofun
    · rw [hname, htarget]
      exact Or.inl ⟨(fun ⟨_, _, _, hwrite, _⟩ => nomatch hwrite), fault, rfl⟩
    · rw [hname, htarget]
      exact Or.inl ⟨(fun ⟨_, _, _, hwrite, _⟩ => nomatch hwrite), fault, rfl⟩
  · have hoperands : lv.bindingOperands c.operands c.frame = pure none := by
      unfold bindingOperands
      split
      next operand e heq => exact absurd ⟨operand, e, heq⟩ hcount
      · rfl
    rw [hoperands, applyBuiltin_binding_of_count hop hcount]
    exact Or.inl ⟨(fun ⟨_, _, _, hwrite, _⟩ => nomatch hwrite), _, rfl⟩

end Level

/-! ## Forms -/

/-- The evaluation of the operands makes no frames. -/
theorem keepsFrames_bindingOperands (limits : Limits) (levels : Nat) (operands : List Value)
    (frame : FrameId) :
    Eval.KeepsFrames ((limits.level levels).bindingOperands operands frame) := by
  have hevaluate (e : Value) : Eval.KeepsFrames ((limits.level levels).evaluate e frame) :=
    keepsFrames_evaluateWithin limits levels 0 e frame
  unfold Level.bindingOperands
  split
  next operand e =>
    refine .bind ?_ fun name? => ?_
    · unfold Level.targetName?
      split
      · exact .pure _
      · refine .bind (hevaluate operand) fun v => ?_
        cases v <;> exact .pure _
    · cases name? with
      | none => exact .pure _
      | some name => exact .bind (hevaluate e) fun v => .pure _
  · exact .pure _

section

variable {limits : Limits} {levels : Nat} {op : Builtin} {operands : List Value} {frame g : FrameId}
  {m : Machine} {name : String} {v : Value}

/-- The frame that a form is to write in is there. -/
theorem Level.IsToWrite.lt_length (hop : op = .letForm ∨ op = .setForm)
    (hframe : frame < m.store.frames.length)
    (h : (limits.level levels).IsToWrite op operands frame m name v g) :
    g < ((limits.level levels).bindingOperands operands frame m).2.store.frames.length := by
  obtain ⟨-, hbinds⟩ := h
  rcases hop with rfl | rfl
  · obtain rfl := Option.some.inj hbinds
    rw [keepsFrames_bindingOperands]
    exact hframe
  · have hfound := List.find?_some (p := fun f => (Store.get? _ f name).isSome) hbinds
    exact Store.lt_length_of_isSome_get? hfound

/-- What a form is to write is what the name stands for then. -/
theorem Level.IsToWrite.lookup? (hop : op = .letForm ∨ op = .setForm)
    (hframe : frame < m.store.frames.length)
    (h : (limits.level levels).IsToWrite op operands frame m name v g) :
    (((limits.level levels).bindingOperands operands frame m).2.store.define g name v).lookup?
      frame name = some v := by
  have hlength := h.lt_length hop hframe
  obtain ⟨-, hbinds⟩ := h
  rcases hop with rfl | rfl
  · obtain rfl := Option.some.inj hbinds
    exact Store.lookup?_define_self hlength name v
  · exact Store.lookup?_define_nearest hbinds v

end

/-- How the evaluation of a binding form ends. -/
theorem binding_form_cases (limits : Limits) (levels : Nat) {op : Builtin}
    (hop : op = .letForm ∨ op = .setForm) {frame home : FrameId} {m : Machine}
    (hbound : m.store.lookup? frame op.name = some (.builtin op home)) (operands : List Value)
    (made : Option Nat) :
    let form := Value.list (.symbol op.name :: operands) made
    let run := evaluateWithin limits levels 0 form frame m
    let lv := limits.level (levels - 1 - op.skipped)
    let left := (lv.bindingOperands operands frame m).2
    ((levels < 3 ∨ ∃ textFault, form.render (roomOf (levels - 1)) = .error textFault) ∧
      ∃ fault, run = (.error fault, m)) ∨
    ((¬ ∃ name v g, lv.IsToWrite op operands frame m name v g) ∧
      ∃ fault, run = (.error fault, left)) ∨
    ∃ name v g, lv.IsToWrite op operands frame m name v g ∧
      (run = (.ok v, { left with store := left.store.define g name v }) ∨
        limits.tracing = true ∧ ∃ textFault, v.render lv.room = .error textFault ∧
          run = (.error textFault.toFault, { left with store := left.store.define g name v })) := by
  intro form run lv left
  rcases evaluateWithin_builtin_cases hbound operands made with hunreached | ⟨text, hrun⟩
  · exact Or.inl hunreached
  rcases lv.applyBuiltin_binding_cases hop ⟨operands, frame, text⟩ m with
    ⟨hnone, fault, hcall⟩ | ⟨name, v, g, hwrite, hcall⟩
  · exact Or.inr (Or.inl ⟨hnone, fault, hrun.trans hcall⟩)
  · refine Or.inr (Or.inr ⟨name, v, g, hwrite, ?_⟩)
    have hcall' := hrun.trans hcall
    rw [Eval.bind_run] at hcall'
    rcases trace_run lv v { left with store := left.store.define g name v } with
      htrace | ⟨htracing, textFault, htext, htrace⟩
    · rw [htrace] at hcall'
      exact Or.inl hcall'
    · rw [htrace] at hcall'
      exact Or.inr ⟨htracing, textFault, htext, hcall'⟩

/-- What a binding form writes. If it succeeds, its operands came to a name and to the value that it
returns, and from where they left the machine it has changed just one thing: in the frame where it
binds the name, which then stands for that value. If it fails, the machine is as the operands left
it, or as it was if they were not come to, because there were too few levels or the form had no
text. The one exception is a value that has been written and then has no text to be reported. With a
name, a frame and a value that need not be reported or has a text, the form does succeed. -/
theorem binding_form_writes (limits : Limits) (levels : Nat) {op : Builtin}
    (hop : op = .letForm ∨ op = .setForm) {frame home : FrameId} {m : Machine}
    (hframe : frame < m.store.frames.length)
    (hbound : m.store.lookup? frame op.name = some (.builtin op home)) (operands : List Value)
    (made : Option Nat) :
    let form := Value.list (.symbol op.name :: operands) made
    let run := evaluateWithin limits levels 0 form frame m
    let lv := limits.level (levels - 1 - op.skipped)
    let left := (lv.bindingOperands operands frame m).2
    (∀ v, run.1 = .ok v →
      ∃ name g, lv.IsToWrite op operands frame m name v g ∧
        run.2 = { left with store := left.store.define g name v } ∧
        run.2.store.lookup? frame name = some v ∧
        ∀ f x, run.2.store.get? f x =
          if f = g ∧ x = name then some v else left.store.get? f x) ∧
    (∀ fault, run.1 = .error fault →
      run.2 = left ∨
      run.2 = m ∧ (levels < 3 ∨
        ∃ textFault, form.render (roomOf (levels - 1)) = .error textFault) ∨
      limits.tracing = true ∧ ∃ name v g textFault, lv.IsToWrite op operands frame m name v g ∧
        v.render lv.room = .error textFault ∧ fault = textFault.toFault ∧
        run.2 = { left with store := left.store.define g name v }) ∧
    (3 ≤ levels → ∀ text, form.render (roomOf (levels - 1)) = .ok text →
      ∀ name v g, lv.IsToWrite op operands frame m name v g →
        (limits.tracing = true → ∃ text, v.render lv.room = .ok text) → run.1 = .ok v) := by
  intro form run lv left
  rcases binding_form_cases limits levels hop hbound operands made with
    ⟨hunreached, fault, hrun⟩ | ⟨hnone, fault, hrun⟩ |
      ⟨name, v, g, hwrite, hrun | ⟨htracing, textFault, htext, hrun⟩⟩ <;>
    rw [show run = _ from hrun]
  · refine ⟨nofun, fun _ _ => Or.inr (Or.inl ⟨rfl, hunreached⟩), fun hlevels text htext => ?_⟩
    rcases hunreached with hfew | ⟨textFault, hnone⟩
    · exact absurd hlevels (Nat.not_le.2 hfew)
    · exact absurd (htext.symm.trans hnone) nofun
  · exact ⟨nofun, fun _ _ => Or.inl rfl,
      fun _ _ _ name v g hwrite => absurd ⟨name, v, g, hwrite⟩ hnone⟩
  · have hlength : g < left.store.frames.length := hwrite.lt_length hop hframe
    refine ⟨fun v' hv => ?_, nofun, fun _ _ _ name' v' g' hwrite' _ => ?_⟩
    · cases hv
      refine ⟨name, g, hwrite, rfl, hwrite.lookup? hop hframe, fun f x => ?_⟩
      have hget := left.store.get?_define g f name x v
      simp only [hlength, and_true] at hget
      exact hget
    · cases hwrite.1.symm.trans hwrite'.1
      rfl
  · refine ⟨nofun, fun fault hfault => ?_, fun _ _ _ name' v' g' hwrite' hreport => ?_⟩
    · cases hfault
      exact Or.inr (Or.inr ⟨htracing, name, v, g, textFault, hwrite, htext, rfl, rfl⟩)
    · cases hwrite.1.symm.trans hwrite'.1
      obtain ⟨text, htext'⟩ := hreport htracing
      exact absurd (htext'.symm.trans htext) nofun

/-- Below a global frame that binds a name, to set the name changes that frame and not the one of
the call. -/
theorem set_writes_above :
    let store := (Store.empty.global [("x", .nil)]).extend 0 []
    let run := evaluate {} (.list [.symbol "set", .symbol "x", .quote (.symbol "b")] none) 1
      { Machine.empty with store }
    1 < store.frames.length ∧ store.lookup? 1 "set" = some (.builtin .setForm 0) ∧
      run.1 = .ok (.symbol "b") ∧ run.2.store.lookup? 1 "x" = some (.symbol "b") ∧
      run.2.store.get? 1 "x" = none ∧ run.2.store.get? 0 "x" = some (.symbol "b") := by
  intro store run
  have hwrite : (Limits.level {} 1394).IsToWrite .setForm [.symbol "x", .quote (.symbol "b")] 1
      { Machine.empty with store } "x" (.symbol "b") 0 := ⟨rfl, by decide⟩
  have hframe : 1 < store.frames.length := by decide
  have hbound : store.lookup? 1 "set" = some (.builtin .setForm 0) := rfl
  obtain ⟨hvalue, -, hsucceeds⟩ := binding_form_writes {} 1400 (Or.inr rfl)
    (m := { Machine.empty with store }) hframe hbound [.symbol "x", .quote (.symbol "b")] none
  have hrun : run.1 = .ok (.symbol "b") :=
    hsucceeds (by decide) "(set x 'b)" rfl "x" (.symbol "b") 0 hwrite fun _ => ⟨"b", rfl⟩
  obtain ⟨name, g, hwrite', -, hlookup, hget⟩ := hvalue (.symbol "b") hrun
  cases hwrite.1.symm.trans hwrite'.1
  obtain rfl : (0 : FrameId) = g := Option.some.inj (hwrite.2.symm.trans hwrite'.2)
  exact ⟨hframe, hbound, hrun, hlookup, hget 1 "x", hget 0 "x"⟩

/-! ## A value without a text -/

section

variable {limits : Limits} {frame home home' : FrameId} {m : Machine} {n : Int}

/-- A quoted name is evaluated to nothing but itself. -/
theorem bindingOperands_run_quote {lv : Level} {e v : Value} {m' : Machine} (name : String)
    (hvalue : lv.evaluate e frame m = (.ok v, m')) :
    lv.bindingOperands [.quote (.symbol name), e] frame m = (.ok (some (name, v)), m') := by
  show (lv.evaluate e frame >>= fun v => pure (some (name, v)) : Eval _) m = _
  rw [Eval.bind_run, hvalue]
  rfl

/-- A form that binds a name to the square of a number. -/
def letSquareForm (name : String) (n : Int) : Value :=
  .list (.symbol "let" :: [.quote (.symbol name), squareForm n]) none

/-- Where the square of a number has no text, to bind a name to it fails, if it is traced, and binds
the name all the same. -/
theorem evaluate_letSquareForm (htracing : limits.tracing = true) (hlevels : 20 ≤ limits.levels)
    (hshort : n.natAbs < Text.tooLongFrom) (hlong : ¬ (n * n).natAbs < Text.tooLongFrom)
    (hlet : m.store.lookup? frame "let" = some (.builtin .letForm home))
    (hmultiply : m.store.lookup? frame "*" = some (.builtin .multiply home')) (name : String) :
    evaluate limits (letSquareForm name n) frame m =
      (.error .tooLong, { m with store := m.store.define frame name (.number (n * n)) }) := by
  obtain ⟨levels, hlevels⟩ := Nat.exists_eq_add_of_le' hlevels
  have hroom : 3 ≤ roomOf (levels + 19) := by
    unfold roomOf
    omega
  have hwritable : (letSquareForm name n).IsWritable (roomOf (levels + 19)) :=
    ⟨hroom, trivial, trivial, ⟨trivial, hshort, hshort, trivial⟩, trivial⟩
  obtain ⟨text, htext⟩ := Value.exists_render_iff.2 hwritable
  have hvalue : (limits.level (levels + 14)).evaluate (squareForm n) frame m =
      (.ok (.number (n * n)), m) :=
    evaluateWithin_squareForm hshort (by omega) hmultiply
  have htoolong : (Value.number (n * n)).render (limits.level (levels + 14)).room =
      .error .tooLong := by
    have hroom' : 1 ≤ roomOf (levels + 14) := by
      unfold roomOf
      omega
    obtain ⟨room, hroom'⟩ := Nat.exists_eq_add_of_le' hroom'
    show (Value.number (n * n)).render (roomOf (levels + 14)) = _
    rw [hroom']
    exact render_number_of_long hlong room
  rw [evaluate, hlevels, letSquareForm, show "let" = Builtin.letForm.name from rfl,
    evaluateWithin_builtin hlet htext, Level.applyBuiltin_binding (Or.inl rfl) rfl,
    Eval.bind_run]
  show ((limits.level (levels + 14)).evaluate (squareForm n) frame >>= fun v =>
    (limits.level (levels + 14)).bindName .letForm frame name v) m = _
  rw [Eval.bind_run, hvalue]
  dsimp only
  rw [Level.bindName_run_of_some rfl, Eval.bind_run, trace_run_of_error htracing htoolong]
  rfl

end

/-- In a new global frame, to bind a name to the square of a number with half the digits fails, and
the name is bound then, although the operands leave everything as it was. -/
theorem let_writes_what_has_no_text :
    let fresh := { Machine.empty with store := Store.empty.global [] }
    let n := powerOfTen 2150
    let run := evaluate {} (letSquareForm "x" n) Store.empty.next fresh
    let operands := (Limits.level {} 1394).bindingOperands [.quote (.symbol "x"), squareForm n]
      Store.empty.next fresh
    run.1 = .error .tooLong ∧ operands = (.ok (some ("x", .number (n * n))), fresh) ∧
      fresh.store.get? Store.empty.next "x" = none ∧
      run.2.store.get? Store.empty.next "x" = some (.number (n * n)) := by
  intro fresh n run operands
  have hshort : n.natAbs < Text.tooLongFrom := natAbs_powerOfTen_lt_iff.2 (by decide)
  have hlong : ¬ (n * n).natAbs < Text.tooLongFrom := by
    rw [powerOfTen_mul, natAbs_powerOfTen_lt_iff]
    decide
  have hlet : fresh.store.lookup? Store.empty.next "let" =
      some (.builtin .letForm Store.empty.next) := rfl
  have hmultiply : fresh.store.lookup? Store.empty.next "*" =
      some (.builtin .multiply Store.empty.next) := rfl
  have hrun : run = (.error .tooLong,
      { fresh with store := fresh.store.define Store.empty.next "x" (.number (n * n)) }) :=
    evaluate_letSquareForm rfl (by decide) hshort hlong hlet hmultiply "x"
  have hvalue : (Limits.level {} 1394).evaluate (squareForm n) Store.empty.next fresh =
      (.ok (.number (n * n)), fresh) :=
    evaluateWithin_squareForm hshort (by decide) hmultiply
  have hoperands : operands = (.ok (some ("x", .number (n * n))), fresh) :=
    bindingOperands_run_quote "x" hvalue
  rw [hrun]
  exact ⟨rfl, hoperands, rfl, Store.get?_define_self (by decide) "x" (.number (n * n))⟩

end Fexpr
