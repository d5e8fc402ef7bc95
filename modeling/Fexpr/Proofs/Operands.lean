import Fexpr.Proofs.Application
import Fexpr.Proofs.Tracing

/-!
# Operands of arithmetic

An arithmetic builtin evaluates its operands from left to right, each one once, as long as their
values are numbers (`Level.NumbersInTurn`). The first operand that fails, or has another value, is
where it stops (`Level.StopsAt`); if there is none, it computes from the numbers
(`Builtin.compute?`).

Main statement: a call leaves the machine where the evaluation of its operands stops, for the reason
for which it stops there; and only if it does not stop is anything computed, or found to be divided
by zero (`arithmetic_stops_or_computes`).
-/

namespace Fexpr

/-! ## What is computed -/

namespace Builtin

/-- Whether the builtin computes with numbers. -/
def isArithmetic : Builtin → Bool
  | add | subtract | multiply | divide => true
  | _ => false

/-- What an arithmetic builtin makes of numbers, of which there is one at least: nothing, if one is
divided by zero. -/
def compute? : Builtin → Int → List Int → Option Int
  | add, n, ns => some (Arithmetic.sum (n :: ns))
  | subtract, n, ns => some (Arithmetic.difference (n :: ns))
  | multiply, n, ns => some (Arithmetic.product (n :: ns))
  | divide, n, ns => Arithmetic.quotient? n ns
  | _, _, _ => none

theorem compute?_eq_none_iff {op : Builtin} (hop : op.isArithmetic = true) {n : Int}
    {ns : List Int} : op.compute? n ns = none ↔ op = divide ∧ 0 ∈ ns := by
  cases op with
  | add | subtract | multiply => simp [compute?]
  | divide => simp [compute?, Arithmetic.quotient?_eq_none_iff]
  | _ => cases hop

end Builtin

/-! ## Operands in turn -/

namespace Level

/-- Expressions are evaluated in turn, and their values are the numbers. -/
def NumbersInTurn (lv : Level) (frame : FrameId) (es : List Value) (m : Machine) (ns : List Int)
    (m' : Machine) : Prop :=
  InTurn (fun e m r m' => lv.evaluate e frame m = (r.map Value.number, m')) es m (.ok ns) m'

/-- The expression in a place, counted from one, is the first whose value is no number: those before
it are evaluated in turn, and then it ends without a value or in another one. -/
def StopsAt (lv : Level) (frame : FrameId) (es : List Value) (m : Machine) (position : Nat)
    (r : Except Fault Value) (m' : Machine) : Prop :=
  ∃ before e after ns m₁, es = before ++ e :: after ∧ position = before.length + 1 ∧
    lv.NumbersInTurn frame before m ns m₁ ∧ lv.evaluate e frame m₁ = (r, m') ∧
    ∀ n, r ≠ .ok (.number n)

variable {lv : Level} {frame : FrameId} {e : Value} {es : List Value} {m m' m₁ : Machine} {n : Int}
  {ns : List Int} {op : Builtin} {c : Call} {position : Nat} {r : Except Fault Value}

theorem NumbersInTurn.nil (m : Machine) : lv.NumbersInTurn frame [] m [] m :=
  InTurn.nil m

theorem NumbersInTurn.cons (h : lv.evaluate e frame m = (.ok (.number n), m₁))
    (hs : lv.NumbersInTurn frame es m₁ ns m') : lv.NumbersInTurn frame (e :: es) m (n :: ns) m' :=
  InTurn.cons h hs

/-- There are as many numbers as expressions. -/
theorem NumbersInTurn.length_eq (h : lv.NumbersInTurn frame es m ns m') :
    ns.length = es.length := by
  have hmap := InTurn.map_eq (f := fun _ => ()) (g := fun _ => ()) (fun _ => rfl) h
  simpa using congrArg List.length hmap

theorem StopsAt.ne_nil (h : lv.StopsAt frame es m position r m') : es ≠ [] := by
  obtain ⟨before, e, after, ns, m₁, rfl, -⟩ := h
  exact List.append_ne_nil_of_right_ne_nil before (List.cons_ne_nil e after)

/-- Either the evaluation of a row of expressions stops at one of them, or all are numbers. -/
theorem stopsAt_or_numbersInTurn (lv : Level) (frame : FrameId) (es : List Value) (m : Machine) :
    (∃ position r m', lv.StopsAt frame es m position r m') ∨
      ∃ ns m', lv.NumbersInTurn frame es m ns m' := by
  -- What comes after the first expression starts on the machine that it leaves, whichever that is.
  induction es generalizing m with
  | nil => exact Or.inr ⟨[], m, .nil m⟩
  | cons e es ih =>
    rcases hrun : lv.evaluate e frame m with ⟨r, m₁⟩
    by_cases hr : ∃ n, r = .ok (.number n)
    · obtain ⟨n, rfl⟩ := hr
      rcases ih m₁ with ⟨position, r, m', before, e', after, ns, m₂, rfl, rfl, hns, hstop⟩ |
        ⟨ns, m', hns⟩
      · exact Or.inl ⟨_, r, m', e :: before, e', after, n :: ns, m₂, rfl, rfl, .cons hrun hns,
          hstop⟩
      · exact Or.inr ⟨n :: ns, m', .cons hrun hns⟩
    · exact Or.inl ⟨1, r, m₁, [], e, es, [], m, rfl, rfl, .nil m, hrun, fun n heq => hr ⟨n, heq⟩⟩

/-- Operands that are numbers are passed, one place each. -/
theorem numbers_run_append (h : lv.NumbersInTurn c.frame es m ns m') (op : Builtin)
    (position : Nat) (after : List Value) :
    lv.numbers op c position (es ++ after) m =
      ((lv.numbers op c (position + es.length) after m').1.map (ns ++ ·),
        (lv.numbers op c (position + es.length) after m').2) := by
  -- Each number moves the others on by one place, so the induction is for any place.
  induction es generalizing m ns position with
  | nil =>
    obtain ⟨rfl, rfl⟩ := InTurn.ok_nil_iff.1 h
    show lv.numbers op c position after m' = _
    rcases lv.numbers op c position after m' with ⟨_ | _, _⟩ <;> rfl
  | cons e es ih =>
    obtain ⟨n, ns, m₁, rfl, hrun, hs⟩ := InTurn.ok_cons_iff.1 h
    have hvalue : lv.evaluate e c.frame m = (.ok (.number n), m₁) := hrun
    rw [List.cons_append, numbers, Eval.bind_run, hvalue]
    dsimp only
    rw [Eval.bind_run, ih hs (position + 1), List.length_cons, Nat.add_right_comm,
      ← Nat.add_assoc]
    rcases lv.numbers op c (position + es.length + 1) after m' with ⟨_ | _, _⟩ <;> rfl

theorem numbers_run_of_numbersInTurn (h : lv.NumbersInTurn c.frame es m ns m') (op : Builtin)
    (position : Nat) : lv.numbers op c position es m = (.ok ns, m') := by
  have hrun := numbers_run_append h op position []
  rw [List.append_nil] at hrun
  exact hrun.trans (congrArg (fun ns => (Except.ok ns, m')) (List.append_nil ns))

/-- Where an operand fails, so does the evaluation of all. -/
theorem numbers_run_of_stopsAt_fault {fault : Fault}
    (h : lv.StopsAt c.frame es m position (.error fault) m') (op : Builtin) :
    lv.numbers op c 1 es m = (.error fault, m') := by
  obtain ⟨before, e, after, ns, m₁, rfl, rfl, hns, hrun, -⟩ := h
  rw [numbers_run_append hns, numbers, Eval.bind_run, hrun]
  rfl

/-- Where the value of an operand is no number, the evaluation of all ends in a complaint of it. -/
theorem numbers_run_of_stopsAt_value {v : Value}
    (h : lv.StopsAt c.frame es m position (.ok v) m') (op : Builtin) :
    lv.numbers op c 1 es m =
      (lv.write v >>= fun got => c.fail (.notANumber op position got)) m' := by
  obtain ⟨before, e, after, ns, m₁, rfl, rfl, hns, hrun, hv⟩ := h
  rw [numbers_run_append hns, numbers, Eval.bind_run, hrun, Nat.add_comm 1]
  dsimp only
  obtain ⟨fault, hfault⟩ := exists_complaint (α := List Int) lv c
    (.notANumber op (before.length + 1)) v m'
  rw [hfault]
  -- Numbers apart, the rule is the same for all values.
  cases v with
  | number n => exact absurd rfl (hv n)
  | _ =>
    dsimp only
    rw [hfault]
    rfl

/-! ## Calls -/

/-- How an arithmetic builtin ends once it has the numbers. Only a sum is reported. -/
def conclude (lv : Level) (op : Builtin) (c : Call) (n : Int) (ns : List Int) : Eval Value :=
  match op.compute? n ns with
  | some q => do
    if op = .add then lv.trace (.number q)
    return .number q
  | none => c.fail .divisionByZero

theorem operandNumbers_eq (hne : c.operands ≠ []) :
    lv.operandNumbers op c = lv.numbers op c 1 c.operands := by
  unfold operandNumbers
  rw [if_neg (by simpa using hne)]

theorem applyBuiltin_run_of_fault (hop : op.isArithmetic = true) (hne : c.operands ≠ [])
    {fault : Fault} (h : lv.numbers op c 1 c.operands m = (.error fault, m')) :
    lv.applyBuiltin op c m = (.error fault, m') := by
  rw [← operandNumbers_eq hne] at h
  cases op with
  | add | subtract | multiply | divide =>
    dsimp only [applyBuiltin, add, subtract, multiply, divide]
    rw [Eval.bind_run, h]
  | _ => cases hop

theorem applyBuiltin_run_of_numbers (hop : op.isArithmetic = true)
    (h : lv.NumbersInTurn c.frame c.operands m (n :: ns) m') :
    lv.applyBuiltin op c m = lv.conclude op c n ns m' := by
  have hne : c.operands ≠ [] := by
    intro hnil
    have hlength := h.length_eq
    rw [hnil] at hlength
    cases hlength
  have hnumbers := numbers_run_of_numbersInTurn h op 1
  rw [← operandNumbers_eq hne] at hnumbers
  cases op with
  | add | subtract | multiply =>
    dsimp only [applyBuiltin, add, subtract, multiply]
    rw [Eval.bind_run, hnumbers]
    rfl
  | divide =>
    dsimp only [applyBuiltin, divide, conclude, Builtin.compute?]
    rw [Eval.bind_run, hnumbers]
    dsimp only
    cases Arithmetic.quotient? n ns <;> rfl
  | _ => cases hop

/-- What an arithmetic builtin computes changes nothing, and it has the result as its value, unless
there is none, or it is a sum to be reported that has no text. -/
theorem conclude_cases (hop : op.isArithmetic = true) (lv : Level) (c : Call) (n : Int)
    (ns : List Int) (m : Machine) :
    ((op = .divide ∧ 0 ∈ ns) ∧
      lv.conclude op c n ns m = (.error (.error (.arising .divisionByZero c.text)), m)) ∨
    ¬ (op = .divide ∧ 0 ∈ ns) ∧ ∃ q, op.compute? n ns = some q ∧
      (lv.conclude op c n ns m = (.ok (.number q), m) ∨
        op = .add ∧ lv.tracing = true ∧ ∃ textFault,
          (Value.number q).render lv.room = .error textFault ∧
          lv.conclude op c n ns m = (.error textFault.toFault, m)) := by
  rw [← Builtin.compute?_eq_none_iff hop]
  unfold conclude
  cases hq : op.compute? n ns with
  | none => exact Or.inl ⟨rfl, rfl⟩
  | some q =>
    refine Or.inr ⟨nofun, q, rfl, ?_⟩
    dsimp only
    by_cases hadd : op = .add
    · rw [if_pos hadd, Eval.bind_run]
      rcases trace_run lv (.number q) m with htrace | ⟨htracing, textFault, htext, htrace⟩
      · rw [htrace]
        exact Or.inl rfl
      · rw [htrace]
        exact Or.inr ⟨hadd, htracing, textFault, htext, rfl⟩
    · rw [if_neg hadd]
      exact Or.inl rfl

/-- A call whose operands stop ends there, for the reason that they do. -/
theorem applyBuiltin_run_of_stopsAt (hop : op.isArithmetic = true)
    (h : lv.StopsAt c.frame c.operands m position r m') :
    (lv.applyBuiltin op c m).2 = m' ∧
      (∀ fault, r = .error fault → (lv.applyBuiltin op c m).1 = .error fault) ∧
      ∀ v, r = .ok v →
        (∀ got, v.render lv.room = .ok got → (lv.applyBuiltin op c m).1 =
          .error (.error (.arising (.notANumber op position got) c.text))) ∧
        ∀ textFault, v.render lv.room = .error textFault →
          (lv.applyBuiltin op c m).1 = .error textFault.toFault := by
  cases r with
  | error fault =>
    rw [applyBuiltin_run_of_fault hop h.ne_nil (numbers_run_of_stopsAt_fault h op)]
    exact ⟨rfl, fun _ hfault => by cases hfault; rfl, nofun⟩
  | ok v =>
    -- The complaint needs the text of the value; without one, the call lacks that instead.
    have hnumbers := numbers_run_of_stopsAt_value h op
    rw [Eval.bind_run] at hnumbers
    cases htext : v.render lv.room with
    | ok got =>
      rw [write_run htext] at hnumbers
      rw [applyBuiltin_run_of_fault hop h.ne_nil hnumbers]
      refine ⟨rfl, nofun, fun w hw => ?_⟩
      cases hw
      constructor
      · intro got' hgot
        cases htext.symm.trans hgot
        rfl
      · intro textFault hnone
        cases htext.symm.trans hnone
    | error textFault =>
      rw [write_run_of_error htext] at hnumbers
      rw [applyBuiltin_run_of_fault hop h.ne_nil hnumbers]
      refine ⟨rfl, nofun, fun w hw => ?_⟩
      cases hw
      constructor
      · intro got hgot
        cases htext.symm.trans hgot
      · intro textFault' hnone
        cases htext.symm.trans hnone
        rfl

end Level

/-! ## Forms -/

/-- The operands of an arithmetic form are evaluated from left to right, each one once. If they stop
at one of them, the form leaves the machine as that one left it, and ends in its fault, or, if it
has a value, in a complaint that names the place, for which the value must have a text. If they do
not stop, all are evaluated and nothing else happens: only then may the form find that one number is
divided by zero, and if not, the result is its value, unless that is a sum to be reported without a
text. Only a form without a text ends before its operands are evaluated. -/
theorem arithmetic_stops_or_computes (limits : Limits) (levels : Nat) {op : Builtin}
    (hop : op.isArithmetic = true) {frame home : FrameId} {m : Machine}
    (hbound : m.store.lookup? frame op.name = some (.builtin op home)) {operands : List Value}
    (hne : operands ≠ []) (made : Option Nat) :
    let form := Value.list (.symbol op.name :: operands) made
    let run := evaluateWithin limits levels 0 form frame m
    let lv := limits.level (levels - 1 - op.skipped)
    (∀ textFault, form.render (roomOf (levels - 1)) = .error textFault →
      run = (.error textFault.toFault, m)) ∧
    ∀ text, form.render (roomOf (levels - 1)) = .ok text →
      (∀ position r m', lv.StopsAt frame operands m position r m' →
        run.2 = m' ∧
        (∀ fault, r = .error fault → run.1 = .error fault) ∧
        ∀ v, r = .ok v →
          (∀ got, v.render lv.room = .ok got →
            run.1 = .error (.error (.arising (.notANumber op position got) text))) ∧
          ∀ textFault, v.render lv.room = .error textFault →
            run.1 = .error textFault.toFault) ∧
      (∀ n ns m', lv.NumbersInTurn frame operands m (n :: ns) m' →
        run.2 = m' ∧
        (run.1 = .error (.error (.arising .divisionByZero text)) ↔ op = .divide ∧ 0 ∈ ns) ∧
        ∀ q, op.compute? n ns = some q →
          run.1 = .ok (.number q) ∨
          op = .add ∧ limits.tracing = true ∧ ∃ textFault,
            (Value.number q).render lv.room = .error textFault ∧
            run.1 = .error textFault.toFault) ∧
      ((∃ position r m', lv.StopsAt frame operands m position r m') ∨
        ∃ n ns m', lv.NumbersInTurn frame operands m (n :: ns) m') := by
  intro form run lv
  refine ⟨fun textFault hnone => evaluateWithin_list_of_no_text limits hnone, fun text htext => ?_⟩
  have hrun : run = lv.applyBuiltin op ⟨operands, frame, text⟩ m :=
    evaluateWithin_builtin_of_text op hbound htext
  rw [hrun]
  refine ⟨fun position r m' hstops => Level.applyBuiltin_run_of_stopsAt hop hstops, ?_, ?_⟩
  · -- All operands are numbers by now, and what is computed from them changes nothing.
    intro n ns m' hnumbers
    rw [Level.applyBuiltin_run_of_numbers hop hnumbers]
    rcases Level.conclude_cases hop lv ⟨operands, frame, text⟩ n ns m' with
      ⟨hzero, hend⟩ | ⟨hzero, q, hq, hend | ⟨hadd, htracing, textFault, hnone, hend⟩⟩ <;> rw [hend]
    · have hnone := (Builtin.compute?_eq_none_iff hop (n := n)).2 hzero
      exact ⟨rfl, iff_of_true rfl hzero, fun q hq => by cases hnone.symm.trans hq⟩
    · refine ⟨rfl, iff_of_false nofun hzero, fun q' hq' => ?_⟩
      cases hq.symm.trans hq'
      exact Or.inl rfl
    · refine ⟨rfl, iff_of_false (by cases textFault <;> nofun) hzero, fun q' hq' => ?_⟩
      cases hq.symm.trans hq'
      exact Or.inr ⟨hadd, htracing, textFault, hnone, rfl⟩
  · rcases lv.stopsAt_or_numbersInTurn frame operands m with hstops | ⟨ns, m', hnumbers⟩
    · exact Or.inl hstops
    · cases ns with
      | nil => exact absurd (List.length_eq_zero_iff.1 hnumbers.length_eq.symm) hne
      | cons n ns => exact Or.inr ⟨n, ns, m', hnumbers⟩

/-- Where `n` is zero, `(/ n n (let 'n 'a) (let 'x t))` stops at the third operand: `n` is the
symbol `a` from then on, `x` is not bound, and it is not found that zero would be divided by zero.
-/
theorem arithmetic_stops_at_symbol :
    let bind (name : String) (e : Value) : Value :=
      .list [.symbol "let", .quote (.symbol name), e] none
    let operands : List Value :=
      [.symbol "n", .symbol "n", bind "n" (.quote (.symbol "a")), bind "x" .t]
    let m := { Machine.empty with store := Store.empty.global [("n", .number 0)] }
    evaluateWithin {} 60 0 (.list (.symbol "/" :: operands) none) 0 m =
      (.error (.error (.arising (.notANumber .divide 3 "a") "(/ n n (let 'n 'a) (let 'x t))")),
        { m with store := m.store.define 0 "n" (.symbol "a") }) := by
  intro bind operands m
  have hstops : (Limits.level {} 53).StopsAt 0 operands m 3 (.ok (.symbol "a"))
      { m with store := m.store.define 0 "n" (.symbol "a") } :=
    ⟨[.symbol "n", .symbol "n"], bind "n" (.quote (.symbol "a")), [bind "x" .t], [0, 0], m, rfl,
      rfl, .cons rfl (.cons rfl (.nil m)), rfl, nofun⟩
  have hdivide : m.store.lookup? 0 Builtin.divide.name = some (.builtin .divide 0) := rfl
  have hne : operands ≠ [] := List.cons_ne_nil _ _
  have hends := ((arithmetic_stops_or_computes {} 60 rfl hdivide hne none).2 _ rfl).1 _ _ _ hstops
  exact Prod.ext ((hends.2.2 _ rfl).1 "a" rfl) hends.1

end Fexpr
