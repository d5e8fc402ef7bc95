import Fexpr.Proofs.Convergence

/-!
# Descent

Evaluation that descends (`descendWithin`) looks at whatever is to be evaluated, and raises an alarm
unless it is a part of the expression that it is evaluated for, in the same frame. It keeps count of
how deep that nests, too.

Main statement: where only straight values are bound, the evaluation of a straight expression
descends and terminates, and only straight values are bound afterwards (`evaluation_descends`).
-/

namespace Fexpr

/-! ## Evaluation that descends -/

open Classical in
/-- Evaluates an expression in a frame, as long as nothing is evaluated for it but its parts in that
frame, nor for these, and so on, and this nests no deeper than to a depth: otherwise it ends in the
alarm. -/
noncomputable def descendWithin (limits : Limits) (alarm : Fault) :
    Nat → Nat → Nat → Value → FrameId → Eval Value
  | 0, _, _, _, _ => throw .tooDeep
  | levels + 1, skipped + 1, depth, expression, frame =>
    descendWithin limits alarm levels skipped depth expression frame
  | _ + 1, 0, 0, _, _ => throw alarm
  | levels + 1, 0, depth + 1, expression, frame =>
    Level.step
      { below := fun skipped part frame' =>
          if part ∈ expression.parts ∧ frame' = frame then
            descendWithin limits alarm levels skipped depth part frame'
          else throw alarm
        levels
        turns := limits.turns
        tracing := limits.tracing }
      expression frame

/-- No more is evaluated for an expression than its parts, the parts of these, and so on, each in
the same frame and no deeper than the expression is high: whatever the alarm is, none is raised. -/
def Descends (limits : Limits) (levels : Nat) (expression : Value) (frame : FrameId)
    (m : Machine) : Prop :=
  ∀ alarm, descendWithin limits alarm levels 0 expression.height expression frame m =
    evaluateWithin limits levels 0 expression frame m

/-- With enough levels, evaluation ends in a value or in an error, the same for all numbers of
levels, and never for the lack of levels or for the number of turns that a loop takes. -/
def Terminates (limits : Limits) (expression : Value) (frame : FrameId) (m : Machine) : Prop :=
  ∃ enough r m', r ≠ .error .tooDeep ∧ r ≠ .error .endless ∧
    ∀ levels ≥ enough, evaluateWithin limits levels 0 expression frame m = (r, m')

open Comparison

open Value (Straight)

/-- A run beside itself, with straight values bound in a frame. It does not end for the number of
turns that a loop takes. -/
def Comparison.descending (frame : FrameId) : Comparison where
  state m n := m = n ∧ m.store.Straight frame
  fault f g := f = g ∧ f ≠ .endless
  excused₁ _ := False
  excused₂ _ := False
  fault_refl hf := ⟨rfl, hf⟩
  nextId_eq h := by rw [h.1]
  count := by
    rintro m _ ⟨rfl, hm⟩
    exact ⟨rfl, hm⟩
  print := by
    rintro m _ ⟨rfl, hm⟩ output
    exact ⟨rfl, hm⟩

namespace Comparison.descending

variable {α : Type} {frame : FrameId}

theorem agree_define (name : String) {v : Value} (hv : v.Straight) :
    (descending frame).Agree Eq (Eval.define frame name v) (Eval.define frame name v) := by
  rintro m _ ⟨rfl, hm⟩
  exact Or.inr (Or.inr ⟨⟨rfl, hm.define frame name hv⟩, .value rfl⟩)

theorem agree_assign (name : String) {v : Value} (hv : v.Straight) :
    (descending frame).Agree Eq (Eval.assign frame name v) (Eval.assign frame name v) := by
  refine Agree.assign ?_
  rintro m _ ⟨rfl, hm⟩
  cases ht : m.store.assign? frame name v with
  | none => exact .none
  | some t => exact .some ⟨rfl, hm.assign hv ht⟩

theorem agree_resolve (x : String) :
    (descending frame).Agree (Both Straight) (Level.resolve frame x) (Level.resolve frame x) := by
  rintro m _ ⟨rfl, hm⟩
  refine Or.inr (Or.inr ?_)
  unfold Level.resolve
  rw [Eval.bind_run, Eval.lookup?_run]
  cases hx : m.store.lookup? frame x with
  | none => exact ⟨⟨rfl, hm⟩, .fault ⟨rfl, nofun⟩⟩
  | some v => exact ⟨⟨rfl, hm⟩, .value ⟨rfl, hm.lookup hx⟩⟩

end Comparison.descending

namespace Level

/-- On both levels, the parts of what is evaluated are evaluated alike in a frame. -/
structure Alike (frame : FrameId) (parts : List Value) (lv lv' : Level) : Prop where
  beside : (descending frame).Beside lv lv'
  below : ∀ more, ∀ part ∈ parts,
    (descending frame).Agree (Both Straight) (lv.below more part frame) (lv'.below more part frame)

namespace Alike

section

variable {frame : FrameId} {parts : List Value} {lv lv' : Level} (h : Alike frame parts lv lv')

include h

theorem deeper (k : Nat) : Alike frame parts (lv.deeper k) (lv'.deeper k) :=
  ⟨h.beside.deeper k, fun more => h.below (k + more)⟩

theorem evaluate {part : Value} (hpart : part ∈ parts) :
    (descending frame).Agree (Both Straight) (lv.evaluate part frame) (lv'.evaluate part frame) :=
  h.below 0 part hpart

end

section

variable {c : Call} {lv lv' : Level} (h : Alike c.frame c.operands lv lv')

include h

theorem calls : (descending c.frame).Calls Straight lv lv' c c := by
  refine .intro h.beside (List.forall₂_same.2 fun e he => ?_) fun _ => ⟨rfl, nofun⟩
  exact ⟨fun k => h.below k e he, fun k => (h.beside.deeper k).trace e⟩

/-- A builtin that is straight evaluates nothing but its operands, and makes straight values. -/
theorem applyBuiltin {op : Builtin} {home : FrameId}
    (hop : (Value.builtin op home).isStraight = true) :
    (descending c.frame).Agree (Both Straight) (lv.applyBuiltin op c) (lv'.applyBuiltin op c) := by
  refine h.calls.applyBuiltin_same Value.closed_straight.over ?_ (fun _ => rfl) ?_ c.targets_any
    (fun x _ _ hv => descending.agree_define x hv) fun _ x _ _ hv => descending.agree_assign x hv
  · rintro rfl
    cases hop
  · rintro rfl
    cases hop

theorem apply {combiner : Value} (hcombiner : combiner.Straight) :
    (descending c.frame).Agree (Both Straight) (lv.apply combiner c) (lv'.apply combiner c) := by
  cases combiner with
  | builtin op home =>
    have hdeeper : Alike c.frame c.operands (lv.deeper op.skipped) (lv'.deeper op.skipped) :=
      h.deeper op.skipped
    exact hdeeper.applyBuiltin hcombiner.here
  | raiser message id => exact .throw_self nofun
  | fexpr => cases hcombiner.here
  | _ => exact agree_complaint h.beside (fun _ => ⟨rfl, nofun⟩) _ _

end

/-- The rules of the language evaluate nothing for a straight expression but its parts. -/
theorem step {frame : FrameId} {e : Value} {lv lv' : Level} (h : Alike frame e.parts lv lv')
    (he : e.Straight) :
    (descending frame).Agree (Both Straight) (lv.step e frame) (lv'.step e frame) := by
  cases e with
  | number | string | nil | builtin | raiser => exact .pure ⟨rfl, he⟩
  | fexpr | suspended => cases he.here
  | symbol x =>
    refine (descending.agree_resolve x).bind ?_
    rintro v _ ⟨rfl, hv⟩
    cases v with
    | suspended => cases hv.here
    | _ => exact .pure ⟨rfl, hv⟩
  | quote body =>
    rcases step_quote body frame with ⟨made, rfl, -⟩ | ⟨-, hstep⟩
    · exact .pure ⟨rfl, Value.closed_straight.nil⟩
    · rw [hstep, hstep]
      exact .pure ⟨rfl, he.quoted⟩
  | unquote body =>
    have hbody : body ∈ (Value.unquote body).parts := List.mem_singleton.2 rfl
    cases body with
    | symbol x =>
      refine (descending.agree_resolve x).bind ?_
      rintro v _ ⟨rfl, hv⟩
      cases v with
      | suspended => cases hv.here
      | _ => exact .pure ⟨rfl, hv⟩
    | _ => exact (h.deeper skippedByUnquoting).evaluate hbody
  | list items made =>
    cases items with
    | nil => exact .pure ⟨rfl, Value.closed_straight.nil⟩
    | cons head operands =>
      refine (h.beside.write _).bind ?_
      rintro text _ rfl
      refine ((h.deeper skippedByHead).evaluate List.mem_cons_self).bind ?_
      rintro combiner _ ⟨rfl, hcombiner⟩
      have hoperands : Alike frame operands lv lv' :=
        ⟨h.beside, fun more part hpart => h.below more part (List.mem_cons_of_mem head hpart)⟩
      exact hoperands.apply (c := ⟨operands, frame, text⟩) hcombiner
  | hostNumber | hostText =>
    rw [step_eq_needed lv _ frame rfl, step_eq_needed lv' _ frame rfl]
    refine (h.beside.constructorText _).bind ?_
    rintro text _ rfl
    exact .throw_self nofun

end Alike
end Level

/-! ## The evaluation of straight expressions -/

/-- A straight expression is evaluated alike whether evaluation descends or not, where the depth
that it may nest to is enough for its height. -/
theorem agree_descendWithin (limits : Limits) (alarm : Fault) (levels skipped : Nat) {depth : Nat}
    {e : Value} (frame : FrameId) (he : e.Straight) (hdepth : e.height ≤ depth) :
    (descending frame).Agree (Both Straight) (evaluateWithin limits levels skipped e frame)
      (descendWithin limits alarm levels skipped depth e frame) := by
  induction levels generalizing skipped depth e with
  | zero => exact .throw_self nofun
  | succ levels ih =>
    cases skipped with
    | succ skipped => exact ih skipped he hdepth
    | zero =>
      cases depth with
      | zero => exact absurd e.height_pos (Nat.not_lt.2 hdepth)
      | succ depth =>
        -- Both go by the rules, which ask for parts only. These are lower, so less depth suffices.
        refine Level.Alike.step ⟨⟨Or.inl rfl, Or.inl rfl, Or.inl rfl⟩, fun more part hpart => ?_⟩ he
        dsimp only
        rw [if_pos ⟨hpart, rfl⟩]
        exact ih more (he.part hpart)
          (Nat.le_of_lt_succ (Nat.lt_of_lt_of_le (he.height_lt_of_mem_parts hpart) hdepth))

/-- Two runs beside each other are one, which does not end for the number of turns of a loop, has a
straight value if any, and keeps the bindings straight. -/
theorem eq_of_after_descending {frame : FrameId} {r s : Except Fault Value × Machine}
    (h : (descending frame).After (Both Straight) r s) :
    s = r ∧ r.1 ≠ .error .endless ∧ (∀ v, r.1 = .ok v → v.Straight) ∧ r.2.store.Straight frame := by
  obtain ⟨r, m⟩ := r
  obtain ⟨s, n⟩ := s
  rcases h with ⟨_, -, hnone⟩ | ⟨_, -, hnone⟩ | ⟨⟨rfl, hm⟩, hends⟩
  · exact hnone.elim
  · exact hnone.elim
  · cases hends with
    | value hv =>
      obtain ⟨rfl, hv⟩ := hv
      exact ⟨rfl, nofun, fun _ hw => Except.ok.inj hw ▸ hv, hm⟩
    | fault hf =>
      obtain ⟨rfl, hne⟩ := hf
      exact ⟨rfl, fun heq => hne (Except.error.inj heq), nofun, hm⟩

/-- The evaluation of a straight expression terminates where only straight values are bound. -/
theorem terminates_of_straight (limits : Limits) {e : Value} {frame : FrameId} {m : Machine}
    (he : e.Straight) (hm : m.store.Straight frame) : Terminates limits e frame m := by
  obtain ⟨enough, r, m', hrun, hr, -⟩ := he.convergesIn limits frame m hm
  cases hr with
  | @value v => exact ⟨enough, .ok v, m', nofun, nofun, hrun⟩
  | @fault f hdeep hendless =>
    exact ⟨enough, .error f, m', fun heq => hdeep (Except.error.inj heq),
      fun heq => hendless (Except.error.inj heq), hrun⟩

/-- Without loops and fexprs, evaluation ends. Let a frame and its ancestors bind names to straight
values only. Then the evaluation of a straight expression evaluates nothing but parts of it, parts
of these, and so on, in that frame and no deeper than the expression is high. With enough levels it
ends in a value or in an error, whatever the number of turns is that a loop may take. However many
levels there are, its value is straight if it has one, and the frame and its ancestors bind names to
straight values only. -/
theorem evaluation_descends (limits : Limits) (levels : Nat) {e : Value} {frame : FrameId}
    {m : Machine} (he : e.Straight) (hm : m.store.Straight frame) :
    Descends limits levels e frame m ∧ Terminates limits e frame m ∧
      (evaluateWithin limits levels 0 e frame m).1 ≠ .error .endless ∧
      (∀ v, (evaluateWithin limits levels 0 e frame m).1 = .ok v → v.Straight) ∧
      (evaluateWithin limits levels 0 e frame m).2.store.Straight frame := by
  have hafter (alarm : Fault) := eq_of_after_descending
    (agree_descendWithin limits alarm levels 0 frame he (Nat.le_refl e.height) m m ⟨rfl, hm⟩)
  exact ⟨fun alarm => (hafter alarm).1, terminates_of_straight limits he hm, (hafter .endless).2⟩

/-- In a frame of `let`, `list` and `car`, `(let 'f (list car))` descends and terminates; the frame
binds `f` to a list of a builtin then, and only straight values still. -/
theorem evaluation_descends_list_of_car :
    let e : Value := .list [.symbol "let", .quote (.symbol "f"),
      .list [.symbol "list", .symbol "car"] none] none
    let bindings : Bindings :=
      [("let", .builtin .letForm 0), ("list", .builtin .list 0), ("car", .builtin .car 0)]
    let m := { Machine.empty with store := Store.empty.root bindings }
    Descends {} 60 e 0 m ∧ Terminates {} e 0 m ∧
      (m.store.define 0 "f" (.list [.builtin .car 0] (some 0))).Straight 0 := by
  intro e bindings m
  have he : e.Straight := by
    have hquote : (Value.quote (.symbol "f")).Straight :=
      .node rfl (List.forall_mem_singleton.2 (.leaf rfl rfl))
    have hlist : (Value.list [.symbol "list", .symbol "car"] none).Straight :=
      .node rfl (List.forall_mem_cons.2 ⟨.leaf rfl rfl,
        List.forall_mem_singleton.2 (.leaf rfl rfl)⟩)
    exact .node rfl (List.forall_mem_cons.2 ⟨.leaf rfl rfl,
      List.forall_mem_cons.2 ⟨hquote, List.forall_mem_singleton.2 hlist⟩⟩)
  have hm : m.store.Straight 0 := by
    intro g hg x v hv
    obtain rfl : g = 0 := List.mem_singleton.1 hg
    have hget : bindings.get? x = some v := hv
    obtain ⟨pair, hpair, rfl⟩ := Option.map_eq_some_iff.1 hget
    have hmem := List.mem_of_find?_eq_some hpair
    simp only [bindings, List.mem_cons, List.not_mem_nil, or_false] at hmem
    rcases hmem with rfl | rfl | rfl <;> exact .leaf rfl rfl
  have hends := evaluation_descends {} 60 he hm
  exact ⟨hends.1, hends.2.1, hends.2.2.2.2⟩

end Fexpr
