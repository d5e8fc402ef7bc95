import Fexpr.Proofs.Correspondence
import Fexpr.Proofs.Store

/-!
# Convergence

How an evaluation ends may depend on how many levels there are for it. It converges if it ends in
one way with all numbers from some on, and neither for the lack of levels nor for that of turns.
What evaluates one thing after another converges if all of these do (`Converges.bind`); there are
levels enough for any text (`Converges.write`). So convergence is a judgement of one run with every
number of levels (`convergence`).

What is evaluated for an expression is mostly part of it. Three things lead elsewhere: a suspended
operand that is forced, the body of a fexpr, and a loop, which evaluates its parts over and over. A
value that holds none of them, nor the means to make them, is straight.

Main statement: where only straight values are bound, the evaluation of a straight expression
converges to a straight value (`Value.Straight.convergesIn`).
-/

namespace Fexpr

/-! ## Straight values -/

namespace Value

/-- Neither a loop nor a fexpr, nor the builtin that makes fexprs, nor a suspended operand. -/
def isStraight : Value → Bool
  | .builtin .whileForm _ | .builtin .defun _ | .fexpr .. | .suspended .. => false
  | _ => true

/-- A value without any of these, in its parts either. -/
def Straight (v : Value) : Prop :=
  Every (fun w => w.isStraight = true) v

/-- Builtins that neither loop nor make fexprs make straight values from straight ones. -/
theorem closed_straight : Closed Straight where
  nil := .leaf rfl rfl
  t := .leaf rfl rfl
  number _ := .leaf rfl rfl
  list _ _ hitems := .node rfl hitems
  item hlist hv := hlist.item hv

/-- The parts of a straight value are not as high as that. -/
theorem Straight.height_lt_of_mem_parts {v w : Value} (h : v.Straight) (hw : w ∈ v.parts) :
    w.height < v.height := by
  cases v with
  | list items made => exact Nat.lt_succ_of_le (heightOfAll_le_iff.1 (Nat.le_refl _) w hw)
  | quote body | unquote body =>
    obtain rfl := List.mem_singleton.1 hw
    exact Nat.lt_succ_self _
  | fexpr | suspended => cases h.here
  | _ => cases hw

end Value

namespace Store

/-- Names are bound to straight values only, seen from a frame. -/
def Straight (s : Store) (frame : FrameId) : Prop :=
  ∀ g ∈ s.chain frame, ∀ x v, s.get? g x = some v → v.Straight

namespace Straight

variable {s t : Store} {frame g : FrameId} {x : String} {v : Value}

theorem define (h : s.Straight frame) (g : FrameId) (x : String) (hv : v.Straight) :
    (s.define g x v).Straight frame := by
  intro f hf y w hw
  rw [chain_define] at hf
  rw [get?_define] at hw
  split at hw
  · cases hw
    exact hv
  · exact h f hf y w hw

theorem assign (h : s.Straight frame) (hv : v.Straight) (ht : s.assign? g x v = some t) :
    t.Straight frame := by
  obtain ⟨f, -, -, rfl⟩ := exists_define_of_assign? ht
  exact h.define f x hv

theorem lookup (h : s.Straight frame) (hx : s.lookup? frame x = some v) : v.Straight := by
  obtain ⟨f, hf, hget⟩ := exists_get?_of_lookup? hx
  exact h f hf x v hget

end Straight
end Store

/-! ## Convergence -/

open Value (Straight)

/-- There is room for every height with levels enough. -/
theorem le_roomOf {height levels : Nat} (h : 2 * height ≤ levels) : height ≤ roomOf levels := by
  unfold roomOf
  omega

/-- An end in a value that meets a condition, or in a fault that more levels or turns would not have
averted. -/
inductive Finished {α : Type} (P : α → Prop) : Except Fault α → Prop
  | value {a : α} (h : P a) : Finished P (.ok a)
  | fault {f : Fault} (hdeep : f ≠ .tooDeep) (hendless : f ≠ .endless) : Finished P (.error f)

theorem Finished.mono {α : Type} {P Q : α → Prop} {r : Except Fault α} (hr : Finished P r)
    (h : ∀ a, P a → Q a) : Finished Q r := by
  cases hr with
  | value ha => exact .value (h _ ha)
  | fault hdeep hendless => exact .fault hdeep hendless

/-- A computation that is given a number of levels ends, from a machine that meets a condition, in
one way with all numbers from some on. The machine meets the condition then still. -/
def Converges {α : Type} (S : Machine → Prop) (P : α → Prop) (x : Nat → Eval α) : Prop :=
  ∀ m, S m → ∃ enough r m', (∀ levels ≥ enough, x levels m = (r, m')) ∧ Finished P r ∧ S m'

namespace Converges

variable {α β : Type} {S : Machine → Prop} {P : α → Prop} {Q : β → Prop} {x : Nat → Eval α}

/-- What takes no levels converges if it finishes. -/
theorem const {y : Eval α} (h : ∀ m, S m → Finished P (y m).1 ∧ S (y m).2) :
    Converges S P fun _ => y :=
  fun m hm => ⟨0, (y m).1, (y m).2, fun _ _ => rfl, h m hm⟩

theorem pure {a : α} (ha : P a) : Converges S P fun _ => Pure.pure a :=
  .const fun _ hm => ⟨.value ha, hm⟩

theorem throw {f : Fault} (hdeep : f ≠ .tooDeep) (hendless : f ≠ .endless) :
    Converges S P fun _ => (MonadExcept.throw f : Eval α) :=
  .const fun _ hm => ⟨.fault hdeep hendless, hm⟩

theorem fail (c : Call) (cause : Cause) : Converges S P fun _ => (c.fail cause : Eval α) :=
  .throw nofun nofun

theorem bind {f : α → Nat → Eval β} (hx : Converges S P x) (hf : ∀ a, P a → Converges S Q (f a)) :
    Converges S Q fun levels => x levels >>= fun a => f a levels := by
  intro m hm
  obtain ⟨enough, r, m₁, hrun, hr, hm₁⟩ := hx m hm
  cases hr with
  | fault hdeep hendless =>
    refine ⟨enough, _, m₁, fun levels hle => ?_, .fault hdeep hendless, hm₁⟩
    dsimp only
    rw [Eval.bind_run, hrun levels hle]
  | @value a ha =>
    obtain ⟨enough', r', m', hrun', hr', hm'⟩ := hf a ha m₁ hm₁
    -- Both parts have their levels with the larger number.
    refine ⟨max enough enough', r', m', fun levels hle => ?_, hr', hm'⟩
    dsimp only
    rw [Eval.bind_run, hrun levels (Nat.le_trans (Nat.le_max_left _ _) hle)]
    exact hrun' levels (Nat.le_trans (Nat.le_max_right _ _) hle)

theorem mono {R : α → Prop} (hx : Converges S P x) (h : ∀ a, P a → R a) : Converges S R x := by
  intro m hm
  obtain ⟨enough, r, m', hrun, hr, hm'⟩ := hx m hm
  exact ⟨enough, r, m', hrun, hr.mono h, hm'⟩

/-- With some levels less, a computation converges as well. -/
theorem deeper (hx : Converges S P x) (k : Nat) :
    Converges S P fun levels => x (levels - k) := by
  intro m hm
  obtain ⟨enough, r, m', hrun, hr⟩ := hx m hm
  exact ⟨enough + k, r, m', fun levels hle => hrun _ (Nat.le_sub_of_add_le hle), hr⟩

/-- A computation converges if it does with one level more. -/
theorem of_succ (hx : Converges S P fun levels => x (levels + 1)) : Converges S P x := by
  intro m hm
  obtain ⟨enough, r, m', hrun, hr⟩ := hx m hm
  refine ⟨enough + 1, r, m', fun levels hle => ?_, hr⟩
  obtain ⟨levels, rfl⟩ := Nat.exists_eq_add_of_le' (Nat.one_le_of_lt hle)
  exact hrun levels (Nat.le_of_succ_le_succ hle)

/-! ## Texts -/

/-- What is found in some room, and in more room as well, is found in the room that levels leave. -/
theorem needed (find : Nat → Except TextFault α) {height : Nat}
    (hfind : find height ≠ .error .tooDeep)
    (hdeepens : ∀ {room}, height ≤ room → Deepens (find height) (find room)) :
    Converges S (fun _ => True) fun levels => Comparison.needed (find (roomOf levels)) := by
  -- From here on the room exceeds the height, and no more is found in it.
  have heq {levels : Nat} (hle : levels ≥ 2 * height) : find (roomOf levels) = find height :=
    ((hdeepens (le_roomOf hle)).resolve_left hfind).symm
  intro m hm
  cases htext : find height with
  | ok a =>
    refine ⟨2 * height, .ok a, m, fun levels hle => ?_, .value trivial, hm⟩
    dsimp only
    rw [heq hle, htext]
    rfl
  | error fault =>
    refine ⟨2 * height, .error fault.toFault, m, fun levels hle => ?_, ?_, hm⟩
    · dsimp only
      rw [heq hle, htext]
      rfl
    · cases fault with
      | tooLong => exact .fault nofun nofun
      | tooDeep => exact absurd htext hfind

variable {limits : Limits}

theorem write (v : Value) :
    Converges S (fun _ => True) fun levels => (limits.level levels).write v := by
  simp only [Comparison.write_eq_needed]
  exact needed (fun room => v.render room) (Value.render_ne_tooDeep (Nat.le_refl v.height))
    fun hle => Value.render_deepens hle v

theorem trace (v : Value) :
    Converges S (fun _ => True) fun levels => (limits.level levels).trace v := by
  unfold Level.trace
  change Converges S _ fun levels => if limits.tracing = true then _ else _
  cases limits.tracing with
  | false => exact .pure trivial
  | true => exact (write v).bind fun _ _ => .pure trivial

theorem constructorText (v : Value) :
    Converges S (fun _ => True) fun levels =>
      Comparison.needed (v.constructorText (limits.level levels).room) :=
  needed (fun room => v.constructorText room)
    (Value.constructorText_ne_tooDeep (Nat.le_refl v.height))
    fun hle => Value.constructorText_deepens hle v

theorem allSame? (first : Value) (others : List Value) :
    Converges S (fun _ => True) fun levels =>
      match Value.allSame? (limits.level levels).room first others with
      | some answer => (Pure.pure answer : Eval Bool)
      | none => MonadExcept.throw .tooDeep := by
  have hanswer : Comparison.orTooDeep (Value.allSame? (Value.heightOfAll others) first others) ≠
      .error .tooDeep := by
    cases heq : Value.allSame? (Value.heightOfAll others) first others with
    | none => exact absurd heq (Value.allSame?_ne_none (Nat.le_refl _) first)
    | some answer => nofun
  have heq (levels : Nat) :
      (match Value.allSame? (limits.level levels).room first others with
        | some answer => (Pure.pure answer : Eval Bool)
        | none => MonadExcept.throw .tooDeep) =
      Comparison.needed (Comparison.orTooDeep
        (Value.allSame? (limits.level levels).room first others)) := by
    cases Value.allSame? (limits.level levels).room first others <;> rfl
  rw [funext heq]
  exact needed (fun room => Comparison.orTooDeep (Value.allSame? room first others)) hanswer
    fun hle => Comparison.orTooDeep_deepens (Value.allSame?_deepens hle first others)

/-- Complaining of a value ends in an error. -/
theorem complaint (c : Call) (cause : String → Cause) (v : Value) :
    Converges S P fun levels =>
      (limits.level levels).write v >>= fun got => (c.fail (cause got) : Eval α) :=
  (write v).bind fun _ _ => .fail c _

end Converges

/-! ## Builtins -/

/-- From straight bindings, a computation converges to a straight value. -/
abbrev ConvergesStraight (frame : FrameId) (x : Nat → Eval Value) : Prop :=
  Converges (·.store.Straight frame) Straight x

/-- From straight bindings, the evaluation of an expression converges to a straight value. -/
def Value.ConvergesIn (limits : Limits) (frame : FrameId) (e : Value) : Prop :=
  ConvergesStraight frame fun levels => (limits.level levels).evaluate e frame

/-- All operands of a call converge. -/
def Call.Converging (limits : Limits) (c : Call) : Prop :=
  ∀ e ∈ c.operands, e.ConvergesIn limits c.frame

namespace Converges

variable {limits : Limits} {frame : FrameId} {es : List Value}

theorem makeList {vs : List Value} (hvs : ∀ v ∈ vs, v.Straight) :
    ConvergesStraight frame fun _ => Eval.makeList vs := by
  cases vs with
  | nil => exact .pure Value.closed_straight.nil
  | cons v vs =>
    refine .const fun m hm => ⟨.value ?_, hm⟩
    exact Value.closed_straight.list m.nextId (List.cons_ne_nil v vs) hvs

theorem printLine (text : String) :
    Converges (·.store.Straight frame) (fun _ => True) fun _ => Eval.printLine text :=
  .const fun _ hm => ⟨.value trivial, hm⟩

theorem define (x : String) {v : Value} (hv : v.Straight) :
    Converges (·.store.Straight frame) (fun _ => True) fun _ => Eval.define frame x v :=
  .const fun _ hm => ⟨.value trivial, hm.define frame x hv⟩

theorem assign (x : String) {v : Value} (hv : v.Straight) :
    Converges (·.store.Straight frame) (fun _ => True) fun _ => Eval.assign frame x v := by
  refine .const fun m hm => ?_
  cases ht : m.store.assign? frame x v with
  | none =>
    rw [Eval.assign_run_of_none ht]
    exact ⟨.value trivial, hm⟩
  | some t =>
    rw [Eval.assign_run_of_some ht]
    exact ⟨.value trivial, hm.assign hv ht⟩

theorem resolve (x : String) : ConvergesStraight frame fun _ => Level.resolve frame x := by
  refine .const fun m hm => ?_
  cases hx : m.store.lookup? frame x with
  | some v =>
    rw [resolve_run hx]
    exact ⟨.value (hm.lookup hx), hm⟩
  | none =>
    unfold Level.resolve
    rw [Eval.bind_run, Eval.lookup?_run, hx]
    exact ⟨.fault nofun nofun, hm⟩

end Converges

/-- Convergence to straight values, from straight bindings. -/
def convergence (frame : FrameId) : Judgement Unit Nat OneWorld where
  Holds _ Q x := Converges (·.store.Straight frame) (fun a => Q .only fun _ => a) (x ())
  value _ v := (v ()).Straight
  item _ v := (v ()).Straight
  pure h := .pure h
  bind hx hf := hx.bind fun a ha => hf .only (fun _ => a) le_rfl ha
  error _ := .throw nofun nofun
  value_mono _ hv := hv
  item_of_value hv := hv
  madeAlike hv := .single fun _ _ hlist _ hw => Value.closed_straight.item (hlist ▸ hv) hw
  nil _ := Value.closed_straight.nil
  t _ := Value.closed_straight.t
  number _ n := Value.closed_straight.number n
  makeList hvs := .makeList (List.forall_mem_map.2 hvs)
  printLine text := .printLine text

/-- Texts are found with levels enough, and so is whether values are equal. -/
theorem judgesTexts_convergence (limits : Limits) (frame : FrameId) :
    (convergence frame).JudgesTexts fun _ levels => limits.level levels where
  write _ := (Converges.write _).mono fun text _ => ⟨text, rfl⟩
  trace _ := .trace _
  allSame _ _ := (Converges.allSame? _ _).mono fun answer _ => ⟨answer, rfl⟩

namespace Call.Converging

variable {limits : Limits} {c : Call} (h : c.Converging limits)

include h

theorem judgesCalls :
    (convergence c.frame).JudgesCalls (fun _ levels => limits.level levels) .only (.same c) :=
  ⟨judgesTexts_convergence limits c.frame,
    forall_mem_sameRow.2 fun e he => ⟨fun _ => h e he, fun _ => .trace e⟩,
    fun cause => .fail c cause⟩

theorem applyBuiltin {op : Builtin} {home : FrameId}
    (hop : (Value.builtin op home).isStraight = true) :
    ConvergesStraight c.frame fun levels => (limits.level levels).applyBuiltin op c := by
  have hbinding : (convergence c.frame).JudgesBinding op (.same c) fun _ => True :=
    ⟨Judgement.names_same (fun _ _ _ _ => trivial) fun _ => trivial,
      fun _ _ x _ _ hv => .define x hv,
      fun _ _ x _ _ hv => (Converges.assign x hv).mono fun assigned _ => ⟨assigned, rfl⟩⟩
  have hbuiltin : (convergence c.frame).Holds .only (convergence c.frame).value fun _ levels =>
      (limits.level levels).applyBuiltin op ((CallFamily.same c).inRun ()) := by
    refine h.judgesCalls.applyBuiltin ?_ (fun _ => rfl) ?_ fun _ => hbinding
    · rintro rfl
      cases hop
    · rintro rfl
      cases hop
  simp only [CallFamily.inRun_same] at hbuiltin
  exact hbuiltin

theorem apply {combiner : Value} (hcombiner : combiner.Straight) :
    ConvergesStraight c.frame fun levels => (limits.level levels).apply combiner c := by
  cases combiner with
  | builtin op home =>
    unfold Level.apply
    simp only [Limits.deeper_level]
    exact (h.applyBuiltin hcombiner.here).deeper op.skipped
  | raiser message id => exact .throw nofun nofun
  | fexpr => cases hcombiner.here
  | _ => exact .complaint _ _ _

end Call.Converging

/-- A straight expression converges if its parts do. -/
theorem Converges.step {limits : Limits} {frame : FrameId} {e : Value} (he : e.Straight)
    (h : ∀ part ∈ e.parts, part.ConvergesIn limits frame) :
    ConvergesStraight frame fun levels => (limits.level levels).step e frame := by
  cases e with
  | number | string | nil | builtin | raiser => exact .pure he
  | fexpr | suspended => cases he.here
  | symbol x =>
    refine (Converges.resolve x).bind fun v hv => ?_
    cases v with
    | suspended => cases hv.here
    | _ => exact .pure hv
  | quote body =>
    rcases Level.step_quote body frame with ⟨made, rfl, -⟩ | ⟨-, hstep⟩
    · exact .pure Value.closed_straight.nil
    · simp only [hstep]
      exact .pure he.quoted
  | unquote body =>
    have hbody : body.ConvergesIn limits frame := h body (List.mem_singleton.2 rfl)
    cases body with
    | symbol x =>
      refine (Converges.resolve x).bind fun v hv => ?_
      cases v with
      | suspended => cases hv.here
      | _ => exact .pure hv
    | _ =>
      unfold Level.step
      simp only [Limits.deeper_level]
      exact hbody.deeper Level.skippedByUnquoting
  | list items made =>
    cases items with
    | nil => exact .pure Value.closed_straight.nil
    | cons head operands =>
      obtain ⟨hhead, hoperands⟩ := List.forall_mem_cons.1 h
      unfold Level.step
      simp only [Limits.deeper_level]
      refine (Converges.write _).bind fun text _ => ?_
      refine (hhead.deeper Level.skippedByHead).bind fun combiner hcombiner => ?_
      exact Call.Converging.apply (c := ⟨operands, frame, text⟩) hoperands hcombiner
  | hostNumber | hostText =>
    rw [funext fun levels => Level.step_eq_needed (limits.level levels) _ frame rfl]
    exact (Converges.constructorText _).bind fun _ _ => .throw nofun nofun

/-- A straight expression converges. -/
theorem Value.Straight.convergesIn {e : Value} (he : e.Straight) (limits : Limits)
    (frame : FrameId) : e.ConvergesIn limits frame := by
  -- The parts of an expression are evaluated on lower levels; that there are enough for each of
  -- them on any machine is what the induction gives.
  induction e using Value.induction_parts with
  | step e ih => exact .of_succ (.step he fun part hpart => ih part hpart (he.part hpart))

end Fexpr
