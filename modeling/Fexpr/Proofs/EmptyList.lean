import Fexpr.Proofs.Correspondence
import Fexpr.Proofs.Store

/-!
# Lists without items

Nil is the empty list, and the only one that a program can read or make. A host may build trees with
lists that have no items, though. Evaluated, quoted and forced these are nil; but a name that stands
for a suspended one is that list itself, and so is the first item of a list if it is one.

Main statement: where nothing hands out a list without items in one of these two ways, no evaluation
has one as its value; and each of the two ways does hand out one.

An evaluation under guard stops where one is handed out (`guardedWithin`). Beside the evaluation
itself (`Comparison.guarding`) it shows that nothing else hands one out: none of the other builtins,
no fexpr, and nothing that is forced.
-/

namespace Fexpr

/-- Whether a value is a list without items. -/
def Value.isEmptyList : Value → Bool
  | .list [] _ => true
  | _ => false

namespace Value

theorem exists_of_isEmptyList {v : Value} (h : v.isEmptyList = true) :
    ∃ made, v = .list [] made := by
  unfold isEmptyList at h
  split at h
  · exact ⟨_, rfl⟩
  · cases h

theorem isEmptyList_eq_false {v : Value} (h : ∀ made, v ≠ .list [] made) : v.isEmptyList = false :=
  Bool.eq_false_iff.2 fun hv => (exists_of_isEmptyList hv).elim h

end Value

namespace Store

/-- No name is bound to a list without items. -/
def WithoutEmptyLists (s : Store) : Prop :=
  ∀ g x v, s.get? g x = some v → v.isEmptyList = false

namespace WithoutEmptyLists

variable {s t : Store} {g : FrameId} {x : String} {v : Value}

theorem define (h : s.WithoutEmptyLists) (g : FrameId) (x : String) (hv : v.isEmptyList = false) :
    (s.define g x v).WithoutEmptyLists := by
  intro f y w hw
  rw [get?_define] at hw
  split at hw
  · cases hw
    exact hv
  · exact h f y w hw

theorem defineAll {pairs : List (String × Value)} (h : s.WithoutEmptyLists) (g : FrameId)
    (hpairs : ∀ pair ∈ pairs, pair.2.isEmptyList = false) :
    (s.defineAll g pairs).WithoutEmptyLists := by
  induction pairs generalizing s with
  | nil => exact h
  | cons pair pairs ih =>
    rw [Store.defineAll, List.foldl_cons, ← Store.defineAll]
    obtain ⟨hpair, hothers⟩ := List.forall_mem_cons.1 hpairs
    exact ih (h.define g pair.1 hpair) hothers

theorem assign (h : s.WithoutEmptyLists) (hv : v.isEmptyList = false)
    (ht : s.assign? g x v = some t) : t.WithoutEmptyLists := by
  obtain ⟨f, -, -, rfl⟩ := exists_define_of_assign? ht
  exact h.define f x hv

theorem lookup (h : s.WithoutEmptyLists) (hx : s.lookup? g x = some v) :
    v.isEmptyList = false := by
  obtain ⟨f, -, hf⟩ := exists_get?_of_lookup? hx
  exact h f x v hf

end WithoutEmptyLists

theorem withoutEmptyLists_global : (empty.global []).WithoutEmptyLists := by
  intro g x v hv
  have hglobal : (globalBindings empty.next).get? x = some v ∨ empty.get? g x = some v := by
    rw [global, root, get?_push] at hv
    split at hv
    · exact Or.inl hv
    · exact Or.inr hv
  rcases hglobal with hv | hv
  · rcases builtin_or_t_of_get?_globalBindings hv with ⟨op, -, rfl⟩ | rfl <;> rfl
  · cases hv

end Store

/-! ## Evaluation under guard -/

namespace Level

/-- An expression hands out a list without items as it is: it is a name that stands for a suspended
one, or a call of `car` on a list whose first item is one. -/
def handsOutEmptyList (lv : Level) (expression : Value) (frame : FrameId) (m : Machine) : Bool :=
  match expression with
  | .symbol name =>
    match m.store.lookup? frame name with
    | some (.suspended e ..) => e.isEmptyList
    | _ => false
  | .list (head :: operands) _ =>
    match expression.render lv.room with
    | .ok text =>
      match (lv.deeper skippedByHead).evaluate head frame m with
      | (.ok (.builtin .car _), m) =>
        match (lv.deeper Builtin.car.skipped).operandItems .car { operands, frame, text } m with
        | (.ok items, _) => (items.headD .nil).isEmptyList
        | _ => false
      | _ => false
    | .error _ => false
  | _ => false

end Level

/-- Evaluates an expression in a frame, unless it, or one that is evaluated for it, hands out a list
without items: then it ends in the alarm. -/
def guardedWithin (limits : Limits) (alarm : Fault) : Nat → Nat → Value → FrameId → Eval Value
  | 0, _, _, _ => throw .tooDeep
  | levels + 1, skipped + 1, expression, frame =>
    guardedWithin limits alarm levels skipped expression frame
  | levels + 1, 0, expression, frame => do
    let lv : Level :=
      { below := guardedWithin limits alarm levels
        levels
        turns := limits.turns
        tracing := limits.tracing }
    if lv.handsOutEmptyList expression frame (← get) then throw alarm
    else lv.step expression frame

/-- In the course of an evaluation no expression hands out a list without items: it does not end in
the alarm, for an alarm that is no fault of its own. -/
def HandsOutNone (limits : Limits) (levels : Nat) (expression : Value) (frame : FrameId)
    (m : Machine) : Prop :=
  ∃ alarm, (guardedWithin limits alarm levels 0 expression frame m).1 ≠ .error alarm

/-- The level of guarded evaluations with a number of levels below. -/
def Limits.guardedLevel (limits : Limits) (alarm : Fault) (levels : Nat) : Level where
  below := guardedWithin limits alarm levels
  levels := levels
  turns := limits.turns
  tracing := limits.tracing

/-! ## What the guard leaves -/

/-- A value that is no list without items. -/
abbrev Value.NotEmpty (v : Value) : Prop := v.isEmptyList = false

open Comparison

open Value (NotEmpty)

/-- The builtins but `car` make no list without items, whatever the items of the lists are that they
go through. -/
theorem Value.closedOver_notEmpty : Value.ClosedOver NotEmpty fun _ => True where
  nil := rfl
  t := rfl
  number _ := rfl
  part _ := trivial
  list _ hne _ := Value.isEmptyList_eq_false fun _ heq => hne (Value.list.inj heq).1
  item _ _ := trivial

/-- An evaluation under guard beside the evaluation, on one machine that binds no name to a list
without items. Nothing is said where the guard ends in the alarm. -/
def Comparison.guarding (alarm : Fault) : Comparison where
  state m n := m = n ∧ m.store.WithoutEmptyLists
  fault := Eq
  excused₁ f := f = alarm
  excused₂ _ := False
  fault_refl _ := rfl
  nextId_eq h := by rw [h.1]
  count := by
    rintro m _ ⟨rfl, hm⟩
    exact ⟨rfl, hm⟩
  print := by
    rintro m _ ⟨rfl, hm⟩ output
    exact ⟨rfl, hm⟩

namespace Comparison.guarding

variable {α : Type} {alarm : Fault}

/-- Where the guard does not end in the alarm, the two are one evaluation, which binds no list
without items to a name and has a value as it should. -/
theorem alarm_or_eq_of_after {D : Value → Prop} {r s : Except Fault Value × Machine}
    (h : (guarding alarm).After (Both D) r s) :
    r.1 = .error alarm ∨ r = s ∧ s.2.store.WithoutEmptyLists ∧ ∀ v, s.1 = .ok v → D v := by
  obtain ⟨r, m⟩ := r
  obtain ⟨s, n⟩ := s
  rcases h with ⟨_, hr, rfl⟩ | ⟨_, -, hnone⟩ | ⟨⟨rfl, hm⟩, hends⟩
  · exact Or.inl hr
  · exact hnone.elim
  · cases hends with
    | value hv =>
      obtain ⟨rfl, hv⟩ := hv
      exact Or.inr ⟨rfl, hm, fun _ hw => Except.ok.inj hw ▸ hv⟩
    | fault hf =>
      obtain rfl := hf
      exact Or.inr ⟨rfl, hm, nofun⟩

/-- A computation beside itself, of which it is known what it does to the bindings and which values
it has. -/
theorem agree_self {x : Eval α} {P : α → Prop}
    (h : ∀ m, m.store.WithoutEmptyLists →
      (x m).2.store.WithoutEmptyLists ∧ ∀ a, (x m).1 = .ok a → P a) :
    (guarding alarm).Agree (fun a b => a = b ∧ P a) x x := by
  rintro m _ ⟨rfl, hm⟩
  obtain ⟨hstore, hvalue⟩ := h m hm
  refine Or.inr (Or.inr ⟨⟨rfl, hstore⟩, ?_⟩)
  cases hx : (x m).1 with
  | error fault => exact .fault rfl
  | ok a => exact .value ⟨rfl, hvalue a hx⟩

theorem agree_eq {x : Eval α}
    (h : ∀ m, m.store.WithoutEmptyLists → (x m).2.store.WithoutEmptyLists) :
    (guarding alarm).Agree Eq x x := by
  have hself : (guarding alarm).Agree (fun a b => a = b ∧ True) x x :=
    agree_self fun m hm => ⟨h m hm, fun _ _ => trivial⟩
  exact hself.mono fun _ _ hab => hab.1

theorem agree_value {v : Value} (hv : NotEmpty v) :
    (guarding alarm).Agree (Both NotEmpty) (pure v) (pure v) :=
  .pure ⟨rfl, hv⟩

theorem agree_define (frame : FrameId) (name : String) {v : Value} (hv : NotEmpty v) :
    (guarding alarm).Agree Eq (Eval.define frame name v) (Eval.define frame name v) :=
  agree_eq fun _ hm => hm.define frame name hv

theorem agree_defineAll (frame : FrameId) {pairs : List (String × Value)}
    (h : ∀ pair ∈ pairs, NotEmpty pair.2) :
    (guarding alarm).Agree Eq (Eval.defineAll frame pairs) (Eval.defineAll frame pairs) :=
  agree_eq fun _ hm => hm.defineAll frame h

theorem agree_assign (frame : FrameId) (name : String) {v : Value} (hv : NotEmpty v) :
    (guarding alarm).Agree Eq (Eval.assign frame name v) (Eval.assign frame name v) := by
  refine Agree.assign ?_
  rintro m _ ⟨rfl, hm⟩
  cases ht : m.store.assign? frame name v with
  | none => exact .none
  | some t => exact .some ⟨rfl, hm.assign hv ht⟩

theorem agree_suspend (expression : Value) (frame : FrameId) (sequence : Bool) :
    (guarding alarm).Agree (Both NotEmpty) (Eval.suspend expression frame sequence)
      (Eval.suspend expression frame sequence) :=
  agree_self fun _ hm => ⟨hm, fun _ hv => Except.ok.inj hv ▸ rfl⟩

/-- What an operand is suspended as is no list without items, though the operand may be one. -/
theorem agree_suspended (frame : FrameId) (operand : Value) :
    (guarding alarm).Agree (Both NotEmpty) (Level.suspend frame operand)
      (Level.suspend frame operand) := by
  unfold Level.suspend
  split
  next name =>
    have hlookup : (guarding alarm).Agree Eq (Eval.lookup? frame name) (Eval.lookup? frame name) :=
      agree_eq fun _ hm => hm
    refine hlookup.bind ?_
    rintro found _ rfl
    split
    · exact .pure ⟨rfl, rfl⟩
    · exact agree_suspend _ _ _
  · exact agree_suspend _ _ _

end Comparison.guarding

namespace Level

variable {alarm : Fault} {lv lv' : Level} {frame : FrameId} {c : Call}

/-- The first level is the second one under guard. -/
structure UnderGuard (alarm : Fault) (lv lv' : Level) : Prop where
  beside : (guarding alarm).Beside lv lv'
  below : ∀ more e frame,
    (guarding alarm).Agree (Both NotEmpty) (lv.below more e frame) (lv'.below more e frame)

namespace UnderGuard

variable (h : lv.UnderGuard alarm lv')

include h

theorem deeper (k : Nat) : (lv.deeper k).UnderGuard alarm (lv'.deeper k) :=
  ⟨h.beside.deeper k, fun more => h.below (k + more)⟩

theorem evaluate (e : Value) (frame : FrameId) :
    (guarding alarm).Agree (Both NotEmpty) (lv.evaluate e frame) (lv'.evaluate e frame) :=
  h.below 0 e frame

theorem operands (es : List Value) :
    List.Forall₂ ((guarding alarm).Operand NotEmpty lv lv' frame) es es :=
  List.forall₂_same.2 fun e _ => ⟨fun k => h.below k e frame, fun k => (h.beside.deeper k).trace e⟩

theorem calls (c : Call) : (guarding alarm).Calls NotEmpty lv lv' c c :=
  .intro h.beside (h.operands c.operands) fun _ => rfl

theorem sequence (frame : FrameId) (es : List Value) :
    (guarding alarm).Agree (Both NotEmpty) (lv.sequence frame es) (lv'.sequence frame es) :=
  Comparison.agree_sequence (h.operands es) Value.closedOver_notEmpty

/-! ## Builtins -/

theorem params (tree : Value) :
    (guarding alarm).Agree Eq (lv.params c tree) (lv'.params c tree) := by
  unfold Level.params
  cases Param.listOfTree tree with
  | ok params => exact .pure rfl
  | error fault =>
    cases fault with
    | duplicate x => exact .throw_self nofun
    | _ => exact agree_complaint h.beside (fun _ => rfl) _ _

theorem defun : (guarding alarm).Agree (Both NotEmpty) (lv.defun c) (lv'.defun c) := by
  unfold Level.defun
  split
  · split
    · refine (h.params _).bind ?_
      rintro params _ rfl
      refine Agree.freshId.bind ?_
      rintro id _ rfl
      exact (guarding.agree_define c.frame _ rfl).bind fun _ _ _ => guarding.agree_value rfl
    · exact agree_complaint h.beside (fun _ => rfl) _ _
  · exact .throw_self nofun

/-- Of the builtins, only `car` may hand out a list without items. -/
theorem applyBuiltin {op : Builtin} (hop : op ≠ .car) (c : Call) :
    (guarding alarm).Agree (Both NotEmpty) (lv.applyBuiltin op c) (lv'.applyBuiltin op c) := by
  by_cases hdefun : op = .defun
  · subst hdefun
    exact h.defun
  · exact (h.calls c).applyBuiltin_same Value.closedOver_notEmpty hdefun
      (fun heq => absurd heq hop) (fun _ => rfl) c.targets_any
      (fun x _ _ hv => guarding.agree_define c.frame x hv)
      fun _ x _ _ hv => guarding.agree_assign c.frame x hv

/-! ## Fexprs -/

theorem argument (frame : FrameId) (param : Param) (operand : Value) :
    (guarding alarm).Agree (Both NotEmpty) (lv.argument frame param operand)
      (lv'.argument frame param operand) := by
  unfold Level.argument
  split
  · exact guarding.agree_suspended frame operand
  · exact h.evaluate operand frame

theorem arguments (frame : FrameId) (params : List Param) (operands : List Value) :
    (guarding alarm).Agree (fun ps qs => ps = qs ∧ ∀ pair ∈ ps, NotEmpty pair.2)
      (lv.arguments frame params operands) (lv'.arguments frame params operands) := by
  induction params generalizing operands with
  | nil => exact .pure ⟨rfl, nofun⟩
  | cons param params ih =>
    cases operands with
    | nil => exact .pure ⟨rfl, nofun⟩
    | cons operand operands =>
      refine (h.argument frame param operand).bind ?_
      rintro v _ ⟨rfl, hv⟩
      refine (ih operands).bind ?_
      rintro pairs _ ⟨rfl, hpairs⟩
      exact .pure ⟨rfl, List.forall_mem_cons.2 ⟨hv, hpairs⟩⟩

theorem restArgument (frame : FrameId) (param : Param) (operands : List Value) :
    (guarding alarm).Agree (Both NotEmpty) (lv.restArgument frame param operands)
      (lv'.restArgument frame param operands) := by
  unfold Level.restArgument
  split
  · exact guarding.agree_suspend _ _ _
  · refine (agree_evaluateAll (h.operands operands) Value.closedOver_notEmpty).bind ?_
    rintro vs _ ⟨rfl, -⟩
    exact agree_makeList Value.closedOver_notEmpty fun _ _ => trivial

theorem applyFexpr (name : String) (params : List Param) (body : List Value) (c : Call) :
    (guarding alarm).Agree (Both NotEmpty) (lv.applyFexpr name params body c)
      (lv'.applyFexpr name params body c) := by
  unfold Level.applyFexpr
  dsimp only
  split
  · exact .throw_self nofun
  · refine (h.arguments _ _ _).bind ?_
    rintro fixed _ ⟨rfl, hfixed⟩
    -- With or without a parameter for the rest, all bindings are made at once and then the body
    -- runs.
    have hlast {extra : List (String × Value)} (hextra : ∀ pair ∈ extra, NotEmpty pair.2) :
        (guarding alarm).Agree (Both NotEmpty)
          (do Eval.defineAll c.frame (fixed ++ extra); lv.sequence c.frame body)
          (do Eval.defineAll c.frame (fixed ++ extra); lv'.sequence c.frame body) := by
      refine (guarding.agree_defineAll c.frame fun pair hpair => ?_).bind fun _ _ _ =>
        h.sequence _ _
      exact (List.mem_append.1 hpair).elim (hfixed pair) (hextra pair)
    cases Param.rest? params with
    | none => exact hlast nofun
    | some param =>
      refine (h.restArgument _ _ _).bind ?_
      rintro v _ ⟨rfl, hv⟩
      exact hlast (List.forall_mem_singleton.2 hv)

/-- Of the combiners, only `car` may hand out a list without items. -/
theorem apply {combiner : Value} (hcar : ∀ home, combiner ≠ .builtin .car home) (c : Call) :
    (guarding alarm).Agree (Both NotEmpty) (lv.apply combiner c) (lv'.apply combiner c) := by
  cases combiner with
  | builtin op home =>
    exact (h.deeper op.skipped).applyBuiltin (fun hop => hcar home (hop ▸ rfl)) c
  | raiser message id => exact .throw_self nofun
  | fexpr id name params body home =>
    exact (h.deeper skippedByFexpr).applyFexpr name params body c
  | _ => exact agree_complaint h.beside (fun _ => rfl) _ _

/-! ## Evaluation -/

theorem force (e : Value) (frame : FrameId) (sequence : Bool) :
    (guarding alarm).Agree (Both NotEmpty) (lv.force e frame sequence)
      (lv'.force e frame sequence) := by
  refine (h.beside.trace e).bind fun _ _ _ => ?_
  cases sequence with
  | false => exact h.evaluate e frame
  | true =>
    cases e with
    | list items made => exact h.sequence frame items
    | _ => exact guarding.agree_value rfl

variable {m : Machine} (hm : m.store.WithoutEmptyLists)

include hm

/-- A call under guard, unless it hands out a list without items. -/
theorem step_list {head : Value} {operands : List Value} {made : Option Nat}
    (hout : lv.handsOutEmptyList (.list (head :: operands) made) frame m = false) :
    (guarding alarm).After (Both NotEmpty) (lv.step (.list (head :: operands) made) frame m)
      (lv'.step (.list (head :: operands) made) frame m) := by
  have hwrite := h.beside.write (.list (head :: operands) made) m m ⟨rfl, hm⟩
  refine hwrite.bind fun text _ m₁ _ htext _ hsame hstate => ?_
  obtain rfl := hsame
  have hhead := (h.deeper skippedByHead).evaluate head frame _ _ hstate
  refine hhead.bind fun combiner _ m₂ _ hcombiner _ hboth hstate => ?_
  obtain ⟨rfl, -⟩ := hboth
  by_cases hcar : ∃ home, combiner = .builtin .car home
  · obtain ⟨home, rfl⟩ := hcar
    have hcalls := (h.deeper Builtin.car.skipped).calls ⟨operands, frame, text⟩
    refine (hcalls.operandItems Value.closedOver_notEmpty .car _ _ hstate).bind ?_
    intro items _ m₃ _ hitems _ hboth hstate
    obtain ⟨rfl, -⟩ := hboth
    -- The guard has looked at what the call does here.
    have hfirst : NotEmpty (items.headD .nil) := by
      cases hrender : (Value.list (head :: operands) made).render lv.room with
      | error fault =>
        rw [write_run_of_error hrender] at htext
        cases htext
      | ok text' =>
        rw [write_run hrender] at htext
        cases htext
        simpa only [handsOutEmptyList, hrender, hcombiner, hitems] using hout
    exact guarding.agree_value hfirst _ _ hstate
  · exact h.apply (fun home heq => hcar ⟨home, heq⟩) _ _ _ hstate

/-- The rules of the language under guard, for an expression that hands out no list without
items. -/
theorem step {e : Value} (hout : lv.handsOutEmptyList e frame m = false) :
    (guarding alarm).After (Both NotEmpty) (lv.step e frame m) (lv'.step e frame m) := by
  have value {v : Value} (hv : NotEmpty v) {n n' : Machine} (hn : (guarding alarm).state n n') :
      (guarding alarm).After (Both NotEmpty) ((pure v : Eval Value) n) ((pure v : Eval Value) n') :=
    guarding.agree_value hv n n' hn
  have hresolve (x : String) :
      (guarding alarm).After (Both fun v => m.store.lookup? frame x = some v ∧ NotEmpty v)
        (resolve frame x m) (resolve frame x m) := by
    unfold resolve
    rw [Eval.bind_run, Eval.lookup?_run]
    cases hx : m.store.lookup? frame x with
    | none => exact Or.inr (Or.inr ⟨⟨rfl, hm⟩, .fault rfl⟩)
    | some v => exact Or.inr (Or.inr ⟨⟨rfl, hm⟩, .value ⟨rfl, rfl, hm.lookup hx⟩⟩)
  cases e with
  | number | string | nil | builtin | raiser | fexpr => exact value rfl ⟨rfl, hm⟩
  | symbol x =>
    refine (hresolve x).bind fun v _ _ _ _ _ hv hstate => ?_
    obtain ⟨rfl, hx, hv⟩ := hv
    cases v with
    | suspended e home s id =>
      have he : NotEmpty e := by
        simpa only [handsOutEmptyList, hx] using hout
      exact value he hstate
    | _ => exact value hv hstate
  | quote body =>
    rcases step_quote body frame with ⟨made, rfl, -⟩ | ⟨hbody, hstep⟩
    · exact value rfl ⟨rfl, hm⟩
    · rw [hstep, hstep]
      exact value (Value.isEmptyList_eq_false hbody) ⟨rfl, hm⟩
  | unquote body =>
    cases body with
    | symbol x =>
      refine (hresolve x).bind fun v _ _ _ _ _ hv hstate => ?_
      obtain ⟨rfl, -, hv⟩ := hv
      cases v with
      | suspended e home s id => exact (h.deeper skippedByForcing).force e home s _ _ hstate
      | _ => exact value hv hstate
    | _ => exact (h.deeper skippedByUnquoting).evaluate _ frame m m ⟨rfl, hm⟩
  | list items made =>
    cases items with
    | nil => exact value rfl ⟨rfl, hm⟩
    | cons head operands => exact h.step_list hm hout
  | suspended | hostNumber | hostText =>
    rw [step_eq_needed lv _ frame rfl, step_eq_needed lv' _ frame rfl]
    refine (h.beside.constructorText _ m m ⟨rfl, hm⟩).bind fun text _ _ _ _ _ hsame hstate => ?_
    obtain rfl := hsame
    refine Agree.throw_self ?_ _ _ hstate
    exact nofun

end UnderGuard

/-- Where the guard sees it, a list without items is handed out. -/
theorem exists_step_of_handsOutEmptyList {lv : Level} {e : Value} {frame : FrameId} {m : Machine}
    (h : lv.handsOutEmptyList e frame m = true) :
    ∃ made m', lv.step e frame m = (.ok (.list [] made), m') := by
  unfold handsOutEmptyList at h
  split at h
  next x =>
    split at h
    next e home s id hx =>
      obtain ⟨made, rfl⟩ := Value.exists_of_isEmptyList h
      refine ⟨made, m, ?_⟩
      rw [Level.step, Eval.bind_run, resolve_run hx]
      rfl
    next => cases h
  next head operands made =>
    split at h
    next text htext =>
      split at h
      next home m₁ hhead =>
        split at h
        next items m₂ hitems =>
          obtain ⟨made', hfirst⟩ := Value.exists_of_isEmptyList h
          refine ⟨made', m₂, ?_⟩
          rw [step_list_run lv htext hhead]
          show ((lv.deeper Builtin.car.skipped).operandItems .car _ >>= fun items =>
            pure (items.headD .nil)) m₁ = _
          rw [Eval.bind_run, hitems]
          exact congrArg (fun v => (Except.ok v, m₂)) hfirst
        next => cases h
      next => cases h
    next => cases h
  next => cases h

end Level

/-- One level more evaluates an expression by the rules, unless it hands out a list without
items. -/
theorem guardedWithin_succ (limits : Limits) (alarm : Fault) (levels : Nat) (e : Value)
    (frame : FrameId) (m : Machine) :
    guardedWithin limits alarm (levels + 1) 0 e frame m =
      if (limits.guardedLevel alarm levels).handsOutEmptyList e frame m then (.error alarm, m)
      else (limits.guardedLevel alarm levels).step e frame m := by
  change (if (limits.guardedLevel alarm levels).handsOutEmptyList e frame m then throw alarm
    else (limits.guardedLevel alarm levels).step e frame : Eval Value) m = _
  split <;> rfl

/-- Evaluation under guard goes as evaluation does. -/
theorem agree_guardedWithin (limits : Limits) (alarm : Fault) (levels skipped : Nat) (e : Value)
    (frame : FrameId) :
    (guarding alarm).Agree (Both NotEmpty) (guardedWithin limits alarm levels skipped e frame)
      (evaluateWithin limits levels skipped e frame) := by
  induction levels generalizing skipped e frame with
  | zero => exact .throw_self nofun
  | succ levels ih =>
    cases skipped with
    | succ skipped => exact ih skipped e frame
    | zero =>
      rintro m _ ⟨rfl, hm⟩
      have hunder : (limits.guardedLevel alarm levels).UnderGuard alarm (limits.level levels) :=
        ⟨⟨Or.inl rfl, Or.inl rfl, Or.inl rfl⟩, ih⟩
      rw [guardedWithin_succ]
      cases hout : (limits.guardedLevel alarm levels).handsOutEmptyList e frame m with
      | true => exact Or.inl ⟨alarm, rfl, rfl⟩
      | false => exact hunder.step hm hout

/-- A suspended list without items is nil when it is forced, be it one operand or a sequence. -/
theorem evaluateWithin_unquote_emptyList {limits : Limits} {x : String} {made : Option Nat}
    {frame home : FrameId} {sequence : Bool} {id levels : Nat} {m : Machine}
    (hlevels : 5 ≤ levels)
    (hx : m.store.lookup? frame x = some (.suspended (.list [] made) home sequence id)) :
    evaluateWithin limits levels 0 (.unquote (.symbol x)) frame m = (.ok .nil, m) := by
  obtain ⟨levels, rfl⟩ := Nat.exists_eq_add_of_le' hlevels
  obtain ⟨room, hroom⟩ : ∃ room, (limits.level (levels + 2)).room = room + 1 := by
    refine Nat.exists_eq_succ_of_ne_zero ?_
    simp only [Level.room, Limits.level, roomOf]
    omega
  have htrace : (limits.level (levels + 2)).trace (.list [] made) m = (.ok (), m) := by
    have htext : (Value.list [] made).render (limits.level (levels + 2)).room = .ok "()" := by
      rw [hroom]
      rfl
    unfold Level.trace
    split
    · show ((limits.level (levels + 2)).write _ >>= fun _ => pure ()) m = _
      rw [Eval.bind_run, write_run htext]
      rfl
    · rfl
  rw [evaluateWithin_unquote (levels + 2) hx, Level.force, Eval.bind_run, htrace]
  cases sequence <;> rfl

/-! ## The one empty list -/

/-- From bindings none of which is a list without items, an evaluation has none as its value and
binds none to a name, if no expression that is evaluated hands one out: if no name stands for a
suspended one where it is evaluated, and `car` is called on no list whose first item is one. An
expression that does hand one out has it as its value; but a list without items that is evaluated,
quoted or forced is nil. -/
theorem evaluate_has_one_empty_list (limits : Limits) {expression : Value} {frame : FrameId}
    {m : Machine} (hm : m.store.WithoutEmptyLists) :
    (HandsOutNone limits limits.levels expression frame m →
      (∀ v, (evaluate limits expression frame m).1 = .ok v → v.isEmptyList = false) ∧
      (evaluate limits expression frame m).2.store.WithoutEmptyLists) ∧
    (∀ levels e g n, (limits.level levels).handsOutEmptyList e g n = true →
      ∃ made n', evaluateWithin limits (levels + 1) 0 e g n = (.ok (.list [] made), n')) ∧
    (∀ levels made g n,
      evaluateWithin limits (levels + 1) 0 (.list [] made) g n = (.ok .nil, n) ∧
      evaluateWithin limits (levels + 1) 0 (.quote (.list [] made)) g n = (.ok .nil, n)) ∧
    ∀ levels x made g home sequence id n, 5 ≤ levels →
      n.store.lookup? g x = some (.suspended (.list [] made) home sequence id) →
      evaluateWithin limits levels 0 (.unquote (.symbol x)) g n = (.ok .nil, n) := by
  refine ⟨?_, ?_, fun _ _ _ _ => ⟨rfl, rfl⟩, ?_⟩
  · rintro ⟨alarm, halarm⟩
    have hagree := agree_guardedWithin limits alarm limits.levels 0 expression frame m m ⟨rfl, hm⟩
    rcases guarding.alarm_or_eq_of_after hagree with hrun | ⟨-, hstore, hvalue⟩
    · exact absurd hrun halarm
    · exact ⟨hvalue, hstore⟩
  · intro levels e g n hout
    obtain ⟨made, n', hstep⟩ := Level.exists_step_of_handsOutEmptyList hout
    exact ⟨made, n', hstep⟩
  · intro _ _ _ _ _ _ _ _ hlevels hx
    exact evaluateWithin_unquote_emptyList hlevels hx

/-- The definition of a fexpr that takes one operand as it is, and has the body. -/
def takerForm (name param : String) (body : Value) : Value :=
  .list [.symbol "defun", .symbol name, .list [.quote (.symbol param)] none, body] none

/-- A fexpr that forces its operand, called on a list without items, hands out none: the list is
nil. -/
theorem forced_empty_list_is_nil :
    let fresh := { Machine.empty with store := Store.empty.global [] }
    let program := Value.list [.symbol "progn", takerForm "f" "x" (.unquote (.symbol "x")),
      .list [.symbol "f", .list [] none] none] none
    fresh.store.WithoutEmptyLists ∧ HandsOutNone {} 1400 program 0 fresh ∧
      (evaluate {} program 0 fresh).1 = .ok .nil ∧
      (evaluate {} program 0 fresh).2.store.WithoutEmptyLists := by
  intro fresh program
  have hnone : HandsOutNone {} 1400 program 0 fresh := by
    refine ⟨.endless, ?_⟩
    have hrun : (guardedWithin {} .endless 1400 0 program 0 fresh).1 = .ok .nil := rfl
    rw [hrun]
    nofun
  exact ⟨Store.withoutEmptyLists_global, hnone, rfl,
    ((evaluate_has_one_empty_list {} Store.withoutEmptyLists_global).1 hnone).2⟩

/-- In a new global frame, a fexpr that gives back the operand that it took as it is, and `car` of
a quoted list that holds a list without items, have a list without items as their values. -/
theorem empty_list_handed_out :
    let fresh := { Machine.empty with store := Store.empty.global [] }
    let program := Value.list [.symbol "progn", takerForm "f" "x" (.symbol "x"),
      .list [.symbol "f", .list [] none] none] none
    let first := Value.list [.symbol "car", .quote (.list [.list [] none] none)] none
    fresh.store.WithoutEmptyLists ∧
      (evaluate {} program 0 fresh).1 = .ok (.list [] none) ∧
      (evaluate {} first 0 fresh).1 = .ok (.list [] none) :=
  ⟨Store.withoutEmptyLists_global, rfl, rfl⟩

end Fexpr
