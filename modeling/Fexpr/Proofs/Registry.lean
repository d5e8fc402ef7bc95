import Mathlib.Order.Basic
import Fexpr.Proofs.Judgement.Builtins
import Fexpr.Proofs.ReadBack

/-!
# One thing for each number

A list that was not read, a combiner of a program and a suspended operand bear the number under
which they were made. A `Registry` has all things made so far in the places of their numbers. A
value is registered (`Registry.Has`) if whatever in it bears a number is what the registry has in
that place: so of all that is registered, what bears one number is one thing.

A registry grows as things are made. `Eval.Registers` says of a computation that, from a machine
that binds names to registered values, it leads to one that binds them to values that are registered
by then, and has itself a value of which something holds by then. It has a rule for each way to
build a computation, and so it is a judgement of one run, with registries for worlds
(`registration`).

Main statement: whatever is evaluated, registered before, registers what it makes and has a
registered value (`registers_evaluateWithin`). So a registry holds the machine whatever sources were
run (`AfterSources.exists_holds`).
-/

namespace Fexpr

/-! ## Registries -/

/-- What has been made so far, each thing in the place of its number. -/
structure Registry where
  /-- Lists and combiners. -/
  made : List Value
  /-- Suspended operands. -/
  suspended : List Value

namespace Registry

/-- One registry goes on from another. -/
instance : Preorder Registry where
  le R S := R.made <+: S.made ∧ R.suspended <+: S.suspended
  le_refl _ := ⟨List.prefix_rfl, List.prefix_rfl⟩
  le_trans _ _ _ h h' := ⟨h.1.trans h'.1, h.2.trans h'.2⟩

/-- The registry before anything is made. -/
def empty : Registry := ⟨[], []⟩

/-- What a registry has for a value: what it has in the place of its number, or the value itself if
it has none. -/
def recorded? (R : Registry) : Value → Option Value
  | .list _ (some n) | .raiser _ n | .fexpr n .. => R.made[n]?
  | .suspended _ _ _ n => R.suspended[n]?
  | v => some v

/-- Whatever in the value bears a number is what the registry has in that place. -/
def Has (R : Registry) (v : Value) : Prop :=
  v.Every fun w => R.recorded? w = some w

/-- All values of a row are registered. -/
def HasAll (R : Registry) (vs : List Value) : Prop :=
  ∀ v ∈ vs, R.Has v

variable {R S : Registry} {v w : Value} {vs : List Value}

/-! ## What is registered -/

/-- What a registry has, those that go on from it have too. -/
theorem recorded?_mono (h : R ≤ S) (hv : R.recorded? v = some w) : S.recorded? v = some w := by
  have keeps {xs ys : List Value} (h : xs <+: ys) {n : Nat} (hn : xs[n]? = some w) :
      ys[n]? = some w := by
    obtain ⟨more, rfl⟩ := h
    rw [List.getElem?_append_left (List.getElem?_eq_some_iff.1 hn).1]
    exact hn
  cases v with
  | list items made =>
    cases made with
    | none => exact hv
    | some n => exact keeps h.1 hv
  | raiser | fexpr => exact keeps h.1 hv
  | suspended => exact keeps h.2 hv
  | _ => exact hv

theorem Has.mono (hv : R.Has v) (h : R ≤ S) : S.Has v :=
  Value.Every.mono (fun _ hw => recorded?_mono h hw) hv

theorem HasAll.mono (hvs : R.HasAll vs) (h : R ≤ S) : S.HasAll vs :=
  fun v hv => (hvs v hv).mono h

/-- The items of a registered list are registered. -/
theorem Has.items {made : Option Nat} (h : R.Has (.list vs made)) : R.HasAll vs :=
  fun _ hw => h.item hw

/-- Two registered values of which a registry has the same are the same. -/
theorem Has.eq_of_recorded?_eq (hv : R.Has v) (hw : R.Has w)
    (h : R.recorded? v = R.recorded? w) : v = w :=
  Option.some.inj (hv.here.symm.trans (h.trans hw.here))

theorem has_nil : R.Has .nil :=
  .leaf rfl rfl

theorem has_number (n : Int) : R.Has (.number n) :=
  .leaf rfl rfl

theorem has_symbol (x : String) : R.Has (.symbol x) :=
  .leaf rfl rfl

theorem has_builtin (op : Builtin) (home : FrameId) : R.Has (.builtin op home) :=
  .leaf rfl rfl

/-- A list that bears no number is registered with its items. -/
theorem has_list (h : R.HasAll vs) : R.Has (.list vs none) :=
  .node rfl h

theorem has_quote (h : R.Has v) : R.Has (.quote v) :=
  .node rfl fun _ hw => List.mem_singleton.1 hw ▸ h

theorem has_ofItems (h : R.HasAll vs) : R.Has (.ofItems vs) := by
  cases vs with
  | nil => exact has_nil
  | cons v vs => exact has_list h

theorem hasAll_cons : R.HasAll (v :: vs) ↔ R.Has v ∧ R.HasAll vs :=
  List.forall_mem_cons

/-! ## What is made -/

/-- The registry with one more list or combiner. -/
def withMade (R : Registry) (v : Value) : Registry :=
  { R with made := R.made ++ [v] }

/-- The registry with one more suspended operand. -/
def withSuspended (R : Registry) (v : Value) : Registry :=
  { R with suspended := R.suspended ++ [v] }

theorem le_withMade (R : Registry) (v : Value) : R ≤ R.withMade v :=
  ⟨List.prefix_append _ _, List.prefix_rfl⟩

theorem le_withSuspended (R : Registry) (v : Value) : R ≤ R.withSuspended v :=
  ⟨List.prefix_rfl, List.prefix_append _ _⟩

/-- A thing made under the next number is registered where it is made, if its parts are. -/
theorem has_withMade (hrecorded : (R.withMade v).recorded? v = (R.withMade v).made[R.made.length]?)
    (hparts : R.HasAll v.parts) : (R.withMade v).Has v := by
  refine .node ?_ (hparts.mono (R.le_withMade v))
  rw [hrecorded]
  exact List.getElem?_concat_length

theorem has_withSuspended {e : Value} (he : R.Has e) (frame : FrameId) (sequence : Bool) :
    let v := Value.suspended e frame sequence R.suspended.length
    (R.withSuspended v).Has v := by
  intro v
  refine .node List.getElem?_concat_length fun w hw => ?_
  obtain rfl := List.mem_singleton.1 hw
  exact he.mono (R.le_withSuspended v)

/-! ## Machines -/

/-- A machine has made what the registry has, and binds names to nothing else. -/
structure Holds (R : Registry) (m : Machine) : Prop where
  nextId_eq : m.nextId = R.made.length
  nextSuspension_eq : m.nextSuspension = R.suspended.length
  bound : ∀ g x v, m.store.get? g x = some v → R.Has v

namespace Holds

variable {m : Machine} {g : FrameId} {x : String} {pairs : Bindings}

theorem lookup (h : R.Holds m) (hx : m.store.lookup? g x = some v) : R.Has v := by
  obtain ⟨f, -, hf⟩ := Store.exists_get?_of_lookup? hx
  exact h.bound f x v hf

theorem define (h : R.Holds m) (g : FrameId) (x : String) (hv : R.Has v) :
    R.Holds { m with store := m.store.define g x v } := by
  refine ⟨h.nextId_eq, h.nextSuspension_eq, fun f y w hw => ?_⟩
  rw [Store.get?_define] at hw
  split at hw
  · cases hw
    exact hv
  · exact h.bound f y w hw

theorem defineAll (h : R.Holds m) (g : FrameId) (hpairs : ∀ pair ∈ pairs, R.Has pair.2) :
    R.Holds { m with store := m.store.defineAll g pairs } := by
  induction pairs generalizing m with
  | nil => exact h
  | cons pair pairs ih =>
    obtain ⟨hpair, hpairs⟩ := List.forall_mem_cons.1 hpairs
    exact ih (h.define g pair.1 hpair) hpairs

theorem assign (h : R.Holds m) (hv : R.Has v) {t : Store}
    (ht : m.store.assign? g x v = some t) : R.Holds { m with store := t } := by
  obtain ⟨f, -, -, rfl⟩ := Store.exists_define_of_assign? ht
  exact h.define f x hv

end Holds
end Registry

/-! ## Computations -/

/-- From a machine that a registry holds, a computation leads to one that a registry holds that goes
on from there, and if it has a value, it is one that meets a condition there. -/
def Eval.Registers {α : Type} (R : Registry) (Q : Registry → α → Prop) (x : Eval α) : Prop :=
  ∀ m, R.Holds m → ∃ S, R ≤ S ∧ S.Holds (x m).2 ∧ ∀ a, (x m).1 = .ok a → Q S a

namespace Eval.Registers

variable {α β : Type} {R : Registry} {Q : Registry → α → Prop} {Q' : Registry → β → Prop}
  {x : Eval α} {v e : Value} {frame : FrameId}

theorem pure {a : α} (h : Q R a) : Registers R Q (Pure.pure a) := by
  refine fun m hm => ⟨R, le_rfl, hm, fun b hb => ?_⟩
  cases hb
  exact h

theorem throw (fault : Fault) : Registers R Q (MonadExcept.throw fault) :=
  fun _ hm => ⟨R, le_rfl, hm, nofun⟩

theorem fail (c : Call) (cause : Cause) : Registers R Q (c.fail cause) :=
  throw _

theorem bind {f : α → Eval β} (hx : Registers R Q x)
    (hf : ∀ S a, R ≤ S → Q S a → Registers S Q' (f a)) : Registers R Q' (x >>= f) := by
  intro m hm
  obtain ⟨S, hRS, hS, hvalue⟩ := hx m hm
  rw [bind_run]
  rcases hrun : x m with ⟨fault | a, m'⟩ <;> rw [hrun] at hS hvalue
  · exact ⟨S, hRS, hS, nofun⟩
  · obtain ⟨T, hST, hT⟩ := hf S a hRS (hvalue a rfl) m' hS
    exact ⟨T, hRS.trans hST, hT⟩

theorem mono (hx : Registers R Q x) {Q' : Registry → α → Prop} (h : ∀ S a, Q S a → Q' S a) :
    Registers R Q' x := by
  intro m hm
  obtain ⟨S, hle, hS, hvalue⟩ := hx m hm
  exact ⟨S, hle, hS, fun a ha => h S a (hvalue a ha)⟩

/-- What changes nothing makes nothing. -/
theorem of_unchanged (h : ∀ m, (x m).2 = m) : Registers R (fun _ _ => True) x := by
  refine fun m hm => ⟨R, le_rfl, ?_, fun _ _ => trivial⟩
  rw [h]
  exact hm

theorem write (lv : Level) (v : Value) : Registers R (fun _ _ => True) (lv.write v) := by
  refine of_unchanged fun m => ?_
  unfold Level.write
  cases v.render lv.room <;> rfl

theorem trace (lv : Level) (v : Value) : Registers R (fun _ _ => True) (lv.trace v) := by
  unfold Level.trace
  split
  · exact (write lv v).bind fun _ _ _ _ => pure trivial
  · exact pure trivial

/-- What is no value of the kind wanted is named in an error. -/
theorem complaint (lv : Level) (c : Call) (cause : String → Cause) (v : Value) :
    Registers R Q (lv.write v >>= fun got => c.fail (cause got)) :=
  (write lv v).bind fun _ _ _ _ => fail c _

/-! ### Things that are made -/

/-- A thing is made under the next number, and the computation goes on with it. -/
theorem freshId {f : Nat → Eval α} (thing : Nat → Value)
    (hrecorded : ∀ (S : Registry) n, S.recorded? (thing n) = S.made[n]?)
    (hparts : ∀ n, R.HasAll (thing n).parts)
    (hf : ∀ S n, R ≤ S → S.Has (thing n) → Registers S Q (f n)) :
    Registers R Q (Eval.freshId >>= f) := by
  intro m hm
  let v := thing R.made.length
  have hv : (R.withMade v).Has v := Registry.has_withMade (hrecorded _ _) (hparts _)
  have hcounted : (R.withMade v).Holds { m with nextId := m.nextId + 1 } := by
    refine ⟨?_, hm.nextSuspension_eq, fun g x w hw => (hm.bound g x w hw).mono (R.le_withMade v)⟩
    change m.nextId + 1 = (R.made ++ [v]).length
    rw [List.length_append, hm.nextId_eq, List.length_singleton]
  obtain ⟨S, hS, hend⟩ := hf (R.withMade v) _ (R.le_withMade v) hv _ hcounted
  have hrun : (Eval.freshId >>= f) m = f R.made.length { m with nextId := m.nextId + 1 } :=
    congrArg (fun n => f n { m with nextId := m.nextId + 1 }) hm.nextId_eq
  rw [hrun]
  exact ⟨S, (R.le_withMade v).trans hS, hend⟩

theorem makeList {vs : List Value} (h : R.HasAll vs) :
    Registers R Registry.Has (Eval.makeList vs) := by
  cases vs with
  | nil => exact pure Registry.has_nil
  | cons w ws =>
    exact freshId (fun n => .list (w :: ws) (some n)) (fun _ _ => rfl) (fun _ => h)
      fun _ _ _ hlist => pure hlist

theorem suspend (he : R.Has e) (frame : FrameId) (sequence : Bool) :
    Registers R Registry.Has (Eval.suspend e frame sequence) := by
  intro m hm
  let v := Value.suspended e frame sequence R.suspended.length
  have hv : (R.withSuspended v).Has v := Registry.has_withSuspended he frame sequence
  refine ⟨R.withSuspended v, R.le_withSuspended v, ⟨hm.nextId_eq, ?_, fun g x w hw => ?_⟩, ?_⟩
  · change m.nextSuspension + 1 = (R.suspended ++ [v]).length
    rw [List.length_append, hm.nextSuspension_eq, List.length_singleton]
  · exact (hm.bound g x w hw).mono (R.le_withSuspended v)
  · intro w hw
    have heq : Value.suspended e frame sequence m.nextSuspension = w := Except.ok.inj hw
    rw [hm.nextSuspension_eq] at heq
    exact heq ▸ hv

/-! ### Names -/

theorem lookup? (frame : FrameId) (x : String) :
    Registers R (fun S found => ∀ v, found = some v → S.Has v) (Eval.lookup? frame x) := by
  refine fun m hm => ⟨R, le_rfl, hm, fun found hfound v hv => ?_⟩
  cases hfound
  exact hm.lookup hv

theorem resolve (frame : FrameId) (x : String) :
    Registers R Registry.Has (Level.resolve frame x) := by
  refine (lookup? frame x).bind fun S found _ hfound => ?_
  cases found with
  | none => exact throw _
  | some v => exact pure (hfound v rfl)

theorem define (x : String) (hv : R.Has v) :
    Registers R (fun _ _ => True) (Eval.define frame x v) :=
  fun _ hm => ⟨R, le_rfl, hm.define frame x hv, fun _ _ => trivial⟩

theorem defineAll {pairs : Bindings} (h : ∀ pair ∈ pairs, R.Has pair.2) :
    Registers R (fun _ _ => True) (Eval.defineAll frame pairs) :=
  fun _ hm => ⟨R, le_rfl, hm.defineAll frame h, fun _ _ => trivial⟩

theorem assign (x : String) (hv : R.Has v) :
    Registers R (fun _ _ => True) (Eval.assign frame x v) := by
  refine fun m hm => ⟨R, le_rfl, ?_, fun _ _ => trivial⟩
  cases ht : m.store.assign? frame x v with
  | none =>
    rw [assign_run_of_none ht]
    exact hm
  | some t =>
    rw [assign_run_of_some ht]
    exact hm.assign hv ht

theorem printLine (text : String) : Registers R (fun _ _ => True) (Eval.printLine text) :=
  fun _ hm => ⟨R, le_rfl, ⟨hm.nextId_eq, hm.nextSuspension_eq, hm.bound⟩, fun _ _ => trivial⟩

end Eval.Registers

/-! ## Builtins -/

/-- Registration of what one run makes, in registries that grow. -/
def registration : Judgement Unit Unit Registry where
  Holds R Q x := Eval.Registers R (fun S a => Q S fun _ => a) (x () ())
  value R v := R.Has (v ())
  item R v := R.Has (v ())
  pure h := .pure h
  bind hx hf := hx.bind fun S a hle ha => hf S (fun _ => a) hle ha
  error _ := .throw _
  value_mono hle hv := hv.mono hle
  item_of_value hv := hv
  madeAlike hv := .single fun _ _ hlist w hw => Registry.Has.items (hlist ▸ hv) w hw
  nil _ := Registry.has_nil
  t _ := Registry.has_symbol "t"
  number _ n := Registry.has_number n
  makeList hvs := .makeList (List.forall_mem_map.2 hvs)
  printLine text := .printLine text

theorem judgesTexts_registration (lv : Level) : registration.JudgesTexts fun _ _ => lv where
  write _ := (Eval.Registers.write lv _).mono fun _ text _ => ⟨text, rfl⟩
  trace _ := .trace lv _
  allSame {_ first others} _ _ := by
    dsimp only [registration]
    cases Value.allSame? lv.room (first ()) (others.map (· ())) with
    | none => exact .throw _
    | some answer => exact .pure ⟨answer, rfl⟩

/-! ## Levels -/

namespace Level

open Registry (Has HasAll)

/-- What is evaluated below a level, registered before, registers what it makes and has a registered
value. -/
def Registers (lv : Level) : Prop :=
  ∀ (R : Registry) skipped e frame, R.Has e → Eval.Registers R Has (lv.below skipped e frame)

namespace Registers

variable {lv : Level} (h : lv.Registers) {R : Registry} {e : Value} {es : List Value} {c : Call}

include h

theorem deeper (k : Nat) : (lv.deeper k).Registers :=
  fun R skipped => h R (k + skipped)

theorem evaluate (he : R.Has e) (frame : FrameId) : Eval.Registers R Has (lv.evaluate e frame) :=
  h R 0 e frame he

theorem judgesOperands (hes : R.HasAll es) (frame : FrameId) :
    registration.JudgesOperands (fun _ _ => lv) (fun _ => frame) R (sameRow es) :=
  forall_mem_sameRow.2 fun e he =>
    ⟨fun hle => h.evaluate ((hes e he).mono hle) frame, fun _ => .trace lv e⟩

theorem sequence (hes : R.HasAll es) (frame : FrameId) :
    Eval.Registers R Has (lv.sequence frame es) := by
  have hsequence := (h.judgesOperands hes frame).sequence
  simp only [map_sameRow] at hsequence
  exact hsequence

theorem evaluateAll (hes : R.HasAll es) (frame : FrameId) :
    Eval.Registers R HasAll (lv.evaluateAll frame es) := by
  have hvalues := (h.judgesOperands hes frame).evaluateAll
  simp only [map_sameRow] at hvalues
  refine Eval.Registers.mono hvalues fun S vs ⟨row, hrow, hhas⟩ => ?_
  obtain rfl : vs = row.map (· ()) := congrFun hrow ()
  exact List.forall_mem_map.2 hhas

/-! ### Builtins -/

theorem judgesCalls (hc : R.HasAll c.operands) :
    registration.JudgesCalls (fun _ _ => lv) R (.same c) :=
  ⟨judgesTexts_registration lv, h.judgesOperands hc c.frame, fun cause => .fail c cause⟩

omit h in
theorem params (tree : Value) : Eval.Registers R (fun _ _ => True) (lv.params c tree) := by
  unfold Level.params
  cases Param.listOfTree tree with
  | ok params => exact .pure trivial
  | error fault =>
    cases fault with
    | duplicate x => exact .fail c _
    | _ => exact .complaint lv c _ _

omit h in
theorem defun (hc : R.HasAll c.operands) : Eval.Registers R Has (lv.defun c) := by
  obtain ⟨operands, frame, text⟩ := c
  match operands with
  | [] | [_] | [_, _] => exact .fail _ _
  | nameTree :: paramTree :: e :: body =>
    rw [Level.defun]
    dsimp only
    cases nameTree.targetName? with
    | none => exact .complaint lv _ _ _
    | some x =>
      refine (params paramTree).bind fun S params hle _ => ?_
      have hbody : S.HasAll (e :: body) := fun w hw =>
        (hc w (List.mem_cons_of_mem _ (List.mem_cons_of_mem _ hw))).mono hle
      refine Eval.Registers.freshId (fun n => .fexpr n x params (e :: body) frame) (fun _ _ => rfl)
        (fun _ => hbody) fun T n _ hfexpr => ?_
      exact (Eval.Registers.define x hfexpr).bind fun _ _ hle' _ => .pure (hfexpr.mono hle')

theorem applyBuiltin (op : Builtin) (hc : R.HasAll c.operands) :
    Eval.Registers R Has (lv.applyBuiltin op c) := by
  by_cases hop : op = .defun
  · subst hop
    exact defun hc
  · have hbinding : registration.JudgesBinding op (.same c) fun _ => True :=
      ⟨Judgement.names_same (fun _ _ _ _ => trivial) fun _ => trivial,
        fun _ _ x _ _ hv => .define x hv,
        fun _ _ x _ _ hv => (Eval.Registers.assign x hv).mono fun _ assigned _ => ⟨assigned, rfl⟩⟩
    have hturns : registration.TurnsAlike fun _ _ => lv.turns :=
      Judgement.turnsAlike_same (fun _ => Eval.Registers.throw _) lv.turns
    have hbuiltin := (h.judgesCalls hc).applyBuiltin hop (fun _ => rfl) (fun _ => hturns)
      fun _ => hbinding
    simp only [CallFamily.inRun_same] at hbuiltin
    exact hbuiltin

/-! ### Fexprs -/

omit h in
theorem suspend (he : R.Has e) (frame : FrameId) :
    Eval.Registers R Has (Level.suspend frame e) := by
  unfold Level.suspend
  split
  · -- A suspended operand that is handed on was registered when it was bound.
    refine (Eval.Registers.lookup? frame _).bind fun S found hle hfound => ?_
    split
    · exact .pure (hfound _ rfl)
    · exact .suspend (he.mono hle) frame false
  · exact .suspend he frame false

theorem argument (param : Param) (he : R.Has e) (frame : FrameId) :
    Eval.Registers R Has (lv.argument frame param e) := by
  unfold Level.argument
  split
  · exact suspend he frame
  · exact h.evaluate he frame

theorem arguments (params : List Param) (hes : R.HasAll es) (frame : FrameId) :
    Eval.Registers R (fun S pairs => ∀ pair ∈ pairs, S.Has (Prod.snd pair))
      (lv.arguments frame params es) := by
  induction params generalizing R es with
  | nil => exact .pure nofun
  | cons param params ih =>
    cases es with
    | nil => exact .pure nofun
    | cons e es =>
      obtain ⟨he, hes⟩ := Registry.hasAll_cons.1 hes
      refine (h.argument param he frame).bind fun S v hle hv => ?_
      refine (ih (hes.mono hle)).bind fun T pairs hle' hpairs => ?_
      exact .pure (List.forall_mem_cons.2 ⟨hv.mono hle', hpairs⟩)

theorem restArgument (param : Param) (hes : R.HasAll es) (frame : FrameId) :
    Eval.Registers R Has (lv.restArgument frame param es) := by
  unfold Level.restArgument
  split
  · exact .suspend (Registry.has_ofItems hes) frame true
  · exact (h.evaluateAll hes frame).bind fun _ _ _ hvs => .makeList hvs

theorem applyFexpr (x : String) (params : List Param) {body : List Value}
    (hbody : R.HasAll body) (hc : R.HasAll c.operands) :
    Eval.Registers R Has (lv.applyFexpr x params body c) := by
  unfold Level.applyFexpr
  dsimp only
  split
  · exact .fail c _
  · refine (h.arguments _ hc c.frame).bind fun S fixed hle hfixed => ?_
    -- With or without a parameter for the rest, all bindings are made at once and then the body
    -- runs.
    have hlast {T : Registry} (hle' : S ≤ T) {extra : Bindings}
        (hextra : ∀ pair ∈ extra, T.Has pair.2) :
        Eval.Registers T Has
          (do Eval.defineAll c.frame (fixed ++ extra); lv.sequence c.frame body) := by
      have hall : ∀ pair ∈ fixed ++ extra, T.Has pair.2 :=
        List.forall_mem_append.2 ⟨fun pair hp => (hfixed pair hp).mono hle', hextra⟩
      exact (Eval.Registers.defineAll hall).bind fun _ _ hle'' _ =>
        h.sequence (hbody.mono (hle.trans (hle'.trans hle''))) c.frame
    cases Param.rest? params with
    | none => exact hlast le_rfl nofun
    | some param =>
      have hrest : S.HasAll (c.operands.drop (Param.required params).length) :=
        fun e he => (hc e (List.mem_of_mem_drop he)).mono hle
      refine (h.restArgument param hrest c.frame).bind fun T v hle' hv => ?_
      exact hlast hle' (List.forall_mem_singleton.2 hv)

theorem apply {combiner : Value} (hcombiner : R.Has combiner) (hc : R.HasAll c.operands) :
    Eval.Registers R Has (lv.apply combiner c) := by
  cases combiner with
  | builtin op home => exact (h.deeper op.skipped).applyBuiltin op hc
  | raiser message id => exact .throw _
  | fexpr id x params body home =>
    exact (h.deeper skippedByFexpr).applyFexpr x params (fun _ hw => hcombiner.part hw) hc
  | _ => exact .complaint lv c _ _

/-! ### Expressions -/

theorem force (he : R.Has e) (frame : FrameId) (sequence : Bool) :
    Eval.Registers R Has (lv.force e frame sequence) := by
  unfold Level.force
  refine (Eval.Registers.trace lv e).bind fun S _ hle _ => ?_
  split
  · cases e with
    | list items made => exact h.sequence (Registry.Has.items (he.mono hle)) frame
    | _ => exact .pure Registry.has_nil
  · exact h.evaluate (he.mono hle) frame

theorem step (he : R.Has e) (frame : FrameId) : Eval.Registers R Has (lv.step e frame) := by
  cases e with
  | number | string | nil | builtin | raiser | fexpr => exact .pure he
  | symbol x =>
    refine (Eval.Registers.resolve frame x).bind fun S v _ hv => ?_
    cases v with
    | suspended body => exact .pure (hv.part List.mem_cons_self)
    | _ => exact .pure hv
  | quote body =>
    rcases Level.step_quote body frame with ⟨made, rfl, -⟩ | ⟨-, hstep⟩
    · exact .pure Registry.has_nil
    · rw [hstep]
      exact .pure he.quoted
  | unquote body =>
    cases body with
    | symbol x =>
      refine (Eval.Registers.resolve frame x).bind fun S v _ hv => ?_
      cases v with
      | suspended e home sequence id =>
        exact (h.deeper skippedByForcing).force (hv.part List.mem_cons_self) home sequence
      | _ => exact .pure hv
    | _ => exact (h.deeper skippedByUnquoting).evaluate he.unquoted frame
  | list items made =>
    cases items with
    | nil => exact .pure Registry.has_nil
    | cons head operands =>
      obtain ⟨hhead, hoperands⟩ := Registry.hasAll_cons.1 (Registry.Has.items he)
      refine (Eval.Registers.write lv _).bind fun S text hle _ => ?_
      refine ((h.deeper skippedByHead).evaluate (hhead.mono hle) frame).bind
        fun T combiner hle' hcombiner => ?_
      exact h.apply hcombiner (hoperands.mono (hle.trans hle'))
  | suspended | hostNumber | hostText =>
    unfold Level.step
    dsimp only
    split <;> exact .throw _

end Registers
end Level

/-- Whatever is evaluated, registered before, registers what it makes and has a registered value. -/
theorem registers_evaluateWithin (limits : Limits) {R : Registry} (levels skipped : Nat)
    {e : Value} (he : R.Has e) (frame : FrameId) :
    Eval.Registers R Registry.Has (evaluateWithin limits levels skipped e frame) := by
  induction levels generalizing R skipped e frame with
  | zero => exact .throw _
  | succ levels ih =>
    cases skipped with
    | succ skipped => exact ih skipped he frame
    | zero =>
      have hbelow : (limits.level levels).Registers := fun _ skipped _ frame he =>
        ih skipped he frame
      exact hbelow.step he frame

/-- A level of the whole stack relies on evaluation that registers what it makes. -/
theorem Limits.registers_level (limits : Limits) (levels : Nat) :
    (limits.level levels).Registers :=
  fun _ skipped _ frame he => registers_evaluateWithin limits levels skipped he frame

/-! ## Programs -/

/-- A value that was read bears no number anywhere. -/
theorem Registry.has_of_readable {R : Registry} {v : Value} (hreadable : v.Readable)
    (hread : v.asRead = v) : R.Has v := by
  induction v using Value.induction_parts with
  | step v ih =>
    cases v with
    | list items made =>
      rw [Value.asRead, Value.allAsRead_eq_map] at hread
      obtain ⟨hitems, rfl⟩ := Value.list.inj hread
      have hread : ∀ w ∈ items, w.asRead = w :=
        List.map_inj_left.1 (hitems.trans (List.map_id' items).symm)
      exact has_list fun w hw => ih w hw (hreadable.item hw) (hread w hw)
    | quote body =>
      exact has_quote
        (ih body (List.mem_singleton.2 rfl) hreadable.quoted (Value.quote.inj hread))
    | unquote body =>
      refine .node rfl (List.forall_mem_singleton.2 ?_)
      exact ih body (List.mem_singleton.2 rfl) hreadable.unquoted (Value.unquote.inj hread)
    | symbol | number | string | nil => exact .leaf rfl rfl
    | _ => exact hreadable.here.elim

/-- The forms of a source are registered everywhere. -/
theorem Registry.hasAll_of_readForms {R : Registry} {source : String} {forms : List Value}
    (h : readForms source = .ok forms) : R.HasAll forms :=
  fun form hform =>
    have hbuilt := built_of_readForms h form hform
    has_of_readable hbuilt.readable hbuilt.asRead_eq

theorem Eval.Registers.attempt {α : Type} {R : Registry} {Q : Registry → α → Prop} {x : Eval α}
    (h : Registers R Q x) :
    Registers R (fun S outcome => ∀ a, outcome = .ok a → Q S a) (Eval.attempt x) := by
  intro m hm
  obtain ⟨S, hle, hS, hvalue⟩ := h m hm
  refine ⟨S, hle, hS, fun outcome houtcome => ?_⟩
  cases houtcome
  exact hvalue

theorem Eval.Registers.log {R : Registry} (record : LogRecord) :
    Registers R (fun _ _ => True) (Eval.log record) :=
  fun _ hm => ⟨R, le_rfl, ⟨hm.nextId_eq, hm.nextSuspension_eq, hm.bound⟩, fun _ _ => trivial⟩

section

variable (limits : Limits) {R : Registry} (frame : FrameId)

theorem registers_evaluateToplevel {form : Value} (hform : R.Has form) :
    Eval.Registers R Registry.Has (evaluateToplevel limits form frame) := by
  refine (Eval.Registers.write limits.top form).bind fun S text hle _ => ?_
  refine (registers_evaluateWithin limits limits.levels 0 (hform.mono hle) frame).attempt.bind
    fun T outcome _ hvalue => ?_
  -- Every fault but one is logged and becomes an error.
  have hfails (logged : String) (e : EvalError) :
      Eval.Registers T Registry.Has (failToplevel logged e) :=
    (Eval.Registers.log _).bind fun _ _ _ _ => .throw _
  rcases outcome with (_ | _ | _ | _ | _) | v
  · exact hfails _ _
  · exact hfails _ _
  · exact hfails _ _
  · exact hfails _ _
  · exact .throw _
  · exact .pure (hvalue v rfl)

theorem registers_evaluateForms {forms : List Value} (hforms : R.HasAll forms) {last : Value}
    (hlast : R.Has last) :
    Eval.Registers R Registry.Has (evaluateForms limits frame last forms) := by
  induction forms generalizing R last with
  | nil => exact .pure hlast
  | cons form forms ih =>
    obtain ⟨hform, hforms⟩ := Registry.hasAll_cons.1 hforms
    exact (registers_evaluateToplevel limits frame hform).bind fun S v hle hv =>
      ih (hforms.mono hle) hv

theorem registers_runForms {forms : List Value} (hforms : R.HasAll forms) (index : Nat) :
    Eval.Registers R (fun _ _ => True) (runForms limits frame index forms) := by
  induction forms generalizing R index with
  | nil => exact .pure trivial
  | cons form forms ih =>
    obtain ⟨hform, hforms⟩ := Registry.hasAll_cons.1 hforms
    refine (Eval.Registers.write limits.top form).bind fun S text hle _ => ?_
    refine (registers_evaluateToplevel limits frame (hform.mono hle)).attempt.bind
      fun S' outcome hle' _ => ?_
    rcases outcome with (e | _ | _ | _ | _) | v
    · exact (Eval.Registers.log _).bind fun _ _ _ _ => .pure trivial
    · exact .throw _
    · exact .throw _
    · exact .throw _
    · exact .throw _
    · refine (Eval.Registers.write limits.top v).bind fun T _ hle'' _ => ?_
      exact (ih (hforms.mono (hle.trans (hle'.trans hle''))) (index + 1)).bind fun _ _ _ _ =>
        .pure trivial

variable {m : Machine} {frame}

/-- A registry holds a machine after a source was run if one held it before. -/
theorem Registry.Holds.runSource (hm : R.Holds m) (source : String) :
    ∃ S, R ≤ S ∧ S.Holds (runSource limits source frame m).2 := by
  cases hread : readForms source with
  | error fault =>
    rw [runSource_of_fault hread]
    exact ⟨R, le_rfl, hm⟩
  | ok forms =>
    rw [runSource_of_forms hread]
    obtain ⟨S, hle, hS, -⟩ := registers_runForms limits frame (hasAll_of_readForms hread) 0 m hm
    exact ⟨S, hle, hS⟩

/-- So it does after a source was evaluated. -/
theorem Registry.Holds.evaluateSource (hm : R.Holds m) (source : String) :
    ∃ S, R ≤ S ∧ S.Holds (evaluateSource limits source frame m).2 := by
  cases hread : readForms source with
  | error fault =>
    rw [evaluateSource_of_fault hread]
    exact ⟨R, le_rfl, hm⟩
  | ok forms =>
    rw [(evaluateSource_of_forms hread limits frame m).1]
    obtain ⟨S, hle, hS, -⟩ :=
      registers_evaluateForms limits frame (hasAll_of_readForms hread) has_nil m hm
    exact ⟨S, hle, hS⟩

end

/-! ## New machines -/

/-- What holds of all bindings, and of what is bound anew, holds of all bindings afterwards. -/
theorem Bindings.of_get?_putAll {P : Value → Prop} {bs pairs : Bindings} {x : String} {v : Value}
    (hpairs : ∀ pair ∈ pairs, P pair.2) (hbs : ∀ y w, bs.get? y = some w → P w)
    (hv : (bs.putAll pairs).get? x = some v) : P v := by
  induction pairs generalizing bs with
  | nil => exact hbs x v hv
  | cons pair pairs ih =>
    obtain ⟨hpair, hpairs⟩ := List.forall_mem_cons.1 hpairs
    refine ih hpairs (fun y w hw => ?_) hv
    by_cases hy : pair.1 = y
    · rw [← hy, get?_put_self] at hw
      cases hw
      exact hpair
    · rw [get?_put_of_ne hy] at hw
      exact hbs y w hw

/-- A registry holds a machine with a new global frame that has made what the registry has, and
whose names are bound by the host to what is registered. -/
theorem Registry.holds_global {R : Registry} {pairs : Bindings}
    (h : ∀ pair ∈ pairs, R.Has pair.2) :
    R.Holds
      { Machine.empty with
        store := Store.empty.global pairs
        nextId := R.made.length
        nextSuspension := R.suspended.length } := by
  refine ⟨rfl, rfl, fun g x v hv => ?_⟩
  change (Store.empty.push ⟨[], (Store.globalBindings 0).putAll pairs⟩).get? g x = some v at hv
  rw [Store.get?_push] at hv
  split at hv
  · refine Bindings.of_get?_putAll h (fun y w hw => ?_) hv
    rcases Store.builtin_or_t_of_get?_globalBindings hw with ⟨op, -, rfl⟩ | rfl
    · exact has_builtin op 0
    · exact has_symbol "t"
  · cases hv

/-- Whatever sources were run in a new global frame, a registry holds the machine. -/
theorem AfterSources.exists_holds {limits : Limits} {m : Machine} (h : AfterSources limits m) :
    ∃ R : Registry, R.Holds m := by
  induction h with
  | start => exact ⟨Registry.empty, Registry.holds_global nofun⟩
  | run _ source ih =>
    obtain ⟨R, hR⟩ := ih
    obtain ⟨S, -, hS⟩ := hR.runSource limits source
    exact ⟨S, hS⟩
  | evaluate _ source ih =>
    obtain ⟨R, hR⟩ := ih
    obtain ⟨S, -, hS⟩ := hR.evaluateSource limits source
    exact ⟨S, hS⟩
  | form _ hread hform ih =>
    obtain ⟨R, hR⟩ := ih
    obtain ⟨S, -, hS, -⟩ :=
      registers_evaluateToplevel limits _ (Registry.hasAll_of_readForms hread _ hform) _ hR
    exact ⟨S, hS⟩

end Fexpr
