import Fexpr.Proofs.Comparison.Builtins
import Fexpr.Proofs.ParamList
import Fexpr.Proofs.Watch

/-!
# One expression in two runs

A `Fragment` says which expressions may be evaluated, in which frames, which values they have, and
which names they may bind; its laws are about the parts of one value. A `Correspondence` adds a
comparison of two runs and what a name may be bound to in them; its laws are about one step on the
machine. From them follows that every expression of the fragment is evaluated alike in both runs
(`Correspondence.agree_evaluateWithin`): through every builtin, every fexpr and every operand that
is forced.
-/

namespace Fexpr

/-- Expressions and values that evaluation does not lead out of. -/
structure Fragment where
  /-- Frames that expressions are evaluated in. -/
  frame : FrameId → Prop
  /-- Expressions that may be evaluated. -/
  code : Value → Prop
  /-- Values that expressions have. -/
  data : Value → Prop
  /-- Names that may be bound. -/
  name : String → Prop
  closed : Value.Closed data
  /-- What may be evaluated is a value as it stands; only an empty list is none. -/
  data_of_code : ∀ {e}, code e → (∀ made, e ≠ .list [] made) → data e
  data_of_quoted : ∀ {e}, code (.quote e) → (∀ made, e ≠ .list [] made) → data e
  code_of_unquoted : ∀ {e}, code (.unquote e) → code e
  code_of_item : ∀ {items made e}, code (.list items made) → e ∈ items → code e
  code_ofItems : ∀ {items}, (∀ e ∈ items, code e) → code (.ofItems items)
  name_of_code : ∀ {e x}, code e → e.targetName? = some x → name x
  name_of_data : ∀ {x}, data (.symbol x) → name x
  name_of_param : ∀ {e p}, code e → Param.ofTree? e = some p → name p.name
  code_of_fexpr : ∀ {id x params body home e}, data (.fexpr id x params body home) → e ∈ body →
    code e
  name_of_fexpr : ∀ {id x params body home p}, data (.fexpr id x params body home) → p ∈ params →
    name p.name
  data_fexpr : ∀ {id x params body home}, name x → (∀ p ∈ params, name (Param.name p)) →
    (∀ e ∈ body, code e) → frame home → data (.fexpr id x params body home)

/-- A comparison of two runs that evaluate the same expressions. -/
structure Correspondence extends Comparison, Fragment where
  /-- What a name may be bound to in the two runs, seen from a frame. -/
  bound : FrameId → Value → Value → Prop
  bound_of_data : ∀ {g v}, frame g → data v → bound g v v
  /-- What a name is bound to is a value, or an expression kept with its frame. -/
  bound_cases : ∀ {g v w}, frame g → bound g v w →
    (v = w ∧ data v ∧ v.suspension? = none) ∨
      ∃ e h s i j, v = .suspended e h s i ∧ w = .suspended e h s j ∧ code e ∧ data e ∧ frame h
  lookup : ∀ {m n g x}, state m n → frame g → code (.symbol x) →
    Option.Rel (bound g) (m.store.lookup? g x) (n.store.lookup? g x)
  define : ∀ {m n g x v w}, state m n → frame g → name x → bound g v w →
    state { m with store := m.store.define g x v } { n with store := n.store.define g x w }
  /-- Nothing but the builtin `set` assigns. -/
  assign : ∀ {m n g x v home}, state m n → frame g → name x → data v →
    data (.builtin .setForm home) →
    Option.Rel (fun s t => state { m with store := s } { n with store := t })
      (m.store.assign? g x v) (n.store.assign? g x v)
  /-- Only loops may take more turns than there are. -/
  endless : ∀ {home}, data (.builtin .whileForm home) → fault .endless .endless
  suspend : ∀ {m n g e s}, state m n → frame g → code e →
    bound g (.suspended e g s m.nextSuspension) (.suspended e g s n.nextSuspension) ∧
      state { m with nextSuspension := m.nextSuspension + 1 }
        { n with nextSuspension := n.nextSuspension + 1 }

/-- Whether a value can be evaluated, be it to an error. -/
def Value.isExpression : Value → Bool
  | .suspended .. | .hostNumber _ | .hostText _ => false
  | _ => true

/-! ## Rules -/

/-- A quoted expression is its own value, but for an empty list. -/
theorem Level.step_quote (body : Value) (g : FrameId) :
    (∃ made, body = .list [] made ∧ ∀ lv : Level, lv.step (.quote body) g = pure .nil) ∨
      (∀ made, body ≠ .list [] made) ∧ ∀ lv : Level, lv.step (.quote body) g = pure body := by
  by_cases hbody : ∃ made, body = .list [] made
  · obtain ⟨made, rfl⟩ := hbody
    exact Or.inl ⟨made, rfl, fun _ => rfl⟩
  · refine Or.inr ⟨fun made heq => hbody ⟨made, heq⟩, fun lv => ?_⟩
    rw [Level.step]
    exact fun made heq => hbody ⟨made, heq⟩

/-- What is no expression is named in an error. -/
theorem Level.step_eq_needed (lv : Level) (v : Value) (g : FrameId) (hv : v.isExpression = false) :
    lv.step v g = Comparison.needed (v.constructorText lv.room) >>= fun text =>
      throw (.error (.arising (.notEvaluable v.typeName) text)) := by
  unfold Level.step Comparison.needed
  cases v with
  | suspended | hostNumber | hostText =>
    dsimp only
    split <;> rename_i heq <;> rw [heq] <;> rfl
  | _ => cases hv

namespace Correspondence

open Comparison

variable {C : Correspondence} {lv₁ lv₂ : Level} {g : FrameId} {c : Call}

/-- What the runs may rely on at the same time. -/
structure Stands (C : Correspondence) (lv₁ lv₂ : Level) : Prop where
  beside : C.Beside lv₁ lv₂
  below : ∀ k {e g}, C.code e → C.frame g →
    C.Agree (Both C.data) (lv₁.below k e g) (lv₂.below k e g)

/-- A call that both runs may make. -/
structure Callable (C : Correspondence) (c : Call) : Prop where
  code : ∀ e ∈ c.operands, C.code e
  frame : C.frame c.frame

namespace Stands

theorem deeper (h : C.Stands lv₁ lv₂) (k : Nat) : C.Stands (lv₁.deeper k) (lv₂.deeper k) :=
  ⟨h.beside.deeper k, fun more => h.below (k + more)⟩

theorem operand (h : C.Stands lv₁ lv₂) {e : Value} (he : C.code e) (hg : C.frame g) :
    C.Operand C.data lv₁ lv₂ g e e :=
  ⟨fun k => h.below k he hg, fun k => (h.beside.deeper k).trace e⟩

theorem operands (h : C.Stands lv₁ lv₂) {es : List Value} (hes : ∀ e ∈ es, C.code e)
    (hg : C.frame g) : List.Forall₂ (C.Operand C.data lv₁ lv₂ g) es es :=
  List.forall₂_same.2 fun e he => h.operand (hes e he) hg

theorem calls (h : C.Stands lv₁ lv₂) (hc : C.Callable c) : C.Calls C.data lv₁ lv₂ c c :=
  .intro h.beside (h.operands hc.code hc.frame) fun _ => C.fault_refl nofun

theorem sequence (h : C.Stands lv₁ lv₂) {es : List Value} (hes : ∀ e ∈ es, C.code e)
    (hg : C.frame g) : C.Agree (Both C.data) (lv₁.sequence g es) (lv₂.sequence g es) :=
  agree_sequence (h.operands hes hg) C.closed.over

end Stands

/-! ## Names and bindings -/

theorem agree_lookup? {x : String} (hg : C.frame g) (hx : C.code (.symbol x)) :
    C.Agree (Option.Rel (C.bound g)) (Eval.lookup? g x) (Eval.lookup? g x) :=
  fun _ _ hmn => Or.inr (Or.inr ⟨hmn, .value (C.lookup hmn hg hx)⟩)

theorem agree_define {x : String} {v w : Value} (hg : C.frame g) (hx : C.name x)
    (hv : C.bound g v w) : C.Agree Eq (Eval.define g x v) (Eval.define g x w) :=
  fun _ _ hmn => Or.inr (Or.inr ⟨C.define hmn hg hx hv, .value rfl⟩)

theorem agree_assign {x : String} {v : Value} {home : FrameId} (hg : C.frame g) (hx : C.name x)
    (hv : C.data v) (hset : C.data (.builtin .setForm home)) :
    C.Agree Eq (Eval.assign g x v) (Eval.assign g x v) :=
  Agree.assign fun hmn => C.assign hmn hg hx hv hset

theorem agree_suspend {e : Value} (s : Bool) (hg : C.frame g) (he : C.code e) :
    C.Agree (C.bound g) (Eval.suspend e g s) (Eval.suspend e g s) := by
  intro m n hmn
  obtain ⟨hbound, hstate⟩ := C.suspend (s := s) hmn hg he
  exact Or.inr (Or.inr ⟨hstate, .value hbound⟩)

/-- Bindings of the same names, in order, that may be made in a frame. -/
def Pairs (C : Correspondence) (g : FrameId) :
    List (String × Value) → List (String × Value) → Prop :=
  List.Forall₂ fun p q => p.1 = q.1 ∧ C.name p.1 ∧ C.bound g p.2 q.2

theorem state_defineAll {ps qs : List (String × Value)} (hg : C.frame g) (h : C.Pairs g ps qs)
    {m n : Machine} (hmn : C.state m n) :
    C.state { m with store := m.store.defineAll g ps }
      { n with store := n.store.defineAll g qs } := by
  induction h generalizing m n with
  | nil => exact hmn
  | @cons p q ps qs hpq _ ih =>
    obtain ⟨x, v⟩ := p
    obtain ⟨y, w⟩ := q
    obtain ⟨rfl, hx, hv⟩ := hpq
    exact ih (C.define hmn hg hx hv)

theorem agree_defineAll {ps qs : List (String × Value)} (hg : C.frame g) (h : C.Pairs g ps qs) :
    C.Agree Eq (Eval.defineAll g ps) (Eval.defineAll g qs) :=
  fun _ _ hmn => Or.inr (Or.inr ⟨state_defineAll hg h hmn, .value rfl⟩)

/-- What a name stands for in the two runs, which agree on whether it is bound. -/
theorem agree_resolve {x : String} (hg : C.frame g) (hx : C.code (.symbol x)) :
    C.Agree (C.bound g) (Level.resolve g x) (Level.resolve g x) := by
  refine (agree_lookup? hg hx).bind ?_
  intro a b hab
  cases hab with
  | none => exact .throw_self nofun
  | some hv => exact .pure hv

/-! ## Builtins -/

theorem Callable.targets (hc : C.Callable c) : c.Targets C.data C.name where
  spelled e he _ hx := C.name_of_code (hc.code e he) hx
  symbol _ hx := C.name_of_data hx

/-- The parameters that a tree spells have names that may be bound. -/
theorem name_of_ofTrees {seen : List String} {items : List Value} {params : List Param}
    (hitems : ∀ e ∈ items, C.code e) (heq : Param.ofTrees seen items = .ok params) :
    ∀ p ∈ params, C.name p.name := by
  -- The names seen so far only decide which fault there is, so the induction is for any of them.
  induction items generalizing seen params with
  | nil =>
    cases heq
    exact fun p hp => nomatch hp
  | cons item items ih =>
    obtain ⟨p, ps, hitem, -, -, hothers, rfl⟩ := Param.exists_of_ofTrees_cons heq
    intro q hq
    rcases List.mem_cons.1 hq with rfl | hq
    · exact C.name_of_param (hitems item List.mem_cons_self) hitem
    · exact ih (fun e he => hitems e (List.mem_cons_of_mem item he)) hothers q hq

theorem name_of_listOfTree {tree : Value} {params : List Param} (htree : C.code tree)
    (heq : Param.listOfTree tree = .ok params) : ∀ p ∈ params, C.name p.name := by
  cases tree with
  | nil =>
    cases heq
    exact fun p hp => nomatch hp
  | list items made => exact name_of_ofTrees (fun e he => C.code_of_item htree he) heq
  | _ => cases heq

theorem agree_params (h : C.Stands lv₁ lv₂) {tree : Value} (htree : C.code tree) :
    C.Agree (fun ps qs => ps = qs ∧ ∀ p ∈ ps, C.name (Param.name p)) (lv₁.params c tree)
      (lv₂.params c tree) := by
  unfold Level.params
  cases heq : Param.listOfTree tree with
  | ok params => exact .pure ⟨rfl, name_of_listOfTree htree heq⟩
  | error fault =>
    cases fault with
    | duplicate x => exact .throw_self nofun
    | _ => exact agree_complaint h.beside (fun _ => C.fault_refl nofun) _ _

theorem agree_defun (h : C.Stands lv₁ lv₂) (hc : C.Callable c) :
    C.Agree (Both C.data) (lv₁.defun c) (lv₂.defun c) := by
  unfold Level.defun
  split
  next nameTree paramTree e body heq =>
    have hcode := hc.code
    rw [heq] at hcode
    cases hx : nameTree.targetName? with
    | none => exact agree_complaint h.beside (fun _ => C.fault_refl nofun) _ _
    | some x =>
      have hname := C.name_of_code (hcode nameTree (by simp)) hx
      refine (agree_params h (hcode paramTree (by simp))).bind ?_
      rintro params _ ⟨rfl, hparams⟩
      refine Agree.freshId.bind ?_
      rintro id _ rfl
      have hdata : C.data (.fexpr id x params (e :: body) c.frame) :=
        C.data_fexpr hname hparams
          (fun e' he' => hcode e' (List.mem_cons_of_mem _ (List.mem_cons_of_mem _ he'))) hc.frame
      refine (agree_define hc.frame hname (C.bound_of_data hc.frame hdata)).bind fun _ _ _ => ?_
      exact .pure ⟨rfl, hdata⟩
  · exact .throw_self nofun

theorem agree_applyBuiltin (h : C.Stands lv₁ lv₂) (hc : C.Callable c) {op : Builtin}
    {home : FrameId} (hop : C.data (.builtin op home)) :
    C.Agree (Both C.data) (lv₁.applyBuiltin op c) (lv₂.applyBuiltin op c) := by
  by_cases hdefun : op = .defun
  · subst hdefun
    exact agree_defun h hc
  · refine (h.calls hc).applyBuiltin_same C.closed.over hdefun (fun _ => rfl) ?_ hc.targets
      (fun x v hx hv => agree_define hc.frame hx (C.bound_of_data hc.frame hv)) ?_
    · rintro rfl
      exact C.endless hop
    · rintro rfl x v hx hv
      exact agree_assign hc.frame hx hv hop

/-! ## Application -/

theorem agree_suspended {e : Value} (hg : C.frame g) (he : C.code e) :
    C.Agree (C.bound g) (Level.suspend g e) (Level.suspend g e) := by
  unfold Level.suspend
  split
  next x =>
    refine (agree_lookup? hg (C.code_of_unquoted he)).bind ?_
    intro a b hab
    cases hab with
    | none => exact agree_suspend false hg he
    | @some v w hv =>
      rcases C.bound_cases hg hv with ⟨rfl, -, hplain⟩ | ⟨e', f, s, i, j, rfl, rfl, -⟩
      · cases v with
        | suspended => cases hplain
        | _ => exact agree_suspend false hg he
      · exact .pure hv
  · exact agree_suspend false hg he

theorem agree_argument (h : C.Stands lv₁ lv₂) (hg : C.frame g) (param : Param) {e : Value}
    (he : C.code e) : C.Agree (C.bound g) (lv₁.argument g param e) (lv₂.argument g param e) := by
  unfold Level.argument
  split
  · exact agree_suspended hg he
  · refine (h.below 0 he hg).mono ?_
    rintro v _ ⟨rfl, hv⟩
    exact C.bound_of_data hg hv

theorem agree_arguments (h : C.Stands lv₁ lv₂) (hg : C.frame g) {params : List Param}
    {es : List Value} (hparams : ∀ p ∈ params, C.name p.name) (hes : ∀ e ∈ es, C.code e) :
    C.Agree (C.Pairs g) (lv₁.arguments g params es) (lv₂.arguments g params es) := by
  induction params generalizing es with
  | nil => exact .pure .nil
  | cons param params ih =>
    cases es with
    | nil => exact .pure .nil
    | cons e es =>
      refine (agree_argument h hg param (hes e List.mem_cons_self)).bind ?_
      intro v w hv
      refine (ih (fun p hp => hparams p (List.mem_cons_of_mem param hp))
        fun e' he' => hes e' (List.mem_cons_of_mem e he')).bind ?_
      intro ps qs hpairs
      exact .pure (.cons ⟨rfl, hparams param List.mem_cons_self, hv⟩ hpairs)

theorem agree_restArgument (h : C.Stands lv₁ lv₂) (hg : C.frame g) (param : Param)
    {es : List Value} (hes : ∀ e ∈ es, C.code e) :
    C.Agree (C.bound g) (lv₁.restArgument g param es) (lv₂.restArgument g param es) := by
  unfold Level.restArgument
  split
  · exact agree_suspend true hg (C.code_ofItems hes)
  · refine (agree_evaluateAll (h.operands hes hg) C.closed.over).bind ?_
    rintro vs _ ⟨rfl, hvs⟩
    refine (agree_makeList C.closed.over hvs).mono ?_
    rintro v _ ⟨rfl, hv⟩
    exact C.bound_of_data hg hv

theorem agree_applyFexpr (h : C.Stands lv₁ lv₂) (hc : C.Callable c) {x : String}
    {params : List Param} {body : List Value} (hparams : ∀ p ∈ params, C.name p.name)
    (hbody : ∀ e ∈ body, C.code e) :
    C.Agree (Both C.data) (lv₁.applyFexpr x params body c) (lv₂.applyFexpr x params body c) := by
  unfold Level.applyFexpr
  dsimp only
  split
  · exact .throw_self nofun
  · have hrequired : ∀ p ∈ Param.required params, C.name p.name :=
      fun p hp => hparams p (List.mem_of_mem_filter hp)
    refine (agree_arguments h hc.frame hrequired hc.code).bind ?_
    intro ps qs hpairs
    -- With or without a parameter for the rest, all bindings are made at once and then the body
    -- runs.
    have hlast {rs ss : List (String × Value)} (hrest : C.Pairs c.frame rs ss) :
        C.Agree (Both C.data)
          (do Eval.defineAll c.frame (ps ++ rs); lv₁.sequence c.frame body)
          (do Eval.defineAll c.frame (qs ++ ss); lv₂.sequence c.frame body) :=
      (agree_defineAll hc.frame (List.rel_append hpairs hrest)).bind fun _ _ _ =>
        h.sequence hbody hc.frame
    cases hrest : Param.rest? params with
    | none => exact hlast .nil
    | some param =>
      have hname : C.name param.name := by
        have hlast := (Option.filter_eq_some_iff.1 hrest).1
        exact hparams param (List.mem_of_mem_getLast? hlast)
      refine (agree_restArgument h hc.frame param
        fun e he => hc.code e (List.mem_of_mem_drop he)).bind ?_
      intro v w hv
      exact hlast (.cons ⟨rfl, hname, hv⟩ .nil)

theorem agree_apply (h : C.Stands lv₁ lv₂) (hc : C.Callable c) {v : Value} (hv : C.data v) :
    C.Agree (Both C.data) (lv₁.apply v c) (lv₂.apply v c) := by
  cases v with
  | builtin op home => exact agree_applyBuiltin (h.deeper op.skipped) hc hv
  | raiser message id => exact .throw_self nofun
  | fexpr id x params body home =>
    exact agree_applyFexpr (h.deeper Level.skippedByFexpr) hc (fun _ hp => C.name_of_fexpr hv hp)
      fun _ he => C.code_of_fexpr hv he
  | _ => exact agree_complaint h.beside (fun _ => C.fault_refl nofun) _ _

/-! ## Evaluation -/

theorem agree_force (h : C.Stands lv₁ lv₂) {e : Value} (he : C.code e) (hg : C.frame g)
    (s : Bool) : C.Agree (Both C.data) (lv₁.force e g s) (lv₂.force e g s) := by
  unfold Level.force
  refine (h.beside.trace e).bind fun _ _ _ => ?_
  split
  · cases e with
    | list items made => exact h.sequence (fun _ hi => C.code_of_item he hi) hg
    | _ => exact .pure ⟨rfl, C.closed.nil⟩
  · exact h.below 0 he hg

/-- The rules of the language are the same in both runs. -/
theorem agree_step (h : C.Stands lv₁ lv₂) {e : Value} (he : C.code e) (hg : C.frame g) :
    C.Agree (Both C.data) (lv₁.step e g) (lv₂.step e g) := by
  cases e with
  | number | string | nil | builtin | raiser | fexpr =>
    exact .pure ⟨rfl, C.data_of_code he fun _ h => nomatch h⟩
  | symbol x =>
    refine (agree_resolve hg he).bind ?_
    intro v w hv
    -- A bare name gives the expression of a suspended operand, which is not evaluated.
    rcases C.bound_cases hg hv with ⟨rfl, hdata, hplain⟩ | ⟨e, f, s, i, j, rfl, rfl, -, hdata, -⟩
    · cases v with
      | suspended => cases hplain
      | _ => exact .pure ⟨rfl, hdata⟩
    · exact .pure ⟨rfl, hdata⟩
  | quote body =>
    rcases Level.step_quote body g with ⟨made, rfl, -⟩ | ⟨hbody, hstep⟩
    · exact .pure ⟨rfl, C.closed.nil⟩
    · rw [hstep, hstep]
      exact .pure ⟨rfl, C.data_of_quoted he hbody⟩
  | unquote body =>
    cases body with
    | symbol x =>
      refine (agree_resolve hg (C.code_of_unquoted he)).bind ?_
      intro v w hv
      -- An unquoted name evaluates it, in the frame that it was kept with.
      rcases C.bound_cases hg hv with
        ⟨rfl, hdata, hplain⟩ | ⟨e, f, s, i, j, rfl, rfl, hcode, -, hf⟩
      · cases v with
        | suspended => cases hplain
        | _ => exact .pure ⟨rfl, hdata⟩
      · exact agree_force (h.deeper Level.skippedByForcing) hcode hf s
    | _ => exact (h.deeper Level.skippedByUnquoting).below 0 (C.code_of_unquoted he) hg
  | list items made =>
    cases items with
    | nil => exact .pure ⟨rfl, C.closed.nil⟩
    | cons head operands =>
      refine (h.beside.write _).bind ?_
      rintro text _ rfl
      have hitem {e : Value} (h : e ∈ head :: operands) : C.code e := C.code_of_item he h
      refine ((h.deeper Level.skippedByHead).below 0 (hitem List.mem_cons_self) hg).bind ?_
      rintro v _ ⟨rfl, hv⟩
      exact agree_apply h ⟨fun e he => hitem (List.mem_cons_of_mem head he), hg⟩ hv
  | suspended | hostNumber | hostText =>
    rw [Level.step_eq_needed lv₁ _ g rfl, Level.step_eq_needed lv₂ _ g rfl]
    refine (h.beside.constructorText _).bind ?_
    rintro text _ rfl
    exact .throw_self nofun

variable {limits₁ limits₂ : Limits} {a b : Nat}

/-- What may be evaluated is evaluated alike in two runs, of which the second may be watched if an
alarm is excused. -/
theorem agree_watchedWithin {condition : Machine → Bool} {alarm : Fault}
    (hwatch : ∀ m n, C.state m n → condition n = false → C.excused₂ alarm)
    (h : C.Beside (limits₁.level a) (limits₂.level b)) (skipped : Nat) {e : Value} (he : C.code e)
    (hg : C.frame g) :
    C.Agree (Both C.data) (evaluateWithin limits₁ a skipped e g)
      (watchedWithin limits₂ condition alarm b skipped e g) := by
  -- The induction is on the levels of the first run. Where one run has none left and the other has,
  -- the numbers of levels differ, so the run without is excused.
  induction a generalizing b skipped e g with
  | zero =>
    cases b with
    | zero => exact .throw_self nofun
    | succ b => exact .of_reached₁ h.levels
  | succ a ih =>
    cases b with
    | zero => exact .of_reached₂ h.levels
    | succ b =>
      have hbelow : C.Beside (limits₁.level a) (limits₂.level b) :=
        ⟨h.levels.sub 1, h.turns, h.tracing⟩
      cases skipped with
      | succ skipped => exact ih hbelow skipped he hg
      | zero =>
        intro m n hmn
        cases hn : condition n with
        | false =>
          rw [watchedWithin_of_not_holds hn]
          exact Or.inr (Or.inl ⟨alarm, rfl, hwatch m n hmn hn⟩)
        | true =>
          rw [watchedWithin_of_holds hn]
          -- What the rules rely on is the induction hypothesis, one level below.
          have hstands : C.Stands (limits₁.level a) (limits₂.watchedLevel condition alarm b) :=
            ⟨⟨hbelow.levels, hbelow.turns, hbelow.tracing⟩, fun k _ _ => ih hbelow k⟩
          exact agree_step hstands he hg m n hmn

/-- What may be evaluated is evaluated alike in two runs. -/
theorem agree_evaluateWithin (h : C.Beside (limits₁.level a) (limits₂.level b)) (skipped : Nat)
    {e : Value} (he : C.code e) (hg : C.frame g) :
    C.Agree (Both C.data) (evaluateWithin limits₁ a skipped e g)
      (evaluateWithin limits₂ b skipped e g) := by
  rw [← watchedWithin_true limits₂ .tooDeep b]
  exact agree_watchedWithin (fun _ _ _ hfalse => absurd hfalse.symm Bool.false_ne_true) h skipped
    he hg

end Correspondence

/-! ## Watched evaluation -/

/-- All expressions and values, in any frame. -/
def Fragment.all : Fragment where
  frame _ := True
  code _ := True
  data _ := True
  name _ := True
  closed := ⟨trivial, trivial, fun _ => trivial, fun _ _ _ => trivial, fun _ _ => trivial⟩
  data_of_code _ _ := trivial
  data_of_quoted _ _ := trivial
  code_of_unquoted _ := trivial
  code_of_item _ _ := trivial
  code_ofItems _ := trivial
  name_of_code _ _ := trivial
  name_of_data _ := trivial
  name_of_param _ _ := trivial
  code_of_fexpr _ _ := trivial
  name_of_fexpr _ _ := trivial
  data_fexpr _ _ _ _ := trivial

namespace Correspondence

open Comparison

/-- A run beside itself, of which the second may meet an alarm. -/
def watching (alarm : Fault) : Correspondence where
  toFragment := .all
  state := Eq
  fault := Eq
  excused₁ _ := False
  excused₂ g := g = alarm
  fault_refl _ := rfl
  nextId_eq h := by rw [h]
  count h := by rw [h]
  print h _ := by rw [h]
  bound _ := Eq
  bound_of_data _ _ := rfl
  bound_cases := by
    rintro g v _ - rfl
    cases v with
    | suspended e h s i => exact Or.inr ⟨e, h, s, i, i, rfl, rfl, trivial, trivial, trivial⟩
    | _ => exact Or.inl ⟨rfl, trivial, rfl⟩
  lookup := by
    rintro m _ g x rfl - -
    cases m.store.lookup? g x with
    | none => exact .none
    | some v => exact .some rfl
  define := by
    rintro m _ g x v _ rfl - - rfl
    rfl
  assign := by
    rintro m _ g x v _ rfl - - - -
    cases m.store.assign? g x v with
    | none => exact .none
    | some s => exact .some rfl
  endless _ := rfl
  suspend := by
    rintro m _ g e s rfl - -
    exact ⟨rfl, rfl⟩

/-- A run beside itself, of which the first may meet a fault that is excused. -/
def excusing (excused : Fault → Prop) : Correspondence :=
  { watching .endless with
    excused₁ := excused
    excused₂ := fun _ => False }

/-- An evaluation that meets no alarm is the one that is not watched. -/
theorem watchedWithin_eq (limits : Limits) {condition : Machine → Bool} {alarm : Fault}
    {levels : Nat} {e : Value} {g : FrameId} {m : Machine}
    (h : (watchedWithin limits condition alarm levels 0 e g m).1 ≠ .error alarm) :
    watchedWithin limits condition alarm levels 0 e g m =
      evaluateWithin limits levels 0 e g m := by
  have hbeside : (watching alarm).Beside (limits.level levels) (limits.level levels) :=
    ⟨Or.inl rfl, Or.inl rfl, Or.inl rfl⟩
  have hagree : (watching alarm).Agree (Both (watching alarm).data)
      (evaluateWithin limits levels 0 e g) (watchedWithin limits condition alarm levels 0 e g) :=
    agree_watchedWithin (fun _ _ _ _ => rfl) hbeside 0 trivial trivial
  -- The run is compared with itself, and the alarm is all that could be excused.
  rcases hagree.eq_or_excused rfl rfl m with heq | ⟨_, _, hfalse⟩ | ⟨f, hf, rfl⟩
  · exact heq.symm
  · exact hfalse.elim
  · exact absurd hf h

end Correspondence
end Fexpr
