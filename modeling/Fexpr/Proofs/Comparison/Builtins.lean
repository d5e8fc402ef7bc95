import Mathlib.Data.List.Forall2
import Fexpr.Proofs.Comparison
import Fexpr.Proofs.Judgement.Builtins

/-!
# Builtins side by side

Two runs call the same builtin with operands that agree one by one. Then the calls agree, for every
builtin that binds no name: it asks nothing of an operand but its value, and nothing of the machine
but a number for a new list and a place to print. The operands themselves may differ. Agreement is a
judgement of a pair of runs (`Comparison.judgement`), so this is what is known of the builtins under
any judgement.
-/

namespace Fexpr

/-- A condition on values that the builtins keep when they make values from values. -/
structure Value.Closed (D : Value → Prop) : Prop where
  nil : D .nil
  t : D .t
  number : ∀ n, D (.number n)
  list : ∀ {items : List Value} (made : Nat), items ≠ [] → (∀ v ∈ items, D v) →
    D (.list items (some made))
  item : ∀ {items : List Value} {made : Option Nat} {v : Value}, D (.list items made) →
    v ∈ items → D v

/-- A condition on values that the builtins keep when they make values from values, where the items
of lists need only meet another one. Only `car` makes values from items that may not meet it. -/
structure Value.ClosedOver (D E : Value → Prop) : Prop where
  nil : D .nil
  t : D .t
  number : ∀ n, D (.number n)
  part : ∀ {v : Value}, D v → E v
  list : ∀ {items : List Value} (made : Nat), items ≠ [] → (∀ v ∈ items, E v) →
    D (.list items (some made))
  item : ∀ {items : List Value} {made : Option Nat} {v : Value}, D (.list items made) →
    v ∈ items → E v

theorem Value.Closed.over {D : Value → Prop} (closed : Closed D) : ClosedOver D D where
  nil := closed.nil
  t := closed.t
  number := closed.number
  part := id
  list := closed.list
  item := closed.item

/-- The names that a call may bind: its operands spell such names, or have such symbols as their
values. -/
structure Call.Targets (c : Call) (D : Value → Prop) (N : String → Prop) : Prop where
  spelled : ∀ e ∈ c.operands, ∀ x, e.targetName? = some x → N x
  symbol : ∀ x, D (.symbol x) → N x

/-- All names will do. -/
theorem Call.targets_any (c : Call) {D : Value → Prop} : c.Targets D fun _ => True :=
  ⟨fun _ _ _ _ => trivial, fun _ _ => trivial⟩

namespace Comparison

variable {α : Type} {C : Comparison} {D E : Value → Prop} {lv₁ lv₂ : Level} {c₁ c₂ : Call}

/-! ## Pairs of runs -/

/-- The levels of two runs. -/
def levelPair (lv₁ lv₂ : Level) : Bool → Unit → Level :=
  fun second _ => pair lv₁ lv₂ second

/-- The same value in both runs. -/
theorem exists_of_both {v : Bool → Value} (h : Both D (v false) (v true)) :
    ∃ w, v = (fun _ => w) ∧ D w := by
  obtain ⟨w, rfl⟩ : Common v := pair_eta v ▸ common_pair.2 h.1
  exact ⟨w, rfl, h.2⟩

/-- Lists of values that are the same, with a condition on each value. -/
def BothAll (D : Value → Prop) (vs ws : List Value) : Prop :=
  vs = ws ∧ ∀ v ∈ vs, D v

theorem bothAll_of_rows {vs ws : List Value}
    (h : Rows (fun v => Both D (v false) (v true)) (pair vs ws)) : BothAll D vs ws := by
  obtain ⟨row, hrow, hboth⟩ := h
  obtain rfl : vs = row.map (· false) := congrFun hrow false
  obtain rfl : ws = row.map (· true) := congrFun hrow true
  exact ⟨List.map_congr_left fun v hv => (hboth v hv).1,
    List.forall_mem_map.2 fun v hv => (hboth v hv).2⟩

/-- Rows that meet a condition side by side are those of one row of pairs. -/
theorem exists_row {P : Value → Value → Prop} {es₁ es₂ : List Value} (h : List.Forall₂ P es₁ es₂) :
    ∃ row : List (Bool → Value), row.map (· false) = es₁ ∧ row.map (· true) = es₂ ∧
      ∀ e ∈ row, P (e false) (e true) := by
  induction h with
  | nil => exact ⟨[], rfl, rfl, nofun⟩
  | @cons e₁ e₂ _ _ he _ ih =>
    obtain ⟨row, rfl, rfl, hrow⟩ := ih
    exact ⟨pair e₁ e₂ :: row, rfl, rfl, List.forall_mem_cons.2 ⟨he, hrow⟩⟩

theorem agree_makeList (closed : Value.ClosedOver D E) {vs : List Value} (h : ∀ v ∈ vs, E v) :
    C.Agree (Both D) (Eval.makeList vs) (Eval.makeList vs) := by
  cases vs with
  | nil => exact .pure ⟨rfl, closed.nil⟩
  | cons v vs =>
    refine Agree.freshId.bind ?_
    rintro made _ rfl
    exact .pure ⟨rfl, closed.list made (List.cons_ne_nil v vs) h⟩

/-- Agreement of two runs, where they have the same value and it meets a condition. -/
def judgement (C : Comparison) (closed : Value.ClosedOver D E) : Judgement Bool Unit OneWorld where
  Holds _ Q x := C.Agree (fun a b => Q .only (pair a b)) (x false ()) (x true ())
  value _ v := Both D (v false) (v true)
  item _ v := Both E (v false) (v true)
  pure {_ _ _ a} h := .pure ((pair_eta a).symm ▸ h)
  bind hx hf := hx.bind fun a b hab => hf .only (pair a b) le_rfl hab
  error e := .throw_self (Fault.error_ne_endless e)
  value_mono _ h := h
  item_of_value h := ⟨h.1, closed.part h.2⟩
  madeAlike := by
    intro _ v h
    obtain ⟨w, rfl, hw⟩ := exists_of_both h
    refine .same fun items made hlist u hu => ⟨rfl, ?_⟩
    subst hlist
    exact closed.item hw hu
  nil _ := ⟨rfl, closed.nil⟩
  t _ := ⟨rfl, closed.t⟩
  number _ n := ⟨rfl, closed.number n⟩
  makeList := by
    intro _ vs h
    have hsame : vs.map (· false) = vs.map (· true) := List.map_congr_left fun v hv => (h v hv).1
    change C.Agree (Both D) (Eval.makeList (vs.map (· false))) (Eval.makeList (vs.map (· true)))
    rw [← hsame]
    exact agree_makeList closed (List.forall_mem_map.2 fun v hv => (h v hv).2)
  printLine text := (Agree.printLine text).mono fun _ _ _ => trivial

/-! ## Operands -/

/-- Two operands in a frame that agree on every level there may be left for them. -/
structure Operand (C : Comparison) (D : Value → Prop) (lv₁ lv₂ : Level) (frame : FrameId)
    (e₁ e₂ : Value) : Prop where
  value : ∀ k, C.Agree (Both D) (lv₁.below k e₁ frame) (lv₂.below k e₂ frame)
  trace : ∀ k, C.Agree Eq ((lv₁.deeper k).trace e₁) ((lv₂.deeper k).trace e₂)

theorem Operand.deeper {frame : FrameId} {e₁ e₂ : Value} (h : C.Operand D lv₁ lv₂ frame e₁ e₂)
    (k : Nat) : C.Operand D (lv₁.deeper k) (lv₂.deeper k) frame e₁ e₂ := by
  refine ⟨fun more => h.value (k + more), fun more => ?_⟩
  have hlevels (lv : Level) : (lv.deeper k).deeper more = lv.deeper (k + more) := by
    simp only [Level.deeper, Nat.add_assoc, Nat.sub_sub]
  rw [hlevels, hlevels]
  exact h.trace (k + more)

section Sequences

variable {frame : FrameId} {es₁ es₂ : List Value}

/-- Operands that agree are judged. -/
theorem exists_judgesOperands (h : List.Forall₂ (C.Operand D lv₁ lv₂ frame) es₁ es₂)
    (closed : Value.ClosedOver D E) :
    ∃ row : List (Bool → Value), row.map (· false) = es₁ ∧ row.map (· true) = es₂ ∧
      (C.judgement closed).JudgesOperands (levelPair lv₁ lv₂) (fun _ => frame) .only row := by
  obtain ⟨row, hfirst, hsecond, hrow⟩ := exists_row h
  refine ⟨row, hfirst, hsecond, fun e he => ⟨fun _ => (hrow e he).value 0, fun _ => ?_⟩⟩
  exact ((hrow e he).trace 0).mono fun _ _ _ => trivial

theorem agree_sequence (h : List.Forall₂ (C.Operand D lv₁ lv₂ frame) es₁ es₂)
    (closed : Value.ClosedOver D E) :
    C.Agree (Both D) (lv₁.sequence frame es₁) (lv₂.sequence frame es₂) := by
  obtain ⟨row, rfl, rfl, hrow⟩ := exists_judgesOperands h closed
  exact hrow.sequence

theorem agree_evaluateAll (h : List.Forall₂ (C.Operand D lv₁ lv₂ frame) es₁ es₂)
    (closed : Value.ClosedOver D E) :
    C.Agree (BothAll D) (lv₁.evaluateAll frame es₁) (lv₂.evaluateAll frame es₂) := by
  obtain ⟨row, rfl, rfl, hrow⟩ := exists_judgesOperands h closed
  exact Agree.mono hrow.evaluateAll fun _ _ => bothAll_of_rows

end Sequences

/-! ## Texts -/

/-- What is no value of the kind wanted is named in an error. -/
theorem agree_complaint {β : Type} {Q : α → β → Prop} {ops₁ ops₂ : List Value} {frame : FrameId}
    {text₁ text₂ : String} (beside : C.Beside lv₁ lv₂)
    (text : ∀ cause, C.fault (.error (.arising cause text₁)) (.error (.arising cause text₂)))
    (cause : String → Cause) (v : Value) :
    C.Agree Q
      (lv₁.write v >>= fun got => (Call.mk ops₁ frame text₁).fail (cause got))
      (lv₂.write v >>= fun got => (Call.mk ops₂ frame text₂).fail (cause got)) := by
  refine (beside.write v).bind ?_
  rintro got _ rfl
  exact .throw (text (cause got))

/-- A comparison that gives up does so for the lack of room. -/
def orTooDeep (answer : Option α) : Except TextFault α :=
  answer.elim (.error .tooDeep) .ok

theorem orTooDeep_deepens {x y : Option α} (h : x = none ∨ x = y) :
    Deepens (orTooDeep x) (orTooDeep y) := by
  rcases h with rfl | rfl
  · exact Or.inl rfl
  · exact Deepens.refl _

theorem agree_allSame? (beside : C.Beside lv₁ lv₂) (first : Value) (others : List Value) :
    C.Agree Eq (needed (orTooDeep (Value.allSame? lv₁.room first others)))
      (needed (orTooDeep (Value.allSame? lv₂.room first others))) :=
  (beside.levels.texts (fun room => orTooDeep (Value.allSame? room first others))
    fun hle => orTooDeep_deepens (Value.allSame?_deepens hle first others)).agree

/-- What the runs write out of the same values is the same, and so is what they find equal. -/
theorem Beside.judgesTexts (beside : C.Beside lv₁ lv₂) (closed : Value.ClosedOver D E) :
    (C.judgement closed).JudgesTexts (levelPair lv₁ lv₂) where
  write := by
    intro _ v h
    obtain ⟨v, rfl, -⟩ := exists_of_both h
    exact (beside.write v).mono fun _ _ => common_pair.2
  trace := by
    intro _ v h
    obtain ⟨v, rfl, -⟩ := exists_of_both h
    exact (beside.trace v).mono fun _ _ _ => trivial
  allSame := by
    intro _ first others hfirst hothers
    obtain ⟨first, rfl, -⟩ := exists_of_both hfirst
    have hsame : others.map (· false) = others.map (· true) :=
      List.map_congr_left fun v hv => (hothers v hv).1
    -- A comparison that lacks room is like a text that lacks it, and excused in the same way.
    have hanswer := agree_allSame? beside first (others.map (· false))
    refine Agree.mono ?_ fun _ _ => common_pair.2
    dsimp only [levelPair, pair, cond_false, cond_true]
    rw [← hsame]
    revert hanswer
    cases Value.allSame? lv₁.room first (others.map (· false)) <;>
      cases Value.allSame? lv₂.room first (others.map (· false)) <;> exact id

/-! ## Calls -/

/-- Two calls from one frame with operands that agree. What is said of the calls themselves may
differ. -/
inductive Calls (C : Comparison) (D : Value → Prop) (lv₁ lv₂ : Level) : Call → Call → Prop
  | intro {es₁ es₂ : List Value} {frame : FrameId} {text₁ text₂ : String}
    (beside : C.Beside lv₁ lv₂)
    (operands : List.Forall₂ (C.Operand D lv₁ lv₂ frame) es₁ es₂)
    (text : ∀ cause, C.fault (.error (.arising cause text₁)) (.error (.arising cause text₂))) :
    Calls C D lv₁ lv₂ ⟨es₁, frame, text₁⟩ ⟨es₂, frame, text₂⟩

/-- Both runs may turn as often, unless one is excused when it may not turn again. -/
theorem turnsAlike (closed : Value.ClosedOver D E) (hendless : C.fault .endless .endless)
    {a b : Nat} (h : C.Bounds .endless a b) :
    (C.judgement closed).TurnsAlike fun second _ => pair a b second := by
  induction a generalizing b with
  | zero =>
    refine .reached fun {_ x} hx => ?_
    change C.Agree (Both D) (x false ()) (x true ())
    rw [hx false () rfl]
    cases b with
    | zero =>
      rw [hx true () rfl]
      exact .throw hendless
    | succ b => exact .of_reached₁ h
  | succ a ih =>
    cases b with
    | zero =>
      refine .reached fun {_ x} hx => ?_
      change C.Agree (Both D) (x false ()) (x true ())
      rw [hx true () rfl]
      exact .of_reached₂ h
    | succ b =>
      have hturns : pair (a + 1) (b + 1) = fun second => pair a b second + 1 :=
        pair_eta fun second => pair a b second + 1
      rw [hturns]
      exact .turn (ih (h.sub 1))

theorem Beside.turnsAlike (beside : C.Beside lv₁ lv₂) (closed : Value.ClosedOver D E)
    (hendless : C.fault .endless .endless) :
    (C.judgement closed).TurnsAlike fun second _ => (levelPair lv₁ lv₂ second ()).turns := by
  have hturns (second : Bool) :
      (levelPair lv₁ lv₂ second ()).turns = pair lv₁.turns lv₂.turns second := by
    cases second <;> rfl
  simp only [hturns]
  exact Comparison.turnsAlike closed hendless beside.turns

namespace Calls

/-- Less levels for the same calls. -/
theorem deeper (h : C.Calls D lv₁ lv₂ c₁ c₂) (k : Nat) :
    C.Calls D (lv₁.deeper k) (lv₂.deeper k) c₁ c₂ := by
  obtain ⟨beside, operands, text⟩ := h
  exact .intro (beside.deeper k) (operands.imp fun _ _ ho => ho.deeper k) text

theorem beside (h : C.Calls D lv₁ lv₂ c₁ c₂) : C.Beside lv₁ lv₂ := by
  obtain ⟨beside, -, -⟩ := h
  exact beside

/-- Two calls with operands that agree are judged by them. -/
theorem exists_judgesCalls (h : C.Calls D lv₁ lv₂ c₁ c₂) (closed : Value.ClosedOver D E) :
    ∃ c : CallFamily Bool, c.inRun false = c₁ ∧ c.inRun true = c₂ ∧
      (C.judgement closed).JudgesCalls (levelPair lv₁ lv₂) .only c := by
  obtain ⟨beside, operands, text⟩ := h
  obtain ⟨row, rfl, rfl, hrow⟩ := exists_judgesOperands operands closed
  exact ⟨⟨row, fun _ => _, pair _ _⟩, rfl, rfl, beside.judgesTexts closed, hrow,
    fun cause => .throw (text cause)⟩

theorem operandItems (h : C.Calls D lv₁ lv₂ c₁ c₂) (closed : Value.ClosedOver D E)
    (op : Builtin) :
    C.Agree (BothAll E) (lv₁.operandItems op c₁) (lv₂.operandItems op c₂) := by
  obtain ⟨c, rfl, rfl, hc⟩ := h.exists_judgesCalls closed
  exact Agree.mono (hc.operandItems op) fun _ _ => bothAll_of_rows

/-- Calls of a builtin that binds nothing agree when the operands do. -/
theorem applyBuiltin (h : C.Calls D lv₁ lv₂ c₁ c₂) (closed : Value.Closed D) {op : Builtin}
    (hop : op.binds = false) (hendless : op = .whileForm → C.fault .endless .endless) :
    C.Agree (Both D) (lv₁.applyBuiltin op c₁) (lv₂.applyBuiltin op c₂) := by
  have beside := h.beside
  obtain ⟨c, rfl, rfl, hc⟩ := h.exists_judgesCalls closed.over
  have hbinding : op.binds = true → (C.judgement closed.over).JudgesBinding op c fun _ => True :=
    fun hbinds => absurd hbinds (hop ▸ Bool.false_ne_true)
  refine hc.applyBuiltin ?_ (fun _ => rfl) (fun hwhile => beside.turnsAlike _ (hendless hwhile))
    hbinding
  rintro rfl
  cases hop

section

variable {c : Call} {N : String → Prop}

/-- One call in both runs, with operands that agree each with itself, is judged by them. -/
theorem judgesCalls (h : C.Calls D lv₁ lv₂ c c) (closed : Value.ClosedOver D E) :
    (C.judgement closed).JudgesCalls (levelPair lv₁ lv₂) .only (.same c) := by
  obtain ⟨beside, operands, text⟩ := h
  refine ⟨beside.judgesTexts closed, forall_mem_sameRow.2 fun e he => ⟨fun _ => ?_, fun _ => ?_⟩,
    fun cause => .throw (text cause)⟩
  · exact (List.forall₂_same.1 operands e he).value 0
  · exact ((List.forall₂_same.1 operands e he).trace 0).mono fun _ _ _ => trivial

/-- One call of any builtin but `defun` agrees with itself when its operands do, and what it binds
agrees. The items of lists need only meet another condition than the values, if the builtin is not
`car`. -/
theorem applyBuiltin_same (h : C.Calls D lv₁ lv₂ c c) (closed : Value.ClosedOver D E)
    {op : Builtin} (hop : op ≠ .defun) (hcar : op = .car → E = D)
    (hendless : op = .whileForm → C.fault .endless .endless) (htargets : c.Targets D N)
    (hdefine : ∀ x v, N x → D v →
      C.Agree Eq (Eval.define c.frame x v) (Eval.define c.frame x v))
    (hassign : op = .setForm → ∀ x v, N x → D v →
      C.Agree Eq (Eval.assign c.frame x v) (Eval.assign c.frame x v)) :
    C.Agree (Both D) (lv₁.applyBuiltin op c) (lv₂.applyBuiltin op c) := by
  have hitem (heq : op = .car) : (C.judgement closed).item = (C.judgement closed).value := by
    obtain rfl := hcar heq
    rfl
  have hbinding : (C.judgement closed).JudgesBinding op (.same c) N := by
    refine ⟨Judgement.names_same htargets.spelled fun hv => htargets.symbol _ hv.2,
      fun _ _ x v hx hv => ?_, fun hset _ x v hx hv => ?_⟩
    · obtain ⟨v, rfl, hdata⟩ := exists_of_both hv
      exact (hdefine x v hx hdata).mono fun _ _ _ => trivial
    · obtain ⟨v, rfl, hdata⟩ := exists_of_both hv
      exact (hassign hset x v hx hdata).mono fun _ _ => common_pair.2
  have hbuiltin := (h.judgesCalls closed).applyBuiltin hop hitem
    (fun hwhile => h.beside.turnsAlike closed (hendless hwhile)) fun _ => hbinding
  simp only [CallFamily.inRun_same] at hbuiltin
  exact hbuiltin

end

end Calls
end Comparison
end Fexpr
