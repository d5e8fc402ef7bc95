import Fexpr.Level.Application
import Fexpr.Proofs.Judgement

/-!
# Builtins under a judgement

Calls of a builtin are judged by their values if the evaluations of their operands are, and if it is
known what levels do with values by themselves (`JudgesCalls`): whatever is said of computations and
of values, for every builtin that binds no name, and for `let` and `set` where the bindings that
they make are judged too (`JudgesBinding`).
-/

namespace Fexpr

/-- Whether the builtin binds a name, or changes a binding. -/
def Builtin.binds : Builtin → Bool
  | letForm | setForm | defun => true
  | _ => false

namespace Judgement

variable {I L W : Type} [Preorder W] {J : Judgement I L W} {lv : I → L → Level}
  {frame : I → FrameId} {w w' : W} {e : I → Value} {es : List (I → Value)} {c : CallFamily I}

/-! ## Operands -/

theorem JudgesOperand.mono (h : J.JudgesOperand lv frame w e) (hle : w ≤ w') :
    J.JudgesOperand lv frame w' e :=
  ⟨fun hle' => h.value (hle.trans hle'), fun hle' => h.trace (hle.trans hle')⟩

theorem JudgesOperand.evaluate (h : J.JudgesOperand lv frame w e) :
    J.Holds w J.value fun i l => (lv i l).evaluate (e i) (frame i) :=
  h.value le_rfl

/-- The evaluations of all expressions of a row are judged. -/
abbrev JudgesOperands (J : Judgement I L W) (lv : I → L → Level) (frame : I → FrameId) (w : W)
    (es : List (I → Value)) : Prop :=
  ∀ e ∈ es, J.JudgesOperand lv frame w e

theorem JudgesOperands.mono (h : J.JudgesOperands lv frame w es) (hle : w ≤ w') :
    J.JudgesOperands lv frame w' es :=
  fun e he => (h e he).mono hle

theorem JudgesOperands.sequenceAfter (h : J.JudgesOperands lv frame w es) {last : I → Value}
    (hlast : J.value w last) :
    J.Holds w J.value fun i l => (lv i l).sequenceAfter (frame i) (last i) (es.map (· i)) := by
  induction es generalizing w last with
  | nil => exact J.pure hlast
  | cons e es ih =>
    obtain ⟨he, hes⟩ := List.forall_mem_cons.1 h
    exact J.bind he.evaluate fun w' v hle hv => ih (JudgesOperands.mono hes hle) hv

theorem JudgesOperands.sequence (h : J.JudgesOperands lv frame w es) :
    J.Holds w J.value fun i l => (lv i l).sequence (frame i) (es.map (· i)) :=
  h.sequenceAfter (J.nil w)

theorem JudgesOperands.evaluateAll (h : J.JudgesOperands lv frame w es) :
    J.Holds w (fun w => Rows (J.value w)) fun i l =>
      (lv i l).evaluateAll (frame i) (es.map (· i)) := by
  induction es generalizing w with
  | nil => exact J.pure ⟨[], rfl, nofun⟩
  | cons e es ih =>
    obtain ⟨he, hes⟩ := List.forall_mem_cons.1 h
    refine J.bind he.evaluate fun w' v hle hv => ?_
    refine J.bind (ih (JudgesOperands.mono hes hle)) fun w'' _ hle' hvs => ?_
    obtain ⟨vs, rfl, hvs⟩ := hvs
    exact J.pure ⟨v :: vs, rfl, List.forall_mem_cons.2 ⟨J.value_mono hle' hv, hvs⟩⟩

/-- A branch is taken in all runs or in none. -/
theorem holds_ite {α : Type} {Q : W → (I → α) → Prop} {v : I → Value} {x y : I → L → Eval α}
    (hv : J.value w' v) (hx : J.Holds w Q x) (hy : J.Holds w Q y) :
    J.Holds w Q fun i l => if (v i).isNil then x i l else y i l := by
  obtain ⟨b, hb⟩ := (J.madeAlike hv).isNil
  simp only [congrFun hb]
  cases b with
  | true => exact hx
  | false => exact hy

/-- The runs turn as often, up to where no more turns are judged. -/
theorem JudgesOperands.loop {test : I → Value} (htest : J.JudgesOperand lv frame w test)
    (h : J.JudgesOperands lv frame w es) {turns : I → L → Nat} (hturns : J.TurnsAlike turns) :
    J.Holds w J.value fun i l => (lv i l).loop (frame i) (test i) (es.map (· i)) (turns i l) := by
  induction hturns generalizing w with
  | reached hreached => exact hreached fun i l hi => by rw [hi]; rfl
  | turn _ ih =>
    refine J.bind htest.evaluate fun w' v hle hv => ?_
    refine holds_ite hv (J.pure (J.nil w')) ?_
    exact J.bind (h.mono hle).sequence fun w'' _ hle' _ =>
      ih (htest.mono (hle.trans hle')) (h.mono (hle.trans hle'))

/-! ## Calls -/

/-- The calls may be judged by their operands. -/
structure JudgesCalls (J : Judgement I L W) (lv : I → L → Level) (w : W) (c : CallFamily I) :
    Prop where
  texts : J.JudgesTexts lv
  operands : J.JudgesOperands lv c.frame w c.operands
  fail : ∀ {α : Type} {w : W} {Q : W → (I → α) → Prop} (cause : Cause),
    J.Holds w Q fun i _ => (c.inRun i).fail cause

/-- What is no value of the kind wanted is named in an error. -/
theorem JudgesCalls.complaint {α : Type} {Q : W → (I → α) → Prop} (h : J.JudgesCalls lv w c)
    {v : I → Value} (hv : J.value w' v) (cause : String → Cause) :
    J.Holds w' Q fun i l => (lv i l).write (v i) >>= fun got => (c.inRun i).fail (cause got) := by
  refine J.bind (h.texts.write hv) fun _ _ _ hgot => ?_
  obtain ⟨got, rfl⟩ := hgot
  exact h.fail (cause got)

namespace JudgesCalls

variable (h : J.JudgesCalls lv w c)

include h

/-! ### Control -/

theorem ifForm : J.Holds w J.value fun i l => (lv i l).ifForm (c.inRun i) := by
  obtain ⟨operands, frame, text⟩ := c
  match operands with
  | [] | [_] => exact h.fail _
  | test :: yes :: no =>
    obtain ⟨htest, hrest⟩ := List.forall_mem_cons.1 h.operands
    refine J.bind htest.evaluate fun w₁ v hle hv => ?_
    -- Progress is reported twice, with the test as it stands and with its value.
    refine J.bind (htest.trace hle) fun w₂ _ hle₂ _ => ?_
    refine J.bind (h.texts.trace (J.value_mono hle₂ hv)) fun w₃ _ hle₃ _ => ?_
    obtain ⟨hyes, hno⟩ := List.forall_mem_cons.1
      (JudgesOperands.mono hrest (hle.trans (hle₂.trans hle₃)))
    exact holds_ite hv (JudgesOperands.sequence hno) hyes.evaluate

theorem progn : J.Holds w J.value fun i l => (lv i l).progn (c.inRun i) :=
  h.operands.sequence

theorem whenForm : J.Holds w J.value fun i l => (lv i l).whenForm (c.inRun i) := by
  obtain ⟨operands, frame, text⟩ := c
  match operands with
  | [] | [_] => exact h.fail _
  | test :: e :: body =>
    obtain ⟨htest, hbody⟩ := List.forall_mem_cons.1 h.operands
    refine J.bind htest.evaluate fun w' v hle hv => ?_
    exact holds_ite hv (J.pure (J.nil w')) (JudgesOperands.mono hbody hle).sequence

theorem whileForm (hturns : J.TurnsAlike fun i l => (lv i l).turns) :
    J.Holds w J.value fun i l => (lv i l).whileForm (c.inRun i) := by
  obtain ⟨operands, frame, text⟩ := c
  match operands with
  | [] | [_] => exact h.fail _
  | test :: e :: body =>
    obtain ⟨htest, hbody⟩ := List.forall_mem_cons.1 h.operands
    exact JudgesOperands.loop htest hbody hturns

/-! ### Computation -/

theorem numbers (op : Builtin) (hes : J.JudgesOperands lv c.frame w' es) (position : Nat) :
    J.Holds w' (fun _ => Common) fun i l =>
      (lv i l).numbers op (c.inRun i) position (es.map (· i)) := by
  induction es generalizing w' position with
  | nil => exact J.pure ⟨[], rfl⟩
  | cons e es ih =>
    obtain ⟨he, hes⟩ := List.forall_mem_cons.1 hes
    refine J.bind he.evaluate fun w'' v hle hv => ?_
    cases J.madeAlike hv with
    | number n =>
      refine J.bind (ih (JudgesOperands.mono hes hle) (position + 1)) fun _ _ _ hns => ?_
      obtain ⟨ns, rfl⟩ := hns
      exact J.pure ⟨n :: ns, rfl⟩
    | _ => exact h.complaint hv _

theorem operandNumbers (op : Builtin) :
    J.Holds w (fun _ => Common) fun i l => (lv i l).operandNumbers op (c.inRun i) := by
  obtain ⟨operands, frame, text⟩ := c
  cases operands with
  | nil => exact h.fail _
  | cons e es => exact h.numbers op h.operands 1

theorem add : J.Holds w J.value fun i l => (lv i l).add (c.inRun i) := by
  refine J.bind (h.operandNumbers .add) fun w' _ _ hns => ?_
  obtain ⟨ns, rfl⟩ := hns
  exact J.bind (h.texts.trace (J.number w' (Arithmetic.sum ns))) fun w'' _ _ _ =>
    J.pure (J.number w'' (Arithmetic.sum ns))

theorem subtract : J.Holds w J.value fun i l => (lv i l).subtract (c.inRun i) := by
  refine J.bind (h.operandNumbers .subtract) fun w' _ _ hns => ?_
  obtain ⟨ns, rfl⟩ := hns
  exact J.pure (J.number w' _)

theorem multiply : J.Holds w J.value fun i l => (lv i l).multiply (c.inRun i) := by
  refine J.bind (h.operandNumbers .multiply) fun w' _ _ hns => ?_
  obtain ⟨ns, rfl⟩ := hns
  exact J.pure (J.number w' _)

theorem divide : J.Holds w J.value fun i l => (lv i l).divide (c.inRun i) := by
  refine J.bind (h.operandNumbers .divide) fun w' _ _ hns => ?_
  obtain ⟨ns, rfl⟩ := hns
  cases ns with
  | nil => exact h.fail _
  | cons n divisors =>
    dsimp only
    cases Arithmetic.quotient? n divisors with
    | none => exact h.fail _
    | some q => exact J.pure (J.number w' q)

theorem allEqual : J.Holds w (fun _ => Common) fun i l => (lv i l).allEqual (c.inRun i) := by
  obtain ⟨operands, frame, text⟩ := c
  cases operands with
  | nil => exact h.fail _
  | cons e es =>
    refine J.bind h.operands.evaluateAll fun w' _ _ hvs => ?_
    obtain ⟨vs, rfl, hvs⟩ := hvs
    cases vs with
    | nil => exact J.pure ⟨true, rfl⟩
    | cons first others =>
      obtain ⟨hfirst, hothers⟩ := List.forall_mem_cons.1 hvs
      exact h.texts.allSame hfirst hothers

theorem equal : J.Holds w J.value fun i l => (lv i l).equal (c.inRun i) := by
  refine J.bind h.allEqual fun w' _ _ hanswer => ?_
  obtain ⟨answer, rfl⟩ := hanswer
  exact J.pure (J.ofBool w' answer)

theorem unequal : J.Holds w J.value fun i l => (lv i l).unequal (c.inRun i) := by
  refine J.bind h.allEqual fun w' _ _ hanswer => ?_
  obtain ⟨answer, rfl⟩ := hanswer
  exact J.pure (J.ofBool w' !answer)

theorem list : J.Holds w J.value fun i l => (lv i l).list (c.inRun i) := by
  refine J.bind h.operands.evaluateAll fun _ _ _ hvs => ?_
  obtain ⟨vs, rfl, hvs⟩ := hvs
  exact J.makeList fun v hv => J.item_of_value (hvs v hv)

theorem operandItems (op : Builtin) :
    J.Holds w (fun w => Rows (J.item w)) fun i l => (lv i l).operandItems op (c.inRun i) := by
  obtain ⟨operands, frame, text⟩ := c
  match operands with
  | [] | _ :: _ :: _ => exact h.fail _
  | [e] =>
    refine J.bind (List.forall_mem_singleton.1 h.operands).evaluate fun w' v _ hv => ?_
    cases J.madeAlike hv with
    | nil => exact J.pure ⟨[], rfl, nofun⟩
    | list made hitems => exact J.pure ⟨_, rfl, hitems⟩
    | _ => exact h.complaint hv _

/-- The first item of a list may not be such a value as other builtins make. -/
theorem car : J.Holds w J.item fun i l => (lv i l).car (c.inRun i) := by
  refine J.bind (h.operandItems .car) fun w' _ _ hitems => ?_
  obtain ⟨items, rfl, hitems⟩ := hitems
  cases items with
  | nil => exact J.pure (J.item_of_value (J.nil w'))
  | cons v vs => exact J.pure (hitems v List.mem_cons_self)

theorem cdr : J.Holds w J.value fun i l => (lv i l).cdr (c.inRun i) := by
  refine J.bind (h.operandItems .cdr) fun _ _ _ hitems => ?_
  obtain ⟨items, rfl, hitems⟩ := hitems
  simp only [← List.map_tail]
  exact J.makeList fun v hv => hitems v (List.mem_of_mem_tail hv)

theorem debug : J.Holds w J.value fun i l => (lv i l).debug (c.inRun i) := by
  obtain ⟨operands, frame, text⟩ := c
  match operands with
  | [] | _ :: _ :: _ => exact h.fail _
  | [e] =>
    refine J.bind (List.forall_mem_singleton.1 h.operands).evaluate fun _ v _ hv => ?_
    refine J.bind (h.texts.write hv) fun _ _ hle htext => ?_
    obtain ⟨text, rfl⟩ := htext
    exact J.bind (J.printLine text) fun _ _ hle' _ => J.pure (J.value_mono (hle.trans hle') hv)

/-! ### Binding -/

section

variable {N : String → Prop}

theorem target (hnames : J.Names c N) (op : Builtin) (he : e ∈ c.operands) :
    J.Holds w (fun _ a => ∃ x, a = (fun _ => x) ∧ N x) fun i l =>
      (lv i l).target op (c.inRun i) (e i) := by
  obtain ⟨name?, hname⟩ := hnames.spelled e he
  unfold Level.target
  simp only [congrFun hname.1]
  cases name? with
  | some x => exact J.pure ⟨x, rfl, hname.2 x rfl⟩
  | none =>
    refine J.bind (h.operands e he).evaluate fun w' v _ hv => ?_
    cases J.madeAlike hv with
    | symbol x => exact J.pure ⟨x, rfl, hnames.symbol hv⟩
    | _ => exact h.complaint hv _

theorem letForm (hbinding : J.JudgesBinding .letForm c N) :
    J.Holds w J.value fun i l => (lv i l).letForm (c.inRun i) := by
  obtain ⟨operands, frame, text⟩ := c
  match operands with
  | [] | [_] | _ :: _ :: _ :: _ => exact h.fail _
  | [operand, e] =>
    refine J.bind (h.target hbinding.names .letForm List.mem_cons_self) fun _ _ hle htarget => ?_
    obtain ⟨x, rfl, hx⟩ := htarget
    have he : J.JudgesOperand lv frame w e := h.operands e (by simp)
    refine J.bind (he.mono hle).evaluate fun _ v _ hv => ?_
    refine J.bind (hbinding.define rfl _ x v hx hv) fun _ _ hle' _ => ?_
    refine J.bind (h.texts.trace (J.value_mono hle' hv)) fun _ _ hle'' _ => ?_
    exact J.pure (J.value_mono (hle'.trans hle'') hv)

theorem setForm (hbinding : J.JudgesBinding .setForm c N) :
    J.Holds w J.value fun i l => (lv i l).setForm (c.inRun i) := by
  obtain ⟨operands, frame, text⟩ := c
  match operands with
  | [] | [_] | _ :: _ :: _ :: _ => exact h.fail _
  | [operand, e] =>
    refine J.bind (h.target hbinding.names .setForm List.mem_cons_self) fun _ _ hle htarget => ?_
    obtain ⟨x, rfl, hx⟩ := htarget
    have he : J.JudgesOperand lv frame w e := h.operands e (by simp)
    refine J.bind (he.mono hle).evaluate fun _ v _ hv => ?_
    refine J.bind (hbinding.assign rfl _ x v hx hv) fun _ _ hle' hassigned => ?_
    obtain ⟨assigned, rfl⟩ := hassigned
    -- A name that is bound nowhere is an error, and nothing is reported.
    cases assigned with
    | false => exact J.error _
    | true =>
      refine J.bind (h.texts.trace (J.value_mono hle' hv)) fun _ _ hle'' _ => ?_
      exact J.pure (J.value_mono (hle'.trans hle'') hv)

end

/-! ### All builtins -/

/-- Calls of any builtin but `defun` are judged if their operands are, and the bindings of a
builtin that binds. What is said of the value of `car` is what is said of items. -/
theorem applyBuiltin {N : String → Prop} {op : Builtin} (hop : op ≠ .defun)
    (hcar : op = .car → J.item = J.value)
    (hturns : op = .whileForm → J.TurnsAlike fun i l => (lv i l).turns)
    (hbinding : op.binds = true → J.JudgesBinding op c N) :
    J.Holds w J.value fun i l => (lv i l).applyBuiltin op (c.inRun i) := by
  cases op with
  | defun => exact absurd rfl hop
  | letForm => exact h.letForm (hbinding rfl)
  | setForm => exact h.setForm (hbinding rfl)
  | car => exact hcar rfl ▸ h.car
  | ifForm => exact h.ifForm
  | progn => exact h.progn
  | whenForm => exact h.whenForm
  | whileForm => exact h.whileForm (hturns rfl)
  | add => exact h.add
  | subtract => exact h.subtract
  | multiply => exact h.multiply
  | divide => exact h.divide
  | equal => exact h.equal
  | unequal => exact h.unequal
  | list => exact h.list
  | cdr => exact h.cdr
  | debug => exact h.debug

end JudgesCalls
end Judgement
end Fexpr
