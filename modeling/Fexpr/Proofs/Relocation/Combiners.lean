import Fexpr.Proofs.Judgement.Builtins
import Fexpr.Proofs.Relocation

/-!
# Combiners on top of other machines

A level that evaluates on top of a base as it does by itself applies combiners there as it does by
itself: the builtins and fexprs. A combiner looks at values in ways that are not moved only, and
makes new ones through the machine. That a run is moved is a judgement of two runs (`relocation`),
and so it is known of the builtins.
-/

namespace Fexpr

/-! ## Two runs -/

/-- How a run by itself and one on top of the base end, if the second does what the first does. -/
inductive MovedEnds (base : Machine) {α : Type} (Q : α → α → Prop) :
    Except Fault α × Machine → Except Fault α × Machine → Prop
  | value {a b : α} (m : Machine) (h : Q a b) : MovedEnds base Q (.ok a, m) (.ok b, m.moved base)
  | fault (f : Fault) (m : Machine) : MovedEnds base Q (.error f, m) (.error f, m.moved base)

/-- Values by themselves and on top of the base. -/
def alongside (base : Machine) (vs : List Value) : List (Bool → Value) :=
  vs.map fun v => pair v (v.moved base)

theorem alongside_false (base : Machine) (vs : List Value) :
    (alongside base vs).map (· false) = vs := by
  unfold alongside
  rw [List.map_map]
  exact List.map_id vs

theorem alongside_true (base : Machine) (vs : List Value) :
    (alongside base vs).map (· true) = vs.map (Value.moved base) := by
  unfold alongside
  rw [List.map_map]
  rfl

theorem map_true_of_moved {base : Machine} {vs : List (Bool → Value)}
    (h : ∀ v ∈ vs, v true = (v false).moved base) :
    vs.map (· true) = (vs.map (· false)).map (Value.moved base) := by
  rw [List.map_map]
  exact List.map_congr_left h

/-- A value is made alike by itself and on top of the base. -/
theorem Value.madeAlike_moved (base : Machine) (v : Value) :
    MadeAlike (fun w => w true = (w false).moved base) (pair v (v.moved base)) := by
  -- A pair of values that are built in one way is built from pairs.
  have of_eta {w : Bool → Value} (h : MadeAlike (fun w => w true = (w false).moved base) w) :
      MadeAlike (fun w => w true = (w false).moved base) (pair (w false) (w true)) :=
    (pair_eta w).symm ▸ h
  cases v with
  | list items made =>
    have hitems : ∀ w ∈ alongside base items, w true = (w false).moved base :=
      List.forall_mem_map.2 fun _ _ => rfl
    have hlist := of_eta (.list (pair made (made.map (base.nextId + ·))) hitems)
    rw [alongside_false, alongside_true] at hlist
    rw [moved_list]
    exact hlist
  | symbol name => exact of_eta (.symbol name)
  | number n => exact of_eta (.number n)
  | string text => exact of_eta (.string fun _ => text)
  | quote body => exact of_eta (.quote (pair body (body.moved base)))
  | unquote body => exact of_eta (.unquote (pair body (body.moved base)))
  | nil => exact of_eta .nil
  | builtin op home => exact of_eta (.builtin (fun _ => op) (pair home (base.place home)))
  | raiser message id => exact of_eta (.raiser (fun _ => message) (pair id (base.nextId + id)))
  | fexpr id name params body home =>
    exact of_eta (.fexpr (pair id (base.nextId + id)) (fun _ => name) (fun _ => params)
      (pair body (movedAll base body)) (pair home (base.place home)))
  | suspended e frame sequence id =>
    exact of_eta (.suspended (pair e (e.moved base)) (pair frame (base.place frame))
      (fun _ => sequence) (pair id (base.nextSuspension + id)))
  | hostNumber n => exact of_eta (.hostNumber fun _ => n)
  | hostText text => exact of_eta (.hostText fun _ => text)

section

variable {base : Machine} {α : Type} {f : α → α} {x y : Eval α}

/-- A run that is moved ends as the run by itself. -/
theorem Moves.ends (h : Moves base f x y) {Q : α → α → Prop} (hQ : ∀ a, Q a (f a)) (m : Machine) :
    MovedEnds base Q (x m) (y (m.moved base)) := by
  rw [h m]
  rcases x m with ⟨fault | a, m'⟩
  · exact .fault fault m'
  · exact .value m' (hQ a)

/-- A run is moved if it ends as the run by itself, from any machine. -/
theorem moves_of_ends (h : ∀ m, MovedEnds base (fun a b => b = f a) (x m) (y (m.moved base))) :
    Moves base f x y := by
  intro m
  have hends := h m
  revert hends
  generalize x m = r
  generalize y (m.moved base) = s
  rintro (⟨m', rfl⟩ | ⟨fault, m'⟩) <;> rfl

end

/-- What a run by itself does and a run on top of the base does, moved. -/
def relocation (base : Machine) : Judgement Bool Unit OneWorld where
  Holds _ Q x := ∀ m,
    MovedEnds base (fun a b => Q .only (pair a b)) (x false () m) (x true () (m.moved base))
  value _ v := v true = (v false).moved base
  item _ v := v true = (v false).moved base
  pure {_ _ _ a} h := fun m => .value m ((pair_eta a).symm ▸ h)
  bind {_ _ _ _ _ x f} hx hf m := by
    have hends := hx m
    dsimp only
    rw [Eval.bind_run, Eval.bind_run]
    revert hends
    generalize x false () m = r
    generalize x true () (m.moved base) = s
    rintro (⟨m', h⟩ | ⟨fault, m'⟩)
    · exact hf .only _ le_rfl h m'
    · exact .fault fault m'
  error e := fun m => .fault (.error e) m
  value_mono _ h := h
  item_of_value h := h
  madeAlike {_ v} h := by
    rw [← pair_eta v, h]
    exact Value.madeAlike_moved base (v false)
  nil _ := rfl
  t _ := rfl
  number _ _ := rfl
  makeList {_ vs} h := by
    have hmake : Moves base (Value.moved base) (Eval.makeList (vs.map (· false)))
        (Eval.makeList (vs.map (· true))) :=
      map_true_of_moved h ▸ Moves.makeList (vs.map (· false))
    exact hmake.ends fun _ => rfl
  printLine text := (Moves.printLine text).ends fun _ => trivial

/-- The call by itself and on top of the base. -/
def Call.alongside (base : Machine) (c : Call) : CallFamily Bool :=
  ⟨Fexpr.alongside base c.operands, pair c.frame (base.place c.frame), fun _ => c.text⟩

theorem Call.alongside_false (base : Machine) (c : Call) : (c.alongside base).inRun false = c := by
  simp only [alongside, CallFamily.inRun, Fexpr.alongside_false, pair, cond_false]

theorem Call.alongside_true (base : Machine) (c : Call) :
    (c.alongside base).inRun true = c.moved base := by
  simp only [alongside, CallFamily.inRun, Fexpr.alongside_true, pair, cond_true, Call.moved]

/-! ## Levels -/

/-- The evaluations below the level do on top of the base what they do by themselves. -/
def Level.Movable (lv : Level) (base : Machine) : Prop :=
  ∀ (skipped : Nat) (e : Value) (frame : FrameId),
    Moves base (Value.moved base) (lv.below skipped e frame)
      (lv.below skipped (e.moved base) (base.place frame))

namespace Level

variable {base : Machine} {lv : Level}

theorem Movable.deeper (h : lv.Movable base) (skipped : Nat) : (lv.deeper skipped).Movable base :=
  fun more => h (skipped + more)

/-! ## Texts -/

theorem moves_write (lv : Level) (v : Value) :
    Moves base id (lv.write v) (lv.write (v.moved base)) := by
  unfold write
  rw [Value.render_moved]
  cases v.render lv.room with
  | ok text => exact .pure text
  | error fault => exact .throw fault.toFault

theorem moves_trace (lv : Level) (v : Value) :
    Moves base id (lv.trace v) (lv.trace (v.moved base)) := by
  unfold trace
  split
  · exact (moves_write lv v).bind fun _ => .pure ()
  · exact .pure ()

variable {β : Type} {f : β → β}

theorem moves_fail (c : Call) (cause : Cause) :
    Moves base f (c.fail cause) ((c.moved base).fail cause) :=
  .throw _

/-- What is no value of the kind wanted is named in an error by its text. -/
theorem moves_complaint (lv : Level) (c : Call) (cause : String → Cause) (v : Value) :
    Moves base f (lv.write v >>= fun got => c.fail (cause got))
      (lv.write (v.moved base) >>= fun got => (c.moved base).fail (cause got)) :=
  (moves_write lv v).bind fun _ => moves_fail c _

theorem judgesTexts_relocation (lv : Level) : (relocation base).JudgesTexts fun _ _ => lv where
  write {_ v} hv := by
    have hwrite : Moves base id (lv.write (v false)) (lv.write (v true)) :=
      hv ▸ moves_write lv (v false)
    exact hwrite.ends fun _ => common_pair.2 rfl
  trace {_ v} hv := by
    have htrace : Moves base id (lv.trace (v false)) (lv.trace (v true)) :=
      hv ▸ moves_trace lv (v false)
    exact htrace.ends fun _ => trivial
  allSame {_ first others} hfirst hothers := by
    have hsame : Value.allSame? lv.room (first true) (others.map (· true)) =
        Value.allSame? lv.room (first false) (others.map (· false)) := by
      rw [hfirst, map_true_of_moved hothers, Value.allSame?_moved]
    intro m
    dsimp only
    rw [hsame]
    cases Value.allSame? lv.room (first false) (others.map (· false)) with
    | none => exact .fault _ _
    | some answer => exact .value _ (common_pair.2 rfl)

/-! ## Sequences -/

section

variable (h : lv.Movable base)

include h

theorem judgesOperands (frame : FrameId) (es : List Value) :
    (relocation base).JudgesOperands (fun _ _ => lv) (pair frame (base.place frame)) .only
      (alongside base es) := by
  refine List.forall_mem_map.2 fun e _ => ⟨fun _ => ?_, fun _ => ?_⟩
  · exact (h 0 e frame).ends fun _ => rfl
  · exact (moves_trace lv e).ends fun _ => trivial

theorem moves_sequence (frame : FrameId) (es : List Value) :
    Moves base (Value.moved base) (lv.sequence frame es)
      (lv.sequence (base.place frame) (es.map (Value.moved base))) := by
  have hsequence := moves_of_ends (judgesOperands h frame es).sequence
  dsimp only at hsequence
  rw [alongside_false, alongside_true] at hsequence
  exact hsequence

theorem moves_evaluateAll (frame : FrameId) (es : List Value) :
    Moves base (List.map (Value.moved base)) (lv.evaluateAll frame es)
      (lv.evaluateAll (base.place frame) (es.map (Value.moved base))) := by
  induction es with
  | nil => exact .pure []
  | cons e es ih => exact (h 0 e frame).bind fun v => ih.bind fun vs => .pure (v :: vs)

/-- A suspended operand is evaluated in its own frame, which is on top of the base too. -/
theorem moves_force (e : Value) (frame : FrameId) (sequence : Bool) :
    Moves base (Value.moved base) (lv.force e frame sequence)
      (lv.force (e.moved base) (base.place frame) sequence) := by
  refine (moves_trace lv e).bind fun _ => ?_
  cases sequence with
  | false => exact h 0 e frame
  | true =>
    cases e with
    | list items made =>
      rw [Value.moved_list]
      exact moves_sequence h frame items
    | _ => exact .pure Value.nil

/-! ## Builtins -/

theorem judgesCalls (c : Call) :
    (relocation base).JudgesCalls (fun _ _ => lv) .only (c.alongside base) :=
  ⟨judgesTexts_relocation lv, judgesOperands h c.frame c.operands,
    fun _ _ => .fault _ _⟩

omit h in
theorem judgesBinding_relocation (op : Builtin) (c : Call) :
    (relocation base).JudgesBinding op (c.alongside base) fun _ => True := by
  refine ⟨⟨List.forall_mem_map.2 fun e _ => ⟨e.targetName?, ?_, fun _ _ => trivial⟩,
    fun _ => trivial⟩, fun _ _ x v _ hv => ?_, fun _ _ x v _ hv => ?_⟩
  · funext second
    cases second with
    | false => rfl
    | true => exact Value.targetName?_moved base e
  · have hdefine : Moves base id (Eval.define c.frame x (v false))
        (Eval.define (base.place c.frame) x (v true)) :=
      hv ▸ .define c.frame x (v false)
    exact hdefine.ends fun _ => trivial
  · have hassign : Moves base id (Eval.assign c.frame x (v false))
        (Eval.assign (base.place c.frame) x (v true)) :=
      hv ▸ .assign c.frame x (v false)
    exact hassign.ends fun _ => common_pair.2 rfl

omit h in
theorem moves_params (lv : Level) (c : Call) (tree : Value) :
    Moves base id (lv.params c tree) (lv.params (c.moved base) (tree.moved base)) := by
  unfold params
  rw [Param.listOfTree_moved]
  rcases Param.listOfTree tree with (tree | item | item | name) | params
  · exact moves_complaint lv c .paramList tree
  · exact moves_complaint lv c .param item
  · exact moves_complaint lv c .restNotLast item
  · exact moves_fail c _
  · exact .pure params

omit h in
theorem unquoted_moved (tree : Value) :
    defun.unquoted (tree.moved base) = (defun.unquoted tree).moved base := by
  cases tree <;> rfl

omit h in
theorem moves_defun (lv : Level) (c : Call) :
    Moves base (Value.moved base) (lv.defun c) (lv.defun (c.moved base)) := by
  rcases c with ⟨_ | ⟨nameTree, _ | ⟨paramTree, _ | ⟨e, body⟩⟩⟩, frame, text⟩
  · exact .throw _
  · exact .throw _
  · exact .throw _
  · let c : Call := ⟨nameTree :: paramTree :: e :: body, frame, text⟩
    unfold defun
    simp only [Call.moved, List.map_cons, Value.targetName?_moved]
    cases nameTree.targetName? with
    | some name =>
      refine (moves_params lv c paramTree).bind fun params => ?_
      refine Moves.freshId.bind fun made => ?_
      let fexpr := Value.fexpr made name params (e :: body) frame
      have hfexpr : fexpr.moved base = .fexpr (base.nextId + made) name params
          ((e :: body).map (Value.moved base)) (base.place frame) :=
        Value.moved_fexpr base made name params (e :: body) frame
      have hdefine : Moves base id (Eval.define frame name fexpr)
          (Eval.define (base.place frame) name (fexpr.moved base)) :=
        .define frame name fexpr
      rw [hfexpr] at hdefine
      exact hdefine.bind fun _ => .pure_of_eq hfexpr
    | none =>
      dsimp only
      rw [unquoted_moved]
      exact moves_complaint lv c .definedName _

/-- Builtins are applied on top of the base as they are by themselves. -/
theorem moves_applyBuiltin (op : Builtin) (c : Call) :
    Moves base (Value.moved base) (lv.applyBuiltin op c) (lv.applyBuiltin op (c.moved base)) := by
  by_cases hop : op = .defun
  · subst hop
    exact moves_defun lv c
  · have hturns : (relocation base).TurnsAlike fun _ _ => lv.turns :=
      Judgement.turnsAlike_same (fun _ _ => .fault _ _) lv.turns
    have hbuiltin := moves_of_ends <| (judgesCalls h c).applyBuiltin hop (fun _ => rfl)
      (fun _ => hturns) fun _ => judgesBinding_relocation op c
    dsimp only at hbuiltin
    rw [Call.alongside_false, Call.alongside_true] at hbuiltin
    exact hbuiltin

/-! ## Application -/

omit h in
/-- An operand that forwards a suspended one by its name finds the same one on top of the base. -/
theorem moves_suspend (frame : FrameId) (operand : Value) :
    Moves base (Value.moved base) (suspend frame operand)
      (suspend (base.place frame) (operand.moved base)) := by
  cases operand with
  | unquote body =>
    cases body with
    | symbol name =>
      refine (Moves.lookup? frame name).bind fun bound => ?_
      cases bound with
      | none => exact .suspend _ frame false
      | some v =>
        cases v with
        | suspended e f s i => exact .pure (Value.suspended e f s i)
        | _ => exact .suspend _ frame false
    | _ => exact .suspend _ frame false
  | _ => exact .suspend _ frame false

theorem moves_argument (frame : FrameId) (param : Param) (operand : Value) :
    Moves base (Value.moved base) (lv.argument frame param operand)
      (lv.argument (base.place frame) param (operand.moved base)) := by
  unfold argument
  split
  · exact moves_suspend frame operand
  · exact h 0 operand frame

theorem moves_arguments (frame : FrameId) (params : List Param) (operands : List Value) :
    Moves base (Bindings.moved base) (lv.arguments frame params operands)
      (lv.arguments (base.place frame) params (operands.map (Value.moved base))) := by
  induction params generalizing operands with
  | nil => exact .pure []
  | cons param params ih =>
    cases operands with
    | nil => exact .pure []
    | cons operand operands =>
      refine (moves_argument h frame param operand).bind fun v => ?_
      exact (ih operands).bind fun pairs => .pure ((param.name, v) :: pairs)

theorem moves_restArgument (frame : FrameId) (param : Param) (operands : List Value) :
    Moves base (Value.moved base) (lv.restArgument frame param operands)
      (lv.restArgument (base.place frame) param (operands.map (Value.moved base))) := by
  unfold restArgument
  split
  · rw [← Value.moved_ofItems]
    exact .suspend _ frame true
  · exact (moves_evaluateAll h frame operands).bind .makeList

theorem moves_applyFexpr (name : String) (params : List Param) (body : List Value) (c : Call) :
    Moves base (Value.moved base) (lv.applyFexpr name params body c)
      (lv.applyFexpr name params (body.map (Value.moved base)) (c.moved base)) := by
  have hcount : (c.moved base).operands.length = c.operands.length := List.length_map _
  -- With or without a parameter for the rest, all bindings are made at once and then the body runs.
  have hlast (fixed extra : Bindings) :
      Moves base (Value.moved base)
        (do Eval.defineAll c.frame (fixed ++ extra); lv.sequence c.frame body)
        (do
          Eval.defineAll (base.place c.frame)
            (Bindings.moved base fixed ++ Bindings.moved base extra)
          lv.sequence (base.place c.frame) (body.map (Value.moved base))) := by
    have happend : Bindings.moved base fixed ++ Bindings.moved base extra =
        Bindings.moved base (fixed ++ extra) := List.map_append.symm
    rw [happend]
    exact (Moves.defineAll c.frame (fixed ++ extra)).bind fun _ => moves_sequence h c.frame body
  unfold applyFexpr
  dsimp only
  rw [hcount]
  split
  · exact .throw _
  · refine (moves_arguments h c.frame _ c.operands).bind fun fixed => ?_
    cases Param.rest? params with
    | none => exact hlast fixed []
    | some param =>
      have hdrop : (c.moved base).operands.drop (Param.required params).length =
          (c.operands.drop (Param.required params).length).map (Value.moved base) :=
        List.map_drop.symm
      dsimp only
      rw [hdrop]
      exact (moves_restArgument h c.frame param _).bind fun v => hlast fixed [(param.name, v)]

/-- Combiners are applied on top of the base as they are by themselves. -/
theorem moves_apply (combiner : Value) (c : Call) :
    Moves base (Value.moved base) (lv.apply combiner c)
      (lv.apply (combiner.moved base) (c.moved base)) := by
  cases combiner with
  | builtin op home => exact moves_applyBuiltin (h.deeper _) op c
  | raiser message made =>
    have hcount : (c.moved base).operands.length = c.operands.length := List.length_map _
    unfold apply
    dsimp only [Value.moved]
    rw [hcount]
    exact .throw _
  | fexpr made name params body home =>
    rw [Value.moved_fexpr]
    exact moves_applyFexpr (h.deeper _) name params body c
  | list items made =>
    have hcomplaint : Moves base (Value.moved base) _ _ :=
      moves_complaint lv c .notCallable (.list items made)
    rw [Value.moved_list] at hcomplaint ⊢
    exact hcomplaint
  | _ => exact moves_complaint lv c .notCallable _

end
end Level
end Fexpr
