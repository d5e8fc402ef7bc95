import Fexpr.Evaluate

/-!
# Single steps

What the primitive operations do on a given machine, and the rules of the language for expressions
whose evaluation takes no decision: names, calls up to the application, and numerals.
-/

namespace Fexpr

variable {lv : Level} {frame : FrameId} {m m' : Machine} {v : Value} {text : String}

/-! ## The machine -/

namespace Eval

/-- A computation that goes on goes on where the first part ended, or ends as that did. -/
theorem bind_run {α β : Type} (x : Eval α) (f : α → Eval β) (m : Machine) :
    (x >>= f) m =
      match x m with
      | (.ok a, m) => f a m
      | (.error e, m) => (.error e, m) := by
  have hbind : (x >>= f) m = ExceptT.bindCont f (x m).1 (x m).2 := rfl
  rw [hbind]
  rcases x m with ⟨_ | _, _⟩ <;> rfl

/-- What starts alike goes on alike. -/
theorem bind_run_congr {α β : Type} {x y : Eval α} {m n : Machine} (h : x m = y n)
    (f : α → Eval β) : (x >>= f) m = (y >>= f) n := by
  rw [bind_run, bind_run, h]

theorem get_run (m : Machine) : (get : Eval Machine) m = (.ok m, m) := rfl

theorem lookup?_run (frame : FrameId) (x : String) (m : Machine) :
    lookup? frame x m = (.ok (m.store.lookup? frame x), m) := rfl

/-- A name that is bound somewhere in the chain is bound anew there. -/
theorem assign_run_of_some {x : String} {s : Store} (h : m.store.assign? frame x v = some s) :
    assign frame x v m = (.ok true, { m with store := s }) := by
  unfold assign
  rw [bind_run, get_run]
  simp only [h]
  rfl

theorem assign_run_of_none {x : String} (h : m.store.assign? frame x v = none) :
    assign frame x v m = (.ok false, m) := by
  unfold assign
  rw [bind_run, get_run]
  simp only [h]
  rfl

end Eval

/-! ## Texts -/

theorem write_run (h : v.render lv.room = .ok text) (m : Machine) :
    lv.write v m = (.ok text, m) := by
  unfold Level.write
  rw [h]
  rfl

theorem write_run_of_error {fault : TextFault} (h : v.render lv.room = .error fault) (m : Machine) :
    lv.write v m = (.error fault.toFault, m) := by
  unfold Level.write
  rw [h]
  rfl

/-- To complain of a value is to fail, if only because it has no text. -/
theorem exists_complaint {α : Type} (lv : Level) (c : Call) (cause : String → Cause) (v : Value)
    (m : Machine) :
    ∃ fault, (lv.write v >>= fun text => (c.fail (cause text) : Eval α)) m =
      (.error fault, m) := by
  rw [Eval.bind_run]
  cases htext : v.render lv.room with
  | ok text =>
    rw [write_run htext]
    exact ⟨_, rfl⟩
  | error fault =>
    rw [write_run_of_error htext]
    exact ⟨_, rfl⟩

/-! ## Names -/

theorem resolve_run {x : String} (hx : m.store.lookup? frame x = some v) :
    Level.resolve frame x m = (.ok v, m) := by
  unfold Level.resolve
  rw [Eval.bind_run, Eval.lookup?_run, hx]
  rfl

theorem step_symbol_run (lv : Level) {x : String} (hx : m.store.lookup? frame x = some v)
    (hplain : v.suspension? = none) : lv.step (.symbol x) frame m = (.ok v, m) := by
  rw [Level.step, Eval.bind_run, resolve_run hx]
  cases v with
  | suspended => cases hplain
  | _ => rfl

theorem step_unquote_run (lv : Level) {x : String} {e : Value} {home : FrameId} {s : Bool} {i : Nat}
    (hx : m.store.lookup? frame x = some (.suspended e home s i)) :
    lv.step (.unquote (.symbol x)) frame m =
      (lv.deeper Level.skippedByForcing).force e home s m := by
  rw [Level.step, Eval.bind_run, resolve_run hx]

/-- To force a name that stands for a suspended operand is to evaluate the operand where it was
suspended, each time. -/
theorem evaluateWithin_unquote {limits : Limits} {x : String} {e : Value} {home : FrameId}
    {s : Bool} {i : Nat} (levels : Nat)
    (hx : m.store.lookup? frame x = some (.suspended e home s i)) :
    evaluateWithin limits (levels + 3) 0 (.unquote (.symbol x)) frame m =
      (limits.level levels).force e home s m := by
  rw [evaluateWithin_succ, step_unquote_run _ hx, Limits.deeper_level]
  rfl

/-- To evaluate one expression in order is to evaluate it. -/
theorem sequence_singleton (lv : Level) (e : Value) :
    lv.sequence frame [e] = lv.evaluate e frame := by
  change (lv.evaluate e frame >>= fun v => pure v) = _
  rw [bind_pure]

/-! ## Operands of fexprs -/

/-- To suspend an operand that forces no suspended operand is to keep it with the frame. -/
theorem suspend_run {e : Value}
    (hfresh : ∀ x v, e = .unquote (.symbol x) → m.store.lookup? frame x = some v →
      v.suspension? = none) :
    Level.suspend frame e m =
      (.ok (.suspended e frame false m.nextSuspension),
        { m with nextSuspension := m.nextSuspension + 1 }) := by
  unfold Level.suspend
  split
  next x =>
    rw [Eval.bind_run, Eval.lookup?_run]
    cases hx : m.store.lookup? frame x with
    | none => rfl
    | some v =>
      have hplain := hfresh x v rfl hx
      cases v with
      | suspended => cases hplain
      | _ => rfl
  · rfl

/-- To suspend an operand that forces a suspended operand is to take that one as it is. -/
theorem suspend_run_of_forced {q : String} {v : Value} (hq : m.store.lookup? frame q = some v)
    (hv : v.suspension?.isSome) :
    Level.suspend frame (.unquote (.symbol q)) m = (.ok v, m) := by
  rw [Level.suspend, Eval.bind_run, Eval.lookup?_run, hq]
  cases v with
  | suspended => rfl
  | _ => cases hv

theorem restArgument_run (lv : Level) {p : Param} (hp : p.suspended = true) (es : List Value) :
    lv.restArgument frame p es m =
      (.ok (.suspended (.ofItems es) frame true m.nextSuspension),
        { m with nextSuspension := m.nextSuspension + 1 }) := by
  rw [Level.restArgument, if_pos hp]
  rfl

/-! ## Calls -/

/-- A call that can be written applies the value of its head. -/
theorem step_list_run (lv : Level) {head combiner : Value} {operands : List Value}
    {made : Option Nat}
    (htext : (Value.list (head :: operands) made).render lv.room = .ok text)
    (hhead : (lv.deeper Level.skippedByHead).evaluate head frame m = (.ok combiner, m')) :
    lv.step (.list (head :: operands) made) frame m =
      lv.apply combiner ⟨operands, frame, text⟩ m' := by
  rw [Level.step, Eval.bind_run, write_run htext]
  simp only [Eval.bind_run, hhead]

/-- Once the operands of a fexpr without a parameter for the rest are settled, its body is evaluated
where the parameters are bound. -/
theorem applyFexpr_run_of_none (lv : Level) {x : String} {params : List Param} {body : List Value}
    {c : Call} {fixed : Bindings} (hrest : Param.rest? params = none)
    (hcount : c.operands.length = (Param.required params).length)
    (hfixed : lv.arguments c.frame (Param.required params) c.operands m = (.ok fixed, m')) :
    lv.applyFexpr x params body c m =
      lv.sequence c.frame body { m' with store := m'.store.defineAll c.frame fixed } := by
  unfold Level.applyFexpr
  simp only [hrest, hcount, Nat.lt_irrefl, decide_false, Bool.and_false, Bool.or_false,
    Bool.false_eq_true, if_false]
  rw [Eval.bind_run, hfixed]
  change (Eval.defineAll c.frame (fixed ++ []) >>= fun _ => lv.sequence c.frame body) m' = _
  rw [List.append_nil]
  rfl

/-- Once the operands of a fexpr are settled, those for the rest last, its body is evaluated where
the parameters are bound. -/
theorem applyFexpr_run_of_some (lv : Level) {x : String} {params : List Param} {body : List Value}
    {c : Call} {p : Param} {fixed : Bindings} {m'' : Machine} (hrest : Param.rest? params = some p)
    (hcount : (Param.required params).length ≤ c.operands.length)
    (hfixed : lv.arguments c.frame (Param.required params) c.operands m = (.ok fixed, m'))
    (hvalue : lv.restArgument c.frame p (c.operands.drop (Param.required params).length) m' =
      (.ok v, m'')) :
    lv.applyFexpr x params body c m =
      lv.sequence c.frame body
        { m'' with store := m''.store.defineAll c.frame (fixed ++ [(p.name, v)]) } := by
  unfold Level.applyFexpr
  simp only [hrest, Nat.not_lt.2 hcount, Option.isNone_some, decide_false, Bool.false_and,
    Bool.or_false, Bool.false_eq_true, if_false]
  rw [Eval.bind_run, hfixed]
  simp only [Eval.bind_run, hvalue]
  rfl

/-- On levels enough, a call of a fexpr by its name applies it, once the call is written. -/
theorem evaluateWithin_call {limits : Limits} {levels id : Nat} {f x : String}
    {params : List Param} {body operands : List Value} {home : FrameId} {made : Option Nat}
    (hf : m.store.lookup? frame f = some (.fexpr id x params body home))
    (htext : (Value.list (.symbol f :: operands) made).render (roomOf (levels + 4)) = .ok text) :
    evaluateWithin limits (levels + 5) 0 (.list (.symbol f :: operands) made) frame m =
      (limits.level levels).applyFexpr x params body ⟨operands, frame, text⟩ m := by
  have hhead : ((limits.level (levels + 4)).deeper Level.skippedByHead).evaluate (.symbol f) frame
      m = (.ok (.fexpr id x params body home), m) := by
    rw [Limits.deeper_level]
    exact step_symbol_run (limits.level (levels + 2)) hf rfl
  rw [evaluateWithin_succ, step_list_run (limits.level (levels + 4)) htext hhead]
  dsimp only [Level.apply]
  rw [Limits.deeper_level]
  rfl

/-- Numerals are the numbers that they stand for. -/
theorem numbers_run (op : Builtin) (c : Call) {ns : List Int} (position : Nat)
    (h : ∀ n, lv.evaluate (.number n) c.frame m = (.ok (.number n), m)) :
    lv.numbers op c position (ns.map .number) m = (.ok ns, m) := by
  induction ns generalizing position with
  | nil => rfl
  | cons n ns ih =>
    rw [List.map_cons, Level.numbers, Eval.bind_run, h]
    simp only [Eval.bind_run, ih]
    rfl

/-- On levels enough, a call of a builtin by its name applies it, once the call is written. -/
theorem evaluateWithin_builtin {limits : Limits} {levels : Nat} {op : Builtin}
    {operands : List Value} {home : FrameId} {made : Option Nat}
    (hbound : m.store.lookup? frame op.name = some (.builtin op home))
    (htext : (Value.list (.symbol op.name :: operands) made).render (roomOf (levels + 3)) =
      .ok text) :
    evaluateWithin limits (levels + 4) 0 (.list (.symbol op.name :: operands) made) frame m =
      (limits.level (levels + 3 - op.skipped)).applyBuiltin op ⟨operands, frame, text⟩ m := by
  have hhead : ((limits.level (levels + 3)).deeper Level.skippedByHead).evaluate (.symbol op.name)
      frame m = (.ok (.builtin op home), m) := by
    rw [Limits.deeper_level]
    exact step_symbol_run (limits.level (levels + 1)) hbound rfl
  rw [evaluateWithin_succ, step_list_run (limits.level (levels + 3)) htext hhead]
  dsimp only [Level.apply]
  rw [Limits.deeper_level]

/-- There is room for two levels where a list with items has a text. -/
theorem two_le_of_render_list {room : Nat} {item : Value} {items : List Value} {made : Option Nat}
    (h : (Value.list (item :: items) made).render room = .ok text) : 2 ≤ room := by
  match room with
  | 0 => cases h
  | 1 =>
    rw [Value.render, List.mapM_cons] at h
    cases h
  | room + 2 => exact Nat.le_add_left 2 room

/-- A call of a builtin by its name applies it wherever the call can be written: then there are
levels enough. -/
theorem evaluateWithin_builtin_of_text {limits : Limits} {levels : Nat} (op : Builtin)
    {operands : List Value} {home : FrameId} {made : Option Nat}
    (hbound : m.store.lookup? frame op.name = some (.builtin op home))
    (htext : (Value.list (.symbol op.name :: operands) made).render (roomOf (levels - 1)) =
      .ok text) :
    evaluateWithin limits levels 0 (.list (.symbol op.name :: operands) made) frame m =
      (limits.level (levels - 1 - op.skipped)).applyBuiltin op ⟨operands, frame, text⟩ m := by
  have hroom := two_le_of_render_list htext
  unfold roomOf at hroom
  obtain ⟨levels, rfl⟩ := Nat.exists_eq_add_of_le' (show 4 ≤ levels by omega)
  exact evaluateWithin_builtin hbound htext

/-- A call that cannot be written ends there, before anything of it is evaluated. -/
theorem evaluateWithin_list_of_no_text (limits : Limits) {levels : Nat} {head : Value}
    {operands : List Value} {made : Option Nat} {fault : TextFault}
    (hnone : (Value.list (head :: operands) made).render (roomOf (levels - 1)) = .error fault) :
    evaluateWithin limits levels 0 (.list (head :: operands) made) frame m =
      (.error fault.toFault, m) := by
  cases levels with
  | zero =>
    cases hnone
    rfl
  | succ levels =>
    have hroom : (Value.list (head :: operands) made).render (limits.level levels).room =
        .error fault := hnone
    rw [evaluateWithin_succ, Level.step, Eval.bind_run, write_run_of_error hroom]

/-- A call of a builtin by its name applies it, unless there are too few levels for that or the call
cannot be written. -/
theorem evaluateWithin_builtin_cases {limits : Limits} {levels : Nat} {op : Builtin}
    {home : FrameId} (hbound : m.store.lookup? frame op.name = some (.builtin op home))
    (operands : List Value) (made : Option Nat) :
    ((levels < 3 ∨ ∃ fault, (Value.list (.symbol op.name :: operands) made).render
        (roomOf (levels - 1)) = .error fault) ∧
      ∃ fault, evaluateWithin limits levels 0 (.list (.symbol op.name :: operands) made) frame m =
        (.error fault, m)) ∨
    ∃ text, evaluateWithin limits levels 0 (.list (.symbol op.name :: operands) made) frame m =
      (limits.level (levels - 1 - op.skipped)).applyBuiltin op ⟨operands, frame, text⟩ m := by
  cases levels with
  | zero => exact Or.inl ⟨Or.inl (by decide), _, rfl⟩
  | succ levels =>
    rw [evaluateWithin_succ, Level.step, Eval.bind_run]
    cases htext : (Value.list (.symbol op.name :: operands) made).render
        (limits.level levels).room with
    | error fault =>
      rw [write_run_of_error htext]
      exact Or.inl ⟨Or.inr ⟨fault, htext⟩, _, rfl⟩
    | ok text =>
      rw [write_run htext]
      dsimp only
      rw [Eval.bind_run, Limits.deeper_level]
      match levels with
      | 0 | 1 => exact Or.inl ⟨Or.inl (by decide), _, rfl⟩
      | levels + 2 =>
        have hhead : (limits.level (levels + 1)).evaluate (.symbol op.name) frame m =
            (.ok (.builtin op home), m) :=
          step_symbol_run (limits.level levels) hbound rfl
        refine Or.inr ⟨text, ?_⟩
        rw [show levels + 2 - Level.skippedByHead = levels + 1 from rfl, hhead]
        dsimp only [Level.apply]
        rw [Limits.deeper_level]
        rfl

/-- The operands of an arithmetic builtin that are numerals are the numbers. -/
theorem operandNumbers_run {limits : Limits} {levels : Nat} (op : Builtin) (n : Int)
    (ns : List Int) :
    (limits.level (levels + 1)).operandNumbers op ⟨(n :: ns).map .number, frame, text⟩ m =
      (.ok (n :: ns), m) := by
  unfold Level.operandNumbers
  rw [if_neg (by simp)]
  exact numbers_run op _ 1 fun n => rfl

/-- A call of the product on numerals multiplies the numbers. -/
theorem evaluateWithin_product {limits : Limits} {levels : Nat} {home : FrameId} {n : Int}
    {ns : List Int} {made : Option Nat}
    (hbound : m.store.lookup? frame "*" = some (.builtin .multiply home))
    (htext : (Value.list (.symbol "*" :: (n :: ns).map .number) made).render (roomOf (levels + 9)) =
      .ok text) :
    evaluateWithin limits (levels + 10) 0 (.list (.symbol "*" :: (n :: ns).map .number) made)
        frame m =
      (.ok (.number (Arithmetic.product (n :: ns))), m) := by
  rw [show "*" = Builtin.multiply.name from rfl] at hbound htext ⊢
  have hlevels : levels + 6 + 3 - Builtin.multiply.skipped = levels + 3 :=
    Nat.add_sub_cancel (levels + 3) 6
  rw [evaluateWithin_builtin hbound htext, hlevels]
  dsimp only [Level.applyBuiltin, Level.multiply]
  rw [Eval.bind_run, operandNumbers_run]
  rfl

/-- A call of the sum on numerals adds the numbers, once the sum is written out to report it. -/
theorem evaluateWithin_sum {limits : Limits} {levels : Nat} {home : FrameId} {n : Int}
    {ns : List Int} {made : Option Nat}
    (hbound : m.store.lookup? frame "+" = some (.builtin .add home))
    (htext : (Value.list (.symbol "+" :: (n :: ns).map .number) made).render (roomOf (levels + 9)) =
      .ok text) :
    evaluateWithin limits (levels + 10) 0 (.list (.symbol "+" :: (n :: ns).map .number) made)
        frame m =
      ((limits.level (levels + 3)).trace (.number (Arithmetic.sum (n :: ns))) >>= fun _ =>
        pure (.number (Arithmetic.sum (n :: ns)))) m := by
  rw [show "+" = Builtin.add.name from rfl] at hbound htext ⊢
  have hlevels : levels + 6 + 3 - Builtin.add.skipped = levels + 3 :=
    Nat.add_sub_cancel (levels + 3) 6
  rw [evaluateWithin_builtin hbound htext, hlevels]
  dsimp only [Level.applyBuiltin, Level.add]
  rw [Eval.bind_run, operandNumbers_run]

end Fexpr
