import Fexpr.Proofs.Hiding
import Fexpr.Proofs.Steps

/-!
# Call by name

A fexpr with suspended parameters is a way to write its body inline. To call it is to evaluate, in
the frame of the call, the body with the operands in place of the unquoted parameters: each operand
is evaluated wherever the body unquotes it and as often, and not at all in a branch that is not
taken.

The two runs differ in what the parameters are bound to, which the operands cannot notice, and in
how deep they nest. So the theorem is about runs that stay within the limits of the machine. It is
also about bodies that are made of calls of builtins only, and asks that their names are bound to
the builtins whenever an evaluation starts.
-/

namespace Fexpr

open Comparison

/-! ## Bodies -/

mutual

/-- The expression with operands in place of the names that it unquotes. Quoted data is left as it
is. -/
def Value.inline (operands : Bindings) : Value → Value
  | .unquote (.symbol x) => (operands.get? x).getD (.unquote (.symbol x))
  | .list items made => .list (Value.inlineAll operands items) made
  | e => e

/-- The expressions with operands in place of the names that they unquote. -/
def Value.inlineAll (operands : Bindings) : List Value → List Value
  | [] => []
  | e :: es => Value.inline operands e :: Value.inlineAll operands es

end

/-- What the body of a fexpr with these parameters may be made of: literals, quoted data, names and
unquoted parameters, and calls of builtins by their names. -/
inductive Value.Template (heads : List Builtin) (params : List String) : Value → Prop
  | number (n : Int) : Template heads params (.number n)
  | string (text : String) : Template heads params (.string text)
  | nil : Template heads params .nil
  | quote (body : Value) : Template heads params (.quote body)
  | symbol {x : String} (hx : x ∉ params) : Template heads params (.symbol x)
  | param {x : String} (hx : x ∈ params) : Template heads params (.unquote (.symbol x))
  | call {op : Builtin} {es : List Value} (made : Option Nat) (hop : op ∈ heads)
    (hname : op.name ∉ params) (hes : ∀ e ∈ es, Template heads params e) :
    Template heads params (.list (.symbol op.name :: es) made)

/-- Whether builtins are bound to their names, seen from a frame. -/
def bindsHeads (heads : List Builtin) (frame : FrameId) (m : Machine) : Bool :=
  heads.all fun op =>
    match m.store.lookup? frame op.name with
    | some (.builtin bound _) => bound == op
    | _ => false

theorem exists_builtin_of_bindsHeads {heads : List Builtin} {frame : FrameId} {m : Machine}
    (h : bindsHeads heads frame m = true) {op : Builtin} (hop : op ∈ heads) :
    ∃ home, m.store.lookup? frame op.name = some (.builtin op home) := by
  have hbound := List.all_eq_true.1 h op hop
  split at hbound
  next bound home heq =>
    obtain rfl := eq_of_beq hbound
    exact ⟨home, heq⟩
  · cases hbound

/-! ## How two runs end -/

/-- Faults that differ at most in the expression that an error names. -/
inductive Fault.Alike : Fault → Fault → Prop
  | refl (f : Fault) : Alike f f
  | error (cause : Cause) (origin origin' expression expression' : String) :
    Alike (.error ⟨cause, origin, expression⟩) (.error ⟨cause, origin', expression'⟩)

/-- The fault is a limit of the machine on nesting or on digits. -/
def Fault.IsLimit (f : Fault) : Prop :=
  f = .tooDeep ∨ f = .tooLong

theorem isLimit_toFault (fault : TextFault) : fault.toFault.IsLimit := by
  cases fault
  · exact Or.inr rfl
  · exact Or.inl rfl

/-- The run stayed within the limits on nesting and on digits. -/
def WithinLimits (r : Except Fault Value) : Prop :=
  ∀ f, r = .error f → ¬ f.IsLimit

/-- Two runs end in the same value, or in errors with the same cause, or in the same other fault. -/
inductive SameResult : Except Fault Value → Except Fault Value → Prop
  | value (v : Value) : SameResult (.ok v) (.ok v)
  | fault {f g : Fault} (h : f.Alike g) : SameResult (.error f) (.error g)

/-- Two runs end alike, having printed the same and bound the same to all but some names. -/
structure EndAlike (params : List String) (r s : Except Fault Value × Machine) : Prop where
  result : SameResult r.1 s.1
  output : r.2.output = s.2.output
  nextId : r.2.nextId = s.2.nextId
  frames : r.2.store.frames.length = s.2.store.frames.length
  chain : ∀ frame, r.2.store.chain frame = s.2.store.chain frame
  bindings : ∀ frame x, x ∉ params →
    Option.Rel Value.Alike (r.2.store.get? frame x) (s.2.store.get? frame x)

/-! ## Calls -/

/-- A parameter that is bound to its operand unevaluated. -/
def Param.quoted (name : String) : Param where
  name := name
  suspended := true

/-- The names of parameters, what spells them, and the name of the fexpr. -/
def callHiding (f : String) (params : List String) (ht : "t" ∉ params) : Hiding where
  hidden x := x ∈ params
  secret x := x ∈ params ∨ (∃ p ∈ params, x = p ++ restMarker) ∨ x = f
  secret_of_hidden h := Or.inl h
  secret_rest h := Or.inr (Or.inl ⟨_, h, rfl⟩)
  not_hidden_t := ht

/-- A call, by the name `f`, of a fexpr whose parameters are all suspended and whose body is made of
calls of builtins. Nothing but the fexpr mentions its name or its parameters, and no operand forces
a name that is bound to a suspended operand. -/
structure CallByName (s : Store) (frame : FrameId) (f : String) (params : List String)
    (es : List Value) (heads : List Builtin) (body : Value) : Prop where
  fexpr : ∃ id x home,
    s.lookup? frame f = some (.fexpr id x (params.map .quoted) [body] home)
  template : body.Template heads params
  heads : ∀ op ∈ heads, op.binds = false
  nodup : params.Nodup
  length : es.length = params.length
  not_t : "t" ∉ params
  exists_frame : frame < s.frames.length
  operands : ∀ e ∈ es, (callHiding f params not_t).Code e
  bindings : ∀ {g x v}, x ≠ f → x ∉ params → s.get? g x = some v →
    (callHiding f params not_t).Code v
  fresh : ∀ {x v}, .unquote (.symbol x) ∈ es → s.lookup? frame x = some v → v.suspension? = none

/-- What a call binds: each parameter to its operand with the frame of the call. -/
def suspensions (frame : FrameId) (id : Nat) : List String → List Value → Bindings
  | p :: ps, e :: es => (p, .suspended e frame false id) :: suspensions frame (id + 1) ps es
  | _, _ => []

/-- The machine in which the body of a fexpr is evaluated. -/
def Machine.installed (m : Machine) (frame : FrameId) (params : List String) (es : List Value) :
    Machine :=
  { m with
    store := m.store.defineAll frame (suspensions frame m.nextSuspension params es)
    nextSuspension := m.nextSuspension + es.length }

section Installing

variable {limits : Limits} {lv : Level} {frame : FrameId} {m : Machine}

theorem arguments_run (lv : Level) {params : List String} {es : List Value}
    (hlength : es.length = params.length)
    (hfresh : ∀ x v, .unquote (.symbol x) ∈ es → m.store.lookup? frame x = some v →
      v.suspension? = none) :
    lv.arguments frame (params.map .quoted) es m =
      (.ok (suspensions frame m.nextSuspension params es),
        { m with nextSuspension := m.nextSuspension + es.length }) := by
  -- Each operand takes the next number, so the induction is for any machine.
  induction params generalizing es m with
  | nil =>
    obtain rfl := List.length_eq_zero_iff.1 hlength
    rfl
  | cons p ps ih =>
    cases es with
    | nil => cases hlength
    | cons e es =>
      have hsuspend : lv.argument frame (.quoted p) e m =
          (.ok (.suspended e frame false m.nextSuspension),
            { m with nextSuspension := m.nextSuspension + 1 }) :=
        suspend_run fun x v he => hfresh x v (he ▸ List.mem_cons_self)
      have hrest := ih (m := { m with nextSuspension := m.nextSuspension + 1 })
        (Nat.succ.inj hlength) fun x v hx => hfresh x v (List.mem_cons_of_mem e hx)
      rw [List.map_cons, Level.arguments, Eval.bind_run, hsuspend]
      dsimp only
      rw [Eval.bind_run, hrest]
      simp only [suspensions, List.length_cons, Nat.add_assoc, Nat.add_comm 1]
      rfl

theorem required_quoted (params : List String) :
    Param.required (params.map .quoted) = params.map .quoted := by
  refine List.filter_eq_self.2 fun p hp => ?_
  obtain ⟨x, -, rfl⟩ := List.mem_map.1 hp
  rfl

theorem rest?_quoted (params : List String) : Param.rest? (params.map .quoted) = none := by
  rw [Param.rest?, Option.filter_eq_none_iff]
  intro p hp
  obtain ⟨x, -, rfl⟩ := List.mem_map.1 (List.mem_of_mem_getLast? hp)
  exact Bool.false_ne_true

/-- To apply a fexpr with suspended parameters is to evaluate its body where they are bound to what
the operands are settled to. -/
theorem applyFexpr_run_quoted (lv : Level) {x : String} {params : List String}
    {es body : List Value} {text : String} {fixed : Bindings} {m' : Machine}
    (hlength : es.length = params.length)
    (hfixed : lv.arguments frame (params.map .quoted) es m = (.ok fixed, m')) :
    lv.applyFexpr x (params.map .quoted) body ⟨es, frame, text⟩ m =
      lv.sequence frame body { m' with store := m'.store.defineAll frame fixed } := by
  refine applyFexpr_run_of_none lv (rest?_quoted params) ?_ ?_
  · rw [required_quoted, List.length_map, hlength]
  · rw [required_quoted]
    exact hfixed

/-- Operands that force no suspended operands are bound as they are. -/
theorem applyFexpr_run (lv : Level) {x : String} {params : List String} {es body : List Value}
    {text : String} (hlength : es.length = params.length)
    (hfresh : ∀ x v, .unquote (.symbol x) ∈ es → m.store.lookup? frame x = some v →
      v.suspension? = none) :
    lv.applyFexpr x (params.map .quoted) body ⟨es, frame, text⟩ m =
      lv.sequence frame body (m.installed frame params es) :=
  applyFexpr_run_quoted lv hlength (arguments_run lv hlength hfresh)

end Installing

/-! ## The two runs -/

section TwoRuns

variable {f : String} {params : List String} {es : List Value} {heads : List Builtin}
  {body : Value} {limits : Limits} {frame : FrameId}

/-- How the body with parameters is compared with the body with operands: runs that meet a limit are
excused, and so is an alarm. -/
def inlining (H : Hiding) (start₁ start₂ : Store) (alarm : Fault) : Correspondence :=
  H.correspondence start₁ start₂ Fault.Alike .refl Fault.IsLimit fun g => g.IsLimit ∨ g = alarm

variable {H : Hiding} {start₁ start₂ : Store} {alarm : Fault}

theorem excused_text (fault : TextFault) :
    (inlining H start₁ start₂ alarm).excused₁ fault.toFault ∧
      (inlining H start₁ start₂ alarm).excused₂ fault.toFault :=
  ⟨isLimit_toFault fault, Or.inl (isLimit_toFault fault)⟩

/-- The runs may have any numbers of levels. -/
theorem beside_inlining (lv₁ lv₂ : Level) (hturns : lv₁.turns = lv₂.turns) :
    (inlining H start₁ start₂ alarm).Beside lv₁ lv₂ where
  levels := by
    rcases Nat.le_total lv₁.levels lv₂.levels with hle | hle
    · exact Or.inr (Or.inl ⟨hle, Or.inl rfl⟩)
    · exact Or.inr (Or.inr ⟨hle, Or.inl (Or.inl rfl)⟩)
  turns := Or.inl hturns
  tracing := Or.inr ⟨fun _ fault => (excused_text fault).1, fun _ fault => (excused_text fault).2⟩

/-- Evaluations agree when the rules do, wherever the condition that is watched holds. -/
theorem agree_of_step {Q : Value → Value → Prop} {condition : Machine → Bool} {e₁ e₂ : Value}
    (hstep : ∀ a b m n, H.State start₁ start₂ m n → condition n = true →
      (inlining H start₁ start₂ alarm).After Q ((limits.level a).step e₁ frame m)
        ((limits.watchedLevel condition alarm b).step e₂ frame n)) (a b : Nat) :
    (inlining H start₁ start₂ alarm).Agree Q (evaluateWithin limits a 0 e₁ frame)
      (watchedWithin limits condition alarm b 0 e₂ frame) := by
  intro m n hmn
  -- A run without levels meets a limit; a watched run where the condition fails meets the alarm.
  cases a with
  | zero => exact Or.inl ⟨.tooDeep, rfl, Or.inl rfl⟩
  | succ a =>
    cases b with
    | zero => exact Or.inr (Or.inl ⟨.tooDeep, rfl, Or.inl (Or.inl rfl)⟩)
    | succ b =>
      cases hn : condition n with
      | false =>
        rw [watchedWithin_of_not_holds hn]
        exact Or.inr (Or.inl ⟨alarm, rfl, Or.inr rfl⟩)
      | true =>
        rw [watchedWithin_of_holds hn]
        exact hstep a b m n hmn hn

theorem agree_of_agree_step {Q : Value → Value → Prop} {condition : Machine → Bool} {e₁ e₂ : Value}
    (hstep : ∀ lv₁ lv₂ : Level,
      (inlining H start₁ start₂ alarm).Agree Q (lv₁.step e₁ frame) (lv₂.step e₂ frame))
    (a b : Nat) :
    (inlining H start₁ start₂ alarm).Agree Q (evaluateWithin limits a 0 e₁ frame)
      (watchedWithin limits condition alarm b 0 e₂ frame) :=
  agree_of_step (fun _ _ m n hmn _ => hstep _ _ m n hmn) a b

/-- What may be evaluated is evaluated alike, on whatever levels. -/
theorem agree_operand {condition : Machine → Bool} {e : Value} (he : H.Code e) (a b : Nat) :
    (inlining H start₁ start₂ alarm).Agree (Both fun _ => True)
      (evaluateWithin limits a 0 e frame) (watchedWithin limits condition alarm b 0 e frame) := by
  have hbeside : (inlining H start₁ start₂ alarm).Beside (limits.level a) (limits.level b) :=
    beside_inlining _ _ rfl
  have hagree : (inlining H start₁ start₂ alarm).Agree (Both (inlining H start₁ start₂ alarm).data)
      (evaluateWithin limits a 0 e frame) (watchedWithin limits condition alarm b 0 e frame) :=
    Correspondence.agree_watchedWithin (fun _ _ _ _ => Or.inr rfl) hbeside 0 he trivial
  exact hagree.mono fun v w h => ⟨h.1, trivial⟩

/-- A name that is not hidden stands for the same in both runs. -/
theorem agree_resolve_shown {x : String} (hx : ¬ H.hidden x) :
    (inlining H start₁ start₂ alarm).Agree Value.Alike (Level.resolve frame x)
      (Level.resolve frame x) := by
  have hlookup : (inlining H start₁ start₂ alarm).Agree (Option.Rel (H.Shown x))
      (Eval.lookup? frame x) (Eval.lookup? frame x) :=
    fun m n hmn => Or.inr (Or.inr ⟨hmn, .value (hmn.differ.lookup? hx)⟩)
  refine hlookup.bind ?_
  intro v w hvw
  cases hvw with
  | none => exact .throw_self nofun
  | some hshown => exact .pure hshown.1

theorem agree_symbol {condition : Machine → Bool} {x : String} (hx : ¬ H.hidden x) (a b : Nat) :
    (inlining H start₁ start₂ alarm).Agree (Both fun _ => True)
      (evaluateWithin limits a 0 (.symbol x) frame)
      (watchedWithin limits condition alarm b 0 (.symbol x) frame) := by
  refine agree_of_agree_step (fun lv₁ lv₂ => Agree.bind (agree_resolve_shown hx) ?_) a b
  intro v w hvw
  cases hvw with
  | refl v => cases v <;> exact .pure ⟨rfl, trivial⟩
  | suspended => exact .pure ⟨rfl, trivial⟩

/-- Where the names of builtins are bound to them, the head of a call is the builtin. -/
theorem agree_head {op : Builtin} (hop : op ∈ heads) (hname : ¬ H.hidden op.name) (a b : Nat) :
    (inlining H start₁ start₂ alarm).Agree (fun v w => v = w ∧ ∃ home, v = .builtin op home)
      (evaluateWithin limits a 0 (.symbol op.name) frame)
      (watchedWithin limits (bindsHeads heads frame) alarm b 0 (.symbol op.name) frame) := by
  refine agree_of_step (fun a b m n hmn hn => ?_) a b
  obtain ⟨home, hlookup⟩ := exists_builtin_of_bindsHeads hn hop
  have hrel := hmn.differ.lookup? (g := frame) hname
  rw [hlookup] at hrel
  have hlookup' : m.store.lookup? frame op.name = some (.builtin op home) := by
    revert hrel
    cases m.store.lookup? frame op.name with
    | none => intro hrel; cases hrel
    | some v =>
      intro hrel
      cases hrel with
      | some hshown => cases hshown.1; rfl
  rw [step_symbol_run _ hlookup rfl, step_symbol_run _ hlookup' rfl]
  exact Or.inr (Or.inr ⟨hmn, .value ⟨rfl, home, rfl⟩⟩)

/-- To force an operand is to evaluate it in place. -/
theorem agree_force_operand {condition : Machine → Bool} {e : Value} (he : H.Code e) (a b : Nat) :
    (inlining H start₁ start₂ alarm).Agree (Both fun _ => True)
      ((limits.level a).force e frame false)
      (watchedWithin limits condition alarm b 0 e frame) := by
  unfold Level.force
  -- Forcing writes the operand out first, which the run in place does not.
  rcases Beside.trace_cases (limits.level a) e with heq | ⟨fault, heq⟩
  · rw [heq]
    exact agree_operand he a b
  · rw [heq]
    have hexcused : (inlining H start₁ start₂ alarm).excused₁ fault.toFault := isLimit_toFault fault
    exact .excused₁ hexcused

/-- An unquoted parameter is evaluated as the operand that it is bound to. -/
theorem agree_param {condition : Machine → Bool} {x : String} {e : Value} {id : Nat}
    (hx : H.hidden x) (he : H.Code e)
    (hstart : start₁.get? frame x = some (.suspended e frame false id)) (a b : Nat) :
    (inlining H start₁ start₂ alarm).Agree (Both fun _ => True)
      (evaluateWithin limits a 0 (.unquote (.symbol x)) frame)
      (watchedWithin limits condition alarm b 0 e frame) := by
  intro m n hmn
  cases a with
  | zero => exact Or.inl ⟨.tooDeep, rfl, Or.inl rfl⟩
  | succ a =>
    have hget : m.store.get? frame x = some (.suspended e frame false id) := by
      rw [hmn.kept₁ frame x hx, hstart]
    rw [evaluateWithin_succ, step_unquote_run _ (Store.lookup?_of_get? hget), Limits.deeper_level]
    exact agree_force_operand he _ b m n hmn

theorem inlineAll_eq_map (operands : Bindings) (es : List Value) :
    Value.inlineAll operands es = es.map (Value.inline operands) := by
  induction es with
  | nil => rfl
  | cons e es ih => rw [Value.inlineAll, ih, List.map_cons]

theorem closed_true : Value.Closed fun _ => True where
  nil := trivial
  t := trivial
  number _ := trivial
  list _ _ _ := trivial
  item _ _ := trivial

/-- A call of a builtin by its name agrees when the operands do. -/
theorem agree_call {operands : Bindings} {op : Builtin} {made : Option Nat} (hop : op ∈ heads)
    (hname : ¬ H.hidden op.name) (hbinds : op.binds = false)
    (hes : ∀ e ∈ es, ∀ a b, (inlining H start₁ start₂ alarm).Agree (Both fun _ => True)
      (evaluateWithin limits a 0 e frame)
      (watchedWithin limits (bindsHeads heads frame) alarm b 0 (e.inline operands) frame))
    (a b : Nat) :
    (inlining H start₁ start₂ alarm).Agree (Both fun _ => True)
      ((limits.level a).step (.list (.symbol op.name :: es) made) frame)
      ((limits.watchedLevel (bindsHeads heads frame) alarm b).step
        ((Value.list (.symbol op.name :: es) made).inline operands) frame) := by
  have hinline : (Value.list (.symbol op.name :: es) made).inline operands =
      .list (.symbol op.name :: es.map (Value.inline operands)) made := by
    simp only [Value.inline, Value.inlineAll, inlineAll_eq_map]
  have hoperands : List.Forall₂
      ((inlining H start₁ start₂ alarm).Operand (fun _ => True) (limits.level a)
        (limits.watchedLevel (bindsHeads heads frame) alarm b) frame)
      es (es.map (Value.inline operands)) := by
    rw [List.forall₂_map_right_iff, List.forall₂_same]
    refine fun e he => ⟨fun k => ?_, fun k => Beside.trace_of_excused
      (fun _ fault => (excused_text fault).1) (fun _ fault => (excused_text fault).2) _ _⟩
    change (inlining H start₁ start₂ alarm).Agree (Both fun _ => True)
      (evaluateWithin limits a k e frame)
      (watchedWithin limits (bindsHeads heads frame) alarm b k (e.inline operands) frame)
    rw [evaluateWithin_skip, watchedWithin_skip]
    exact hes e he _ _
  rw [hinline]
  refine (Beside.write_of_excused excused_text _ _).bind fun text text' _ => ?_
  have hhead : (inlining H start₁ start₂ alarm).Agree
      (fun v w => v = w ∧ ∃ home, v = .builtin op home)
      (evaluateWithin limits (a - 1) 0 (.symbol op.name) frame)
      (watchedWithin limits (bindsHeads heads frame) alarm (b - 1) 0 (.symbol op.name) frame) :=
    agree_head hop hname (a - 1) (b - 1)
  rw [← evaluateWithin_skip, ← watchedWithin_skip] at hhead
  refine hhead.bind ?_
  rintro v _ ⟨rfl, home, rfl⟩
  have hcalls : (inlining H start₁ start₂ alarm).Calls (fun _ => True) (limits.level a)
      (limits.watchedLevel (bindsHeads heads frame) alarm b) ⟨es, frame, text⟩
      ⟨es.map (Value.inline operands), frame, text'⟩ :=
    .intro (beside_inlining _ _ rfl) hoperands fun cause => .error cause _ _ _ _
  exact (hcalls.deeper op.skipped).applyBuiltin closed_true hbinds fun _ => Fault.Alike.refl _

/-- The body agrees with the operands in place of the parameters, where the first run has the
parameters bound to the operands. -/
theorem agree_template {operands : Bindings} (hheads : ∀ op ∈ heads, op.binds = false)
    (hhidden : ∀ x, H.hidden x ↔ x ∈ params)
    (hparams : ∀ x ∈ params, ∃ e id, operands.get? x = some e ∧ H.Code e ∧
      start₁.get? frame x = some (.suspended e frame false id))
    (hbody : body.Template heads params) (a b : Nat) :
    (inlining H start₁ start₂ alarm).Agree (Both fun _ => True)
      (evaluateWithin limits a 0 body frame)
      (watchedWithin limits (bindsHeads heads frame) alarm b 0 (body.inline operands) frame) := by
  -- The induction is on the body. All but an unquoted parameter is the same expression in both
  -- runs, up to what is inlined below it.
  induction hbody generalizing a b with
  | number | string | nil => exact agree_of_agree_step (fun _ _ => .pure ⟨rfl, trivial⟩) a b
  | quote body =>
    have hinline : (Value.quote body).inline operands = .quote body := by
      simp only [Value.inline]
    rw [hinline]
    refine agree_of_agree_step (fun lv₁ lv₂ => ?_) a b
    rcases Level.step_quote body frame with ⟨_, -, hstep⟩ | ⟨-, hstep⟩
    · rw [hstep, hstep]
      exact .pure ⟨rfl, trivial⟩
    · rw [hstep, hstep]
      exact .pure ⟨rfl, trivial⟩
  | symbol hx => exact agree_symbol (fun hhid => hx ((hhidden _).1 hhid)) a b
  | param hx =>
    obtain ⟨e, id, hget, he, hstart⟩ := hparams _ hx
    rw [Value.inline, hget]
    exact agree_param ((hhidden _).2 hx) he hstart a b
  | @call op es made hop hname _ ih =>
    refine agree_of_step (fun a b m n hmn _ => ?_) a b
    exact agree_call hop (fun hhid => hname ((hhidden _).1 hhid)) (hheads op hop) ih a b m n hmn

end TwoRuns

/-! ## The theorem -/

section Call

variable {f : String} {params : List String} {es : List Value} {heads : List Builtin}
  {body : Value} {frame : FrameId} {m : Machine} {s : Store}

/-- A call leads to the evaluation of the body where the parameters are bound, unless it nests too
deep or is too long to be written. -/
theorem call_run (limits : Limits) (h : CallByName m.store frame f params es heads body)
    (made : Option Nat) (a : Nat) :
    (∃ g, (evaluateWithin limits a 0 (.list (.symbol f :: es) made) frame m).1 = .error g ∧
        g.IsLimit) ∨
      ∃ b, evaluateWithin limits a 0 (.list (.symbol f :: es) made) frame m =
        evaluateWithin limits b 0 body frame (m.installed frame params es) := by
  obtain ⟨id, x, home, hf⟩ := h.fexpr
  have hfresh : ∀ x v, .unquote (.symbol x) ∈ es → m.store.lookup? frame x = some v →
      v.suspension? = none := fun x v => h.fresh
  cases a with
  | zero => exact Or.inl ⟨.tooDeep, rfl, Or.inl rfl⟩
  | succ a =>
    rw [evaluateWithin_succ, Level.step, Eval.bind_run]
    rcases Beside.write_cases (limits.level a) (.list (.symbol f :: es) made) with
      ⟨text, heq⟩ | ⟨fault, heq⟩
    · rw [heq]
      change (∃ g, ((evaluateWithin limits a 1 (.symbol f) frame >>= fun combiner =>
        (limits.level a).apply combiner ⟨es, frame, text⟩) m).1 = .error g ∧ g.IsLimit) ∨
        ∃ b, (evaluateWithin limits a 1 (.symbol f) frame >>= fun combiner =>
          (limits.level a).apply combiner ⟨es, frame, text⟩) m =
          evaluateWithin limits b 0 body frame (m.installed frame params es)
      rw [evaluateWithin_skip, Eval.bind_run]
      cases a - 1 with
      | zero => exact Or.inl ⟨.tooDeep, rfl, Or.inl rfl⟩
      | succ b =>
        rw [evaluateWithin_succ, step_symbol_run _ hf rfl]
        dsimp only [Level.apply]
        rw [Limits.deeper_level, applyFexpr_run _ h.length hfresh, sequence_singleton]
        exact Or.inr ⟨a - Level.skippedByFexpr, rfl⟩
    · rw [heq]
      exact Or.inl ⟨fault.toFault, rfl, isLimit_toFault fault⟩

theorem map_fst_suspensions (frame : FrameId) (id : Nat) (hlength : es.length = params.length) :
    (suspensions frame id params es).map Prod.fst = params := by
  induction params generalizing es id with
  | nil => rfl
  | cons p ps ih =>
    cases es with
    | nil => cases hlength
    | cons e es => rw [suspensions, List.map_cons, ih (id + 1) (Nat.succ.inj hlength)]

/-- A call binds each parameter to its own operand. -/
theorem get?_suspensions (hnodup : params.Nodup) (hlength : es.length = params.length)
    (hframe : frame < s.frames.length) (id : Nat) {x : String} (hx : x ∈ params) :
    ∃ e ∈ es, ∃ i, Bindings.get? (params.zip es) x = some e ∧
      (s.defineAll frame (suspensions frame id params es)).get? frame x =
        some (.suspended e frame false i) := by
  induction params generalizing s es id with
  | nil => cases hx
  | cons p ps ih =>
    cases es with
    | nil => cases hlength
    | cons e es =>
      have hnodup := List.nodup_cons.1 hnodup
      have hrest : es.length = ps.length := Nat.succ.inj hlength
      rw [suspensions, Store.defineAll, List.foldl_cons, ← Store.defineAll]
      by_cases hxp : x = p
      · subst hxp
        refine ⟨e, List.mem_cons_self, id, ?_, ?_⟩
        · simp [Bindings.get?]
        · rw [Store.get?_defineAll_of_not_mem, Store.get?_define_self hframe]
          rw [map_fst_suspensions frame (id + 1) hrest]
          exact hnodup.1
      · have hmem : x ∈ ps := (List.mem_cons.1 hx).resolve_left hxp
        have hframe' : frame <
            (s.define frame p (.suspended e frame false id)).frames.length := by
          rw [Store.length_define]
          exact hframe
        obtain ⟨e', he', i, hget, hbound⟩ := ih hnodup.2 hrest hframe' (id + 1) hmem
        refine ⟨e', List.mem_cons_of_mem e he', i, ?_, hbound⟩
        rw [← hget]
        simp [Bindings.get?, Ne.symm hxp]

/-- The machine in which the body is evaluated differs from that of the call in the parameters
only. -/
theorem state_installed (h : CallByName m.store frame f params es heads body) :
    (callHiding f params h.not_t).State (m.installed frame params es).store m.store
      (m.installed frame params es) m where
  nextId := rfl
  output := rfl
  differ := {
    frames := Store.length_defineAll _ _ _
    chain := fun _ => Store.chain_defineAll _ _ _ _
    shown := by
      intro g x hx
      have hget : (m.installed frame params es).store.get? g x = m.store.get? g x := by
        refine Store.get?_defineAll_of_not_mem ?_
        rw [map_fst_suspensions frame m.nextSuspension h.length]
        exact hx
      rw [hget]
      cases hv : m.store.get? g x with
      | none => exact .none
      | some v =>
        refine .some ⟨.refl v, fun hsecret => Hiding.bound_of_data (Hiding.data_of_code ?_)⟩
        exact h.bindings (fun hxf => hsecret (Or.inr (Or.inr hxf))) hx hv }
  kept₁ _ _ _ := rfl
  kept₂ _ _ _ := rfl

theorem sameResult_of_ends {H : Hiding} {start₁ start₂ : Store} {alarm : Fault}
    {D : Value → Prop} {r r' : Except Fault Value}
    (h : (inlining H start₁ start₂ alarm).Ends (Both D) r r') : SameResult r r' := by
  cases h with
  | value hv =>
    obtain ⟨rfl, -⟩ := hv
    exact .value _
  | fault hf => exact .fault hf

theorem alike_of_shown {H : Hiding} {x : String} {v w : Option Value}
    (h : Option.Rel (H.Shown x) v w) : Option.Rel Value.Alike v w := by
  cases h with
  | none => exact .none
  | some hshown => exact .some hshown.1

/-- Suspended parameters implement call by name. Within the limits of the machine, to call a fexpr
with suspended parameters ends as the evaluation of its body with the operands in place of the
unquoted parameters: in the same value or for the same cause, having printed the same, and with the
same bindings but for the parameters. -/
theorem call_endAlike (limits : Limits) (levels levels' : Nat)
    (h : CallByName m.store frame f params es heads body) (made : Option Nat)
    (hheads : HoldsThroughout (bindsHeads heads frame) limits levels'
      (body.inline (params.zip es)) frame m)
    (hcall : WithinLimits
      (evaluateWithin limits levels 0 (.list (.symbol f :: es) made) frame m).1)
    (hinline : WithinLimits
      (evaluateWithin limits levels' 0 (body.inline (params.zip es)) frame m).1) :
    EndAlike params (evaluateWithin limits levels 0 (.list (.symbol f :: es) made) frame m)
      (evaluateWithin limits levels' 0 (body.inline (params.zip es)) frame m) := by
  -- The call leads to the body where the parameters are bound. From there on the runs are compared,
  -- the second one watched for the names of the builtins.
  rcases call_run limits h made levels with ⟨g, hg, hlimit⟩ | ⟨b, hrun⟩
  · exact absurd hlimit (hcall g hg)
  · rw [hrun] at hcall ⊢
    obtain ⟨alarm, halarm⟩ := hheads
    have hparams : ∀ x ∈ params, ∃ e id, Bindings.get? (params.zip es) x = some e ∧
        (callHiding f params h.not_t).Code e ∧
        (m.installed frame params es).store.get? frame x =
          some (.suspended e frame false id) := by
      intro x hx
      obtain ⟨e, he, i, hget, hbound⟩ :=
        get?_suspensions h.nodup h.length h.exists_frame m.nextSuspension hx
      exact ⟨e, i, hget, h.operands e he, hbound⟩
    have hagree : (inlining (callHiding f params h.not_t) (m.installed frame params es).store
        m.store alarm).Agree (Both fun _ => True) (evaluateWithin limits b 0 body frame)
        (watchedWithin limits (bindsHeads heads frame) alarm levels' 0
          (body.inline (params.zip es)) frame) :=
      agree_template h.heads (fun _ => Iff.rfl) hparams h.template b levels'
    have hafter := hagree _ m (state_installed h)
    have hwatched := Correspondence.watchedWithin_eq limits halarm
    rw [hwatched] at halarm hafter
    rcases hafter with ⟨g, hg, hlimit⟩ | ⟨g, hg, hlimit⟩ | ⟨hstate, hends⟩
    · exact absurd hlimit (hcall g hg)
    · rcases hlimit with hlimit | rfl
      · exact absurd hlimit (hinline g hg)
      · exact absurd hg halarm
    · exact {
        result := sameResult_of_ends hends
        output := hstate.output
        nextId := hstate.nextId
        frames := hstate.differ.frames
        chain := hstate.differ.chain
        bindings := fun g x hx => alike_of_shown (hstate.differ.shown g hx) }

end Call

/-- To call the opposite of `if` on a test and an expression is to evaluate the `if` itself. -/
theorem call_unless_endAlike :
    let body : Value :=
      .list [.symbol "if", .unquote (.symbol "test"), .nil, .unquote (.symbol "body")] none
    let fexpr : Value := .fexpr 0 "unless" (["test", "body"].map .quoted) [body] 0
    let m := { Machine.empty with store := (Store.empty.global []).define 0 "unless" fexpr }
    let es : List Value := [.nil, .list [.symbol "debug", .symbol "t"] none]
    EndAlike ["test", "body"] (evaluateWithin {} 60 0 (.list (.symbol "unless" :: es) none) 0 m)
      (evaluateWithin {} 60 0 (body.inline (["test", "body"].zip es)) 0 m) := by
  intro body fexpr m es
  have hsecret (x : String) (hx : x = "debug" ∨ x = "t") :
      ¬ (callHiding "unless" ["test", "body"] (by decide)).secret x := by
    rcases hx with rfl | rfl <;> simp [callHiding, restMarker]
  have hcall : CallByName m.store 0 "unless" ["test", "body"] es [.ifForm] body := {
    fexpr := ⟨0, "unless", 0, rfl⟩
    template := by
      refine .call none (List.mem_singleton.2 rfl) (by decide) fun e he => ?_
      simp only [List.mem_cons, List.not_mem_nil, or_false] at he
      rcases he with rfl | rfl | rfl
      · exact .param (by decide)
      · exact .nil
      · exact .param (by decide)
    heads := by decide
    nodup := by decide
    length := rfl
    not_t := by decide
    exists_frame := by decide
    operands := by
      intro e he
      simp only [es, List.mem_cons, List.not_mem_nil, or_false] at he
      rcases he with rfl | rfl
      · exact .leaf trivial rfl
      · refine .node trivial fun e he => ?_
        simp only [Value.parts, List.mem_cons, List.not_mem_nil, or_false] at he
        rcases he with rfl | rfl
        · exact .leaf (hsecret "debug" (Or.inl rfl)) rfl
        · exact .leaf (hsecret "t" (Or.inr rfl)) rfl
    bindings := by
      intro g x v hx _ hv
      rw [Store.get?_define_of_ne (Or.inr hx), Store.global, Store.root, Store.get?_push] at hv
      split at hv
      · rcases Store.builtin_or_t_of_get?_globalBindings hv with ⟨op, -, rfl⟩ | rfl
        · exact .leaf trivial rfl
        · exact .leaf (hsecret "t" (Or.inr rfl)) rfl
      · cases hv
    fresh := by
      intro x v hx _
      simp [es] at hx }
  have hheads : HoldsThroughout (bindsHeads [.ifForm] 0) {} 60
      (body.inline (["test", "body"].zip es)) 0 m := by
    have hvalue : (watchedWithin {} (bindsHeads [.ifForm] 0) .endless 60 0
        (body.inline (["test", "body"].zip es)) 0 m).1 = .ok .t := by rfl
    refine ⟨.endless, fun h => ?_⟩
    rw [hvalue] at h
    cases h
  have hwithin {r : Except Fault Value} (h : r = .ok .t) : WithinLimits r := by
    rintro f hf
    rw [h] at hf
    cases hf
  exact call_endAlike {} 60 60 hcall none hheads (hwithin rfl) (hwithin rfl)

end Fexpr
