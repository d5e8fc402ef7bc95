import Fexpr.Proofs.Forwarding

/-!
# Forwarding to the rest

A suspended parameter for all remaining operands is bound to the list of them, as they are written,
with the frame of the call. To force it is to evaluate them in order where the parameters of the
call are bound already. So an operand that forces a name does not hand on what the name stood for at
the call, as an operand of its own parameter does, but what it stands for when its turn comes.

Main statement (`force_rest_eq_replay`): the two are the same as long as every name that is forced
stands for the same form again. At the start of the body a name does so unless it is the parameter
itself or a parameter bound by the same call to something else. The parameter itself does not: what
forces it comes back to itself until a limit is met (`isLimit_of_own_rest`).
-/

namespace Fexpr

variable {limits : Limits} {frame : FrameId} {m m' n : Machine} {s : Store}

/-! ## What is handed on -/

/-- The suspended form that an operand hands on: the one that its name stands for. -/
def Store.forced? (s : Store) (frame : FrameId) : Value → Option Value
  | .unquote (.symbol x) => (s.lookup? frame x).filter (·.suspension?.isSome)
  | _ => none

theorem Store.forced?_eq_some_iff {e v : Value} :
    s.forced? frame e = some v ↔
      ∃ x, e = .unquote (.symbol x) ∧ s.lookup? frame x = some v ∧ v.suspension?.isSome := by
  constructor
  · intro h
    unfold Store.forced? at h
    split at h
    next x =>
      obtain ⟨hx, hv⟩ := Option.filter_eq_some_iff.1 h
      exact ⟨x, rfl, hx, hv⟩
    · cases h
  · rintro ⟨x, rfl, hx, hv⟩
    rw [Store.forced?, hx, Option.filter_some, if_pos hv]

namespace Limits

/-- The evaluation of an operand as it stood in a store: if it handed a form on there, that form is
run, whatever its name stands for now. -/
def replay (limits : Limits) (levels : Nat) (s : Store) (frame : FrameId) (e : Value) :
    Eval Value :=
  match s.forced? frame e with
  | some (.suspended e' home sequence _) =>
    ((limits.level levels).deeper Level.skippedByForcing).force e' home sequence
  | _ => (limits.level levels).step e frame

/-- The evaluation of operands as they stood in a store, for the value of the last one. -/
def replayAfter (limits : Limits) (levels : Nat) (s : Store) (frame : FrameId) (last : Value) :
    List Value → Eval Value
  | [] => pure last
  | e :: es => do limits.replayAfter levels s frame (← limits.replay levels s frame e) es

/-- When the operands are evaluated one after the other, each one that handed a form on hands the
same form on when its turn comes. -/
def Replays (limits : Limits) (levels : Nat) (s : Store) (frame : FrameId) :
    List Value → Machine → Prop
  | [], _ => True
  | e :: es, n =>
    (∀ v, s.forced? frame e = some v → n.store.forced? frame e = some v) ∧
      ∀ v n', (limits.level levels).step e frame n = (.ok v, n') →
        limits.Replays levels s frame es n'

end Limits

/-- An operand that hands the same form on is evaluated as it stood. -/
theorem step_eq_replay {levels : Nat} {e : Value}
    (h : ∀ v, s.forced? frame e = some v → n.store.forced? frame e = some v) :
    (limits.level levels).step e frame n = limits.replay levels s frame e n := by
  unfold Limits.replay
  cases hforced : s.forced? frame e with
  | none => rfl
  | some v =>
    obtain ⟨x, rfl, hx, hv⟩ := Store.forced?_eq_some_iff.1 (h v hforced)
    cases v with
    | suspended => exact step_unquote_run _ hx
    | _ => cases hv

theorem sequenceAfter_eq_replay {levels : Nat} {last : Value} {es : List Value}
    (h : limits.Replays levels s frame es n) :
    (limits.level (levels + 1)).sequenceAfter frame last es n =
      limits.replayAfter levels s frame last es n := by
  induction es generalizing last n with
  | nil => rfl
  | cons e es ih =>
    obtain ⟨hfirst, hrest⟩ := h
    have hstep : (limits.level (levels + 1)).evaluate e frame n =
        limits.replay levels s frame e n := step_eq_replay hfirst
    rw [Level.sequenceAfter, Limits.replayAfter, Eval.bind_run, Eval.bind_run, ← hstep]
    cases hrun : (limits.level (levels + 1)).evaluate e frame n with
    | mk r n' =>
      cases r with
      | ok v => exact ih (hrest v n' hrun)
      | error f => rfl

/-! ## The rest -/

/-- To run the list of the remaining operands is to evaluate them in order. -/
theorem force_ofItems (lv : Level) (es : List Value) :
    lv.force (.ofItems es) frame true = (do
      lv.trace (.ofItems es)
      lv.sequence frame es) := by
  cases es <;> rfl

/-- An operand hands on what it did unless its name is the one that is bound anew. -/
theorem forced?_define_iff (hframe : frame < s.frames.length) {x : String} {form e v : Value}
    (hv : v ≠ form) :
    (s.define frame x form).forced? frame e = some v ↔
      e ≠ .unquote (.symbol x) ∧ s.forced? frame e = some v := by
  simp only [Store.forced?_eq_some_iff]
  constructor
  · rintro ⟨y, rfl, hy, hsuspended⟩
    have hne : y ≠ x := by
      rintro rfl
      rw [Store.lookup?_define_self hframe] at hy
      exact hv (Option.some.inj hy).symm
    rw [Store.lookup?_define_of_ne hne] at hy
    refine ⟨fun h => ?_, y, rfl, hy, hsuspended⟩
    injection h with h
    injection h with h
    exact hne h
  · rintro ⟨hne, y, rfl, hy, hsuspended⟩
    have hyx : y ≠ x := by
      rintro rfl
      exact hne rfl
    refine ⟨y, rfl, ?_, hsuspended⟩
    rw [Store.lookup?_define_of_ne hyx]
    exact hy

/-- A suspended rest is its operands as they are, in order, where the call has bound its parameters.
Let the call settle its other operands in `m'`; its body starts in `start`. There an operand hands
on a form made before exactly if it is not the operand that forces the rest and if the other
parameters leave its name as it was. To force the rest is to evaluate its operands in order, for the
last value, nil when there are none; and as long as each of them hands on at its turn what it handed
on when the others were settled, this is to run those forms, and the other operands as they are. -/
theorem force_rest_eq_replay (limits : Limits) {levels : Nat} {name : String}
    {params : List Param} {body : List Value} {c : Call} {p : Param} {fixed : Bindings}
    (hrest : Param.rest? params = some p) (hsuspended : p.suspended = true)
    (hcount : (Param.required params).length ≤ c.operands.length)
    (hfixed : (limits.level levels).arguments c.frame (Param.required params) c.operands m =
      (.ok fixed, m'))
    (hframe : c.frame < m'.store.frames.length) :
    let extra := c.operands.drop (Param.required params).length
    let form : Value := .suspended (.ofItems extra) c.frame true m'.nextSuspension
    let start : Machine :=
      { m' with
        store := m'.store.defineAll c.frame (fixed ++ [(p.name, form)])
        nextSuspension := m'.nextSuspension + 1 }
    (limits.level levels).applyFexpr name params body c m =
        (limits.level levels).sequence c.frame body start ∧
      (∀ e v, v ≠ form →
        (start.store.forced? c.frame e = some v ↔
          e ≠ .unquote (.symbol p.name) ∧
            (m'.store.defineAll c.frame fixed).forced? c.frame e = some v)) ∧
      ∀ more,
        evaluateWithin limits (more + 4) 0 (.unquote (.symbol p.name)) c.frame start =
            (do
              (limits.level (more + 1)).trace (.ofItems extra)
              (limits.level (more + 1)).sequence c.frame extra) start ∧
          (limits.Replays more m'.store c.frame extra start →
            evaluateWithin limits (more + 4) 0 (.unquote (.symbol p.name)) c.frame start =
              (do
                (limits.level (more + 1)).trace (.ofItems extra)
                limits.replayAfter more m'.store c.frame .nil extra) start) := by
  intro extra form start
  have hstore : start.store = (m'.store.defineAll c.frame fixed).define c.frame p.name form :=
    Store.defineAll_append _ _ _ _ _
  have hlength : c.frame < (m'.store.defineAll c.frame fixed).frames.length := by
    rw [Store.length_defineAll]
    exact hframe
  have hbound : start.store.lookup? c.frame p.name = some form := by
    rw [hstore]
    exact Store.lookup?_define_self hlength p.name form
  refine ⟨?_, fun e v hv => ?_, fun more => ?_⟩
  · exact applyFexpr_run_of_some _ hrest hcount hfixed (restArgument_run _ hsuspended extra)
  · rw [hstore]
    exact forced?_define_iff hlength hv
  · have hforce : evaluateWithin limits (more + 4) 0 (.unquote (.symbol p.name)) c.frame start =
        (do
          (limits.level (more + 1)).trace (.ofItems extra)
          (limits.level (more + 1)).sequence c.frame extra) start := by
      rw [evaluateWithin_unquote (more + 1) hbound, force_ofItems]
    refine ⟨hforce, fun hreplays => ?_⟩
    rw [hforce, Eval.bind_run, Eval.bind_run]
    rcases Comparison.Beside.trace_cases (limits.level (more + 1)) (.ofItems extra) with
      heq | ⟨fault, heq⟩
    · rw [heq]
      exact sequenceAfter_eq_replay hreplays
    · rw [heq]
      rfl

/-- A fexpr that forces its rest once runs what was suspended under another name. -/
theorem force_rest_eq_replay_other_name :
    let r : Param := { name := "body", suspended := true, rest := true }
    let forward (x : String) : Value := .unquote (.symbol x)
    let m : Machine := { Machine.empty with
      store := (Store.empty.global []).define 0 "x" (.suspended (.symbol "t") 0 false 0)
      nextSuspension := 1 }
    let start : Machine := { m with
      store := m.store.define 0 "body" (.suspended (.list [forward "x"] none) 0 true 1)
      nextSuspension := 2 }
    (Limits.level {} 50).applyFexpr "g" [r] [forward "body"] ⟨[forward "x"], 0, ""⟩ m =
        (Limits.level {} 50).sequence 0 [forward "body"] start ∧
      evaluateWithin {} 40 0 (forward "body") 0 start =
        (do
          (Limits.level {} 37).trace (.list [forward "x"] none)
          Limits.replayAfter {} 36 m.store 0 .nil [forward "x"]) start := by
  intro r forward m start
  have hreplays : Limits.Replays {} 36 m.store 0 [forward "x"] start :=
    ⟨fun v hv => hv, fun _ _ _ => trivial⟩
  have hfixed : (Limits.level {} 50).arguments 0 (Param.required [r]) [forward "x"] m =
      (.ok [], m) := rfl
  obtain ⟨hbody, -, hforce⟩ := force_rest_eq_replay {} (c := ⟨[forward "x"], 0, ""⟩)
    (p := r) rfl rfl (by decide) hfixed (by decide)
  exact ⟨hbody, (hforce 36).2 hreplays⟩

/-! ## Handing the rest on to itself -/

/-- A call of a fexpr that takes nothing but a suspended rest evaluates the body where the rest is
bound to the operands. -/
theorem evaluateWithin_call_rest {f x r : String} {id levels : Nat} {body es : List Value}
    {home : FrameId} {made : Option Nat}
    (hf : m.store.lookup? frame f =
      some (.fexpr id x [{ name := r, suspended := true, rest := true }] body home))
    (htext : (Value.list (.symbol f :: es) made).IsWritable (roomOf (levels + 4))) :
    evaluateWithin limits (levels + 5) 0 (.list (.symbol f :: es) made) frame m =
      (limits.level levels).sequence frame body
        { m with
          store := m.store.define frame r (.suspended (.ofItems es) frame true m.nextSuspension)
          nextSuspension := m.nextSuspension + 1 } := by
  obtain ⟨text, htext⟩ := Value.exists_render_iff.2 htext
  have hfixed : (limits.level levels).arguments frame
      (Param.required [{ name := r, suspended := true, rest := true }]) es m = (.ok [], m) := rfl
  rw [evaluateWithin_call hf htext]
  exact applyFexpr_run_of_some (limits.level levels) (c := ⟨es, frame, text⟩) rfl (Nat.zero_le _)
    hfixed (restArgument_run _ rfl es)

/-- What starts with a limit ends there. -/
theorem exists_limit_bind {α β : Type} {x : Eval α} (f : α → Eval β)
    (h : ∃ fault, (x n).1 = .error fault ∧ fault.IsLimit) :
    ∃ fault, ((x >>= f) n).1 = .error fault ∧ fault.IsLimit := by
  obtain ⟨fault, hfault, hlimit⟩ := h
  refine ⟨fault, ?_, hlimit⟩
  rw [Eval.bind_run]
  revert hfault
  cases x n with
  | mk r n' =>
    rintro rfl
    rfl

/-- A rest that begins with the operand that forces it is never run to an end: it comes back to
itself until a limit is met. -/
theorem isLimit_of_own_rest {x : String} {es : List Value} {made : Option Nat} {i : Nat}
    (hx : n.store.lookup? frame x =
      some (.suspended (.list (.unquote (.symbol x) :: es) made) frame true i)) (levels : Nat) :
    ∃ fault, (evaluateWithin limits levels 0 (.unquote (.symbol x)) frame n).1 = .error fault ∧
      fault.IsLimit := by
  induction levels using Nat.strongRecOn with
  | ind levels ih =>
    cases levels with
    | zero => exact ⟨.tooDeep, rfl, Or.inl rfl⟩
    | succ levels =>
      rw [evaluateWithin_succ, step_unquote_run _ hx, Limits.deeper_level, Level.force,
        Eval.bind_run]
      rcases Comparison.Beside.trace_cases (limits.level (levels - Level.skippedByForcing))
        (.list (.unquote (.symbol x) :: es) made) with heq | ⟨fault, heq⟩
      · rw [heq]
        exact exists_limit_bind _
          (ih (levels - Level.skippedByForcing) (Nat.lt_succ_of_le (Nat.sub_le _ _)))
      · rw [heq]
        exact ⟨fault.toFault, rfl, isLimit_toFault fault⟩

/-- Where `f` passes its rest on to `g`, whose rest has the same name, the call `(f nil t)` ends in
a limit: the operands of `f` would have run to the value `t`, but the rest of `g` comes back to
itself, and does so on any number of levels. -/
theorem not_replayed_own_rest :
    let r : Param := { name := "body", suspended := true, rest := true }
    let forward : Value := .unquote (.symbol "body")
    let m : Machine := { Machine.empty with
      store := (Store.empty.global []).defineAll 0
        [("g", .fexpr 0 "g" [r] [forward] 0),
          ("f", .fexpr 1 "f" [r] [.list [.symbol "g", forward] none] 0)] }
    let inF : Machine := { m with
      store := m.store.define 0 "body" (.suspended (.list [.nil, .symbol "t"] none) 0 true 0)
      nextSuspension := 1 }
    let inG : Machine := { inF with
      store := inF.store.define 0 "body" (.suspended (.list [forward] none) 0 true 1)
      nextSuspension := 2 }
    (Limits.replayAfter {} 20 inF.store 0 .nil [forward] inG).1 = .ok .t ∧
      ∀ levels,
        evaluateWithin {} (levels + 12) 0 (.list [.symbol "f", .nil, .symbol "t"] none) 0 m =
            evaluateWithin {} (levels + 2) 0 forward 0 inG ∧
          ∃ fault, (evaluateWithin {} (levels + 2) 0 forward 0 inG).1 = .error fault ∧
            fault.IsLimit := by
  intro r forward m inF inG
  refine ⟨rfl, fun levels => ⟨?_, isLimit_of_own_rest rfl (levels + 2)⟩⟩
  have hf : m.store.lookup? 0 "f" =
      some (.fexpr 1 "f" [r] [.list [.symbol "g", forward] none] 0) := rfl
  have hg : inF.store.lookup? 0 "g" = some (.fexpr 0 "g" [r] [forward] 0) := rfl
  have hroom (more : Nat) : 3 ≤ roomOf (levels + 2 + more + 4) := by
    unfold roomOf
    omega
  have hcallF : (Value.list [.symbol "f", .nil, .symbol "t"] none).IsWritable
      (roomOf (levels + 2 + 5 + 4)) := by
    refine ⟨Nat.le_trans ?_ (hroom 5), ?_⟩
    · simp [Value.height, Value.heightOfAll]
    · simp [Value.HasShortNumerals, Value.AllHaveShortNumerals]
  have hcallG : (Value.list [.symbol "g", forward] none).IsWritable
      (roomOf (levels + 2 + 4)) := by
    refine ⟨Nat.le_trans ?_ (hroom 0), ?_⟩
    · simp [Value.height, Value.heightOfAll, forward]
    · simp [Value.HasShortNumerals, Value.AllHaveShortNumerals, forward]
  calc evaluateWithin {} (levels + 2 + 5 + 5) 0 (.list [.symbol "f", .nil, .symbol "t"] none) 0 m
      = (Limits.level {} (levels + 2 + 5)).sequence 0 [.list [.symbol "g", forward] none] inF :=
        evaluateWithin_call_rest hf hcallF
    _ = evaluateWithin {} (levels + 2 + 5) 0 (.list [.symbol "g", forward] none) 0 inF := by
        rw [sequence_singleton]
        rfl
    _ = (Limits.level {} (levels + 2)).sequence 0 [forward] inG :=
        evaluateWithin_call_rest hg hcallG
    _ = evaluateWithin {} (levels + 2) 0 forward 0 inG := by
        rw [sequence_singleton]
        rfl

end Fexpr
