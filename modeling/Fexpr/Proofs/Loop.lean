import Fexpr.Proofs.CallByName
import Fexpr.Proofs.Turns

/-!
# Loops

A loop evaluates its test and its body by turns, until the test is nil or something fails (`Loops`).
Its first turn is that of a `when` form with the same test and body (`Level.turnThen`), and what
comes after the turn is the loop again.

Main statement: a `while` form and the `when` form that is its unrolling are evaluated to the same
end (`while_unrolls`).
-/

namespace Fexpr

/-! ## Turns -/

/-- One turn of a loop: the test is evaluated, and the body unless the test is nil. It ends the
loop, with a result, or does not. -/
inductive Turn (Run : Value → Machine → Except Fault Value → Machine → Prop) (test : Value)
    (body : List Value) (m : Machine) : Option (Except Fault Value) → Machine → Prop
  | stop {m' : Machine} (htest : Run test m (.ok .nil) m') :
      Turn Run test body m (some (.ok .nil)) m'
  | testFails {f : Fault} {m' : Machine} (htest : Run test m (.error f) m') :
    Turn Run test body m (some (.error f)) m'
  | bodyFails {v : Value} {f : Fault} {m₁ m' : Machine} (htest : Run test m (.ok v) m₁)
    (hv : v.isNil = false) (hbody : InTurn Run body m₁ (.error f) m') :
    Turn Run test body m (some (.error f)) m'
  | goOn {v : Value} {vs : List Value} {m₁ m' : Machine} (htest : Run test m (.ok v) m₁)
    (hv : v.isNil = false) (hbody : InTurn Run body m₁ (.ok vs) m') : Turn Run test body m none m'

/-- A loop that takes a number of turns and ends in the next one. -/
inductive Loops (Run : Value → Machine → Except Fault Value → Machine → Prop) (test : Value)
    (body : List Value) : Nat → Machine → Except Fault Value → Machine → Prop
  | last {m m' : Machine} {r : Except Fault Value} (h : Turn Run test body m (some r) m') :
    Loops Run test body 0 m r m'
  | more {k : Nat} {m m₁ m' : Machine} {r : Except Fault Value} (h : Turn Run test body m none m₁)
    (hs : Loops Run test body k m₁ r m') : Loops Run test body (k + 1) m r m'

namespace Value

theorem eq_nil_of_isNil {v : Value} (h : v.isNil = true) : v = .nil := by
  cases v with
  | nil => rfl
  | _ => cases h

end Value

section

variable {Run Run' : Value → Machine → Except Fault Value → Machine → Prop} {test : Value}
  {body : List Value} {m m' : Machine} {o : Option (Except Fault Value)} {r : Except Fault Value}
  {lack : Fault}

/-- The value of a loop is nil. -/
theorem Loops.eq_nil {k : Nat} {v : Value} (h : Loops Run test body k m (.ok v) m') : v = .nil := by
  generalize hr : (Except.ok v : Except Fault Value) = r at h
  induction h with
  | last h =>
    cases hr
    cases h
    rfl
  | more _ _ ih => exact ih hr

/-- Items that are evaluated in turn are so under another relation, if that holds wherever the first
does but for a fault that they do not end in. -/
theorem InTurn.imp (hrun : ∀ {e m r m'}, r ≠ .error lack → Run e m r m' → Run' e m r m')
    {r : Except Fault (List Value)} (h : InTurn Run body m r m') (hr : r ≠ .error lack) :
    InTurn Run' body m r m' := by
  induction h with
  | nil m => exact .nil m
  | fault es h => exact .fault es (hrun (fun heq => hr (by cases heq; rfl)) h)
  | @cons e es v m m₁ m' r h _ ih =>
    refine .cons (hrun nofun h) (ih fun heq => hr ?_)
    rw [heq]
    rfl

/-- A fault that nothing is evaluated to is none of a row either. -/
theorem InTurn.not_fault (hrun : ∀ {e m m'}, ¬ Run e m (.error lack) m') :
    ¬ InTurn Run body m (.error lack) m' := by
  generalize hr : (Except.error lack : Except Fault (List Value)) = r
  intro h
  induction h with
  | nil => cases hr
  | fault es h =>
    cases hr
    exact hrun h
  | @cons e es v m m₁ m' r _ _ ih =>
    cases r with
    | error f =>
      cases hr
      exact ih rfl
    | ok vs => cases hr

theorem Turn.not_fault (hrun : ∀ {e m m'}, ¬ Run e m (.error lack) m') :
    ¬ Turn Run test body m (some (.error lack)) m' := by
  intro h
  cases h with
  | testFails htest => exact hrun htest
  | bodyFails _ _ hbody => exact hbody.not_fault hrun

theorem Loops.not_fault (hrun : ∀ {e m m'}, ¬ Run e m (.error lack) m') {k : Nat} :
    ¬ Loops Run test body k m (.error lack) m' := by
  generalize hr : (Except.error lack : Except Fault Value) = r
  intro h
  induction h with
  | last h =>
    cases hr
    exact h.not_fault hrun
  | more _ _ ih => exact ih hr

theorem Turn.imp (hrun : ∀ {e m r m'}, r ≠ .error lack → Run e m r m' → Run' e m r m')
    (h : Turn Run test body m o m') (ho : o ≠ some (.error lack)) : Turn Run' test body m o m' := by
  cases h with
  | stop htest => exact .stop (hrun nofun htest)
  | testFails htest => exact .testFails (hrun (fun heq => ho (congrArg some heq)) htest)
  | bodyFails htest hv hbody =>
    refine .bodyFails (hrun nofun htest) hv (hbody.imp hrun fun heq => ho ?_)
    cases heq
    rfl
  | goOn htest hv hbody => exact .goOn (hrun nofun htest) hv (hbody.imp hrun nofun)

theorem Loops.imp (hrun : ∀ {e m r m'}, r ≠ .error lack → Run e m r m' → Run' e m r m') {k : Nat}
    (h : Loops Run test body k m r m') (hr : r ≠ .error lack) : Loops Run' test body k m r m' := by
  induction h with
  | last h => exact .last (h.imp hrun fun heq => hr (Option.some.inj heq))
  | more h _ ih => exact .more (h.imp hrun nofun) (ih hr)

end

namespace Level

/-- One turn, and what comes after it unless it ends there. -/
def turnThen (lv : Level) (frame : FrameId) (test : Value) (body : List Value)
    (next : Eval Value) : Eval Value := do
  if (← lv.evaluate test frame).isNil then return .nil
  else
    let _ ← lv.sequence frame body
    next

/-- After a turn of a loop comes the loop, with a turn less. -/
theorem loop_succ (lv : Level) (frame : FrameId) (test : Value) (body : List Value) (turns : Nat) :
    lv.loop frame test body (turns + 1) =
      lv.turnThen frame test body (lv.loop frame test body turns) := rfl

/-- A `when` form takes a turn with all that it evaluates but the last expression. -/
theorem whenForm_append (lv : Level) (frame : FrameId) (test e last : Value) (body : List Value)
    (text : String) :
    lv.whenForm ⟨test :: e :: (body ++ [last]), frame, text⟩ =
      lv.turnThen frame test (e :: body) (lv.evaluate last frame) := by
  have hlast : lv.sequence frame (e :: (body ++ [last])) =
      lv.sequence frame (e :: body) >>= fun _ => lv.evaluate last frame := by
    rw [← List.cons_append, sequence, sequenceAfter_append]
    refine congrArg _ (funext fun v => ?_)
    rw [sequenceAfter]
    exact bind_pure _
  change (lv.evaluate test frame >>= fun v =>
    if v.isNil then pure .nil else lv.sequence frame (e :: (body ++ [last]))) = _
  rw [hlast]
  rfl

variable {lv : Level} {frame : FrameId} {test v : Value} {body : List Value} {m m₁ m₂ : Machine}
  {f : Fault}

theorem turnThen_run_of_fault (htest : lv.evaluate test frame m = (.error f, m₁))
    (next : Eval Value) : lv.turnThen frame test body next m = (.error f, m₁) := by
  rw [turnThen, Eval.bind_run, htest]

theorem turnThen_run_of_nil (htest : lv.evaluate test frame m = (.ok .nil, m₁))
    (next : Eval Value) : lv.turnThen frame test body next m = (.ok .nil, m₁) := by
  rw [turnThen, Eval.bind_run, htest]
  rfl

theorem turnThen_run_of_value (htest : lv.evaluate test frame m = (.ok v, m₁))
    (hv : v.isNil = false) (next : Eval Value) :
    lv.turnThen frame test body next m = (lv.sequence frame body >>= fun _ => next) m₁ := by
  rw [turnThen, Eval.bind_run, htest]
  dsimp only
  rw [hv, if_neg Bool.false_ne_true]

end Level

/-! ## Evaluated turns -/

section

variable {limits : Limits} {levels : Nat} {frame : FrameId} {test : Value} {body : List Value}
  {m m' : Machine} {r : Except Fault Value}

/-- A turn is taken as it is evaluated, with turns enough for the loops in it. -/
theorem turnThen_run_of_turn {o : Option (Except Fault Value)}
    (h : Turn (EvaluatesTo limits levels frame) test body m o m') :
    ∃ enough, ∀ turns ≥ enough, ∀ next,
      ((limits.withTurns turns).level levels).turnThen frame test body next m =
        o.elim (next m') fun r => (r, m') := by
  cases h with
  | stop htest =>
    obtain ⟨enough, hrun⟩ := htest.exists_turns
    exact ⟨enough, fun turns hle next => Level.turnThen_run_of_nil (hrun turns hle) next⟩
  | testFails htest =>
    obtain ⟨enough, hrun⟩ := htest.exists_turns
    exact ⟨enough, fun turns hle next => Level.turnThen_run_of_fault (hrun turns hle) next⟩
  | bodyFails htest hv hbody | goOn htest hv hbody =>
    obtain ⟨enough, hrun⟩ := htest.exists_turns
    obtain ⟨enough', hruns⟩ := sequenceAfter_run_of_inTurn hbody
    refine ⟨max enough enough', fun turns hle next => ?_⟩
    rw [Level.turnThen_run_of_value (hrun turns (Nat.le_trans (Nat.le_max_left _ _) hle)) hv,
      Eval.bind_run, Level.sequence, hruns turns (Nat.le_trans (Nat.le_max_right _ _) hle)]
    rfl

/-- A turn is evaluated as it is taken, if it comes to an end. -/
theorem turn_of_turnThen_run {turns : Nat} {next : Eval Value}
    (hrun : ((limits.withTurns turns).level levels).turnThen frame test body next m = (r, m'))
    (hr : r ≠ .error .endless) :
    Turn (EvaluatesTo limits levels frame) test body m (some r) m' ∨
      ∃ m₁, Turn (EvaluatesTo limits levels frame) test body m none m₁ ∧ next m₁ = (r, m') := by
  rcases htest : ((limits.withTurns turns).level levels).evaluate test frame m with ⟨_ | v, m₁⟩
  · rw [Level.turnThen_run_of_fault htest] at hrun
    cases hrun
    exact Or.inl (.testFails ⟨hr, turns, htest⟩)
  · have hvalue : EvaluatesTo limits levels frame test m (.ok v) m₁ := ⟨nofun, turns, htest⟩
    cases hv : v.isNil with
    | true =>
      cases Value.eq_nil_of_isNil hv
      rw [Level.turnThen_run_of_nil htest] at hrun
      cases hrun
      exact Or.inl (.stop hvalue)
    | false =>
      rw [Level.turnThen_run_of_value htest hv, Eval.bind_run] at hrun
      rcases hbody : ((limits.withTurns turns).level levels).sequence frame body m₁ with ⟨r₂, m₂⟩
      rw [hbody] at hrun
      have hends : r₂ ≠ .error .endless := by
        rintro rfl
        cases hrun
        exact hr rfl
      obtain ⟨r', hin, rfl⟩ := inTurn_of_sequenceAfter_run hbody hends
      cases r' with
      | error f =>
        cases hrun
        exact Or.inl (.bodyFails hvalue hv hin)
      | ok vs => exact Or.inr ⟨m₂, .goOn hvalue hv hin, hrun⟩

/-- A loop is run as it is evaluated, with turns enough for itself and the loops in it. -/
theorem loop_run_of_loops {k : Nat}
    (h : Loops (EvaluatesTo limits levels frame) test body k m r m') :
    ∃ enough, ∀ turns ≥ enough, ∀ more > k,
      ((limits.withTurns turns).level levels).loop frame test body more m = (r, m') := by
  -- The turns that the loop has left are counted apart from those that loops in its body have.
  induction h with
  | last h =>
    obtain ⟨enough, hrun⟩ := turnThen_run_of_turn h
    refine ⟨enough, fun turns hle more hmore => ?_⟩
    obtain ⟨more, rfl⟩ := Nat.exists_eq_add_of_lt hmore
    rw [Level.loop_succ]
    exact hrun turns hle _
  | @more k m m₁ m' r h _ ih =>
    obtain ⟨enough, hrun⟩ := turnThen_run_of_turn h
    obtain ⟨enough', hruns⟩ := ih
    refine ⟨max enough enough', fun turns hle more hmore => ?_⟩
    obtain ⟨more, rfl⟩ := Nat.exists_eq_add_of_lt (Nat.zero_lt_of_lt hmore)
    rw [Nat.zero_add] at hmore ⊢
    rw [Level.loop_succ, hrun turns (Nat.le_trans (Nat.le_max_left _ _) hle)]
    exact hruns turns (Nat.le_trans (Nat.le_max_right _ _) hle) more (Nat.lt_of_succ_lt_succ hmore)

/-- A loop is evaluated as it is run, if it comes to an end. -/
theorem loops_of_loop_run {turns more : Nat}
    (hrun : ((limits.withTurns turns).level levels).loop frame test body more m = (r, m'))
    (hr : r ≠ .error .endless) :
    ∃ k, Loops (EvaluatesTo limits levels frame) test body k m r m' := by
  induction more generalizing m with
  | zero =>
    cases hrun
    exact absurd rfl hr
  | succ more ih =>
    rw [Level.loop_succ] at hrun
    rcases turn_of_turnThen_run hrun hr with hlast | ⟨m₁, hturn, hnext⟩
    · exact ⟨0, .last hlast⟩
    · obtain ⟨k, hs⟩ := ih hnext
      exact ⟨k + 1, .more hturn hs⟩

end

/-! ## Forms -/

/-- A loop as a form. -/
def whileLoop (test e : Value) (body : List Value) (made : Option Nat) : Value :=
  .list (.symbol "while" :: test :: e :: body) made

/-- The form that takes a turn of the loop before the loop. -/
def unrolledLoop (test e : Value) (body : List Value) (made made' : Option Nat) : Value :=
  .list (.symbol "when" :: test :: e :: (body ++ [whileLoop test e body made])) made'

section

variable {limits : Limits} {levels room : Nat} {frame home home' : FrameId} {test e : Value}
  {body : List Value} {made made' : Option Nat} {m m' : Machine} {r : Except Fault Value}
  {text : String}

/-- What can be written of a loop that is unrolled is enough to write the loop. -/
theorem isWritable_of_unrolledLoop (h : (unrolledLoop test e body made made').IsWritable room) :
    (whileLoop test e body made).IsWritable room := by
  cases room with
  | zero => exact absurd h (Value.not_isWritable_zero _)
  | succ room =>
    have hitems := Value.isWritable_list_iff.1 h
    exact (hitems _ (by simp)).mono (Nat.le_succ room)

/-- To write a loop that is unrolled takes no more than one room more. -/
theorem isWritable_unrolledLoop (h : (whileLoop test e body made).IsWritable room)
    (made' : Option Nat) : (unrolledLoop test e body made made').IsWritable (room + 1) := by
  cases room with
  | zero => exact absurd h (Value.not_isWritable_zero _)
  | succ room =>
    have hitems := Value.isWritable_list_iff.1 h
    refine Value.isWritable_list_iff.2 fun v hv => ?_
    simp only [List.mem_cons, List.mem_append, List.not_mem_nil, or_false] at hv
    rcases hv with rfl | rfl | rfl | hv | rfl
    · exact ⟨Nat.succ_le_succ (Nat.zero_le room), trivial⟩
    · exact (hitems _ (by simp)).mono (Nat.le_succ room)
    · exact (hitems _ (by simp)).mono (Nat.le_succ room)
    · exact (hitems v (by simp [hv])).mono (Nat.le_succ room)
    · exact h

theorem WithinLimits.ne_tooDeep (hr : WithinLimits r) : r ≠ .error .tooDeep :=
  fun heq => hr _ heq (Or.inl rfl)

/-- A call that is evaluated within the limits can be written. -/
theorem EvaluatesTo.exists_text {head : Value} {operands : List Value}
    (h : EvaluatesTo limits levels frame (.list (head :: operands) made) m r m')
    (hr : WithinLimits r) :
    ∃ text, (Value.list (head :: operands) made).render (roomOf (levels - 1)) = .ok text := by
  obtain ⟨-, turns, hrun⟩ := h
  cases htext : (Value.list (head :: operands) made).render (roomOf (levels - 1)) with
  | ok text => exact ⟨text, rfl⟩
  | error fault =>
    rw [evaluateWithin_list_of_no_text _ htext] at hrun
    cases hrun
    exact absurd (isLimit_toFault fault) (hr _ rfl)

/-- A loop that can be written is evaluated turn by turn. -/
theorem evaluatesTo_whileLoop_iff
    (hwhile : m.store.lookup? frame "while" = some (.builtin .whileForm home))
    (htext : (whileLoop test e body made).render (roomOf (levels - 1)) = .ok text) :
    EvaluatesTo limits levels frame (whileLoop test e body made) m r m' ↔
      ∃ k, Loops (EvaluatesTo limits (levels - 6) frame) test (e :: body) k m r m' := by
  have hrun (turns : Nat) : evaluateWithin (limits.withTurns turns) levels 0
      (whileLoop test e body made) frame m =
        ((limits.withTurns turns).level (levels - 6)).loop frame test (e :: body) turns m :=
    evaluateWithin_builtin_of_text .whileForm hwhile htext
  constructor
  · rintro ⟨hr, turns, hends⟩
    exact loops_of_loop_run ((hrun turns).symm.trans hends) hr
  · rintro ⟨k, hloops⟩
    obtain ⟨enough, hends⟩ := loop_run_of_loops hloops
    refine ⟨?_, max enough (k + 1), (hrun _).trans
      (hends _ (Nat.le_max_left _ _) _ (Nat.le_max_right _ _))⟩
    rintro rfl
    exact hloops.not_fault fun h => h.1 rfl

/-- A loop that is unrolled, and can be written, takes one turn and is then the loop. -/
theorem evaluatesTo_unrolledLoop_iff
    (hwhen : m.store.lookup? frame "when" = some (.builtin .whenForm home))
    (htext : (unrolledLoop test e body made made').render (roomOf (levels - 1)) = .ok text) :
    EvaluatesTo limits levels frame (unrolledLoop test e body made made') m r m' ↔
      Turn (EvaluatesTo limits (levels - 6) frame) test (e :: body) m (some r) m' ∨
        ∃ m₁, Turn (EvaluatesTo limits (levels - 6) frame) test (e :: body) m none m₁ ∧
          EvaluatesTo limits (levels - 6) frame (whileLoop test e body made) m₁ r m' := by
  have hrun (turns : Nat) : evaluateWithin (limits.withTurns turns) levels 0
      (unrolledLoop test e body made made') frame m =
        ((limits.withTurns turns).level (levels - 6)).turnThen frame test (e :: body)
          (((limits.withTurns turns).level (levels - 6)).evaluate (whileLoop test e body made)
            frame) m := by
    rw [← Level.whenForm_append _ _ _ _ _ _ text]
    exact evaluateWithin_builtin_of_text .whenForm hwhen htext
  constructor
  · rintro ⟨hr, turns, hends⟩
    rcases turn_of_turnThen_run ((hrun turns).symm.trans hends) hr with hlast | ⟨m₁, hturn, hnext⟩
    · exact Or.inl hlast
    · exact Or.inr ⟨m₁, hturn, hr, turns, hnext⟩
  · rintro (hlast | ⟨m₁, hturn, hloop⟩)
    · obtain ⟨enough, hends⟩ := turnThen_run_of_turn hlast
      refine ⟨?_, enough, (hrun _).trans (hends _ (Nat.le_refl enough) _)⟩
      rintro rfl
      exact hlast.not_fault fun h => h.1 rfl
    · obtain ⟨enough, hends⟩ := turnThen_run_of_turn hturn
      obtain ⟨enough', hnext⟩ := hloop.exists_turns
      refine ⟨hloop.1, max enough enough', (hrun _).trans ?_⟩
      rw [hends _ (Nat.le_max_left _ _)]
      exact hnext _ (Nat.le_max_right _ _)

end

/-- A `while` form is its own unrolling. In a frame where `while` and `when` stand for their
builtins, and `while` still does after a turn, a `while` form and the `when` form that ends in it
are evaluated to the same value or fault on the same machine, or both to none: what one is evaluated
to within the limits, the other is, but that the `when` form takes six levels more. And a `while`
form that can be written is evaluated to an end just if test and body, run by turns from where it
stands, come to that end in some turn; then its value, if it has one, is nil. -/
theorem while_unrolls (limits : Limits) (levels : Nat) {frame home home' : FrameId} {m : Machine}
    {test e : Value} {body : List Value}
    (hwhile : m.store.lookup? frame "while" = some (.builtin .whileForm home))
    (hwhen : m.store.lookup? frame "when" = some (.builtin .whenForm home'))
    (hkeeps : ∀ m₁, Turn (EvaluatesTo limits (levels - 6) frame) test (e :: body) m none m₁ →
      ∃ home, m₁.store.lookup? frame "while" = some (.builtin .whileForm home))
    (made made' : Option Nat) :
    let loop := whileLoop test e body made
    let unrolled := unrolledLoop test e body made made'
    (∀ r m', WithinLimits r → EvaluatesTo limits levels frame unrolled m r m' →
      EvaluatesTo limits levels frame loop m r m') ∧
    (∀ r m', WithinLimits r → EvaluatesTo limits levels frame loop m r m' →
      EvaluatesTo limits (levels + 6) frame unrolled m r m' ∧
        (EvaluatesTo limits levels frame unrolled m r m' ∨
          ∃ m'', EvaluatesTo limits levels frame unrolled m (.error .tooDeep) m'')) ∧
    ∀ text, loop.render (roomOf (levels - 1)) = .ok text →
      (∀ r m', EvaluatesTo limits levels frame loop m r m' ↔
        ∃ k, Loops (EvaluatesTo limits (levels - 6) frame) test (e :: body) k m r m') ∧
      ∀ v m', EvaluatesTo limits levels frame loop m (.ok v) m' → v = .nil := by
  intro loop unrolled
  refine ⟨fun r m' hr h => ?_, fun r m' hr h => ?_, fun text htext => ⟨fun r m' => ?_, ?_⟩⟩
  · obtain ⟨text, htext⟩ := h.exists_text hr
    obtain ⟨text', htext'⟩ := Value.exists_render_iff.2
      (isWritable_of_unrolledLoop (Value.exists_render_iff.1 ⟨text, htext⟩))
    refine (evaluatesTo_whileLoop_iff hwhile htext').2 ?_
    rcases (evaluatesTo_unrolledLoop_iff hwhen htext).1 h with hlast | ⟨m₁, hturn, hloop⟩
    · exact ⟨0, .last hlast⟩
    · -- The loop that is left has fewer levels than the first turn, and would not lack those.
      obtain ⟨home₁, hwhile₁⟩ := hkeeps m₁ hturn
      obtain ⟨text₁, htext₁⟩ := hloop.exists_text hr
      obtain ⟨k, hloops⟩ := (evaluatesTo_whileLoop_iff hwhile₁ htext₁).1 hloop
      have hmore := hloops.imp (fun hne h => h.with_more_levels hne (Nat.sub_le (levels - 6) 6))
        hr.ne_tooDeep
      exact ⟨k + 1, .more hturn hmore⟩
  · suffices hunrolled : EvaluatesTo limits (levels + 6) frame unrolled m r m' from
      ⟨hunrolled, hunrolled.with_fewer_levels (Nat.le_add_right levels 6)⟩
    obtain ⟨text, htext⟩ := h.exists_text hr
    obtain ⟨text', htext'⟩ := Value.exists_render_iff.2 <|
      (isWritable_unrolledLoop (Value.exists_render_iff.1 ⟨text, htext⟩) made').mono
        (show roomOf (levels - 1) + 1 ≤ roomOf (levels + 6 - 1) by unfold roomOf; omega)
    refine (evaluatesTo_unrolledLoop_iff hwhen htext').2 ?_
    obtain ⟨k, hloops⟩ := (evaluatesTo_whileLoop_iff hwhile htext).1 h
    -- With six levels more, the first turn has more levels, and the loop that is left has as many.
    have hmore {e : Value} {m m' : Machine} {r : Except Fault Value} (hne : r ≠ .error .tooDeep)
        (h : EvaluatesTo limits (levels - 6) frame e m r m') :
        EvaluatesTo limits levels frame e m r m' :=
      h.with_more_levels hne (Nat.sub_le levels 6)
    cases hloops with
    | last hlast => exact Or.inl (hlast.imp hmore fun heq => hr.ne_tooDeep (Option.some.inj heq))
    | more hturn hloops =>
      obtain ⟨home₁, hwhile₁⟩ := hkeeps _ hturn
      exact Or.inr ⟨_, hturn.imp hmore nofun, (evaluatesTo_whileLoop_iff hwhile₁ htext).2
        ⟨_, hloops⟩⟩
  · exact evaluatesTo_whileLoop_iff hwhile htext
  · intro v m' h
    obtain ⟨k, hloops⟩ := (evaluatesTo_whileLoop_iff hwhile htext).1 h
    exact hloops.eq_nil

/-- Where `x` is a list of one item, `(when x (set 'x (cdr x)) (while x (set 'x (cdr x))))` binds
`x` to nil, and so does `(while x (set 'x (cdr x)))`, in some turn. -/
theorem while_unrolls_cdr :
    let e : Value := .list [.symbol "set", .quote (.symbol "x"),
      .list [.symbol "cdr", .symbol "x"] none] none
    let m := { Machine.empty with store := Store.empty.global [("x", .list [.t] none)] }
    let done := { m with store := m.store.define 0 "x" .nil }
    EvaluatesTo {} 60 0 (whileLoop (.symbol "x") e [] none) m (.ok .nil) done ∧
      ∃ k, Loops (EvaluatesTo {} 54 0) (.symbol "x") [e] k m (.ok .nil) done := by
  intro e m done
  have hkeeps : ∀ m₁, Turn (EvaluatesTo {} 54 0) (.symbol "x") [e] m none m₁ →
      ∃ home, m₁.store.lookup? 0 "while" = some (.builtin .whileForm home) := by
    intro m₁ hturn
    cases hturn with
    | goOn htest hv hbody =>
      have hx : EvaluatesTo {} 54 0 (.symbol "x") m (.ok (.list [.t] none)) m := ⟨nofun, 0, rfl⟩
      have he : EvaluatesTo {} 54 0 e m (.ok .nil) done := ⟨nofun, 0, rfl⟩
      obtain ⟨-, rfl⟩ := hx.unique htest
      obtain ⟨_, _, _, rfl, hset, hrest⟩ := InTurn.ok_cons_iff.1 hbody
      obtain ⟨-, rfl⟩ := he.unique hset
      obtain ⟨-, rfl⟩ := InTurn.ok_nil_iff.1 hrest
      exact ⟨0, rfl⟩
  have hunrolled : EvaluatesTo {} 60 0 (unrolledLoop (.symbol "x") e [] none none) m (.ok .nil)
      done := ⟨nofun, 2, rfl⟩
  have hunrolls := while_unrolls {} 60 rfl rfl hkeeps none none
  have hwithin : WithinLimits (.ok .nil) := nofun
  have hloop := hunrolls.1 _ _ hwithin hunrolled
  exact ⟨hloop, ((hunrolls.2.2 _ rfl).1 _ _).1 hloop⟩

end Fexpr
