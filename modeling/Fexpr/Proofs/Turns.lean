import Fexpr.Proofs.Application
import Fexpr.Proofs.Depth

/-!
# Evaluation to its end

An evaluation is given a number of turns for its loops, and ends in a fault of its own when a loop
has taken all of them. With more turns it ends in this fault or else as it did
(`evaluateWithin_of_more_turns`). So what an expression is evaluated to, if to anything, does not
depend on how many turns there are, as long as they suffice (`EvaluatesTo`).
-/

namespace Fexpr

/-- The same bounds with another number of turns. -/
def Limits.withTurns (limits : Limits) (turns : Nat) : Limits :=
  { limits with turns }

namespace Correspondence

open Comparison

/-- A run beside itself, of which the first may lack turns. -/
def turning : Correspondence :=
  excusing fun f => f = .endless

/-- The first run may have fewer turns than the second. -/
theorem beside_turning (limits : Limits) (levels : Nat) {a b : Nat} (hle : a ≤ b) :
    turning.Beside ((limits.withTurns a).level levels) ((limits.withTurns b).level levels) where
  levels := Or.inl rfl
  turns := Or.inr (Or.inl ⟨hle, rfl⟩)
  tracing := Or.inl rfl

end Correspondence

/-- An evaluation with fewer turns comes to no end with them, or is the one with more turns. -/
theorem evaluateWithin_of_more_turns (limits : Limits) (levels : Nat) {a b : Nat} (hle : a ≤ b)
    (skipped : Nat) (e : Value) (frame : FrameId) (m : Machine) :
    (evaluateWithin (limits.withTurns a) levels skipped e frame m).1 = .error .endless ∨
      evaluateWithin (limits.withTurns a) levels skipped e frame m =
        evaluateWithin (limits.withTurns b) levels skipped e frame m := by
  have hagree : Correspondence.turning.Agree (Both Correspondence.turning.data)
      (evaluateWithin (limits.withTurns a) levels skipped e frame)
      (evaluateWithin (limits.withTurns b) levels skipped e frame) :=
    Correspondence.agree_evaluateWithin (Correspondence.beside_turning limits levels hle) skipped
      trivial trivial
  rcases hagree.eq_or_excused rfl rfl m with heq | ⟨f, hf, rfl⟩ | ⟨_, _, hfalse⟩
  · exact Or.inr heq
  · exact Or.inl hf
  · exact hfalse.elim

/-- With turns enough for its loops, an expression is evaluated to a value or a fault. -/
def EvaluatesTo (limits : Limits) (levels : Nat) (frame : FrameId) (e : Value) (m : Machine)
    (r : Except Fault Value) (m' : Machine) : Prop :=
  r ≠ .error .endless ∧
    ∃ turns, evaluateWithin (limits.withTurns turns) levels 0 e frame m = (r, m')

namespace EvaluatesTo

variable {limits : Limits} {levels : Nat} {frame : FrameId} {e : Value} {m m' m₁ : Machine}
  {r r' : Except Fault Value}

/-- More turns than are enough are enough. -/
theorem exists_turns (h : EvaluatesTo limits levels frame e m r m') :
    ∃ enough, ∀ turns ≥ enough,
      ((limits.withTurns turns).level levels).evaluate e frame m = (r, m') := by
  obtain ⟨hr, enough, hrun⟩ := h
  refine ⟨enough, fun turns hle => ?_⟩
  rcases evaluateWithin_of_more_turns limits levels hle 0 e frame m with hendless | heq
  · rw [hrun] at hendless
    exact absurd hendless hr
  · exact heq.symm.trans hrun

/-- An expression is evaluated to one end only. -/
theorem unique (h : EvaluatesTo limits levels frame e m r m')
    (h' : EvaluatesTo limits levels frame e m r' m₁) : r = r' ∧ m' = m₁ := by
  obtain ⟨enough, hrun⟩ := h.exists_turns
  obtain ⟨enough', hrun'⟩ := h'.exists_turns
  have heq := (hrun _ (Nat.le_max_left enough enough')).symm.trans
    (hrun' _ (Nat.le_max_right enough enough'))
  exact Prod.mk.inj heq

/-- With more levels, an expression is evaluated to the same end, unless that was for the lack of
levels. -/
theorem with_more_levels {more : Nat} (h : EvaluatesTo limits levels frame e m r m')
    (hr : r ≠ .error .tooDeep) (hle : levels ≤ more) : EvaluatesTo limits more frame e m r m' := by
  obtain ⟨hends, turns, hrun⟩ := h
  refine ⟨hends, turns, ?_⟩
  rcases evaluateWithin_of_more_levels (limits.withTurns turns) limits.levels hle 0 e frame m with
    hdeep | heq
  · rw [hrun] at hdeep
    exact absurd hdeep hr
  · exact heq.symm.trans hrun

/-- With fewer levels, an expression is evaluated to the same end, or lacks levels. -/
theorem with_fewer_levels {fewer : Nat} (h : EvaluatesTo limits levels frame e m r m')
    (hle : fewer ≤ levels) :
    EvaluatesTo limits fewer frame e m r m' ∨
      ∃ m'', EvaluatesTo limits fewer frame e m (.error .tooDeep) m'' := by
  obtain ⟨hends, turns, hrun⟩ := h
  rcases evaluateWithin_of_more_levels (limits.withTurns turns) limits.levels hle 0 e frame m with
    hdeep | heq
  · exact Or.inr ⟨_, nofun, turns, Prod.ext hdeep rfl⟩
  · exact Or.inl ⟨hends, turns, heq.trans hrun⟩

end EvaluatesTo

/-! ## Sequences -/

section

variable {limits : Limits} {levels : Nat} {frame : FrameId} {es fs : List Value}
  {m m' : Machine} {last : Value}

/-- Expressions that are evaluated in turn are evaluated in sequence. -/
theorem sequenceAfter_run_of_inTurn {r : Except Fault (List Value)}
    (h : InTurn (EvaluatesTo limits levels frame) es m r m') :
    ∃ enough, ∀ turns ≥ enough, ∀ last,
      ((limits.withTurns turns).level levels).sequenceAfter frame last es m =
        (r.map (·.getLastD last), m') := by
  induction h with
  | nil m => exact ⟨0, fun _ _ _ => rfl⟩
  | @fault e es m m' f h =>
    obtain ⟨enough, hrun⟩ := h.exists_turns
    refine ⟨enough, fun turns hle last => ?_⟩
    rw [Level.sequenceAfter, Eval.bind_run, hrun turns hle]
    rfl
  | @cons e es v m m₁ m' r h _ ih =>
    obtain ⟨enough, hrun⟩ := h.exists_turns
    obtain ⟨enough', hruns⟩ := ih
    -- The first expression and the others need turns of their own; the larger number does for all.
    refine ⟨max enough enough', fun turns hle last => ?_⟩
    rw [Level.sequenceAfter, Eval.bind_run, hrun turns (Nat.le_trans (Nat.le_max_left _ _) hle)]
    dsimp only
    rw [hruns turns (Nat.le_trans (Nat.le_max_right _ _) hle)]
    cases r with
    | error f => rfl
    | ok vs => rw [Except.map, Except.map, Except.map, List.getLastD_cons]

/-- Expressions that are evaluated in sequence, to an end, are evaluated in turn. -/
theorem inTurn_of_sequenceAfter_run {turns : Nat} {r : Except Fault Value}
    (hrun : ((limits.withTurns turns).level levels).sequenceAfter frame last es m = (r, m'))
    (hr : r ≠ .error .endless) :
    ∃ r', InTurn (EvaluatesTo limits levels frame) es m r' m' ∧ r = r'.map (·.getLastD last) := by
  induction es generalizing m last with
  | nil =>
    cases hrun
    exact ⟨.ok [], .nil _, rfl⟩
  | cons e es ih =>
    rw [Level.sequenceAfter, Eval.bind_run] at hrun
    rcases hfirst : ((limits.withTurns turns).level levels).evaluate e frame m with ⟨r₁, m₁⟩
    rw [hfirst] at hrun
    cases r₁ with
    | error f =>
      cases hrun
      exact ⟨.error f, .fault es ⟨fun heq => hr (by cases heq; rfl), turns, hfirst⟩, rfl⟩
    | ok v =>
      obtain ⟨r', hin, rfl⟩ := ih hrun
      refine ⟨r'.map (v :: ·), .cons ⟨nofun, turns, hfirst⟩ hin, ?_⟩
      cases r' with
      | error f => rfl
      | ok vs => rw [Except.map, Except.map, Except.map, List.getLastD_cons]

/-- What is evaluated in sequence can be cut anywhere. -/
theorem sequenceAfter_append (lv : Level) (frame : FrameId) (last : Value) (es fs : List Value) :
    lv.sequenceAfter frame last (es ++ fs) =
      lv.sequenceAfter frame last es >>= fun v => lv.sequenceAfter frame v fs := by
  induction es generalizing last with
  | nil => rw [List.nil_append, Level.sequenceAfter, pure_bind]
  | cons e es ih =>
    rw [List.cons_append, Level.sequenceAfter, Level.sequenceAfter, bind_assoc]
    exact congrArg _ (funext fun v => ih v)

end

end Fexpr
