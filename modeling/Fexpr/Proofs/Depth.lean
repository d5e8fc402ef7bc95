import Fexpr.Proofs.Correspondence
import Fexpr.Proofs.Toplevel

/-!
# Evaluation with more levels

An evaluation has a number of levels, and a value has a text only in the room that these leave.
Every rule of the language passes on the fault that the levels do not suffice, and none makes a
value, or another fault, of it. So an evaluation with fewer levels ends in this fault or else ends
as one with more (`evaluateWithin_of_more_levels`), and what the top level answers is the same with
more levels unless it is that evaluation nested too deep (`evaluateToplevel_of_more_levels`).
-/

namespace Fexpr

/-- The same bounds with another number of levels. -/
def Limits.withLevels (limits : Limits) (levels : Nat) : Limits :=
  { limits with levels }

namespace Correspondence

open Comparison

/-- A run beside itself, of which the first may lack levels. -/
def deepening : Correspondence :=
  excusing fun f => f = .tooDeep

/-- The first run may have fewer levels than the second. -/
theorem beside_deepening (limits : Limits) (levels : Nat) {a b : Nat} (hle : a ≤ b) :
    deepening.Beside (limits.level a) ((limits.withLevels levels).level b) where
  levels := Or.inr (Or.inl ⟨hle, rfl⟩)
  turns := Or.inl rfl
  tracing := Or.inl rfl

end Correspondence

section

variable {limits : Limits} {levels : Nat} {e form : Value} {frame : FrameId} {m m' : Machine}
  {text : String}

/-- An evaluation with fewer levels nests too deep for them, or is the one with more levels. -/
theorem evaluateWithin_of_more_levels (limits : Limits) (levels : Nat) {a b : Nat} (hle : a ≤ b)
    (skipped : Nat) (e : Value) (frame : FrameId) (m : Machine) :
    (evaluateWithin limits a skipped e frame m).1 = .error .tooDeep ∨
      evaluateWithin limits a skipped e frame m =
        evaluateWithin (limits.withLevels levels) b skipped e frame m := by
  have hagree : Correspondence.deepening.Agree (Both Correspondence.deepening.data)
      (evaluateWithin limits a skipped e frame)
      (evaluateWithin (limits.withLevels levels) b skipped e frame) :=
    Correspondence.agree_evaluateWithin (Correspondence.beside_deepening limits levels hle) skipped
      trivial trivial
  rcases hagree.eq_or_excused rfl rfl m with heq | ⟨f, hf, rfl⟩ | ⟨_, _, hfalse⟩
  · exact Or.inr heq
  · exact Or.inl hf
  · exact hfalse.elim

/-- With more levels, a form has the same text. -/
theorem render_of_more_levels (hle : limits.levels ≤ levels)
    (htext : form.render limits.top.room = .ok text) :
    form.render (limits.withLevels levels).top.room = .ok text := by
  have hroom : limits.top.room ≤ (limits.withLevels levels).top.room := Comparison.roomOf_mono hle
  rcases Value.render_deepens hroom form with hdeep | heq
  · rw [htext] at hdeep
    cases hdeep
  · rw [← heq, htext]

/-- What the top level makes of an evaluation does not depend on the levels. -/
theorem evaluateToplevel_congr (hle : limits.levels ≤ levels)
    (htext : form.render limits.top.room = .ok text)
    (heq : evaluate limits form frame m = evaluate (limits.withLevels levels) form frame m) :
    evaluateToplevel limits form frame m =
      evaluateToplevel (limits.withLevels levels) form frame m := by
  unfold evaluateToplevel Eval.attempt
  rw [Eval.bind_run, Eval.bind_run, write_run htext,
    write_run (render_of_more_levels hle htext)]
  dsimp only
  rw [Eval.bind_run, Eval.bind_run, heq]

/-- Raising the number of levels changes no answer. Let a form that has a text with some levels be
evaluated at the top level, and not end in the error that evaluation nested too deep. Then with more
levels it ends in the same value or the same error, on the same machine: with the same bindings in
every frame, and with the same output. -/
theorem evaluateToplevel_of_more_levels (hle : limits.levels ≤ levels)
    (htext : form.render limits.top.room = .ok text)
    (hshallow : ∀ e m', evaluateToplevel limits form frame m = (.error (.error e), m') →
      e.cause ≠ .tooDeep) :
    evaluateToplevel (limits.withLevels levels) form frame m =
      evaluateToplevel limits form frame m := by
  rcases evaluateWithin_of_more_levels limits levels hle 0 form frame m with hdeep | heq
  · -- The top level would have made an error of the fault.
    obtain ⟨e, log, hend, hcause⟩ := evaluateToplevel_of_cause htext (Prod.ext hdeep rfl) rfl
    exact absurd hcause (hshallow e _ hend)
  · exact (evaluateToplevel_congr hle htext heq).symm

end

/-- A form that binds a name to `t`. -/
def bindForm (name : String) : Value :=
  .list [.symbol "let", .quote (.symbol name), .symbol "t"] none

/-- A name is bound on eight levels, which are just enough, and so on all levels that there are. -/
theorem bindForm_with_more_levels :
    let fresh := { Machine.empty with store := Store.empty.global [] }
    let bound := { fresh with store := fresh.store.define 0 "x" .t }
    (8 : Nat) ≤ 1400 ∧
      (bindForm "x").render (Limits.top { levels := 8 }).room = .ok "(let 'x t)" ∧
      evaluateToplevel { levels := 8 } (bindForm "x") 0 fresh = (.ok .t, bound) ∧
      evaluateToplevel (Limits.withLevels { levels := 8 } 1400) (bindForm "x") 0 fresh =
        (.ok .t, bound) := by
  intro fresh bound
  have hle : (8 : Nat) ≤ 1400 := by decide
  have htext : (bindForm "x").render (Limits.top { levels := 8 }).room = .ok "(let 'x t)" := by rfl
  have hvalue : evaluateToplevel { levels := 8 } (bindForm "x") 0 fresh = (.ok .t, bound) := by rfl
  have hshallow : ∀ e m',
      evaluateToplevel { levels := 8 } (bindForm "x") 0 fresh = (.error (.error e), m') →
        e.cause ≠ .tooDeep := by
    intro e m' herror
    rw [hvalue] at herror
    cases herror
  exact ⟨hle, htext, hvalue, (evaluateToplevel_of_more_levels hle htext hshallow).trans hvalue⟩

end Fexpr
