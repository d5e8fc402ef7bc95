import Mathlib.Data.List.Induction
import Fexpr.Token

/-!
# Places in a source

A place is counted on from character to character. It can also be told from the text before it at
once: the line from its line feeds, the column from what stands after the last of them
(`Position.start_advance`).
-/

namespace Fexpr.Position

/-- The place behind a text: a line more than it has line feeds, and a column more than there are
characters after the last of them. -/
def behind (cs : List Char) : Position :=
  ⟨cs.count '\n' + 1, (cs.reverse.takeWhile (· ≠ '\n')).length + 1⟩

theorem behind_concat (cs : List Char) (c : Char) : behind (cs ++ [c]) = (behind cs).next c := by
  unfold behind next
  by_cases hc : c = '\n'
  · subst hc
    simp
  · simp [hc]

/-- Counting on from the start of a source leads behind what has been counted. -/
theorem start_advance (cs : List Char) : start.advance cs = behind cs := by
  induction cs using List.reverseRecOn with
  | nil => rfl
  | append_singleton cs c ih =>
    rw [advance_append, ih, behind_concat]
    rfl

/-! ## The order of places -/

/-- A place comes before another on the same line or on a later one. -/
def Before (p q : Position) : Prop :=
  p.line < q.line ∨ p.line = q.line ∧ p.column < q.column

theorem Before.trans {p q r : Position} (h : p.Before q) (h' : q.Before r) : p.Before r := by
  unfold Before at *
  omega

theorem before_next (p : Position) (c : Char) : p.Before (p.next c) := by
  unfold next
  split
  · exact Or.inl (Nat.lt_succ_self p.line)
  · exact Or.inr ⟨rfl, Nat.lt_succ_self p.column⟩

/-- Counting on leads further. -/
theorem before_advance (p : Position) {cs : List Char} (hne : cs ≠ []) :
    p.Before (p.advance cs) := by
  induction cs generalizing p with
  | nil => exact absurd rfl hne
  | cons c cs ih =>
    cases cs with
    | nil => exact before_next p c
    | cons d ds => exact (before_next p c).trans (ih (p.next c) (List.cons_ne_nil d ds))

/-- Places are in the order of what is before them, so that no two are the same. -/
theorem behind_take_before (cs : List Char) {i j : Nat} (hij : i < j) (hj : j ≤ cs.length) :
    (behind (cs.take i)).Before (behind (cs.take j)) := by
  have hsplit : cs.take j = cs.take i ++ (cs.take j).drop i := by
    have hprefix : (cs.take j).take i = cs.take i := by
      rw [List.take_take, Nat.min_eq_left (Nat.le_of_lt hij)]
    rw [← hprefix, List.take_append_drop]
  have hne : (cs.take j).drop i ≠ [] := by
    rw [ne_eq, List.drop_eq_nil_iff, List.length_take]
    omega
  rw [hsplit, ← start_advance, ← start_advance, advance_append]
  exact before_advance _ hne

/-! ## Whole lines -/

/-- The place some lines further down, in the same column. -/
def down (lines : Nat) (p : Position) : Position :=
  ⟨p.line + lines, p.column⟩

theorem next_down (lines : Nat) (p : Position) (c : Char) :
    (p.down lines).next c = (p.next c).down lines := by
  unfold down next
  split
  · rw [Nat.add_right_comm]
  · rfl

theorem advance_down (lines : Nat) (p : Position) (cs : List Char) :
    (p.down lines).advance cs = (p.advance cs).down lines := by
  induction cs generalizing p with
  | nil => rfl
  | cons c cs ih =>
    rw [advance, List.foldl_cons, next_down]
    exact ih (p.next c)

/-- A line feed leads to the first column, as many lines down as there are line feeds by then. -/
theorem start_advance_newline (cs : List Char) :
    start.advance (cs ++ ['\n']) = start.down (cs.count '\n' + 1) := by
  rw [start_advance]
  unfold behind down start
  simp [Nat.add_comm]

end Fexpr.Position
