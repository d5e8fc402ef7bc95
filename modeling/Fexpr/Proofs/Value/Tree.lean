import Mathlib.Order.Lattice
import Fexpr.Value.Equality
import Fexpr.Value.Printer

/-!
# Values as trees

A value has parts: the items of a list, what a mark applies to, the body of a fexpr, the expression
of a suspended operand. This file holds what is common to all statements about values at every
depth:

* `Value.induction_parts`, induction along the parts, and `Value.Every`, a condition at every node;
* `Value.nesting`, how deep a written value nests, which is what bounds its text and its comparison;
* `Value.asRead`, the value without the numbers under which its lists were made.
-/

namespace Fexpr.Value

/-! ## Parts -/

/-- The values right below a value. -/
def parts : Value → List Value
  | .list items _ => items
  | .quote body => [body]
  | .unquote body => [body]
  | .fexpr _ _ _ body _ => body
  | .suspended e _ _ _ => [e]
  | _ => []

theorem sizeOf_lt_of_mem_parts {v w : Value} (h : w ∈ v.parts) : sizeOf w < sizeOf v := by
  cases v with
  | list items made =>
    have hlt : sizeOf w < sizeOf items := List.sizeOf_lt_of_mem h
    rw [list.sizeOf_spec]; omega
  | fexpr id name params body home =>
    have hlt : sizeOf w < sizeOf body := List.sizeOf_lt_of_mem h
    rw [fexpr.sizeOf_spec]; omega
  | quote body | unquote body | suspended body =>
    obtain rfl := List.mem_singleton.1 h
    simp only [quote.sizeOf_spec, unquote.sizeOf_spec, suspended.sizeOf_spec]; omega
  | _ => simp [parts] at h

/-- What holds of a value whenever it holds of the parts holds of all values. -/
theorem induction_parts {P : Value → Prop} (step : ∀ v, (∀ w ∈ v.parts, P w) → P v) (v : Value) :
    P v :=
  step v fun w _ => induction_parts step w
termination_by sizeOf v
decreasing_by exact sizeOf_lt_of_mem_parts ‹_›

/-- A condition holds of a value, of its parts, of the parts of these, and so on. -/
inductive Every (p : Value → Prop) : Value → Prop
  | node {v : Value} (here : p v) (below : ∀ w ∈ v.parts, Every p w) : Every p v

namespace Every

variable {p q : Value → Prop} {v w : Value}

theorem here (h : Every p v) : p v := by
  cases h; assumption

theorem part (h : Every p v) (hw : w ∈ v.parts) : Every p w := by
  cases h with
  | node _ below => exact below w hw

theorem leaf (here : p v) (hparts : v.parts = []) : Every p v := by
  refine .node here fun w hw => ?_
  rw [hparts] at hw
  cases hw

theorem mono (hpq : ∀ v, p v → q v) (h : Every p v) : Every q v := by
  induction h with
  | node here _ ih => exact .node (hpq _ here) ih

/-- Two conditions that hold at every node hold there together. -/
theorem and (hp : Every p v) (hq : Every q v) : Every (fun w => p w ∧ q w) v := by
  induction hp with
  | node here _ ih => exact .node ⟨here, hq.here⟩ fun w hw => ih w hw (hq.part hw)

theorem item {items : List Value} {made : Option Nat} (h : Every p (.list items made))
    (hw : w ∈ items) : Every p w :=
  h.part hw

theorem quoted (h : Every p (.quote v)) : Every p v :=
  h.part (List.mem_singleton.2 rfl)

theorem unquoted (h : Every p (.unquote v)) : Every p v :=
  h.part (List.mem_singleton.2 rfl)

end Every

/-! ## Nesting -/

mutual

/-- How many lists, marks and suspended operands are written around the innermost part. -/
def nesting : Value → Nat
  | .list items _ => nestingOfAll items + 1
  | .quote body => nesting body + 1
  | .unquote body => nesting body + 1
  | .suspended e _ _ _ => nesting e + 1
  | _ => 0

/-- The nesting of the value that nests deepest. -/
def nestingOfAll : List Value → Nat
  | [] => 0
  | v :: vs => max (nesting v) (nestingOfAll vs)

end

theorem nesting_le_nestingOfAll {items : List Value} {v : Value} (h : v ∈ items) :
    v.nesting ≤ nestingOfAll items := by
  induction items with
  | nil => simp at h
  | cons w ws ih =>
    rw [nestingOfAll]
    rcases List.mem_cons.1 h with rfl | h
    · exact le_max_left _ _
    · exact le_trans (ih h) (le_max_right _ _)

/-- A bound on every item bounds the nesting of all. -/
theorem nestingOfAll_le {items : List Value} {n : Nat} (h : ∀ v ∈ items, v.nesting ≤ n) :
    nestingOfAll items ≤ n := by
  induction items with
  | nil => exact Nat.zero_le n
  | cons w ws ih =>
    rw [nestingOfAll]
    exact max_le (h w List.mem_cons_self) (ih fun v hv => h v (List.mem_cons_of_mem w hv))

/-! ## Values as they are read -/

mutual

/-- The value without the numbers of its lists, as if it had been read. -/
def asRead : Value → Value
  | .list items _ => .list (allAsRead items) none
  | .quote body => .quote (asRead body)
  | .unquote body => .unquote (asRead body)
  | v => v

/-- The values without the numbers of their lists. -/
def allAsRead : List Value → List Value
  | [] => []
  | v :: vs => asRead v :: allAsRead vs

end

theorem allAsRead_eq_map (items : List Value) : allAsRead items = items.map asRead := by
  induction items with
  | nil => rfl
  | cons v vs ih => rw [allAsRead, ih, List.map_cons]

/-- The numbers are all that a value loses: it equals what is left, compared as deep as it goes. -/
theorem same?_asRead (v : Value) (room : Nat) (h : v.nesting < room) :
    same? room v.asRead v = some true := by
  induction v using induction_parts generalizing room with
  | step v ih =>
    obtain ⟨room, rfl⟩ := Nat.exists_eq_add_of_lt (Nat.zero_lt_of_lt h)
    rw [Nat.zero_add] at h ⊢
    cases v with
    | list items made =>
      rw [nesting] at h
      simp only [asRead, allAsRead_eq_map, same?, isSameMaking, Bool.false_eq_true, if_false]
      have hitems : ∀ w ∈ items, same? room w.asRead w = some true := by
        intro w hw
        have := nesting_le_nestingOfAll hw
        exact ih w hw room (by omega)
      clear ih h
      induction items with
      | nil => rfl
      | cons w ws ihs =>
        rw [List.map_cons, sameItems?, hitems w List.mem_cons_self]
        exact ihs fun x hx => hitems x (List.mem_cons_of_mem w hx)
    | quote body | unquote body =>
      rw [nesting] at h
      exact ih body (List.mem_singleton.2 rfl) room (by omega)
    | _ => simp [asRead, same?]

end Fexpr.Value
