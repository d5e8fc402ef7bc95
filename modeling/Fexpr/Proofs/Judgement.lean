import Mathlib.Order.Basic
import Fexpr.Level.Binding

/-!
# Judgements

Much that is to be shown of evaluation is shown of one computation after another, through all rules
of the language: that two runs agree, that a run on top of another machine is the same run, that
what bears a number is registered, that there are levels enough. What differs is what is said of a
computation and of a value. A `Judgement` leaves that open: it is a condition on the values that
runs have side by side, and a condition on the runs (`Holds`) that follows how computations are
built.

The runs of a family are told apart by an index that their values may differ with, and by one that
their levels may differ with but not their values. What is made as the runs go on may change what is
said of values, so both conditions are those of a world, and worlds grow.
-/

namespace Fexpr

variable {I : Type}

/-! ## Families of values -/

/-- All runs have one thing. -/
def Common {α : Type} (a : I → α) : Prop :=
  ∃ b, a = fun _ => b

/-- What two runs have, the first and the second. -/
def pair {α : Type} (a b : α) : Bool → α :=
  fun second => bif second then b else a

theorem pair_eta {α : Type} (a : Bool → α) : pair (a false) (a true) = a := by
  funext second
  cases second <;> rfl

theorem common_pair {α : Type} {a b : α} : Common (pair a b) ↔ a = b := by
  refine ⟨fun ⟨c, hc⟩ => ?_, fun h => ⟨a, ?_⟩⟩
  · exact (congrFun hc false).trans (congrFun hc true).symm
  · subst h
    exact pair_eta fun _ => a

/-- The runs have rows that are as long, with members that meet a condition side by side. -/
def Rows (P : (I → Value) → Prop) (rows : I → List Value) : Prop :=
  ∃ row : List (I → Value), rows = (fun i => row.map (· i)) ∧ ∀ v ∈ row, P v

/-- One row in all runs. -/
def sameRow (vs : List Value) : List (I → Value) :=
  vs.map fun v _ => v

@[simp] theorem map_sameRow (vs : List Value) (i : I) : (sameRow vs).map (· i) = vs := by
  unfold sameRow
  rw [List.map_map]
  exact List.map_id vs

theorem forall_mem_sameRow {P : (I → Value) → Prop} {vs : List Value} :
    (∀ v ∈ sameRow vs, P v) ↔ ∀ v ∈ vs, P fun _ => v :=
  List.forall_mem_map

/-- The runs have values that were made alike, of the same numbers and names where a builtin looks
at these, and of items that meet a condition side by side. -/
inductive Value.MadeAlike (item : (I → Value) → Prop) : (I → Value) → Prop
  | symbol (name : String) : MadeAlike item fun _ => .symbol name
  | number (n : Int) : MadeAlike item fun _ => .number n
  | string (text : I → String) : MadeAlike item fun i => .string (text i)
  | list {items : List (I → Value)} (made : I → Option Nat) (h : ∀ v ∈ items, item v) :
    MadeAlike item fun i => .list (items.map (· i)) (made i)
  | quote (body : I → Value) : MadeAlike item fun i => .quote (body i)
  | unquote (body : I → Value) : MadeAlike item fun i => .unquote (body i)
  | nil : MadeAlike item fun _ => .nil
  | builtin (op : I → Builtin) (home : I → FrameId) :
    MadeAlike item fun i => .builtin (op i) (home i)
  | raiser (message : I → String) (id : I → Nat) :
    MadeAlike item fun i => .raiser (message i) (id i)
  | fexpr (id : I → Nat) (name : I → String) (params : I → List Param) (body : I → List Value)
    (home : I → FrameId) :
    MadeAlike item fun i => .fexpr (id i) (name i) (params i) (body i) (home i)
  | suspended (expression : I → Value) (frame : I → FrameId) (sequence : I → Bool) (id : I → Nat) :
    MadeAlike item fun i => .suspended (expression i) (frame i) (sequence i) (id i)
  | hostNumber (n : I → Int) : MadeAlike item fun i => .hostNumber (n i)
  | hostText (text : I → String) : MadeAlike item fun i => .hostText (text i)

namespace Value.MadeAlike

variable {item : (I → Value) → Prop}

/-- Values made alike are all nil, or none is. -/
theorem isNil {v : I → Value} (h : MadeAlike item v) : Common fun i => (v i).isNil := by
  cases h with
  | nil => exact ⟨true, rfl⟩
  | _ => exact ⟨false, rfl⟩

/-- One value in all runs is made alike. -/
theorem same {v : Value} (h : ∀ items made, v = .list items made → ∀ w ∈ items, item fun _ => w) :
    MadeAlike item fun _ => v := by
  cases v with
  | list items made =>
    have hlist : (fun _ => Value.list items made) =
        fun i : I => Value.list ((sameRow items).map (· i)) made := by
      simp only [map_sameRow]
    rw [hlist]
    exact .list (fun _ => made) (forall_mem_sameRow.2 (h items made rfl))
  | symbol name => exact .symbol name
  | number n => exact .number n
  | string text => exact .string fun _ => text
  | quote body => exact .quote fun _ => body
  | unquote body => exact .unquote fun _ => body
  | nil => exact .nil
  | builtin op home => exact .builtin (fun _ => op) fun _ => home
  | raiser message id => exact .raiser (fun _ => message) fun _ => id
  | fexpr id name params body home =>
    exact .fexpr (fun _ => id) (fun _ => name) (fun _ => params) (fun _ => body) fun _ => home
  | suspended e frame sequence id =>
    exact .suspended (fun _ => e) (fun _ => frame) (fun _ => sequence) fun _ => id
  | hostNumber n => exact .hostNumber fun _ => n
  | hostText text => exact .hostText fun _ => text

/-- The value of one run is made alike. -/
theorem single {item : (Unit → Value) → Prop} {v : Unit → Value}
    (h : ∀ items made, v () = .list items made → ∀ w ∈ items, item fun _ => w) :
    MadeAlike item v := by
  change MadeAlike item fun _ => v ()
  exact same h

end Value.MadeAlike

/-! ## Families of calls -/

/-- Calls with as many operands, one call in each run. -/
structure CallFamily (I : Type) where
  operands : List (I → Value)
  frame : I → FrameId
  text : I → String

namespace CallFamily

/-- The call in one run. -/
def inRun (c : CallFamily I) (i : I) : Call :=
  ⟨c.operands.map (· i), c.frame i, c.text i⟩

/-- One call in all runs. -/
def same (c : Call) : CallFamily I :=
  ⟨sameRow c.operands, fun _ => c.frame, fun _ => c.text⟩

@[simp] theorem inRun_same (c : Call) (i : I) : (same c).inRun i = c := by
  simp only [same, inRun, map_sameRow]

end CallFamily

/-! ## Judgements -/

/-- The world where nothing changes that is said of values. -/
structure OneWorld where
  /-- There is no other. -/
  only ::

instance : Preorder OneWorld where
  le _ _ := True
  le_refl _ := trivial
  le_trans _ _ _ _ _ := trivial

/-- What is said of a family of runs, and of the values that they have. -/
structure Judgement (I L W : Type) [Preorder W] where
  /-- In a world, the runs lead to a later one and end alike; if they have values, these meet a
  condition there. -/
  Holds : {α : Type} → W → (W → (I → α) → Prop) → (I → L → Eval α) → Prop
  /-- What is said of the values that expressions have. -/
  value : W → (I → Value) → Prop
  /-- What is said of the items of lists. -/
  item : W → (I → Value) → Prop
  pure : ∀ {α : Type} {w : W} {Q : W → (I → α) → Prop} {a : I → α}, Q w a →
    Holds w Q fun i _ => Pure.pure (a i)
  bind : ∀ {α β : Type} {w : W} {Q : W → (I → α) → Prop} {R : W → (I → β) → Prop}
    {x : I → L → Eval α} {f : I → L → α → Eval β}, Holds w Q x →
    (∀ w' a, w ≤ w' → Q w' a → Holds w' R fun i l => f i l (a i)) →
    Holds w R fun i l => x i l >>= f i l
  error : ∀ {α : Type} {w : W} {Q : W → (I → α) → Prop} (e : EvalError),
    Holds w Q fun _ _ => throw (.error e)
  value_mono : ∀ {w w' : W} {v : I → Value}, w ≤ w' → value w v → value w' v
  item_of_value : ∀ {w : W} {v : I → Value}, value w v → item w v
  madeAlike : ∀ {w : W} {v : I → Value}, value w v → Value.MadeAlike (item w) v
  nil : ∀ w, value w fun _ => .nil
  t : ∀ w, value w fun _ => .t
  number : ∀ w n, value w fun _ => .number n
  makeList : ∀ {w : W} {vs : List (I → Value)}, (∀ v ∈ vs, item w v) →
    Holds w value fun i _ => Eval.makeList (vs.map (· i))
  printLine : ∀ {w : W} (text : String), Holds w (fun _ _ => True) fun _ _ => Eval.printLine text

namespace Judgement

variable {L W : Type} [Preorder W]

theorem ofBool (J : Judgement I L W) (w : W) (b : Bool) : J.value w fun _ => .ofBool b := by
  cases b
  · exact J.nil w
  · exact J.t w

/-- What levels do with values by themselves is judged: they write them out and compare them. -/
structure JudgesTexts (J : Judgement I L W) (lv : I → L → Level) : Prop where
  write : ∀ {w v}, J.value w v → J.Holds w (fun _ => Common) fun i l => (lv i l).write (v i)
  trace : ∀ {w v}, J.value w v → J.Holds w (fun _ _ => True) fun i l => (lv i l).trace (v i)
  allSame : ∀ {w first} {others : List (I → Value)}, J.value w first →
    (∀ v ∈ others, J.value w v) → J.Holds w (fun _ => Common) fun i l =>
      match Value.allSame? (lv i l).room (first i) (others.map (· i)) with
      | some answer => (Pure.pure answer : Eval Bool)
      | none => throw .tooDeep

/-- The evaluation of expressions in frames is judged by their values. -/
structure JudgesOperand (J : Judgement I L W) (lv : I → L → Level) (frame : I → FrameId) (w : W)
    (e : I → Value) : Prop where
  value : ∀ {w'}, w ≤ w' → J.Holds w' J.value fun i l => (lv i l).evaluate (e i) (frame i)
  trace : ∀ {w'}, w ≤ w' → J.Holds w' (fun _ _ => True) fun i l => (lv i l).trace (e i)

/-- Numbers of turns that are taken side by side, up to where it is judged that there are no
more. -/
inductive TurnsAlike (J : Judgement I L W) : (I → L → Nat) → Prop
  | reached {turns : I → L → Nat}
    (h : ∀ {w} {x : I → L → Eval Value}, (∀ i l, turns i l = 0 → x i l = throw .endless) →
      J.Holds w J.value x) : TurnsAlike J turns
  | turn {turns : I → L → Nat} (h : TurnsAlike J turns) : TurnsAlike J fun i l => turns i l + 1

/-- All runs may turn as often, where it is judged that they may not turn again. -/
theorem turnsAlike_same {J : Judgement I L W}
    (h : ∀ w, J.Holds w J.value fun _ _ => throw .endless) (turns : Nat) :
    J.TurnsAlike fun _ _ => turns := by
  induction turns with
  | zero =>
    refine .reached fun {w x} hx => ?_
    have hthrow : x = fun _ _ => throw .endless := funext₂ fun i l => hx i l rfl
    exact hthrow ▸ h w
  | succ turns ih => exact .turn ih

/-- The names that calls may bind: their operands spell such names, the same in all runs, or have
such symbols as their values. -/
structure Names (J : Judgement I L W) (c : CallFamily I) (N : String → Prop) : Prop where
  spelled : ∀ e ∈ c.operands, ∃ name?, (fun i => (e i).targetName?) = (fun _ => name?) ∧
    ∀ x, name? = some x → N x
  symbol : ∀ {w x}, J.value w (fun _ => .symbol x) → N x

/-- Where calls of a builtin bind names, the bindings that they make are judged. -/
structure JudgesBinding (J : Judgement I L W) (op : Builtin) (c : CallFamily I)
    (N : String → Prop) : Prop where
  names : J.Names c N
  define : op = .letForm → ∀ w x v, N x → J.value w v →
    J.Holds w (fun _ _ => True) fun i _ => Eval.define (c.frame i) x (v i)
  assign : op = .setForm → ∀ w x v, N x → J.value w v →
    J.Holds w (fun _ => Common) fun i _ => Eval.assign (c.frame i) x (v i)

/-- One call in all runs spells one name by an operand. -/
theorem names_same {J : Judgement I L W} {c : Call} {N : String → Prop}
    (hspelled : ∀ e ∈ c.operands, ∀ x, e.targetName? = some x → N x)
    (hsymbol : ∀ {w x}, J.value w (fun _ => .symbol x) → N x) : J.Names (.same c) N :=
  ⟨forall_mem_sameRow.2 fun e he => ⟨e.targetName?, rfl, hspelled e he⟩, hsymbol⟩

end Judgement
end Fexpr
