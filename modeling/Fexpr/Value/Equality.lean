import Fexpr.Value

/-!
# Equality of values

Trees are equal when they have the same shape and the same leaves; combiners and suspended operands
when they are the same one. `same?` compares up to a depth, from left to right, and stops at the
first difference; `none` says that the values agree down to the depth where it gave up. A list that
has a number is not compared with itself, so it equals itself however deep it nests.
-/

namespace Fexpr.Value

/-- Whether two numbers of what was made say that it is one and the same. -/
def isSameMaking : Option Nat → Option Nat → Bool
  | some m, some n => m == n
  | _, _ => false

/-- Whether two lists are equal item by item, by a comparison of items. -/
def sameItems? (same : Value → Value → Option Bool) : List Value → List Value → Option Bool
  | [], [] => some true
  | x :: xs, y :: ys =>
    match same x y with
    | some true => sameItems? same xs ys
    | answer => answer
  | _, _ => some false

/-- Whether two values are equal, compared less than `room` levels deep. -/
def same? : Nat → Value → Value → Option Bool
  | 0, _, _ => none
  | room + 1, x, y =>
    match x, y with
    | .symbol a, .symbol b => some (a == b)
    | .number m, .number n => some (m == n)
    | .string a, .string b => some (a == b)
    | .list xs m, .list ys n =>
      if isSameMaking m n then some true else sameItems? (same? room) xs ys
    | .quote a, .quote b => same? room a b
    | .unquote a, .unquote b => same? room a b
    | .nil, .nil => some true
    | .builtin op home, .builtin op' home' => some (op == op' && home == home')
    | .raiser _ id, .raiser _ id' => some (id == id')
    | .fexpr id .., .fexpr id' .. => some (id == id')
    | .suspended _ _ _ id, .suspended _ _ _ id' => some (id == id')
    | .hostNumber m, .hostNumber n => some (m == n)
    | .hostText a, .hostText b => some (a == b)
    | _, _ => some false

/-- Whether every value equals the first, compared in order up to the first that differs. -/
def allSame? (room : Nat) (first : Value) : List Value → Option Bool
  | [] => some true
  | v :: vs =>
    match same? room v first with
    | some true => allSame? room first vs
    | answer => answer

end Fexpr.Value
