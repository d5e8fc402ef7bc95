/-!
# Arithmetic on lists of integers

What the arithmetic builtins compute from the values of their operands, of which there is one at
least.
-/

namespace Fexpr.Arithmetic

/-- The sum of all. -/
def sum (ns : List Int) : Int :=
  ns.foldl (· + ·) 0

/-- The product of all. -/
def product (ns : List Int) : Int :=
  ns.foldl (· * ·) 1

/-- The first without all others; a number by itself is negated. -/
def difference : List Int → Int
  | [] => 0
  | [n] => -n
  | n :: ns => ns.foldl (· - ·) n

/-- A number divided by another one: their sizes are divided and rounded down, and the quotient is
negated if just one of the numbers is negative. -/
def dividedBy (n d : Int) : Int :=
  let size : Int := (n.natAbs / d.natAbs : Nat)
  if n < 0 ↔ d < 0 then size else -size

/-- The first divided by one after the other, each quotient rounded toward zero; there is none if a
divisor is zero. -/
def quotient? (n : Int) : List Int → Option Int
  | [] => some n
  | d :: ds => if d = 0 then none else quotient? (dividedBy n d) ds

/-- There is no quotient just if some divisor is zero, whatever is divided and by what before. -/
theorem quotient?_eq_none_iff {n : Int} {ds : List Int} : quotient? n ds = none ↔ 0 ∈ ds := by
  induction ds generalizing n with
  | nil => simp [quotient?]
  | cons d ds ih =>
    rw [quotient?, List.mem_cons]
    by_cases hd : d = 0
    · simp [hd]
    · rw [if_neg hd, ih, or_iff_right (Ne.symm hd)]

end Fexpr.Arithmetic
