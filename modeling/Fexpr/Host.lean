import Fexpr.Program

/-!
# What a host may do

Beside running programs, a host may take any binding and force it. Only a suspended operand can be
forced; for anything else the fault names the part that a suspended operand has and the value has
not.
-/

namespace Fexpr.Host

/-- What ends the wish of a host. -/
inductive HostFault where
  /-- The evaluation ended without a value. -/
  | eval (fault : Fault)
  /-- A value of this type has no part of this name. -/
  | lacks (typeName part : String)

/-- The fault in words; a fault of the evaluation has words of its own. -/
def HostFault.message : HostFault → String
  | eval _ => ""
  | lacks typeName part => "'" ++ typeName ++ "' object has no attribute '" ++ part ++ "'"

/-- Forces a value. A marked form has an expression, which is written out before the frame is
missed. -/
def force (limits : Limits) (v : Value) : ExceptT HostFault (StateM Machine) Value :=
  match v with
  | .suspended expression frame sequence _ =>
    fromEval (limits.top.force expression frame sequence)
  | .quote body | .unquote body => do
    let _ ← fromEval (limits.top.write body)
    throw (.lacks v.typeName "environment")
  | _ => throw (.lacks v.typeName "expression")
where
  /-- An evaluation for a host. -/
  fromEval {α : Type} (x : Eval α) : ExceptT HostFault (StateM Machine) α := fun m =>
    let (outcome, m) := x m
    (outcome.mapError .eval, m)

end Fexpr.Host
