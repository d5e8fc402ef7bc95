import Fexpr.Text.Quotation

/-!
# Values

Programs are data: what the reader builds, what evaluation takes and what it returns is one type.
A tree is made of symbols, numbers, strings, lists, quotes, unquotes and `nil`; evaluation adds
the combiners (builtins and fexprs) and the suspended operands that a frame may bind, and a host
program may hand in plain numbers and texts of its own and a combiner that always fails.

A list has an empty form of its own, apart from `nil`. Reading never builds it, but a host may.

What is made while a program runs may look like something else and still be another thing. So the
lists that were not read, the combiners and the suspended operands are numbered: what bears one
number is one thing.
-/

namespace Fexpr

/-- The least natural number that does not fit a signed word of 64 bits. -/
def wordLimit : Int := 0x8000000000000000

/-- The place of a frame in the store. -/
abbrev FrameId := Nat

/-- The combiners that every global frame binds. -/
inductive Builtin where
  | ifForm
  | letForm
  | setForm
  | defun
  | progn
  | whenForm
  | whileForm
  | add
  | subtract
  | multiply
  | divide
  | equal
  | unequal
  | list
  | car
  | cdr
  | debug
deriving DecidableEq, Repr

namespace Builtin

/-- The name that a global frame binds a builtin to. -/
def name : Builtin → String
  | ifForm => "if"
  | letForm => "let"
  | setForm => "set"
  | defun => "defun"
  | progn => "progn"
  | whenForm => "when"
  | whileForm => "while"
  | add => "+"
  | subtract => "-"
  | multiply => "*"
  | divide => "/"
  | equal => "="
  | unequal => "/="
  | list => "list"
  | car => "car"
  | cdr => "cdr"
  | debug => "debug"

/-- The builtins in the order in which a global frame binds them. -/
def all : List Builtin :=
  [ifForm, letForm, setForm, defun, progn, whenForm, whileForm, add, subtract, multiply, divide,
    equal, unequal, list, car, cdr, debug]

end Builtin

/-- The marker that ends the name of a parameter which takes all remaining operands. -/
def restMarker : String := "..."

/-- A formal parameter of a fexpr. -/
structure Param where
  /-- The name that a call binds. -/
  name : String
  /-- Whether the operand is bound unevaluated. -/
  suspended : Bool := false
  /-- Whether the parameter takes all remaining operands. -/
  rest : Bool := false
deriving DecidableEq, Repr

namespace Param

/-- A parameter as it is written: quoted when suspended, marked when it takes the rest. -/
def text (p : Param) : String :=
  (if p.suspended then "'" else "") ++ p.name ++ (if p.rest then restMarker else "")

/-- The parameters that take one operand each. -/
def required (params : List Param) : List Param :=
  params.filter (!·.rest)

/-- The parameter that takes the remaining operands: the last one, if it is marked so. -/
def rest? (params : List Param) : Option Param :=
  params.getLast?.filter (·.rest)

end Param

/-- Trees, combiners, suspended operands, and what a host hands in. -/
inductive Value where
  | symbol (name : String)
  | number (value : Int)
  | string (text : String)
  /-- A list, and the number under which it was made, if it was not read. -/
  | list (items : List Value) (made : Option Nat)
  | quote (body : Value)
  | unquote (body : Value)
  | nil
  /-- A builtin, as bound in the global frame `home`. -/
  | builtin (op : Builtin) (home : FrameId)
  /-- A host's combiner that fails with a message; `id` tells it from others. -/
  | raiser (message : String) (id : Nat)
  /-- A combiner made by a program; `id` tells it from others, `home` is where it was made. -/
  | fexpr (id : Nat) (name : String) (params : List Param) (body : List Value) (home : FrameId)
  /-- An operand kept with the frame it would be evaluated in; a `sequence` is a list of operands.
  `id` tells it from others. -/
  | suspended (expression : Value) (frame : FrameId) (sequence : Bool) (id : Nat)
  | hostNumber (value : Int)
  | hostText (text : String)
deriving Inhabited

namespace Value

/-- The value that comparisons answer with when they hold. -/
def t : Value := .symbol "t"

/-- The list of the values as it is read, `nil` when there are none. -/
def ofItems : List Value → Value
  | [] => .nil
  | vs => .list vs none

/-- Whether the value counts as false in a test; `nil` alone does. -/
def isNil : Value → Bool
  | .nil => true
  | _ => false

/-- The answer of a comparison. -/
def ofBool (b : Bool) : Value :=
  if b then t else .nil

/-- Whether there is something in the value: it is not `nil`, no list without items, and no zero
or empty text of the host. -/
def isPresent : Value → Bool
  | .nil => false
  | .list items _ => !items.isEmpty
  | .hostNumber n => n != 0
  | .hostText text => !text.isEmpty
  | _ => true

/-- Why a list has no item at a place. -/
inductive PlaceFault where
  /-- The list is not that long. -/
  | outOfRange
  /-- No list is that long: the place does not fit a signed word of 64 bits. -/
  | noPlace
deriving DecidableEq, Repr

/-- The fault in words. -/
def PlaceFault.message : PlaceFault → String
  | outOfRange => "tuple index out of range"
  | noPlace => "cannot fit 'int' into an index-sized integer"

/-- The first item of a list. -/
def firstItem (items : List Value) : Except PlaceFault Value :=
  (items.head?.map .ok).getD (.error .outOfRange)

/-- The item of a list at a place, counted from the end if the place is negative. -/
def itemAt (items : List Value) (place : Int) : Except PlaceFault Value :=
  if place < -wordLimit || wordLimit ≤ place then .error .noPlace
  else if place < 0 && items.length < place.natAbs then .error .outOfRange
  else
    let index := if place < 0 then items.length - place.natAbs else place.toNat
    (items[index]?.map .ok).getD (.error .outOfRange)

/-- The name of the kind of value, as error messages give it. -/
def typeName : Value → String
  | .symbol _ => "Symbol"
  | .number _ => "Number"
  | .string _ => "String"
  | .list .. => "ListExpr"
  | .quote _ => "Quote"
  | .unquote _ => "Unquote"
  | .nil => "NilLiteral"
  | .builtin .. => "BuiltinForm"
  | .raiser .. => "BuiltinForm"
  | .fexpr .. => "UserFexpr"
  | .suspended .. => "SuspendedForm"
  | .hostNumber _ => "int"
  | .hostText _ => "str"

/-- The expression and the frame of a suspended operand. -/
def suspension? : Value → Option (Value × FrameId × Bool)
  | .suspended e f s _ => some (e, f, s)
  | _ => none

end Value
end Fexpr
