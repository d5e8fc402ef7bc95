import Fexpr.Value
import Fexpr.Text.Decimal
import Fexpr.Text.StringLiteral

/-!
# Written form of values

`render` writes a value as source text would spell it: lists in parentheses with one blank between
items, marks before quoted and unquoted parts, strings escaped. Combiners and suspended operands
have no spelling and are written between angle brackets. A text exists only up to a depth of
nesting and a number of digits.
-/

namespace Fexpr

/-- Why a value has no written form. -/
inductive TextFault where
  /-- An integer has more digits than the limit. -/
  | tooLong
  /-- The value nests deeper than there is room for. -/
  | tooDeep
deriving DecidableEq, Repr

/-- What is said of an integer that is too long to be written. -/
def tooLongText : String :=
  "Exceeds the limit (4300 digits) for integer string conversion; "
    ++ "use sys.set_int_max_str_digits() to increase the limit"

namespace Value

/-- An integer as a text, up to the limit of digits. -/
def numeral (n : Int) : Except TextFault String :=
  match Text.integerText? n with
  | some cs => .ok (String.ofList cs)
  | none => .error .tooLong

/-- A string between double quotes, with its escapes. -/
def stringLiteral (text : String) : String :=
  "\"" ++ String.ofList (Text.StringLiteral.escape text.toList) ++ "\""

/-- The written form of a value that nests less than `room` levels deep. -/
def render : Nat → Value → Except TextFault String
  | 0, _ => .error .tooDeep
  | room + 1, value =>
    match value with
    | .symbol name => .ok name
    | .number n => numeral n
    | .string text => .ok (stringLiteral text)
    | .list items _ => do
      let texts ← items.mapM (render room)
      return "(" ++ " ".intercalate texts ++ ")"
    | .quote body => do return "'" ++ (← render room body)
    | .unquote body => do return "," ++ (← render room body)
    | .nil => .ok "nil"
    | .builtin op _ => .ok ("<builtin " ++ op.name ++ ">")
    | .raiser .. => .ok "<builtin raiser>"
    | .fexpr _ name .. => .ok ("<fexpr " ++ name ++ ">")
    | .suspended expression .. => do
      return "<suspended " ++ (← render room expression) ++ ">"
    | .hostNumber n => numeral n
    | .hostText text => .ok text

/-- A value as a constructor call, for messages about what cannot be evaluated. -/
def constructorText : Nat → Value → Except TextFault String
  | 0, _ => .error .tooDeep
  | room + 1, value =>
    match value with
    | .symbol name => .ok ("Symbol(" ++ Text.quote name ++ ")")
    | .number n => do return "Number(" ++ (← numeral n) ++ ")"
    | .string text => .ok ("String(" ++ Text.quote text ++ ")")
    | .list items _ => do
      let texts ← items.mapM (constructorText room)
      return "ListExpr([" ++ ", ".intercalate texts ++ "])"
    | .quote body => do return "Quote(" ++ (← constructorText room body) ++ ")"
    | .unquote body => do return "Unquote(" ++ (← constructorText room body) ++ ")"
    | .nil => .ok "NIL"
    | .builtin op _ => .ok ("<BuiltinForm " ++ op.name ++ ">")
    | .raiser .. => .ok "<BuiltinForm raiser>"
    | .fexpr _ name params body _ =>
      .ok ("<UserFexpr " ++ name ++ " params=(" ++ " ".intercalate (params.map Param.text)
        ++ ") body_exprs#=" ++ Text.natString body.length ++ ">")
    | .suspended expression .. => do
      return "<SuspendedForm expr=" ++ (← constructorText room expression) ++ ">"
    | .hostNumber n => numeral n
    | .hostText text => .ok (Text.quote text)

end Value

namespace Param

/-- A parameter as a constructor call. -/
def constructorText (p : Param) : String :=
  let flag (b : Bool) : String := if b then "True" else "False"
  "ParamSpec(" ++ Text.quote p.name ++ ", suspended=" ++ flag p.suspended ++ ", rest="
    ++ flag p.rest ++ ")"

end Param
end Fexpr
