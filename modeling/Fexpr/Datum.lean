import Fexpr.Text.Decimal
import Fexpr.Value

/-!
# Data from a host

What a host program hands in where a name, a number or a setting is wanted, before it is known to
be one.
-/

namespace Fexpr

/-- Untyped data of a host. A decimal number has a sign, which a zero has too, and is its digits
times a power of ten; it is never an integer, even when it is whole. Beyond the decimal numbers
there are the two infinite ones, and one that is undefined. -/
inductive Datum where
  | none
  | bool (b : Bool)
  | integer (n : Int)
  | decimal (negative : Bool) (digits : Nat) (exponent : Int)
  | infinite (negative : Bool)
  | undefined
  | text (s : String)
  | list (items : List Datum)
  | record (fields : List (String × Datum))
deriving Inhabited

namespace Datum

/-- The name of the type of a datum, as messages give it. -/
def typeName : Datum → String
  | none => "NoneType"
  | bool _ => "bool"
  | integer _ => "int"
  | decimal .. | infinite _ | undefined => "float"
  | text _ => "str"
  | list _ => "list"
  | record _ => "dict"

/-- A decimal number as messages show it: positional, with one decimal place at least, if its
first digit stands for a power of ten from `10 ^ -4` to `10 ^ 15`, and else that digit, the others
after a point, and the power, in two digits at least. No zero ends the digits. -/
def decimalText (negative : Bool) (digits : Nat) (exponent : Int) : String :=
  let written := Nat.toDigits 10 digits
  let shown := (written.reverse.dropWhile (· == '0')).reverse
  let power : Int := if digits = 0 then 0 else exponent + (written.length - 1 : Nat)
  let orZero (cs : List Char) : List Char := if cs.isEmpty then ['0'] else cs
  let text : List Char :=
    if -4 ≤ power ∧ power < 0 then
      '0' :: '.' :: List.replicate (power.natAbs - 1) '0' ++ shown
    else if 0 ≤ power ∧ power < 16 then
      let padded := shown ++ List.replicate (power.toNat + 1 - shown.length) '0'
      padded.take (power.toNat + 1) ++ '.' :: orZero (padded.drop (power.toNat + 1))
    else
      let size := Nat.toDigits 10 power.natAbs
      shown.take 1 ++ (if shown.length = 1 then [] else '.' :: shown.drop 1)
        ++ 'e' :: (if power < 0 then '-' else '+') :: List.replicate (2 - size.length) '0' ++ size
  String.ofList (if negative then '-' :: text else text)

/-- The size of a decimal number, if it is whole. -/
def wholeSize? (digits : Nat) (exponent : Int) : Option Nat :=
  let scale := Nat.pow 10 exponent.natAbs
  if 0 ≤ exponent then some (digits * scale)
  else if digits % scale = 0 then some (digits / scale)
  else Option.none

mutual

/-- A datum as messages show it. -/
def describe : Datum → String
  | none => "None"
  | bool b => if b then "True" else "False"
  | integer n => Text.integerString n
  | decimal negative digits exponent => decimalText negative digits exponent
  | infinite negative => if negative then "-inf" else "inf"
  | undefined => "nan"
  | text s => Text.quote s
  | list items => "[" ++ ", ".intercalate (describeAll items) ++ "]"
  | record fields => "\x7b" ++ ", ".intercalate (describeFields fields) ++ "\x7d"

/-- Data as messages show them. -/
def describeAll : List Datum → List String
  | [] => []
  | d :: ds => describe d :: describeAll ds

/-- The fields of a record as messages show them. -/
def describeFields : List (String × Datum) → List String
  | [] => []
  | (name, d) :: fields => (Text.quote name ++ ": " ++ describe d) :: describeFields fields

end

/-- The symbol that a datum names; only a text that is not empty does. -/
def symbol? : Datum → Except String Value
  | text s =>
    if s.isEmpty then .error ("Symbol name must be a non-empty string, got " ++ Text.quote s)
    else .ok (.symbol s)
  | d => .error ("Symbol name must be a non-empty string, got " ++ d.describe)

/-- The number that a datum is; only an integer is one. -/
def number? : Datum → Except String Value
  | integer n => .ok (.number n)
  | d => .error ("Number value must be an int, got " ++ d.typeName)

end Datum
end Fexpr
