/-!
# Decimal numerals

A decimal digit is any character of the Unicode class of decimal numbers; each script has a run of
ten such characters, from its zero to its nine. Numerals are read in every script and mixture of
scripts, and written in ASCII.
-/

namespace Fexpr.Text

/-- The zeros of the scripts that have decimal digits. -/
def zeroDigits : List Nat := [
  0x30, 0x660, 0x6F0, 0x7C0, 0x966, 0x9E6, 0xA66, 0xAE6, 0xB66, 0xBE6, 0xC66, 0xCE6, 0xD66, 0xDE6,
  0xE50, 0xED0, 0xF20, 0x1040, 0x1090, 0x17E0, 0x1810, 0x1946, 0x19D0, 0x1A80, 0x1A90, 0x1B50,
  0x1BB0, 0x1C40, 0x1C50, 0xA620, 0xA8D0, 0xA900, 0xA9D0, 0xA9F0, 0xAA50, 0xABF0, 0xFF10, 0x104A0,
  0x10D30, 0x11066, 0x110F0, 0x11136, 0x111D0, 0x112F0, 0x11450, 0x114D0, 0x11650, 0x116C0,
  0x11730, 0x118E0, 0x11950, 0x11C50, 0x11D50, 0x11DA0, 0x16A60, 0x16AC0, 0x16B50, 0x1D7CE,
  0x1D7D8, 0x1D7E2, 0x1D7EC, 0x1D7F6, 0x1E140, 0x1E2F0, 0x1E950, 0x1FBF0
]

/-- The value of a decimal digit of any script. -/
def digitValue? (c : Char) : Option Nat :=
  (zeroDigits.find? fun first => first ≤ c.toNat && c.toNat < first + 10).map (c.toNat - ·)

/-- Whether the character is a decimal digit of some script. -/
def isDecimalDigit (c : Char) : Bool :=
  (digitValue? c).isSome

/-- The number that a run of digits stands for, the first digit the highest. -/
def digitsValue (cs : List Char) : Nat :=
  cs.foldl (fun n c => 10 * n + (digitValue? c).getD 0) 0

/-- How many digits a number may have where it is read or written. -/
def digitLimit : Nat := 4300

/-- The least number with more digits than the limit. -/
def tooLongFrom : Nat := Nat.pow 10 digitLimit

/-- A whole text read as an integer numeral: its sign and its digits. -/
structure Numeral where
  /-- Whether the numeral starts with a minus sign. -/
  negative : Bool
  /-- The digits, of which there is at least one. -/
  digits : List Char

/-- The digits as a numeral, if there is one at least and nothing else. -/
def Numeral.ofDigits? (negative : Bool) (cs : List Char) : Option Numeral :=
  if !cs.isEmpty && cs.all isDecimalDigit then some ⟨negative, cs⟩ else none

/-- The numeral that a whole text spells: an optional sign and digits. -/
def Numeral.ofText? : List Char → Option Numeral
  | '-' :: cs => ofDigits? true cs
  | '+' :: cs => ofDigits? false cs
  | cs => ofDigits? false cs

/-- The integer that a numeral stands for. -/
def Numeral.value (n : Numeral) : Int :=
  if n.negative then -(digitsValue n.digits : Int) else digitsValue n.digits

/-- The shortest numeral of an integer: no sign for a natural number, no leading zero. -/
def integerText (n : Int) : List Char :=
  if n < 0 then '-' :: Nat.toDigits 10 n.natAbs else Nat.toDigits 10 n.natAbs

/-- The numeral of a natural number, as a string. -/
def natString (n : Nat) : String :=
  String.ofList (Nat.toDigits 10 n)

/-- The numeral of an integer, as a string. -/
def integerString (n : Int) : String :=
  String.ofList (integerText n)

/-- The numeral of an integer, unless it has more digits than the limit. -/
def integerText? (n : Int) : Option (List Char) :=
  if n.natAbs < tooLongFrom then some (integerText n) else none

end Fexpr.Text
