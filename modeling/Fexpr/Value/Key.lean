import Fexpr.Value.Equality

/-!
# Values as keys

A set looks for a key among those of the same hash, and compares it with these only. The hash of a
tree is made of a word for its kind and the hashes of its parts; that of a combiner or a suspended
operand only says which one it is. Like equality, it does not ask under which number a list was
made.

How texts, integers, rows of hashes and numbered things are hashed is up to the host.
-/

namespace Fexpr

/-- How a host hashes what values are made of. -/
structure Hashing where
  text : String → Int
  integer : Int → Int
  /-- The hash of a row of things, from the hashes of these. -/
  row : List Int → Int
  builtin : Builtin → FrameId → Int
  /-- The hash of any other combiner, from its number. -/
  combiner : Nat → Int
  /-- The hash of a suspended operand, from its number. -/
  suspension : Nat → Int

namespace Value

mutual

/-- The hash of a value. -/
def hashBy (h : Hashing) : Value → Int
  | .symbol name => h.row [h.text "symbol", h.text name]
  | .number n => h.row [h.text "number", h.integer n]
  | .string text => h.row [h.text "string", h.text text]
  | .list items _ => h.row [h.text "list", h.row (hashAllBy h items)]
  | .quote body => h.row [h.text "quote", hashBy h body]
  | .unquote body => h.row [h.text "unquote", hashBy h body]
  | .nil => h.text "nil"
  | .builtin op home => h.builtin op home
  | .raiser _ id | .fexpr id .. => h.combiner id
  | .suspended _ _ _ id => h.suspension id
  | .hostNumber n => h.integer n
  | .hostText text => h.text text

/-- The hashes of values. -/
def hashAllBy (h : Hashing) : List Value → List Int
  | [] => []
  | v :: vs => hashBy h v :: hashAllBy h vs

end

/-- Whether two values are one key: their hashes are equal, and so are they, compared less than
`room` levels deep. -/
def isOneKey? (h : Hashing) (room : Nat) (v w : Value) : Option Bool :=
  if hashBy h v = hashBy h w then same? room v w else some false

end Value
end Fexpr
