import Fexpr.Token.Lexer
import Fexpr.SyntaxFault
import Fexpr.Value
import Fexpr.Text.StringLiteral

/-!
# From tokens to forms

The reader takes one token at a time. What is open is kept on a stack: lists that wait for their
closing bracket and marks that wait for a form. A finished form goes to the innermost of them, or
to the forms of the source when nothing is open.
-/

namespace Fexpr

/-- What waits for a form. -/
inductive Pending where
  /-- A list, the bracket that opened it, its place, and its items so far, the newest first. -/
  | list (bracket : Bracket) (position : Position) (items : List Value)
  /-- A mark and its place. -/
  | mark (mark : Mark) (position : Position)

/-- The reader between two tokens: the forms so far, the newest first, and what is open, the
innermost first. -/
structure Reading where
  forms : List Value
  pending : List Pending

/-- A mark applied to a form. -/
def Mark.apply : Mark → Value → Value
  | quote, v => .quote v
  | unquote, v => .unquote v

namespace Reading

/-- The reader before the first token. -/
def empty : Reading := ⟨[], []⟩

/-- Hands a finished form to what waits for it. -/
def deliver (forms : List Value) : List Pending → Value → Reading
  | [], v => ⟨v :: forms, []⟩
  | .list b p items :: outer, v => ⟨forms, .list b p (v :: items) :: outer⟩
  | .mark m _ :: outer, v => deliver forms outer (m.apply v)

/-- The value of an atom: an integer, `nil`, or else a symbol. -/
def atom (text : List Char) : Except ReadFault Value :=
  match Text.Numeral.ofText? text with
  | some numeral =>
    if numeral.digits.length ≤ Text.digitLimit then .ok (.number numeral.value)
    else .error (.longNumeral numeral.digits.length)
  | none => .ok (if text = ['n', 'i', 'l'] then .nil else .symbol (String.ofList text))

/-- Opens a list or a mark, if fewer than `room` are open. -/
def enter (room : Nat) (r : Reading) (p : Pending) : Except ReadFault Reading :=
  if r.pending.length < room then .ok ⟨r.forms, p :: r.pending⟩ else .error .tooDeep

/-- Closes the innermost list, which must be the innermost thing that is open. -/
def close (r : Reading) (bracket : Bracket) (position : Position) : Except ReadFault Reading :=
  match r.pending with
  | .list b _ items :: outer =>
    if bracket = b then .ok (deliver r.forms outer (.ofItems items.reverse))
    else .error (.invalid (.mismatchedCloser bracket b position))
  | _ => .error (.invalid (.unexpectedCloser bracket position))

/-- The reader after one more token. -/
def step (room : Nat) (r : Reading) (token : Token) : Except ReadFault Reading :=
  match token.kind with
  | .opener b => r.enter room (.list b token.position [])
  | .closer b => r.close b token.position
  | .mark m => r.enter room (.mark m token.position)
  | .string body =>
    .ok (deliver r.forms r.pending (.string (String.ofList (Text.StringLiteral.unescape body))))
  | .atom text => (atom text).map (deliver r.forms r.pending)

/-- The reader after all tokens. -/
def run (room : Nat) (r : Reading) : List Token → Except ReadFault Reading
  | [] => .ok r
  | token :: tokens => do run room (← r.step room token) tokens

/-- The forms of a source that ends here: nothing may be open. -/
def finish (r : Reading) : Except ReadFault (List Value) :=
  match r.pending with
  | [] => .ok r.forms.reverse
  | .list b p _ :: _ => .error (.invalid (.unclosedList b p))
  | .mark m p :: _ => .error (.invalid (.nothingMarked m p))

end Reading

/-- How deep a source may nest. -/
def readingRoom : Nat := 900

/-- The forms that tokens spell. -/
def readTokens (tokens : List Token) : Except ReadFault (List Value) := do
  (← Reading.empty.run readingRoom tokens).finish

/-- The forms of a source. A string that is never closed is found before any other fault. -/
def readForms (source : String) : Except ReadFault (List Value) :=
  let { tokens, unclosed } := tokenize source.toList
  match unclosed with
  | some p => .error (.invalid (.unclosedString p))
  | none => readTokens tokens

/-- The form of a source that holds just one. -/
def readForm (source : String) : Except ReadFault Value := do
  match ← readForms source with
  | [] => .error (.invalid .noForm)
  | [form] => .ok form
  | forms => .error (.invalid (.manyForms forms.length))

end Fexpr
