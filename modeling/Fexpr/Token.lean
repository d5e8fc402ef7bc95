import Fexpr.Text.Blank

/-!
# Tokens

What a source is made of. A `Lexeme` is a stretch of source: blanks, a comment, or the spelling of
a token. A `Token` is what the reader works on, with the position of its first character.
-/

namespace Fexpr

/-- A place in a source; lines and columns are counted from one. -/
structure Position where
  line : Nat
  column : Nat
deriving DecidableEq, Repr

namespace Position

/-- Where every source starts. -/
def start : Position := ⟨1, 1⟩

/-- The place after one character. Only the line feed starts a new line. -/
def next (p : Position) (c : Char) : Position :=
  if c = '\n' then ⟨p.line + 1, 1⟩ else ⟨p.line, p.column + 1⟩

/-- The place after a stretch of source. -/
def advance (p : Position) (cs : List Char) : Position :=
  cs.foldl next p

@[simp] theorem advance_nil (p : Position) : p.advance [] = p := rfl

@[simp] theorem advance_append (p : Position) (cs ds : List Char) :
    p.advance (cs ++ ds) = (p.advance cs).advance ds :=
  List.foldl_append

end Position

/-- The two styles of brackets around a list. -/
inductive Bracket where
  | round
  | square
deriving DecidableEq, Repr

namespace Bracket

/-- The character that opens a list. -/
def opener : Bracket → Char
  | round => '('
  | square => '['

/-- The character that closes a list. -/
def closer : Bracket → Char
  | round => ')'
  | square => ']'

end Bracket

/-- The marks that apply to the form after them. -/
inductive Mark where
  | quote
  | unquote
deriving DecidableEq, Repr

namespace Mark

/-- The character of a mark. -/
def char : Mark → Char
  | quote => '\''
  | unquote => ','

/-- The name of a mark. -/
def name : Mark → String
  | quote => "quote"
  | unquote => "unquote"

end Mark

/-- What a token is, without its place. A string keeps its escapes. -/
inductive Token.Kind where
  | opener (bracket : Bracket)
  | closer (bracket : Bracket)
  | mark (mark : Mark)
  | string (body : List Char)
  | atom (text : List Char)
deriving DecidableEq, Repr

namespace Token.Kind

/-- The characters that the token takes up in the source. -/
def spelling : Token.Kind → List Char
  | opener b => [b.opener]
  | closer b => [b.closer]
  | mark m => [m.char]
  | string body => '"' :: body ++ ['"']
  | atom text => text

/-- The name of the kind of token. -/
def label : Token.Kind → String
  | opener _ => "open"
  | closer _ => "close"
  | mark m => m.name
  | string _ => "string"
  | atom _ => "atom"

/-- The characters of the token, a string without its quotes. -/
def content : Token.Kind → List Char
  | string body => body
  | kind => kind.spelling

end Token.Kind

/-- A token and where it starts. -/
structure Token where
  kind : Token.Kind
  position : Position
deriving DecidableEq, Repr

/-- A stretch of source that belongs together. -/
inductive Lexeme where
  | blanks (cs : List Char)
  | comment (text : List Char)
  | token (kind : Token.Kind)
deriving DecidableEq, Repr

/-- The characters that a lexeme takes up in the source. -/
def Lexeme.spelling : Lexeme → List Char
  | blanks cs => cs
  | comment text => ';' :: text
  | token kind => kind.spelling

end Fexpr
