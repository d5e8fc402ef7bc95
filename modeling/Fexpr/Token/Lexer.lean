import Fexpr.Token

/-!
# From characters to tokens

`lexemes` cuts a source into lexemes, each as long as it can be. They tile the source up to the
quote of a string that is never closed. `tokenize` keeps the tokens, each with its place.

Main statements: a lexeme and the source after it make up the source (`Lexeme.next?_spelling`),
and so do all lexemes and what is left (`lexemes_spelling`).
-/

namespace Fexpr

/-- Whether a character may stand in an atom: no blank, bracket, mark, quote or semicolon. -/
def isAtomChar (c : Char) : Bool :=
  !Text.isBlank c && !(['(', ')', '[', ']', '\'', '"', ',', ';'].contains c)

/-- The body of a string up to its closing quote, and the source after that quote. A backslash takes
the character after it along; without a closing quote there is no string. -/
def stringBody? : List Char → Option (List Char × List Char)
  | [] => none
  | ['\\'] => none
  | '\\' :: c :: rest => (stringBody? rest).map fun (body, rest) => ('\\' :: c :: body, rest)
  | c :: rest =>
    if c = '"' then some ([], rest)
    else (stringBody? rest).map fun (body, rest) => (c :: body, rest)

/-- The tokens of one character: brackets and marks. -/
def Token.Kind.single? : Char → Option Token.Kind
  | '(' => some (.opener .round)
  | '[' => some (.opener .square)
  | ')' => some (.closer .round)
  | ']' => some (.closer .square)
  | '\'' => some (.mark .quote)
  | ',' => some (.mark .unquote)
  | _ => none

/-- The lexeme that a source starts with, and the source after it. There is none at the end and at
the quote of a string that is never closed. -/
def Lexeme.next? : List Char → Option (Lexeme × List Char)
  | [] => none
  | c :: cs =>
    if Text.isBlank c then
      some (.blanks (c :: cs.takeWhile Text.isBlank), cs.dropWhile Text.isBlank)
    else if c = ';' then
      some (.comment (cs.takeWhile (· ≠ '\n')), cs.dropWhile (· ≠ '\n'))
    else if c = '"' then
      (stringBody? cs).map fun (body, rest) => (.token (.string body), rest)
    else match Token.Kind.single? c with
      | some kind => some (.token kind, cs)
      | none => some (.token (.atom (c :: cs.takeWhile isAtomChar)), cs.dropWhile isAtomChar)

/-- A string's body, its closing quote and the source after it make up the source. -/
theorem stringBody?_spelling {cs body rest : List Char} (h : stringBody? cs = some (body, rest)) :
    body ++ '"' :: rest = cs := by
  fun_induction stringBody? cs generalizing body with
  | case1 => simp at h
  | case2 => simp at h
  | case3 c cs ih =>
    obtain ⟨⟨b, r⟩, hb, he⟩ := Option.map_eq_some_iff.1 h
    simp only [Prod.mk.injEq] at he
    obtain ⟨rfl, rfl⟩ := he
    simp [ih hb]
  | case4 rest' => simp_all
  | case5 c cs _ _ _ ih =>
    obtain ⟨⟨b, r⟩, hb, he⟩ := Option.map_eq_some_iff.1 h
    simp only [Prod.mk.injEq] at he
    obtain ⟨rfl, rfl⟩ := he
    simp [ih hb]

/-- A bracket or mark is spelled by its character. -/
theorem Token.Kind.single?_spelling {c : Char} {kind : Token.Kind} (h : single? c = some kind) :
    kind.spelling = [c] := by
  unfold single? at h
  split at h <;> simp only [Option.some.injEq, reduceCtorEq] at h <;> subst h <;> rfl

namespace Lexeme

/-- A lexeme has a first character, and with the source after it makes up the source. -/
theorem next?_spelling {cs rest : List Char} {l : Lexeme} (h : next? cs = some (l, rest)) :
    l.spelling ≠ [] ∧ l.spelling ++ rest = cs := by
  unfold next? at h
  split at h
  · simp at h
  split at h
  · simp only [Option.some.injEq, Prod.mk.injEq] at h
    obtain ⟨rfl, rfl⟩ := h
    simp [spelling, List.takeWhile_append_dropWhile]
  split at h
  next hc =>
    simp only [Option.some.injEq, Prod.mk.injEq] at h
    obtain ⟨rfl, rfl⟩ := h
    simp [spelling, hc, List.takeWhile_append_dropWhile]
  split at h
  next hc =>
    obtain ⟨⟨body, r⟩, hb, he⟩ := Option.map_eq_some_iff.1 h
    simp only [Prod.mk.injEq] at he
    obtain ⟨rfl, rfl⟩ := he
    simp [spelling, Token.Kind.spelling, hc, stringBody?_spelling hb]
  split at h
  next kind hk =>
    simp only [Option.some.injEq, Prod.mk.injEq] at h
    obtain ⟨rfl, rfl⟩ := h
    simp [spelling, Token.Kind.single?_spelling hk]
  · simp only [Option.some.injEq, Prod.mk.injEq] at h
    obtain ⟨rfl, rfl⟩ := h
    simp [spelling, Token.Kind.spelling, List.takeWhile_append_dropWhile]

/-- The source after a lexeme is shorter. -/
theorem length_lt_of_next? {cs rest : List Char} {l : Lexeme}
    (h : next? cs = some (l, rest)) : rest.length < cs.length := by
  have ⟨hne, heq⟩ := next?_spelling h
  have hpos := List.length_pos_iff.2 hne
  have hlen := congrArg List.length heq
  simp only [List.length_append] at hlen
  omega

end Lexeme

/-- The lexemes of a source, and what is left where none starts: nothing at the end, or the source
from the quote of a string that is never closed. -/
def lexemes (cs : List Char) : List Lexeme × List Char :=
  match _h : Lexeme.next? cs with
  | none => ([], cs)
  | some (l, rest) =>
    let (ls, unread) := lexemes rest
    (l :: ls, unread)
termination_by cs.length
decreasing_by exact Lexeme.length_lt_of_next? _h

/-- The lexemes and what is left make up the source. -/
theorem lexemes_spelling (cs : List Char) :
    (lexemes cs).1.flatMap Lexeme.spelling ++ (lexemes cs).2 = cs := by
  fun_induction lexemes cs with
  | case1 => simp
  | case2 cs l rest h ls unread hrest ih =>
    rw [hrest] at ih
    simp [ih, (Lexeme.next?_spelling h).2]

/-- The tokens among lexemes, the first lexeme starting at `p`. -/
def Token.placed (p : Position) : List Lexeme → List Token
  | [] => []
  | .token kind :: ls => ⟨kind, p⟩ :: placed (p.advance kind.spelling) ls
  | l :: ls => placed (p.advance l.spelling) ls

/-- The tokens of a source and, if one of its strings is never closed, where that string starts. -/
structure Tokens where
  tokens : List Token
  unclosed : Option Position
deriving Repr

/-- The tokens of a source. -/
def tokenize (cs : List Char) : Tokens :=
  let (ls, rest) := lexemes cs
  { tokens := Token.placed .start ls
    unclosed :=
      if rest.isEmpty then none else some (Position.start.advance (ls.flatMap Lexeme.spelling)) }

end Fexpr
