/-!
# String literals

What stands between the double quotes of a string in source text. `escape` writes a text so that
it holds no bare quote and no line break; `unescape` reads a body. A backslash before `n` or `t`
stands for a line break or a tab, before any other character for that character.
-/

namespace Fexpr.Text.StringLiteral

/-- One character as it stands in a body. -/
def escapeChar (c : Char) : List Char :=
  if c = '\\' then ['\\', '\\']
  else if c = '"' then ['\\', '"']
  else if c = '\n' then ['\\', 'n']
  else [c]

/-- The body of the literal that stands for a text. -/
def escape (cs : List Char) : List Char :=
  cs.flatMap escapeChar

/-- The character that a backslash and `c` stand for. -/
def unescapeChar (c : Char) : Char :=
  if c = 'n' then '\n' else if c = 't' then '\t' else c

/-- The text that a body stands for. -/
def unescape : List Char → List Char
  | [] => []
  | ['\\'] => []
  | '\\' :: c :: rest => unescapeChar c :: unescape rest
  | c :: rest => c :: unescape rest

/-- Reading a body gives back the text it was written for. -/
theorem unescape_escape (cs : List Char) : unescape (escape cs) = cs := by
  induction cs with
  | nil => rfl
  | cons c cs ih =>
    have unfold_cons : escape (c :: cs) = escapeChar c ++ escape cs := by simp [escape]
    rw [unfold_cons]
    by_cases hb : c = '\\'
    · subst hb; simp [escapeChar, unescape, unescapeChar, ih]
    by_cases hq : c = '"'
    · subst hq; simp [escapeChar, unescape, unescapeChar, ih]
    by_cases hn : c = '\n'
    · subst hn; simp [escapeChar, unescape, unescapeChar, ih]
    · simp [escapeChar, hb, hq, hn, unescape, ih]

end Fexpr.Text.StringLiteral
