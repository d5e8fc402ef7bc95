import Fexpr.Token.Lexer
import Fexpr.Text.StringLiteral

/-!
# Lexemes read back

When does a text that was put together from lexemes fall apart into the same lexemes? Brackets,
marks and strings end by themselves; an atom goes on as far as it can, so what comes after it must
not go on with it (`Stops`). `lexemes_of_next?` takes one lexeme off, and `Cuts` says that all of
several are found again, whatever comes after them.
-/

namespace Fexpr

/-- A source that does not go on with an atom. -/
def Stops (rest : List Char) : Prop :=
  ∀ c ∈ rest.head?, isAtomChar c = false

theorem stops_nil : Stops [] := by
  intro c hc
  simp at hc

theorem stops_cons {c : Char} {rest : List Char} (h : isAtomChar c = false) :
    Stops (c :: rest) := by
  intro d hd
  obtain rfl := Option.mem_some.1 hd
  exact h

/-- No bracket stands in an atom. -/
theorem isAtomChar_bracket (b : Bracket) :
    isAtomChar b.opener = false ∧ isAtomChar b.closer = false := by
  cases b <;> decide

/-- The character of an atom is none that other lexemes start with. -/
theorem atomChar_ne {c : Char} (h : isAtomChar c = true) :
    Text.isBlank c = false ∧ c ≠ ';' ∧ c ≠ '"' ∧ Token.Kind.single? c = none := by
  unfold isAtomChar at h
  simp only [Bool.and_eq_true, Bool.not_eq_true', List.contains_cons, List.contains_nil,
    Bool.or_false, Bool.or_eq_false_iff, beq_eq_false_iff_ne, ne_eq] at h
  obtain ⟨hblank, h1, h2, h3, h4, h5, h6, h7, h8⟩ := h
  refine ⟨hblank, h8, h6, ?_⟩
  unfold Token.Kind.single?
  split <;> simp_all

/-- What starts no other lexeme may stand in an atom. -/
theorem isAtomChar_of_ne {c : Char} (hblank : Text.isBlank c = false) (hcomment : c ≠ ';')
    (hstring : c ≠ '"') (hsingle : Token.Kind.single? c = none) : isAtomChar c = true := by
  have hne : ∀ d kind, Token.Kind.single? d = some kind → c ≠ d := by
    rintro d kind hd rfl
    rw [hsingle] at hd
    cases hd
  have h1 := hne '(' _ rfl
  have h2 := hne '[' _ rfl
  have h3 := hne ')' _ rfl
  have h4 := hne ']' _ rfl
  have h5 := hne '\'' _ rfl
  have h6 := hne ',' _ rfl
  simp [isAtomChar, hblank, hcomment, hstring, h1, h2, h3, h4, h5, h6]

/-! ## One lexeme at the front -/

/-- What satisfies a condition is taken, and what comes after it is left. -/
theorem takeWhile_dropWhile_append {p : Char → Bool} (text : List Char) {rest : List Char}
    (htext : ∀ c ∈ text, p c = true) (hrest : ∀ c ∈ rest.head?, p c = false) :
    (text ++ rest).takeWhile p = text ∧ (text ++ rest).dropWhile p = rest := by
  have hrest' : rest.takeWhile p = [] ∧ rest.dropWhile p = rest := by
    cases rest with
    | nil => exact ⟨rfl, rfl⟩
    | cons c cs =>
      have hc := hrest c rfl
      simp [hc]
  rw [List.takeWhile_append_of_pos htext, List.dropWhile_append_of_pos htext, hrest'.1, hrest'.2]
  exact ⟨List.append_nil text, rfl⟩

namespace Lexeme

/-- A bracket or a mark is a lexeme whatever comes after it. -/
theorem next?_single {c : Char} {kind : Token.Kind} (h : Token.Kind.single? c = some kind)
    (rest : List Char) : next? (c :: rest) = some (.token kind, rest) := by
  have hplain : Text.isBlank c = false ∧ c ≠ ';' ∧ c ≠ '"' := by
    unfold Token.Kind.single? at h
    split at h <;> first | decide | cases h
  simp [next?, hplain, h]

theorem next?_opener (b : Bracket) (rest : List Char) :
    next? (b.opener :: rest) = some (.token (.opener b), rest) := by
  cases b <;> exact next?_single rfl rest

theorem next?_closer (b : Bracket) (rest : List Char) :
    next? (b.closer :: rest) = some (.token (.closer b), rest) := by
  cases b <;> exact next?_single rfl rest

theorem next?_mark (m : Mark) (rest : List Char) :
    next? (m.char :: rest) = some (.token (.mark m), rest) := by
  cases m <;> exact next?_single rfl rest

/-- The blanks in front of a source are one lexeme. -/
theorem next?_blanks {c : Char} (hc : Text.isBlank c = true) (cs : List Char) :
    next? (c :: cs) =
      some (.blanks (c :: cs.takeWhile Text.isBlank), cs.dropWhile Text.isBlank) := by
  simp [next?, hc]

theorem next?_comment (cs : List Char) :
    next? (';' :: cs) = some (.comment (cs.takeWhile (· ≠ '\n')), cs.dropWhile (· ≠ '\n')) := by
  rw [next?, if_neg (by decide), if_pos rfl]

theorem next?_quote (cs : List Char) :
    next? ('"' :: cs) = (stringBody? cs).map fun (body, rest) => (.token (.string body), rest) := by
  rw [next?, if_neg (by decide), if_neg (by decide), if_pos rfl]

theorem next?_atomChar {c : Char} (hc : isAtomChar c = true) (cs : List Char) :
    next? (c :: cs) =
      some (.token (.atom (c :: cs.takeWhile isAtomChar)), cs.dropWhile isAtomChar) := by
  obtain ⟨hblank, hcomment, hstring, hsingle⟩ := atomChar_ne hc
  simp [next?, hblank, hcomment, hstring, hsingle]

/-- What a character starts: blanks, a comment, a string, a bracket or a mark, or an atom. -/
theorem start_cases (c : Char) :
    Text.isBlank c = true ∨ c = ';' ∨ c = '"' ∨ (∃ kind, Token.Kind.single? c = some kind) ∨
      isAtomChar c = true := by
  by_cases hblank : Text.isBlank c = true
  · exact Or.inl hblank
  by_cases hcomment : c = ';'
  · exact Or.inr (Or.inl hcomment)
  by_cases hstring : c = '"'
  · exact Or.inr (Or.inr (Or.inl hstring))
  cases hsingle : Token.Kind.single? c with
  | some kind => exact Or.inr (Or.inr (Or.inr (Or.inl ⟨kind, rfl⟩)))
  | none =>
    have hatom := isAtomChar_of_ne (by simpa using hblank) hcomment hstring hsingle
    exact Or.inr (Or.inr (Or.inr (Or.inr hatom)))

/-- An atom ends where the source stops going on with it. -/
theorem next?_atom {text rest : List Char} (hne : text ≠ [])
    (htext : ∀ c ∈ text, isAtomChar c = true) (hrest : Stops rest) :
    next? (text ++ rest) = some (.token (.atom text), rest) := by
  cases text with
  | nil => exact absurd rfl hne
  | cons c cs =>
    obtain ⟨htake, hdrop⟩ := takeWhile_dropWhile_append cs
      (fun d hd => htext d (List.mem_cons_of_mem c hd)) hrest
    rw [List.cons_append, next?_atomChar (htext c List.mem_cons_self), htake, hdrop]

/-- A single blank is a lexeme when no other blank comes after it. -/
theorem next?_blank {rest : List Char} (hrest : ∀ c ∈ rest.head?, Text.isBlank c = false) :
    next? (' ' :: rest) = some (.blanks [' '], rest) := by
  obtain ⟨htake, hdrop⟩ := takeWhile_dropWhile_append [] (by simp) hrest
  rw [List.nil_append] at htake hdrop
  rw [next?_blanks (by decide), htake, hdrop]

end Lexeme

/-- The body of a written string ends at its closing quote. -/
theorem stringBody?_escape (cs rest : List Char) :
    stringBody? (Text.StringLiteral.escape cs ++ '"' :: rest)
      = some (Text.StringLiteral.escape cs, rest) := by
  induction cs with
  | nil => simp [Text.StringLiteral.escape, stringBody?]
  | cons c cs ih =>
    have hcons : Text.StringLiteral.escape (c :: cs)
        = Text.StringLiteral.escapeChar c ++ Text.StringLiteral.escape cs := by
      simp [Text.StringLiteral.escape]
    rw [hcons, List.append_assoc]
    by_cases hb : c = '\\'
    · subst hb; simp [Text.StringLiteral.escapeChar, stringBody?, ih]
    by_cases hq : c = '"'
    · subst hq; simp [Text.StringLiteral.escapeChar, stringBody?, ih]
    by_cases hn : c = '\n'
    · subst hn; simp [Text.StringLiteral.escapeChar, stringBody?, ih]
    · simp [Text.StringLiteral.escapeChar, hb, hq, hn, stringBody?, ih]

/-- A written string is a lexeme whatever comes after it. -/
theorem Lexeme.next?_string (cs rest : List Char) :
    Lexeme.next? ('"' :: (Text.StringLiteral.escape cs ++ '"' :: rest))
      = some (.token (.string (Text.StringLiteral.escape cs)), rest) := by
  rw [Lexeme.next?_quote, stringBody?_escape]
  rfl

/-! ## All lexemes -/

/-- The first lexeme comes off, and the others are those of the source after it. -/
theorem lexemes_of_next? {cs rest : List Char} {l : Lexeme} (h : Lexeme.next? cs = some (l, rest)) :
    lexemes cs = (l :: (lexemes rest).1, (lexemes rest).2) := by
  rw [lexemes]
  split
  · rename_i h'; rw [h] at h'; cases h'
  · rename_i l' rest' h'
    rw [h] at h'
    cases h'
    rfl

@[simp] theorem lexemes_nil : lexemes [] = ([], []) := by
  rw [lexemes]
  rfl

/-- The spelling of `ls` is cut into `ls` again when `rest` comes after it. -/
def Cuts (ls : List Lexeme) (rest : List Char) : Prop :=
  lexemes (ls.flatMap Lexeme.spelling ++ rest) = (ls ++ (lexemes rest).1, (lexemes rest).2)

namespace Cuts

theorem nil (rest : List Char) : Cuts [] rest := by
  simp [Cuts]

/-- One more lexeme in front, if it ends where the others begin. -/
theorem cons {l : Lexeme} {ls : List Lexeme} {rest : List Char}
    (hl : Lexeme.next? (l.spelling ++ (ls.flatMap Lexeme.spelling ++ rest))
      = some (l, ls.flatMap Lexeme.spelling ++ rest))
    (hls : Cuts ls rest) : Cuts (l :: ls) rest := by
  unfold Cuts at hls ⊢
  rw [List.flatMap_cons, List.append_assoc, lexemes_of_next? hl, hls]
  rfl

theorem append {ls ls' : List Lexeme} {rest : List Char}
    (h : Cuts ls (ls'.flatMap Lexeme.spelling ++ rest)) (h' : Cuts ls' rest) :
    Cuts (ls ++ ls') rest := by
  unfold Cuts at h h' ⊢
  rw [List.flatMap_append, List.append_assoc, h, h', List.append_assoc]

end Cuts

/-! ## Tokens with their places -/

/-- The tokens of a longer row of lexemes, in two pieces. -/
theorem Token.placed_append (p : Position) (ls ls' : List Lexeme) :
    Token.placed p (ls ++ ls')
      = Token.placed p ls ++ Token.placed (p.advance (ls.flatMap Lexeme.spelling)) ls' := by
  induction ls generalizing p with
  | nil => rfl
  | cons l ls ih =>
    rw [List.flatMap_cons, Position.advance_append]
    cases l with
    | token kind => exact congrArg (⟨kind, p⟩ :: ·) (ih (p.advance kind.spelling))
    | blanks cs => exact ih (p.advance cs)
    | comment text => exact ih (p.advance (';' :: text))

/-- The kind of a token that has a place stands among the lexemes. -/
theorem Token.mem_of_mem_placed {p : Position} {ls : List Lexeme} {t : Token}
    (h : t ∈ Token.placed p ls) : Lexeme.token t.kind ∈ ls := by
  induction ls generalizing p with
  | nil => simp [Token.placed] at h
  | cons l ls ih =>
    cases l with
    | token kind =>
      rcases List.mem_cons.1 h with rfl | h
      · exact List.mem_cons_self
      · exact List.mem_cons_of_mem _ (ih h)
    | blanks | comment => exact List.mem_cons_of_mem _ (ih h)

end Fexpr
