import Fexpr.Proofs.Token.Pattern
import Fexpr.Proofs.Token.Place

/-!
# Tokens line by line

No lexeme but blanks goes on over the end of a line, if a string that is open there counts as not
read. So a source that is read to its end can be followed by a line feed and another source: the
tokens are those of the one and then those of the other, which have their places moved on, and what
is left unread is what is left of the other (`scan_newline`).
-/

namespace Fexpr

/-- The tokens of a stretch of source that starts at a place, and what is left of it where none
starts. -/
def scan (p : Position) (cs : List Char) : List Token × List Char :=
  (Token.placed p (lexemes cs).1, (lexemes cs).2)

@[simp] theorem scan_nil (p : Position) : scan p [] = ([], []) := by
  unfold scan
  rw [lexemes_nil]
  rfl

/-- The first lexeme comes off: its token if it is one, and the tokens of the source after it. -/
theorem scan_of_next? {cs rest : List Char} {l : Lexeme} (h : Lexeme.next? cs = some (l, rest))
    (p : Position) :
    scan p cs =
      (Token.placed p [l] ++ (scan (p.advance l.spelling) rest).1,
        (scan (p.advance l.spelling) rest).2) := by
  unfold scan
  rw [lexemes_of_next? h]
  cases l <;> rfl

theorem lexemes_of_next?_eq_none {cs : List Char} (h : Lexeme.next? cs = none) :
    lexemes cs = ([], cs) := by
  rw [lexemes]
  split
  · rfl
  next h' => rw [h] at h'; cases h'

/-- The tokens of a source are those of the stretch that it is. -/
theorem tokens_tokenize (cs : List Char) : (tokenize cs).tokens = (scan .start cs).1 := rfl

/-- A string that is not closed starts behind what has been scanned. -/
theorem unclosed_tokenize {cs scanned : List Char} (h : scanned ++ (scan .start cs).2 = cs) :
    (tokenize cs).unclosed =
      if (scan .start cs).2.isEmpty then none else some (Position.start.advance scanned) := by
  have hscanned : (lexemes cs).1.flatMap Lexeme.spelling = scanned :=
    List.append_cancel_right ((lexemes_spelling cs).trans h.symm)
  rw [← hscanned]
  rfl

/-- Every string of a source is closed if nothing is left of it. -/
theorem unclosed_tokenize_eq_none_iff (cs : List Char) :
    (tokenize cs).unclosed = none ↔ (scan .start cs).2 = [] := by
  rw [unclosed_tokenize (lexemes_spelling cs)]
  cases (scan .start cs).2 <;> simp

/-! ## Further down -/

/-- The token at another place. -/
def Token.mapPosition (f : Position → Position) (t : Token) : Token :=
  ⟨t.kind, f t.position⟩

/-- Some lines further down, the tokens are the same ones in the same columns. -/
theorem Token.placed_down (lines : Nat) (p : Position) (ls : List Lexeme) :
    Token.placed (p.down lines) ls = (Token.placed p ls).map (mapPosition (.down lines)) := by
  induction ls generalizing p with
  | nil => rfl
  | cons l ls ih =>
    cases l with
    | token kind =>
      have hrest := ih (p.advance kind.spelling)
      rw [← Position.advance_down] at hrest
      exact congrArg (⟨kind, p.down lines⟩ :: ·) hrest
    | blanks bs =>
      have hrest := ih (p.advance bs)
      rw [← Position.advance_down] at hrest
      exact hrest
    | comment text =>
      have hrest := ih (p.advance (';' :: text))
      rw [← Position.advance_down] at hrest
      exact hrest

theorem scan_down (lines : Nat) (p : Position) (cs : List Char) :
    scan (p.down lines) cs =
      ((scan p cs).1.map (Token.mapPosition (.down lines)), (scan p cs).2) := by
  unfold scan
  rw [Token.placed_down]

/-! ## Blanks -/

/-- A blank in front only moves the tokens on. -/
theorem scan_blank {c : Char} (hc : Text.isBlank c = true) (p : Position) (cs : List Char) :
    scan p (c :: cs) = scan (p.next c) cs := by
  rw [scan_of_next? (Lexeme.next?_blanks hc cs)]
  -- The blanks after it belong to the same lexeme, if there are any.
  cases cs with
  | nil => rfl
  | cons d ds =>
    by_cases hd : Text.isBlank d = true
    · rw [scan_of_next? (Lexeme.next?_blanks hd ds), List.takeWhile_cons_of_pos hd,
        List.dropWhile_cons_of_pos hd]
      rfl
    · rw [List.takeWhile_cons_of_neg hd, List.dropWhile_cons_of_neg hd]
      rfl

/-- Blanks in front only move the tokens on. -/
theorem scan_blanks {bs : List Char} (hbs : ∀ c ∈ bs, Text.isBlank c = true) (p : Position)
    (cs : List Char) : scan p (bs ++ cs) = scan (p.advance bs) cs := by
  induction bs generalizing p with
  | nil => rfl
  | cons b bs ih =>
    rw [List.cons_append, scan_blank (hbs b List.mem_cons_self)]
    exact ih (fun c hc => hbs c (List.mem_cons_of_mem b hc)) (p.next b)

/-! ## Lines -/

/-- What is no blanks matches still when the source goes on with another line. -/
theorem Pattern.Matches.newline {p : Pattern} {text rest : List Char} (h : p.Matches text rest)
    (hblanks : p ≠ blanks) (ds : List Char) : p.Matches text (rest ++ '\n' :: ds) := by
  cases p with
  | blanks => exact absurd rfl hblanks
  | comment =>
    refine ⟨h.1, h.2.1, ?_⟩
    cases rest with
    | nil => exact fun c hc => (Option.mem_some.1 hc).symm
    | cons d rest => exact h.2.2
  | atom =>
    refine ⟨h.1, h.2.1, ?_⟩
    cases rest with
    | nil => exact stops_cons (by decide)
    | cons d rest => exact h.2.2
  | _ => exact h

/-- A lexeme that is not blanks ends with its line at the latest. -/
theorem Lexeme.next?_newline {cs rest : List Char} {l : Lexeme} (h : next? cs = some (l, rest))
    (hblanks : l.pattern ≠ .blanks) (ds : List Char) :
    next? (cs ++ '\n' :: ds) = some (l, rest ++ '\n' :: ds) := by
  obtain ⟨rfl, hmatches⟩ := next?_eq_some_iff.1 h
  rw [List.append_assoc]
  exact next?_of_matches (hmatches.newline hblanks ds)

/-- A source that is read to its end may be followed by a line feed and another source: its tokens
come first, and then those of the other. -/
theorem scan_newline {p : Position} {cs : List Char} (h : (scan p cs).2 = []) (ds : List Char) :
    scan p (cs ++ '\n' :: ds) =
      ((scan p cs).1 ++ (scan (p.advance (cs ++ ['\n'])) ds).1,
        (scan (p.advance (cs ++ ['\n'])) ds).2) := by
  fun_induction lexemes cs generalizing p with
  | case1 cs hnext =>
    -- Nothing is left where no lexeme starts, so this is the end.
    have hcs : cs = [] := by
      rw [scan, lexemes_of_next?_eq_none hnext] at h
      exact h
    subst hcs
    rw [List.nil_append, scan_blank (by decide), scan_nil]
    rfl
  | case2 cs l rest hnext ls unread hrest ih =>
    have hspelling := (Lexeme.next?_spelling hnext).2
    have hplace : p.advance (cs ++ ['\n']) = (p.advance l.spelling).advance (rest ++ ['\n']) := by
      rw [← hspelling, List.append_assoc, Position.advance_append]
    rw [scan_of_next? hnext] at h ⊢
    have hih := ih (p := p.advance l.spelling) h
    rw [hplace, List.append_assoc]
    by_cases hblanks : l.pattern = .blanks
    · -- Blanks at the end of a line are one lexeme with those of the next line.
      obtain ⟨bs, rfl⟩ := Lexeme.eq_blanks hblanks
      have hskip : scan p (cs ++ '\n' :: ds) = scan (p.advance bs) (rest ++ '\n' :: ds) := by
        rw [← hspelling, List.append_assoc]
        exact scan_blanks (Lexeme.matches_of_next? hnext).2.1 p _
      rw [hskip]
      exact hih
    · rw [scan_of_next? (Lexeme.next?_newline hnext hblanks ds), hih]

end Fexpr
