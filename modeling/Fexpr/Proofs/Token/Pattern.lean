import Mathlib.Data.List.Basic
import Fexpr.Proofs.Token.Lexer

/-!
# Lexemes as matches of patterns

What may stand in a source is told by ten patterns. They are tried in an order, each as far as it
goes, and the first that matches is taken (`Pattern.Takes`). Behind the pattern for strings there is
one for the quote of a string that is never closed; the very last one is for any character at all,
and is never taken (`Pattern.not_takes_other`).

Main statement: the lexeme that a source starts with is what is taken there
(`Lexeme.next?_eq_some_iff`). So it is found wherever its pattern matches, and what comes after it
matters only as far as the match ends there. In particular an atom that was found has characters,
and only such as may stand in one (`Token.Kind.Legible`).
-/

namespace Fexpr

/-! ## Bodies of strings -/

/-- What may stand between the quotes of a string: backslashes, each with a character after it, and
characters that are neither backslash nor quote. -/
inductive StringBody : List Char → Prop
  | nil : StringBody []
  | escape (c : Char) {body : List Char} (h : StringBody body) : StringBody ('\\' :: c :: body)
  | plain {c : Char} {body : List Char} (hescape : c ≠ '\\') (hquote : c ≠ '"')
    (h : StringBody body) : StringBody (c :: body)

/-- How a text after an opening quote goes on: it ends, maybe in a backslash, or there is a
backslash with a character after it, a quote, or any other character. -/
theorem stringInduction {P : List Char → Prop} (nil : P []) (backslash : P ['\\'])
    (escape : ∀ c cs, P cs → P ('\\' :: c :: cs)) (quote : ∀ cs, P ('"' :: cs))
    (plain : ∀ c cs, c ≠ '\\' → c ≠ '"' → P cs → P (c :: cs)) (cs : List Char) : P cs := by
  fun_induction stringBody? cs with
  | case1 => exact nil
  | case2 => exact backslash
  | case3 c cs ih => exact escape c cs ih
  | case4 cs => exact quote cs
  | case5 c cs hlast hpair hquote ih =>
    refine plain c cs ?_ hquote ih
    -- A backslash would be the last character, or take the next one along.
    rintro rfl
    cases cs with
    | nil => exact hlast rfl rfl
    | cons d ds => exact hpair d ds rfl rfl

theorem stringBody?_escaped (c : Char) (cs : List Char) :
    stringBody? ('\\' :: c :: cs) =
      (stringBody? cs).map fun (body, rest) => ('\\' :: c :: body, rest) := by
  rw [stringBody?]

theorem stringBody?_quote (cs : List Char) : stringBody? ('"' :: cs) = some ([], cs) := by
  simp [stringBody?]

/-- A character that is neither backslash nor quote belongs to the body. -/
theorem stringBody?_plain {c : Char} (hescape : c ≠ '\\') (hquote : c ≠ '"') (cs : List Char) :
    stringBody? (c :: cs) = (stringBody? cs).map fun (body, rest) => (c :: body, rest) := by
  rw [stringBody?]
  · rw [if_neg hquote]
  · exact fun h _ => hescape h
  · exact fun _ _ h _ => hescape h

/-- What is read is the body of a string. -/
theorem stringBody_of_stringBody? {cs body rest : List Char}
    (h : stringBody? cs = some (body, rest)) : StringBody body := by
  induction cs using stringInduction generalizing body with
  | nil => cases h
  | backslash => cases h
  | escape c cs ih =>
    rw [stringBody?_escaped] at h
    obtain ⟨⟨b, r⟩, hb, heq⟩ := Option.map_eq_some_iff.1 h
    cases heq
    exact .escape c (ih hb)
  | quote cs =>
    rw [stringBody?_quote] at h
    cases h
    exact .nil
  | plain c cs hescape hquote ih =>
    rw [stringBody?_plain hescape hquote] at h
    obtain ⟨⟨b, r⟩, hb, heq⟩ := Option.map_eq_some_iff.1 h
    cases heq
    exact .plain hescape hquote (ih hb)

/-- A body is read wherever it stands with a quote after it. -/
theorem stringBody?_of_stringBody {body : List Char} (h : StringBody body) (rest : List Char) :
    stringBody? (body ++ '"' :: rest) = some (body, rest) := by
  induction h with
  | nil => exact stringBody?_quote rest
  | escape c _ ih =>
    rw [List.cons_append, List.cons_append, stringBody?_escaped, ih]
    rfl
  | plain hescape hquote _ ih =>
    rw [List.cons_append, stringBody?_plain hescape hquote, ih]
    rfl

theorem stringBody?_eq_some_iff {cs body rest : List Char} :
    stringBody? cs = some (body, rest) ↔ StringBody body ∧ cs = body ++ '"' :: rest := by
  constructor
  · exact fun h => ⟨stringBody_of_stringBody? h, (stringBody?_spelling h).symm⟩
  · rintro ⟨hbody, rfl⟩
    exact stringBody?_of_stringBody hbody rest

/-- How many backslashes in a row a text ends in, after as many in front of it. -/
def backslashesAfter (count : Nat) (cs : List Char) : Nat :=
  cs.foldl (fun n c => if c = '\\' then n + 1 else 0) count

/-- How many backslashes in a row a text ends in. -/
def backslashes (cs : List Char) : Nat := backslashesAfter 0 cs

/-- Whether it is an even number does not depend on pairs of backslashes in front. -/
theorem even_backslashesAfter_add_two (count : Nat) (cs : List Char) :
    backslashesAfter (count + 2) cs % 2 = backslashesAfter count cs % 2 := by
  induction cs generalizing count with
  | nil => exact Nat.add_mod_right count 2
  | cons c cs ih =>
    unfold backslashesAfter at ih ⊢
    rw [List.foldl_cons, List.foldl_cons]
    split
    · exact ih (count + 1)
    · rfl

theorem backslashes_escape (c : Char) (cs : List Char) :
    backslashes ('\\' :: c :: cs) % 2 = backslashes cs % 2 := by
  by_cases hc : c = '\\'
  · subst hc
    exact even_backslashesAfter_add_two 0 cs
  · have hcons : backslashes ('\\' :: c :: cs) = backslashes cs := by
      simp [backslashes, backslashesAfter, hc]
    rw [hcons]

theorem backslashes_plain {c : Char} (hc : c ≠ '\\') (cs : List Char) :
    backslashes (c :: cs) = backslashes cs := by
  simp [backslashes, backslashesAfter, hc]

/-- No quote closes the string: before each one there is an odd number of backslashes. -/
def Unclosed (cs : List Char) : Prop :=
  ∀ body rest, cs = body ++ '"' :: rest → backslashes body % 2 = 1

namespace Unclosed

theorem nil : Unclosed [] := by
  intro body rest h
  simp at h

theorem backslash : Unclosed ['\\'] := by
  intro body rest h
  cases body with
  | nil => cases h
  | cons c body => simp at h

theorem of_append {cs more : List Char} (h : Unclosed (cs ++ more)) : Unclosed cs := by
  rintro body rest rfl
  exact h body (rest ++ more) (List.append_assoc body ('"' :: rest) more)

theorem not_quote (cs : List Char) : ¬ Unclosed ('"' :: cs) :=
  fun h => absurd (h [] cs rfl) (by decide)

theorem escape_iff (c : Char) (cs : List Char) : Unclosed ('\\' :: c :: cs) ↔ Unclosed cs := by
  constructor
  · rintro h body rest rfl
    rw [← backslashes_escape c]
    exact h ('\\' :: c :: body) rest rfl
  · intro h body rest heq
    match body with
    | [] => cases heq
    | [_] =>
      obtain ⟨rfl, -⟩ := List.cons.inj heq
      rfl
    | _ :: _ :: body =>
      obtain ⟨rfl, htail⟩ := List.cons.inj heq
      obtain ⟨rfl, rfl⟩ := List.cons.inj htail
      rw [backslashes_escape]
      exact h body rest rfl

theorem plain_iff {c : Char} (hescape : c ≠ '\\') (hquote : c ≠ '"') (cs : List Char) :
    Unclosed (c :: cs) ↔ Unclosed cs := by
  constructor
  · rintro h body rest rfl
    rw [← backslashes_plain hescape]
    exact h (c :: body) rest rfl
  · intro h body rest heq
    cases body with
    | nil => exact absurd (List.cons.inj heq).1 hquote
    | cons d body =>
      obtain ⟨rfl, rfl⟩ := List.cons.inj heq
      rw [backslashes_plain hescape]
      exact h body rest rfl

end Unclosed

/-- No body is read where no quote closes the string. -/
theorem stringBody?_eq_none_iff {cs : List Char} : stringBody? cs = none ↔ Unclosed cs := by
  induction cs using stringInduction with
  | nil => exact iff_of_true rfl .nil
  | backslash => exact iff_of_true rfl .backslash
  | escape c cs ih =>
    rw [stringBody?_escaped, Option.map_eq_none_iff, ih, Unclosed.escape_iff]
  | quote cs =>
    rw [stringBody?_quote]
    exact iff_of_false nofun (Unclosed.not_quote cs)
  | plain c cs hescape hquote ih =>
    rw [stringBody?_plain hescape hquote, Option.map_eq_none_iff, ih,
      Unclosed.plain_iff hescape hquote]

/-! ## Patterns -/

/-- What may stand in a source, in the order in which it is tried. -/
inductive Pattern where
  | blanks
  | comment
  | opener
  | closer
  | quote
  | unquote
  | string
  /-- A quote that opens a string which is never closed. -/
  | openString
  | atom
  /-- Any character. -/
  | other
deriving DecidableEq, Repr

namespace Pattern

/-- The patterns in the order in which they are tried. -/
def order : List Pattern :=
  [blanks, comment, opener, closer, quote, unquote, string, openString, atom, other]

/-- A pattern matches a text, as far as it goes, where the source goes on with `rest`. -/
def Matches : Pattern → (text rest : List Char) → Prop
  | blanks, text, rest =>
    text ≠ [] ∧ (∀ c ∈ text, Text.isBlank c = true) ∧ ∀ c ∈ rest.head?, Text.isBlank c = false
  | comment, text, rest =>
    text.head? = some ';' ∧ (∀ c ∈ text, c ≠ '\n') ∧ ∀ c ∈ rest.head?, c = '\n'
  | opener, text, _ => ∃ b : Bracket, text = [b.opener]
  | closer, text, _ => ∃ b : Bracket, text = [b.closer]
  | quote, text, _ => text = ['\'']
  | unquote, text, _ => text = [',']
  | string, text, _ => ∃ body, StringBody body ∧ text = '"' :: body ++ ['"']
  | openString, text, _ => text = ['"']
  | atom, text, rest => text ≠ [] ∧ (∀ c ∈ text, isAtomChar c = true) ∧ Stops rest
  | other, text, _ => ∃ c, text = [c]

/-- The text is what the pattern matches, and no pattern that is tried before it matches anything
there. -/
def Takes (p : Pattern) (text rest : List Char) : Prop :=
  p.Matches text rest ∧
    ∀ q ∈ order.takeWhile (· ≠ p), ∀ text' rest', text' ++ rest' = text ++ rest →
      ¬ q.Matches text' rest'

/-- The pattern that a first character calls for. -/
def ofChar (c : Char) : Pattern :=
  if Text.isBlank c then blanks
  else match c with
    | ';' => comment
    | '(' => opener
    | '[' => opener
    | ')' => closer
    | ']' => closer
    | '\'' => quote
    | ',' => unquote
    | '"' => string
    | _ => atom

theorem ofChar_of_isAtomChar {c : Char} (h : isAtomChar c = true) : ofChar c = atom := by
  obtain ⟨hblank, hcomment, hstring, hsingle⟩ := atomChar_ne h
  unfold ofChar
  rw [hblank, if_neg Bool.false_ne_true]
  unfold Token.Kind.single? at hsingle
  split at hsingle <;> simp_all

/-- A match has a first character, which calls for the pattern, if that is none of those that are
tried when others have failed. -/
theorem Matches.ofChar {p : Pattern} {text rest : List Char} (h : p.Matches text rest)
    (hother : p ≠ other) :
    ∃ c cs, text = c :: cs ∧ ofChar c = if p = openString then string else p := by
  cases p with
  | blanks =>
    obtain ⟨hne, hall, -⟩ := h
    obtain ⟨c, cs, rfl⟩ := List.exists_cons_of_ne_nil hne
    exact ⟨c, cs, rfl, if_pos (hall c List.mem_cons_self)⟩
  | atom =>
    obtain ⟨hne, hall, -⟩ := h
    obtain ⟨c, cs, rfl⟩ := List.exists_cons_of_ne_nil hne
    exact ⟨c, cs, rfl, ofChar_of_isAtomChar (hall c List.mem_cons_self)⟩
  | comment =>
    obtain ⟨cs, rfl⟩ := List.head?_eq_some_iff.1 h.1
    exact ⟨';', cs, rfl, rfl⟩
  | opener | closer =>
    obtain ⟨b, rfl⟩ := h
    exact ⟨_, [], rfl, by cases b <;> rfl⟩
  | quote | unquote | openString => exact ⟨_, [], h, rfl⟩
  | string =>
    obtain ⟨body, -, rfl⟩ := h
    exact ⟨'"', body ++ ['"'], rfl, rfl⟩
  | other => exact absurd rfl hother

/-- A match has a first character. -/
theorem Matches.ne_nil {p : Pattern} {text rest : List Char} (h : p.Matches text rest) :
    text ≠ [] := by
  by_cases hother : p = other
  · subst hother
    obtain ⟨c, rfl⟩ := h
    exact List.cons_ne_nil c []
  · obtain ⟨c, cs, rfl, -⟩ := h.ofChar hother
    exact List.cons_ne_nil c cs

/-- What matches still does when the source ends earlier. -/
theorem Matches.of_append {p : Pattern} {text rest more : List Char}
    (h : p.Matches text (rest ++ more)) : p.Matches text rest := by
  have hhead : ∀ c ∈ rest.head?, c ∈ (rest ++ more).head? :=
    fun _ => List.mem_head?_append_of_mem_head?
  cases p with
  | blanks => exact ⟨h.1, h.2.1, fun c hc => h.2.2 c (hhead c hc)⟩
  | comment => exact ⟨h.1, h.2.1, fun c hc => h.2.2 c (hhead c hc)⟩
  | atom => exact ⟨h.1, h.2.1, fun c hc => h.2.2 c (hhead c hc)⟩
  | _ => exact h

/-- Where a pattern matches that its first character calls for, no other is tried with success
before. -/
theorem takes_of_matches {p : Pattern} {text rest : List Char} (h : p.Matches text rest)
    (hopen : p ≠ openString) (hother : p ≠ other) : p.Takes text rest := by
  refine ⟨h, fun q hq text' rest' heq hmatches => ?_⟩
  have hq' : q ≠ other ∧ q ≠ p ∧ (q = openString → p ≠ string) := by
    revert hq
    cases p <;> cases q <;> decide
  obtain ⟨c, cs, rfl, hc⟩ := h.ofChar hother
  obtain ⟨d, ds, rfl, hd⟩ := hmatches.ofChar hq'.1
  obtain ⟨rfl, -⟩ := List.cons.inj heq
  rw [hc, if_neg hopen] at hd
  split at hd
  next hqopen => exact hq'.2.2 hqopen hd
  · exact hq'.2.1 hd.symm

/-- A quote opens a string that is never closed if it closes nowhere. -/
theorem takes_openString_iff {rest : List Char} : openString.Takes ['"'] rest ↔ Unclosed rest := by
  rw [← stringBody?_eq_none_iff]
  constructor
  · rintro ⟨-, hearlier⟩
    cases hbody : stringBody? rest with
    | none => rfl
    | some found =>
      obtain ⟨body, after⟩ := found
      obtain ⟨hclosed, rfl⟩ := stringBody?_eq_some_iff.1 hbody
      have hmatches : string.Matches ('"' :: body ++ ['"']) after := ⟨body, hclosed, rfl⟩
      exact absurd hmatches (hearlier string (by decide) _ _ (by simp))
  · intro hnone
    refine ⟨rfl, fun q hq text' rest' heq hmatches => ?_⟩
    have hq' : q ≠ other ∧ q ≠ openString := by
      revert hq
      cases q <;> decide
    obtain ⟨d, ds, rfl, hd⟩ := hmatches.ofChar hq'.1
    obtain ⟨rfl, -⟩ := List.cons.inj heq
    rw [if_neg hq'.2] at hd
    obtain rfl : string = q := hd
    obtain ⟨body, hbody, htext⟩ := hmatches
    rw [htext] at heq
    have hrest : rest = body ++ '"' :: rest' := by simpa using heq.symm
    rw [stringBody?_eq_some_iff.2 ⟨hbody, hrest⟩] at hnone
    cases hnone

end Pattern

/-! ## Lexemes -/

namespace Lexeme

/-- The pattern that a lexeme is a match of. -/
def pattern : Lexeme → Pattern
  | blanks _ => .blanks
  | comment _ => .comment
  | token (.opener _) => .opener
  | token (.closer _) => .closer
  | token (.mark .quote) => .quote
  | token (.mark .unquote) => .unquote
  | token (.string _) => .string
  | token (.atom _) => .atom

theorem pattern_ne (l : Lexeme) : l.pattern ≠ .openString ∧ l.pattern ≠ .other := by
  cases l with
  | token kind =>
    cases kind with
    | mark m => cases m <;> exact ⟨nofun, nofun⟩
    | _ => exact ⟨nofun, nofun⟩
  | _ => exact ⟨nofun, nofun⟩

theorem eq_blanks {l : Lexeme} (h : l.pattern = .blanks) : ∃ bs, l = blanks bs := by
  unfold pattern at h
  split at h
  · exact ⟨_, rfl⟩
  all_goals cases h

/-- What is left of a text begins with a character that is not to be dropped. -/
theorem dropWhile_stops (p : Char → Bool) (cs : List Char) :
    ∀ c ∈ (cs.dropWhile p).head?, p c = false := by
  intro c hc
  have hstop := List.head?_dropWhile_not p cs
  rw [Option.mem_def.1 hc] at hstop
  exact hstop

/-- The lexeme that a source starts with is a match of its pattern. -/
theorem matches_of_next? {cs rest : List Char} {l : Lexeme} (h : next? cs = some (l, rest)) :
    l.pattern.Matches l.spelling rest := by
  cases cs with
  | nil => cases h
  | cons c cs =>
    rcases start_cases c with hblank | rfl | rfl | ⟨kind, hsingle⟩ | hatom
    · rw [next?_blanks hblank] at h
      cases h
      refine ⟨List.cons_ne_nil _ _, List.forall_mem_cons.2 ⟨hblank, ?_⟩, dropWhile_stops _ cs⟩
      exact List.all_eq_true.1 List.all_takeWhile
    · rw [next?_comment] at h
      cases h
      refine ⟨rfl, List.forall_mem_cons.2 ⟨by decide, fun c hc => ?_⟩, fun c hc => ?_⟩
      · simpa using List.all_eq_true.1 List.all_takeWhile c hc
      · simpa using dropWhile_stops _ cs c hc
    · rw [next?_quote] at h
      obtain ⟨⟨body, r⟩, hbody, heq⟩ := Option.map_eq_some_iff.1 h
      cases heq
      exact ⟨body, stringBody_of_stringBody? hbody, rfl⟩
    · rw [next?_single hsingle] at h
      cases h
      unfold Token.Kind.single? at hsingle
      split at hsingle <;> cases hsingle
      · exact ⟨.round, rfl⟩
      · exact ⟨.square, rfl⟩
      · exact ⟨.round, rfl⟩
      · exact ⟨.square, rfl⟩
      · rfl
      · rfl
    · rw [next?_atomChar hatom] at h
      cases h
      refine ⟨List.cons_ne_nil _ _, List.forall_mem_cons.2 ⟨hatom, ?_⟩, dropWhile_stops _ cs⟩
      exact List.all_eq_true.1 List.all_takeWhile

/-- A lexeme is found wherever it is a match of its pattern. -/
theorem next?_of_matches {l : Lexeme} {rest : List Char} (h : l.pattern.Matches l.spelling rest) :
    next? (l.spelling ++ rest) = some (l, rest) := by
  cases l with
  | blanks bs =>
    obtain ⟨hne, hall, hrest⟩ := h
    obtain ⟨c, cs, rfl⟩ := List.exists_cons_of_ne_nil hne
    obtain ⟨htake, hdrop⟩ := takeWhile_dropWhile_append cs
      (fun d hd => hall d (List.mem_cons_of_mem c hd)) hrest
    show next? (c :: (cs ++ rest)) = _
    rw [next?_blanks (hall c List.mem_cons_self), htake, hdrop]
  | comment text =>
    obtain ⟨-, hall, hrest⟩ := h
    obtain ⟨htake, hdrop⟩ := takeWhile_dropWhile_append (p := (· ≠ '\n')) text
      (fun d hd => by simpa using hall d (List.mem_cons_of_mem ';' hd))
      (fun d hd => by simpa using hrest d hd)
    show next? (';' :: (text ++ rest)) = _
    rw [next?_comment, htake, hdrop]
  | token kind =>
    cases kind with
    | opener b => exact next?_opener b rest
    | closer b => exact next?_closer b rest
    | mark m => exact next?_mark m rest
    | string body =>
      obtain ⟨body', hbody, htext⟩ := h
      obtain rfl : body = body' := by simpa [spelling, Token.Kind.spelling] using htext
      have hsource : spelling (token (.string body)) ++ rest = '"' :: (body ++ '"' :: rest) := by
        simp [spelling, Token.Kind.spelling]
      rw [hsource, next?_quote, stringBody?_of_stringBody hbody]
      rfl
    | atom text => exact next?_atom h.1 h.2.1 h.2.2

/-- A source starts with a lexeme if that is a match of its pattern there. -/
theorem next?_eq_some_iff {cs rest : List Char} {l : Lexeme} :
    next? cs = some (l, rest) ↔ cs = l.spelling ++ rest ∧ l.pattern.Matches l.spelling rest := by
  constructor
  · exact fun h => ⟨(next?_spelling h).2.symm, matches_of_next? h⟩
  · rintro ⟨rfl, h⟩
    exact next?_of_matches h

/-- A lexeme that is a match of its pattern is what is taken. -/
theorem takes_of_matches {l : Lexeme} {rest : List Char} (h : l.pattern.Matches l.spelling rest) :
    l.pattern.Takes l.spelling rest :=
  Pattern.takes_of_matches h l.pattern_ne.1 l.pattern_ne.2

/-- No lexeme starts at the end of a source, at the quote of a string that is never closed, and
nowhere else. -/
theorem next?_eq_none_iff {cs : List Char} :
    next? cs = none ↔ cs = [] ∨ ∃ rest, cs = '"' :: rest ∧ Unclosed rest := by
  constructor
  · intro h
    cases cs with
    | nil => exact Or.inl rfl
    | cons c cs =>
      rcases start_cases c with hblank | rfl | rfl | ⟨kind, hsingle⟩ | hatom
      · rw [next?_blanks hblank] at h; cases h
      · rw [next?_comment] at h; cases h
      · rw [next?_quote, Option.map_eq_none_iff, stringBody?_eq_none_iff] at h
        exact Or.inr ⟨cs, rfl, h⟩
      · rw [next?_single hsingle] at h; cases h
      · rw [next?_atomChar hatom] at h; cases h
  · rintro (rfl | ⟨rest, rfl, hrest⟩)
    · rfl
    · rw [next?_quote, stringBody?_eq_none_iff.2 hrest]
      rfl

end Lexeme

/-- Any character by itself is never taken: some other pattern matches where there is one. -/
theorem Pattern.not_takes_other (text rest : List Char) : ¬ other.Takes text rest := by
  rintro ⟨⟨c, rfl⟩, hearlier⟩
  cases hnext : Lexeme.next? ([c] ++ rest) with
  | some found =>
    obtain ⟨l, after⟩ := found
    obtain ⟨hsource, hmatches⟩ := Lexeme.next?_eq_some_iff.1 hnext
    have hmem : l.pattern ∈ order.takeWhile (· ≠ other) := by
      have hne := l.pattern_ne.2
      revert hne
      cases l.pattern <;> decide
    exact hearlier l.pattern hmem _ _ hsource.symm hmatches
  | none =>
    rcases Lexeme.next?_eq_none_iff.1 hnext with hnil | ⟨after, hsource, -⟩
    · cases hnil
    · exact hearlier openString (by decide) ['"'] after hsource.symm rfl

/-! ## Atoms that were found -/

/-- An atom has characters, and only such as may stand in one. -/
def Token.Kind.Legible : Token.Kind → Prop
  | .atom text => text ≠ [] ∧ ∀ c ∈ text, isAtomChar c = true
  | _ => True

theorem Lexeme.legible_of_next? {cs rest : List Char} {kind : Token.Kind}
    (h : next? cs = some (.token kind, rest)) : kind.Legible := by
  have hmatches := matches_of_next? h
  cases kind with
  | atom text => exact ⟨hmatches.1, hmatches.2.1⟩
  | _ => trivial

/-- Every token among the lexemes of a source is legible. -/
theorem legible_of_mem_lexemes {cs : List Char} {kind : Token.Kind}
    (h : Lexeme.token kind ∈ (lexemes cs).1) : kind.Legible := by
  fun_induction lexemes cs with
  | case1 => simp at h
  | case2 cs l rest hnext ls unread hrest ih =>
    rw [hrest] at ih
    rcases List.mem_cons.1 h with rfl | h
    · exact Lexeme.legible_of_next? hnext
    · exact ih h

end Fexpr
