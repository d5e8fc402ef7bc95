import Fexpr.Proofs.Token.Pattern
import Fexpr.Proofs.Reader.Lines

/-!
# The tiling of a source

The lexemes of a source stand one after another, each is taken where it stands, and nothing is left
of the source but a string that is never closed (`Tiles`); there is just one way to tile it so
(`tiles_iff`). Where a string is left open can also be told from what a source is made of character
by character: comments, strings and what is outside of both (`Mode`, `LeavesOpen`).

Main statement: `tokenize_tiles` says all of this of the tokens of a source, with their places.
-/

namespace Fexpr

/-! ## Tiles -/

/-- Lexemes tile a source up to what is left unread. -/
structure Tiles (cs : List Char) (ls : List Lexeme) (unread : List Char) : Prop where
  /-- They stand one after another from the start of the source. -/
  spelling : ls.flatMap Lexeme.spelling ++ unread = cs
  /-- Each is taken where it stands. -/
  takes : ∀ before l after, ls = before ++ l :: after →
    l.pattern.Takes l.spelling (after.flatMap Lexeme.spelling ++ unread)
  /-- Nothing is left but a string that is never closed. -/
  unread : unread = [] ∨ ∃ rest, unread = '"' :: rest ∧ Pattern.openString.Takes ['"'] rest

namespace Tiles

variable {cs unread : List Char} {l : Lexeme} {ls : List Lexeme}

theorem nil (h : unread = [] ∨ ∃ rest, unread = '"' :: rest ∧ Unclosed rest) :
    Tiles unread [] unread where
  spelling := rfl
  takes before l after heq := by simp at heq
  unread := by
    rcases h with rfl | ⟨rest, rfl, hrest⟩
    · exact Or.inl rfl
    · exact Or.inr ⟨rest, rfl, Pattern.takes_openString_iff.2 hrest⟩

theorem cons (hl : l.pattern.Takes l.spelling cs) (h : Tiles cs ls unread) :
    Tiles (l.spelling ++ cs) (l :: ls) unread where
  spelling := by rw [List.flatMap_cons, List.append_assoc, h.spelling]
  takes before k after heq := by
    cases before with
    | nil =>
      obtain ⟨rfl, rfl⟩ := List.cons.inj heq
      rw [h.spelling]
      exact hl
    | cons b before => exact h.takes before k after (List.cons.inj heq).2
  unread := h.unread

theorem head (h : Tiles cs (l :: ls) unread) :
    l.pattern.Takes l.spelling (ls.flatMap Lexeme.spelling ++ unread) :=
  h.takes [] l ls rfl

theorem tail (h : Tiles cs (l :: ls) unread) :
    Tiles (ls.flatMap Lexeme.spelling ++ unread) ls unread where
  spelling := rfl
  takes before k after heq := h.takes (l :: before) k after (congrArg (l :: ·) heq)
  unread := h.unread

end Tiles

/-- The lexemes of a source tile it. -/
theorem tiles_lexemes (cs : List Char) : Tiles cs (lexemes cs).1 (lexemes cs).2 := by
  fun_induction lexemes cs with
  | case1 cs hnext => exact .nil (Lexeme.next?_eq_none_iff.1 hnext)
  | case2 cs l rest hnext ls unread hrest ih =>
    rw [hrest] at ih
    obtain ⟨rfl, hmatches⟩ := Lexeme.next?_eq_some_iff.1 hnext
    exact .cons (Lexeme.takes_of_matches hmatches) ih

/-- There is one way to tile a source. -/
theorem tiles_iff {cs unread : List Char} {ls : List Lexeme} :
    Tiles cs ls unread ↔ lexemes cs = (ls, unread) := by
  constructor
  · intro h
    induction ls generalizing cs with
    | nil =>
      have hend : unread = [] ∨ ∃ rest, unread = '"' :: rest ∧ Unclosed rest := by
        simpa only [Pattern.takes_openString_iff] using h.unread
      rw [← h.spelling]
      exact lexemes_of_next?_eq_none (Lexeme.next?_eq_none_iff.2 hend)
    | cons l ls ih =>
      have hnext := Lexeme.next?_of_matches h.head.1
      rw [← List.append_assoc, ← List.flatMap_cons, h.spelling] at hnext
      rw [lexemes_of_next? hnext, ih h.tail]
  · intro h
    have htiles := tiles_lexemes cs
    rw [h] at htiles
    exact htiles

/-- The lexemes of what has been read are the same when nothing comes after them. -/
theorem Tiles.read {cs unread : List Char} {ls : List Lexeme} (h : Tiles cs ls unread) :
    Tiles (ls.flatMap Lexeme.spelling) ls [] where
  spelling := List.append_nil _
  takes before l after heq := by
    have hmatches := (h.takes before l after heq).1.of_append
    rw [List.append_nil]
    exact Lexeme.takes_of_matches hmatches
  unread := Or.inl rfl

/-- Two atoms never touch. -/
theorem Tiles.not_touching {cs unread : List Char} {ls : List Lexeme} (h : Tiles cs ls unread)
    (text text' : List Char) :
    ¬ [.token (.atom text), .token (.atom text')] <:+: ls := by
  rintro ⟨before, after, heq⟩
  have hfirst := (h.takes before (.token (.atom text)) (.token (.atom text') :: after)
    (by rw [← heq, List.append_assoc]; rfl)).1
  have hsecond := (h.takes (before ++ [.token (.atom text)]) (.token (.atom text')) after
    (by rw [← heq]; simp)).1
  obtain ⟨c, cs, rfl⟩ := List.exists_cons_of_ne_nil hsecond.1
  -- The second would have to go on with the first.
  have hstops : isAtomChar c = false := hfirst.2.2 c rfl
  rw [hsecond.2.1 c List.mem_cons_self] at hstops
  cases hstops

/-! ## Outside comments and strings -/

/-- What the next character of a source belongs to. -/
inductive Mode where
  | outside
  | comment
  | string
  /-- In a string, right after a backslash that takes the next character along. -/
  | escaped
deriving DecidableEq, Repr

namespace Mode

/-- What the character after `c` belongs to. -/
def next : Mode → Char → Mode
  | outside, c => if c = ';' then comment else if c = '"' then string else outside
  | comment, c => if c = '\n' then outside else comment
  | string, c => if c = '\\' then escaped else if c = '"' then outside else string
  | escaped, _ => string

/-- What the character after a stretch of source belongs to. -/
def after (m : Mode) (cs : List Char) : Mode := cs.foldl next m

theorem after_cons (m : Mode) (c : Char) (cs : List Char) :
    m.after (c :: cs) = (m.next c).after cs := rfl

theorem after_append (m : Mode) (cs ds : List Char) : m.after (cs ++ ds) = (m.after cs).after ds :=
  List.foldl_append

theorem after_eq_self {m : Mode} {cs : List Char} (h : ∀ c ∈ cs, m.next c = m) :
    m.after cs = m := by
  induction cs with
  | nil => rfl
  | cons c cs ih =>
    rw [after_cons, h c List.mem_cons_self]
    exact ih fun d hd => h d (List.mem_cons_of_mem c hd)

theorem outside_next {c : Char} (hcomment : c ≠ ';') (hstring : c ≠ '"') :
    outside.next c = outside := by
  rw [next, if_neg hcomment, if_neg hstring]

theorem string_next {c : Char} (hescape : c ≠ '\\') (hquote : c ≠ '"') :
    string.next c = string := by
  rw [next, if_neg hescape, if_neg hquote]

theorem string_after {body : List Char} (h : StringBody body) : string.after body = string := by
  induction h with
  | nil => rfl
  | escape c _ ih => exact ih
  | plain hescape hquote _ ih => rw [after_cons, string_next hescape hquote, ih]

/-- A string that is never closed goes on to the end. -/
theorem string_after_of_unclosed {cs : List Char} (h : Unclosed cs) :
    string.after cs = string ∨ string.after cs = escaped := by
  induction cs using stringInduction with
  | nil => exact Or.inl rfl
  | backslash => exact Or.inr rfl
  | escape c cs ih => exact ih ((Unclosed.escape_iff c cs).1 h)
  | quote cs => exact absurd h (Unclosed.not_quote cs)
  | plain c cs hescape hquote ih =>
    rw [after_cons, string_next hescape hquote]
    exact ih ((Unclosed.plain_iff hescape hquote cs).1 h)

/-- The mode in which a lexeme may start: outside of comments and strings, or at the end of a
comment. -/
def Resumes (m : Mode) (cs : List Char) : Prop :=
  m = outside ∨ m = comment ∧ ∀ c ∈ cs.head?, c = '\n'

theorem Resumes.outside_next {m : Mode} {c : Char} {cs : List Char} (h : m.Resumes (c :: cs))
    (hcomment : c ≠ ';') (hstring : c ≠ '"') : m.next c = outside := by
  rcases h with rfl | ⟨rfl, hc⟩
  · exact Mode.outside_next hcomment hstring
  · rw [next, if_pos (hc c rfl)]

theorem Resumes.eq_outside {m : Mode} {c : Char} {cs : List Char} (h : m.Resumes (c :: cs))
    (hc : c ≠ '\n') : m = outside := by
  rcases h with rfl | ⟨-, hnewline⟩
  · rfl
  · exact absurd (hnewline c rfl) hc

/-- No comment and no string starts where there is neither semicolon nor quote. -/
theorem Resumes.plain {m : Mode} {text rest : List Char} (h : m.Resumes (text ++ rest))
    (hne : text ≠ []) (hplain : ∀ c ∈ text, c ≠ ';' ∧ c ≠ '"') : m.after text = outside := by
  obtain ⟨c, cs, rfl⟩ := List.exists_cons_of_ne_nil hne
  have hc := hplain c List.mem_cons_self
  rw [after_cons, Resumes.outside_next h hc.1 hc.2]
  exact after_eq_self fun d hd =>
    have hd' := hplain d (List.mem_cons_of_mem c hd)
    Mode.outside_next hd'.1 hd'.2

/-- After a match another lexeme may start. -/
theorem Resumes.after {m : Mode} {p : Pattern} {text rest : List Char}
    (h : m.Resumes (text ++ rest)) (hmatches : p.Matches text rest)
    (hp : p ≠ .openString ∧ p ≠ .other) : (m.after text).Resumes rest := by
  cases p with
  | blanks =>
    refine Or.inl (h.plain hmatches.1 fun c hc => ?_)
    constructor <;> rintro rfl <;> exact absurd (hmatches.2.1 _ hc) (by decide)
  | atom =>
    refine Or.inl (h.plain hmatches.1 fun c hc => ?_)
    have hc' := atomChar_ne (hmatches.2.1 c hc)
    exact ⟨hc'.2.1, hc'.2.2.1⟩
  | opener | closer =>
    obtain ⟨b, rfl⟩ := hmatches
    refine Or.inl (h.plain (List.cons_ne_nil _ _) ?_)
    cases b <;> simp [Bracket.opener, Bracket.closer]
  | quote | unquote =>
    obtain rfl := hmatches
    exact Or.inl (h.plain (List.cons_ne_nil _ _) (by simp))
  | comment =>
    obtain ⟨hhead, hline, hrest⟩ := hmatches
    obtain ⟨cs, rfl⟩ := List.head?_eq_some_iff.1 hhead
    obtain rfl := h.eq_outside (by decide)
    refine Or.inr ⟨?_, hrest⟩
    exact after_eq_self (m := comment) fun c hc => if_neg (hline c (List.mem_cons_of_mem _ hc))
  | string =>
    obtain ⟨body, hbody, rfl⟩ := hmatches
    obtain rfl := h.eq_outside (by decide)
    refine Or.inl ?_
    show string.after (body ++ ['"']) = outside
    rw [after_append, string_after hbody]
    rfl
  | openString => exact absurd rfl hp.1
  | other => exact absurd rfl hp.2

end Mode

/-- Behind tiles another lexeme may start. -/
theorem Tiles.resumes {cs unread : List Char} {ls : List Lexeme} (h : Tiles cs ls unread) {m : Mode}
    (hm : m.Resumes cs) : (m.after (ls.flatMap Lexeme.spelling)).Resumes unread := by
  induction ls generalizing cs m with
  | nil =>
    rw [← h.spelling] at hm
    exact hm
  | cons l ls ih =>
    rw [← h.spelling, List.flatMap_cons, List.append_assoc] at hm
    rw [List.flatMap_cons, Mode.after_append]
    exact ih h.tail (hm.after h.head.1 l.pattern_ne)

/-- A quote between `before` and `rest` opens a string and leaves it open: it starts outside
comments and strings, and no later quote closes the string. -/
structure LeavesOpen (cs before rest : List Char) : Prop where
  source_eq : cs = before ++ '"' :: rest
  outside : Mode.outside.after before = .outside
  unclosed : Unclosed rest

namespace LeavesOpen

variable {cs before rest before' rest' : List Char}

/-- What follows the quote is in that string. -/
theorem inside (h : LeavesOpen cs before rest) (hrest : Unclosed rest') :
    Mode.outside.after (before ++ '"' :: rest') = .string ∨
      Mode.outside.after (before ++ '"' :: rest') = .escaped := by
  rw [Mode.after_append, h.outside]
  exact Mode.string_after_of_unclosed hrest

theorem length_le (h : LeavesOpen cs before rest) (h' : LeavesOpen cs before' rest') :
    before'.length ≤ before.length := by
  rcases List.append_eq_append_iff.1 (h.source_eq.symm.trans h'.source_eq) with
    ⟨between, rfl, hrest⟩ | ⟨between, rfl, -⟩
  · cases between with
    | nil => rw [List.append_nil]
    | cons c between =>
      -- The second quote would be in the string that the first one opens.
      obtain ⟨rfl, rfl⟩ := List.cons.inj hrest
      have hinside := h.inside h.unclosed.of_append
      rw [h'.outside] at hinside
      rcases hinside with hinside | hinside <;> cases hinside
  · rw [List.length_append]
    exact Nat.le_add_right _ _

theorem unique (h : LeavesOpen cs before rest) (h' : LeavesOpen cs before' rest') :
    before = before' ∧ rest = rest' := by
  have hlength := Nat.le_antisymm (h'.length_le h) (h.length_le h')
  obtain ⟨hbefore, hrest⟩ := List.append_inj (h.source_eq.symm.trans h'.source_eq) hlength
  exact ⟨hbefore, (List.cons.inj hrest).2⟩

end LeavesOpen

/-- What is left unread starts with the quote that leaves its string open. -/
theorem Tiles.leavesOpen {cs unread : List Char} {ls : List Lexeme} (h : Tiles cs ls unread)
    (hne : unread ≠ []) :
    ∃ rest, unread = '"' :: rest ∧ LeavesOpen cs (ls.flatMap Lexeme.spelling) rest := by
  rcases h.unread with hnil | ⟨rest, rfl, htakes⟩
  · exact absurd hnil hne
  · have hmode := (h.resumes (Or.inl rfl)).eq_outside (by decide)
    exact ⟨rest, rfl, h.spelling.symm, hmode, Pattern.takes_openString_iff.1 htakes⟩

/-- Tiles end at the quote that leaves its string open. -/
theorem Tiles.of_leavesOpen {cs unread before rest : List Char} {ls : List Lexeme}
    (h : Tiles cs ls unread) (hopen : LeavesOpen cs before rest) :
    ls.flatMap Lexeme.spelling = before ∧ unread = '"' :: rest := by
  by_cases hnil : unread = []
  · -- The source would end outside of strings, or in a comment.
    subst hnil
    have hmode := h.resumes (m := .outside) (Or.inl rfl)
    rw [← List.append_nil (ls.flatMap Lexeme.spelling), h.spelling] at hmode
    have hinside := hopen.inside hopen.unclosed
    rw [← hopen.source_eq] at hinside
    rcases hmode with hmode | ⟨hmode, -⟩ <;> rw [hmode] at hinside <;>
      rcases hinside with hinside | hinside <;> cases hinside
  · obtain ⟨rest', rfl, hopen'⟩ := h.leavesOpen hnil
    obtain ⟨rfl, rfl⟩ := hopen.unique hopen'
    exact ⟨rfl, rfl⟩

/-- Tokens are found up to the quote that leaves its string open, the same as when the source ends
there. -/
theorem tokenize_of_leavesOpen {cs before rest : List Char} (h : LeavesOpen cs before rest) :
    tokenize cs = ⟨(tokenize before).tokens, some (.behind before)⟩ ∧
      (tokenize before).unclosed = none := by
  have htiles := tiles_lexemes cs
  obtain ⟨hbefore, hunread⟩ := htiles.of_leavesOpen h
  have hread := tiles_iff.1 htiles.read
  rw [hbefore] at hread
  unfold tokenize
  rw [hread]
  simp only [hbefore, hunread, Position.start_advance]
  exact ⟨rfl, rfl⟩

theorem unclosed_tokenize_ne_none_iff {cs : List Char} :
    (tokenize cs).unclosed ≠ none ↔ ∃ before rest, LeavesOpen cs before rest := by
  constructor
  · intro h
    have hunread : (lexemes cs).2 ≠ [] := fun hnil =>
      h ((unclosed_tokenize_eq_none_iff cs).2 hnil)
    obtain ⟨rest, -, hopen⟩ := (tiles_lexemes cs).leavesOpen hunread
    exact ⟨_, rest, hopen⟩
  · rintro ⟨before, rest, hopen⟩
    rw [(tokenize_of_leavesOpen hopen).1]
    exact Option.some_ne_none _

/-! ## Tokens with their places -/

/-- The token that a lexeme is, if it is one. -/
def Lexeme.kind? : Lexeme → Option Token.Kind
  | token kind => some kind
  | _ => none

/-- The tokens of a source are those among its lexemes, each at the place behind what is before
it. -/
structure Lexeme.Placed (ls : List Lexeme) (ts : List Token) : Prop where
  kinds : ts.map Token.kind = ls.filterMap kind?
  position : ∀ before kind after, ls = before ++ .token kind :: after →
    ts[(before.filterMap kind?).length]? =
      some ⟨kind, .behind (before.flatMap Lexeme.spelling)⟩

namespace Token

theorem map_kind_placed (p : Position) (ls : List Lexeme) :
    (placed p ls).map kind = ls.filterMap Lexeme.kind? := by
  induction ls generalizing p with
  | nil => rfl
  | cons l ls ih =>
    cases l with
    | token kind => exact congrArg (kind :: ·) (ih (p.advance kind.spelling))
    | blanks cs => exact ih (p.advance cs)
    | comment text => exact ih (p.advance (';' :: text))

theorem placed_start (ls : List Lexeme) : Lexeme.Placed ls (placed .start ls) where
  kinds := map_kind_placed .start ls
  position := by
    rintro before kind after rfl
    rw [placed_append, ← map_kind_placed .start before, List.length_map,
      List.getElem?_append_right (Nat.le_refl _), Nat.sub_self, Position.start_advance]
    rfl

/-- The first token stands where the lexemes start, or further on. -/
theorem before_of_mem_placed {p : Position} {ls : List Lexeme} {t : Token} (h : t ∈ placed p ls)
    (hne : ∀ l ∈ ls, l.spelling ≠ []) : p = t.position ∨ p.Before t.position := by
  induction ls generalizing p with
  | nil => simp [placed] at h
  | cons l ls ih =>
    have hl : p.Before (p.advance l.spelling) := p.before_advance (hne l List.mem_cons_self)
    have hrest : t ∈ placed (p.advance l.spelling) ls → p.Before t.position := by
      intro ht
      rcases ih ht fun k hk => hne k (List.mem_cons_of_mem l hk) with heq | hbefore
      · rwa [← heq]
      · exact hl.trans hbefore
    cases l with
    | token kind =>
      rcases List.mem_cons.1 h with rfl | h
      · exact Or.inl rfl
      · exact Or.inr (hrest h)
    | blanks | comment => exact Or.inr (hrest h)

/-- Each token stands further on than those before it. -/
theorem pairwise_placed (p : Position) {ls : List Lexeme} (hne : ∀ l ∈ ls, l.spelling ≠ []) :
    (placed p ls).Pairwise fun t u => t.position.Before u.position := by
  induction ls generalizing p with
  | nil => exact List.Pairwise.nil
  | cons l ls ih =>
    have hne' : ∀ k ∈ ls, k.spelling ≠ [] := fun k hk => hne k (List.mem_cons_of_mem l hk)
    cases l with
    | token kind =>
      refine List.pairwise_cons.2 ⟨fun t ht => ?_, ih (p.advance kind.spelling) hne'⟩
      have hkind : p.Before (p.advance kind.spelling) :=
        p.before_advance (hne (.token kind) List.mem_cons_self)
      rcases before_of_mem_placed ht hne' with heq | hbefore
      · rwa [← heq]
      · exact hkind.trans hbefore
    | blanks cs => exact ih (p.advance cs) hne'
    | comment text => exact ih (p.advance (';' :: text)) hne'

end Token

theorem Tiles.spelling_ne_nil {cs unread : List Char} {ls : List Lexeme} (h : Tiles cs ls unread) :
    ∀ l ∈ ls, l.spelling ≠ [] := by
  intro l hl
  obtain ⟨before, after, rfl⟩ := List.append_of_mem hl
  exact (h.takes before l after rfl).1.ne_nil

/-! ## What is reported -/

/-- Strings that are not closed are found before tokens are read. -/
theorem Reading.readTokens_ne_unclosedString (ts : List Token) (p : Position) :
    readTokens ts ≠ .error (.invalid (.unclosedString p)) := by
  intro h
  unfold readTokens at h
  cases hrun : empty.run readingRoom ts with
  | ok r =>
    rw [hrun] at h
    obtain ⟨t, -, hblames⟩ := blames_of_finish hrun h
    exact hblames
  | error fault =>
    rw [hrun] at h
    cases h
    obtain ⟨before, t, after, r, rfl, hbefore, hstep⟩ := exists_step_of_error hrun
    obtain ⟨b, q, rfl, hclose⟩ := eq_closer_of_step hstep
    have hblames : Blames (before ++ ⟨.closer b, q⟩ :: after) ⟨.closer b, q⟩
        (.unclosedString p) := blames_of_close hbefore hclose
    exact hblames

/-- The message tells a string that is not closed from every other fault. -/
theorem SyntaxFault.message_eq_unterminated_iff {fault : SyntaxFault} :
    fault.message = "Unterminated string literal" ↔ ∃ p, fault = .unclosedString p := by
  constructor
  · intro h
    -- No message has a place in it, so it may be any.
    cases fault with
    | unclosedString p => exact ⟨p, rfl⟩
    | unexpectedCloser found p =>
      have hne : (unexpectedCloser found .start).message ≠ "Unterminated string literal" := by
        cases found <;> decide
      exact absurd h hne
    | mismatchedCloser found expected p =>
      have hne : (mismatchedCloser found expected .start).message ≠
          "Unterminated string literal" := by
        cases found <;> cases expected <;> decide
      exact absurd h hne
    | unclosedList bracket p =>
      have hne : (unclosedList bracket .start).message ≠ "Unterminated string literal" := by
        cases bracket <;> decide
      exact absurd h hne
    | nothingMarked mark p =>
      have hne : (nothingMarked mark .start).message ≠ "Unterminated string literal" := by
        cases mark <;> decide
      exact absurd h hne
    | noForm => exact absurd h (by decide)
    | manyForms count =>
      have hne : (manyForms 0).message ≠ "Unterminated string literal" := by decide
      exact absurd h hne
  · rintro ⟨p, rfl⟩
    rfl

/-- A source is reported for a string that is not closed just if its tokens end at one. -/
theorem readForms_unterminated_iff {source : String} :
    (∃ fault, readForms source = .error (.invalid fault) ∧
        fault.message = "Unterminated string literal") ↔
      ∃ before rest, LeavesOpen source.toList before rest := by
  rw [← unclosed_tokenize_ne_none_iff]
  constructor
  · rintro ⟨fault, hread, hmessage⟩ hclosed
    obtain ⟨p, rfl⟩ := SyntaxFault.message_eq_unterminated_iff.1 hmessage
    rw [readForms_of_closed hclosed] at hread
    exact Reading.readTokens_ne_unclosedString _ p hread
  · intro hunclosed
    obtain ⟨p, hp⟩ := Option.ne_none_iff_exists'.1 hunclosed
    exact ⟨_, readForms_of_unclosed hp, rfl⟩

/-- The tokens of a source tile it. Its lexemes are the one row in which each is taken where it
stands and nothing is left but a string that is never closed. They have characters, it is never
left to the last pattern to take one, and no two atoms touch. A string that is never closed is
reported just if a quote outside comments and strings is followed by no quote that closes it; it is
reported where that quote stands, and the tokens are those of the source up to there. Each token is
placed by the line feeds before it and by what stands after the last of them. Tokens stand further
and further on, and no two places in a source are the same. -/
theorem tokenize_tiles (source : String) :
    (∀ ls unread, Tiles source.toList ls unread ↔ lexemes source.toList = (ls, unread)) ∧
    (∀ l ∈ (lexemes source.toList).1, l.spelling ≠ []) ∧
    (∀ text rest, ¬ Pattern.other.Takes text rest) ∧
    (∀ text text', ¬ [.token (.atom text), .token (.atom text')] <:+: (lexemes source.toList).1) ∧
    ((∃ fault, readForms source = .error (.invalid fault) ∧
        fault.message = "Unterminated string literal") ↔
      ∃ before rest, LeavesOpen source.toList before rest) ∧
    (∀ before rest, LeavesOpen source.toList before rest →
      readForms source = .error (.invalid (.unclosedString (.behind before))) ∧
        (tokenize source.toList).tokens = (tokenize before).tokens ∧
        (tokenize before).unclosed = none) ∧
    Lexeme.Placed (lexemes source.toList).1 (tokenize source.toList).tokens ∧
    (tokenize source.toList).tokens.Pairwise (fun t u => t.position.Before u.position) ∧
    (∀ i j, i < j → j ≤ source.toList.length →
      (Position.behind (source.toList.take i)).Before (.behind (source.toList.take j))) := by
  have htiles := tiles_lexemes source.toList
  refine ⟨fun ls unread => tiles_iff, htiles.spelling_ne_nil, Pattern.not_takes_other,
    htiles.not_touching, readForms_unterminated_iff, fun before rest hopen => ?_,
    Token.placed_start _, Token.pairwise_placed .start htiles.spelling_ne_nil,
    fun i j => Position.behind_take_before source.toList⟩
  obtain ⟨htokens, hclosed⟩ := tokenize_of_leavesOpen hopen
  exact ⟨readForms_of_unclosed (by rw [htokens]), by rw [htokens], hclosed⟩

end Fexpr
