import Fexpr.Proofs.Token.Tiling

/-!
# The layout of a source

Between the tokens of a source there are gaps of blanks and comments, a comment with the end of its
line; only the last comment of a source may have none. Two atoms stand apart. What the gaps are is
the layout of the source (`LaidOut`).

Main statements: a source that is laid out with some tokens has these tokens, and nothing is left of
it (`scan_of_laidOut`). Every source whose strings are closed is laid out with its tokens
(`laidOut_lexemes`); the blanks at its two ends do not matter (`laidOut_trim_iff`).
-/

namespace Fexpr

/-- What may stand between two tokens: blanks, and comments with the ends of their lines. -/
inductive Gap : List Char → Prop
  | nil : Gap []
  | blank {c : Char} {cs : List Char} (hc : Text.isBlank c = true) (h : Gap cs) : Gap (c :: cs)
  | comment {text cs : List Char} (htext : '\n' ∉ text) (h : Gap cs) :
    Gap (';' :: (text ++ '\n' :: cs))

namespace Token.Kind

/-- Whether a token is an atom. -/
def isAtom : Token.Kind → Bool
  | .atom _ => true
  | _ => false

/-- A token that may stand in a source: a string has a body that its closing quote ends, and an atom
has characters, and only such as may stand in one. -/
def Spellable : Token.Kind → Prop
  | .string body => StringBody body
  | .atom text => text ≠ [] ∧ ∀ c ∈ text, isAtomChar c = true
  | _ => True

end Token.Kind

/-- A source, or what is left of one after an atom or after something else, spells some tokens in
order, with gaps before, between and after them. There is something in a gap between two atoms, and
the last gap may end in a comment without the end of its line. -/
inductive LaidOut : Bool → List Token.Kind → List Char → Prop
  | last {afterAtom : Bool} {gap : List Char} (hgap : Gap gap) : LaidOut afterAtom [] gap
  | comment {afterAtom : Bool} {gap text : List Char} (hgap : Gap gap) (htext : '\n' ∉ text) :
    LaidOut afterAtom [] (gap ++ ';' :: text)
  | token {afterAtom : Bool} {gap : List Char} {kind : Token.Kind} {kinds : List Token.Kind}
    {cs : List Char} (hgap : Gap gap)
    (hapart : afterAtom = true → kind.isAtom = true → gap ≠ []) (hkind : kind.Spellable)
    (h : LaidOut kind.isAtom kinds cs) :
    LaidOut afterAtom (kind :: kinds) (gap ++ (kind.spelling ++ cs))

variable {gap text cs rest : List Char} {kind : Token.Kind} {kinds : List Token.Kind}
  {afterAtom : Bool} {c : Char}

/-! ## Gaps -/

namespace Gap

theorem append (h : Gap gap) (hcs : Gap cs) : Gap (gap ++ cs) := by
  induction h with
  | nil => exact hcs
  | blank hc _ ih => exact .blank hc ih
  | comment htext _ ih =>
    rw [List.cons_append, List.append_assoc, List.cons_append]
    exact .comment htext ih

theorem of_blanks (h : ∀ c ∈ gap, Text.isBlank c = true) : Gap gap := by
  induction gap with
  | nil => exact .nil
  | cons c cs ih =>
    exact .blank (h c List.mem_cons_self) (ih fun d hd => h d (List.mem_cons_of_mem c hd))

/-- A gap goes on with no atom. -/
theorem not_isAtomChar (h : Gap (c :: cs)) : isAtomChar c = false := by
  cases h with
  | blank hc _ => simp [isAtomChar, hc]
  | comment _ _ => decide

theorem tail_of_blank : Gap (c :: cs) → Text.isBlank c = true → Gap cs
  | .blank _ h, _ => h
  | .comment _ _, hc => nomatch hc

/-- Without its last character, a gap is a gap still, or ends in a comment that has lost the end of
its line. -/
theorem of_concat (h : Gap (cs ++ [c])) :
    Gap cs ∨ ∃ gap text, Gap gap ∧ '\n' ∉ text ∧ cs = gap ++ ';' :: text := by
  generalize hall : cs ++ [c] = all at h
  induction h generalizing cs with
  | nil => simp at hall
  | @blank d ds hd h ih =>
    cases cs with
    | nil => exact Or.inl .nil
    | cons e es =>
      obtain ⟨rfl, hds⟩ := List.cons.inj hall
      rcases ih hds with hgap | ⟨gap, text, hgap, htext, rfl⟩
      · exact Or.inl (.blank hd hgap)
      · exact Or.inr ⟨e :: gap, text, .blank hd hgap, htext, rfl⟩
  | @comment text ds htext h ih =>
    cases ds.eq_nil_or_concat' with
    | inl hnil =>
      subst hnil
      have hcs : cs = ';' :: text := by
        have heq : cs ++ [c] = (';' :: text) ++ ['\n'] := hall
        exact (List.append_inj' heq rfl).1
      exact Or.inr ⟨[], text, .nil, htext, hcs⟩
    | inr hconcat =>
      obtain ⟨es, d, rfl⟩ := hconcat
      have heq : cs ++ [c] = (';' :: (text ++ '\n' :: es)) ++ [d] := by
        rw [hall]
        simp
      obtain ⟨rfl, hd⟩ := List.append_inj' heq rfl
      rcases ih (by rw [hd]) with hgap | ⟨gap, text', hgap, htext', rfl⟩
      · exact Or.inl (.comment htext hgap)
      · exact Or.inr ⟨';' :: (text ++ '\n' :: gap), text', .comment htext hgap, htext', by simp⟩

end Gap

/-! ## Tokens that may stand in a source -/

namespace Token.Kind

theorem Spellable.matches (h : kind.Spellable) (hstops : kind.isAtom = true → Stops rest) :
    (Lexeme.token kind).pattern.Matches kind.spelling rest := by
  cases kind with
  | opener b => exact ⟨b, rfl⟩
  | closer b => exact ⟨b, rfl⟩
  | mark m => cases m <;> rfl
  | string body => exact ⟨body, h, rfl⟩
  | atom text => exact ⟨h.1, h.2, hstops rfl⟩

/-- A token that was found may stand in a source. -/
theorem spellable_of_next? (h : Lexeme.next? cs = some (.token kind, rest)) : kind.Spellable := by
  have hmatches := Lexeme.matches_of_next? h
  cases kind with
  | string body =>
    obtain ⟨body', hbody, heq⟩ := hmatches
    obtain rfl : body = body' := by simpa [Lexeme.spelling, spelling] using heq
    exact hbody
  | atom text => exact ⟨hmatches.1, hmatches.2.1⟩
  | _ => trivial

/-- A token begins with no blank and no semicolon; and with the character of an atom only if it is
one. -/
theorem Spellable.exists_head (h : kind.Spellable) :
    ∃ c cs, kind.spelling = c :: cs ∧ Text.isBlank c = false ∧ c ≠ ';' ∧
      (kind.isAtom = false → isAtomChar c = false) := by
  cases kind with
  | opener b => exact ⟨_, [], rfl, by cases b <;> decide⟩
  | closer b => exact ⟨_, [], rfl, by cases b <;> decide⟩
  | mark m => exact ⟨_, [], rfl, by cases m <;> decide⟩
  | string body => exact ⟨'"', body ++ ['"'], rfl, by decide, by decide, fun _ => by decide⟩
  | atom text =>
    obtain ⟨c, cs, rfl⟩ := List.exists_cons_of_ne_nil h.1
    have hc := atomChar_ne (h.2 c List.mem_cons_self)
    exact ⟨c, cs, rfl, hc.1, hc.2.1, nofun⟩

/-- A token ends in no blank. -/
theorem Spellable.exists_last (h : kind.Spellable) :
    ∃ cs c, kind.spelling = cs ++ [c] ∧ Text.isBlank c = false := by
  cases kind with
  | opener b => exact ⟨[], _, rfl, by cases b <;> decide⟩
  | closer b => exact ⟨[], _, rfl, by cases b <;> decide⟩
  | mark m => exact ⟨[], _, rfl, by cases m <;> decide⟩
  | string body => exact ⟨'"' :: body, '"', rfl, by decide⟩
  | atom text =>
    obtain ⟨cs, c, rfl⟩ := text.eq_nil_or_concat'.resolve_left h.1
    exact ⟨cs, c, rfl, (atomChar_ne (h.2 c (by simp))).1⟩

end Token.Kind

/-! ## A source has the tokens that it is laid out with -/

/-- A comment goes up to the end of the line. -/
theorem takeWhile_dropWhile_comment (htext : '\n' ∉ text) (hrest : ∀ c ∈ rest.head?, c = '\n') :
    (text ++ rest).takeWhile (· ≠ '\n') = text ∧ (text ++ rest).dropWhile (· ≠ '\n') = rest :=
  takeWhile_dropWhile_append text
    (fun _ hc => decide_eq_true fun hline => htext (hline ▸ hc))
    (fun c hc => decide_eq_false fun hline => hline (hrest c hc))

/-- A gap in front only moves the tokens on. -/
theorem scan_gap (h : Gap gap) (p : Position) (cs : List Char) :
    scan p (gap ++ cs) = scan (p.advance gap) cs := by
  induction h generalizing p with
  | nil => rfl
  | blank hc _ ih =>
    rw [List.cons_append, scan_blank hc, ih]
    rfl
  | @comment text ds htext _ ih =>
    have hline : ∀ c ∈ ('\n' :: (ds ++ cs)).head?, c = '\n' := fun c hc =>
      (Option.mem_some.1 hc).symm
    obtain ⟨htake, hdrop⟩ := takeWhile_dropWhile_comment htext hline
    have hsource : ';' :: (text ++ '\n' :: ds) ++ cs = ';' :: (text ++ '\n' :: (ds ++ cs)) := by
      simp
    rw [hsource, scan_of_next? (Lexeme.next?_comment _), htake, hdrop, scan_blank (by decide), ih]
    have hplace : p.advance (';' :: (text ++ '\n' :: ds)) =
        (((p.advance (';' :: text)).next '\n').advance ds) := by
      rw [← List.cons_append, Position.advance_append]
      rfl
    rw [hplace]
    rfl

/-- Nothing is found in a comment up to the end of the source. -/
theorem scan_comment (htext : '\n' ∉ text) (p : Position) : scan p (';' :: text) = ([], []) := by
  have hend : ∀ c ∈ ([] : List Char).head?, c = '\n' := fun c hc => nomatch hc
  obtain ⟨htake, hdrop⟩ := takeWhile_dropWhile_comment htext hend
  rw [List.append_nil] at htake hdrop
  rw [scan_of_next? (Lexeme.next?_comment text), htake, hdrop, scan_nil]
  rfl

/-- What comes after an atom does not go on with it. -/
theorem LaidOut.stops (h : LaidOut true kinds cs) : Stops cs := by
  generalize hafter : true = afterAtom at h
  cases h with
  | last hgap =>
    cases cs with
    | nil => exact stops_nil
    | cons c cs => exact stops_cons hgap.not_isAtomChar
  | @comment _ gap text hgap _ =>
    cases gap with
    | nil => exact stops_cons (by decide)
    | cons c gap => exact stops_cons hgap.not_isAtomChar
  | @token _ gap kind kinds cs hgap hapart hkind _ =>
    cases gap with
    | nil =>
      obtain ⟨c, ds, hspelling, -, -, hc⟩ := hkind.exists_head
      rw [List.nil_append, hspelling]
      refine stops_cons (hc (Bool.eq_false_iff.2 fun hatom => ?_))
      exact hapart hafter.symm hatom rfl
    | cons c gap => exact stops_cons hgap.not_isAtomChar

/-- A source that is laid out with tokens has these, and nothing is left of it. -/
theorem scan_of_laidOut (h : LaidOut afterAtom kinds cs) (p : Position) :
    (scan p cs).1.map Token.kind = kinds ∧ (scan p cs).2 = [] := by
  induction h generalizing p with
  | @last _ gap hgap =>
    rw [← List.append_nil gap, scan_gap hgap, scan_nil]
    exact ⟨rfl, rfl⟩
  | comment hgap htext =>
    rw [scan_gap hgap, scan_comment htext]
    exact ⟨rfl, rfl⟩
  | @token _ gap kind kinds cs hgap _ hkind h ih =>
    have hstops : kind.isAtom = true → Stops cs := by
      intro hatom
      rw [hatom] at h
      exact h.stops
    have hnext := Lexeme.next?_of_matches (l := .token kind) (hkind.matches hstops)
    obtain ⟨hkinds, hunread⟩ := ih ((p.advance gap).advance kind.spelling)
    rw [scan_gap hgap, show kind.spelling ++ cs = (Lexeme.token kind).spelling ++ cs from rfl,
      scan_of_next? hnext]
    exact ⟨congrArg (kind :: ·) hkinds, hunread⟩

/-! ## A source is laid out with its tokens -/

namespace LaidOut

/-- The gap in front may be longer. -/
theorem gap_append (hgap : Gap gap) (hne : gap ≠ []) (h : LaidOut false kinds cs) :
    LaidOut afterAtom kinds (gap ++ cs) := by
  cases h with
  | last hgap' => exact .last (hgap.append hgap')
  | comment hgap' htext =>
    rw [← List.append_assoc]
    exact .comment (hgap.append hgap') htext
  | token hgap' _ hkind h =>
    rw [← List.append_assoc]
    exact .token (hgap.append hgap') (fun _ _ hnil => hne (List.append_eq_nil_iff.1 hnil).1) hkind h

/-- A blank in front may go, unless it keeps two atoms apart. -/
theorem tail_of_blank (h : LaidOut afterAtom kinds (c :: cs)) (hc : Text.isBlank c = true) :
    LaidOut false kinds cs := by
  generalize hall : c :: cs = all at h
  cases h with
  | last hgap =>
    subst hall
    exact .last (hgap.tail_of_blank hc)
  | @comment _ gap text hgap htext =>
    cases gap with
    | nil =>
      obtain ⟨rfl, -⟩ := List.cons.inj hall
      cases hc
    | cons d gap =>
      obtain ⟨rfl, rfl⟩ := List.cons.inj hall
      exact .comment (hgap.tail_of_blank hc) htext
  | @token _ gap kind kinds ds hgap _ hkind h =>
    cases gap with
    | nil =>
      obtain ⟨d, es, hspelling, hd, -⟩ := hkind.exists_head
      rw [hspelling] at hall
      obtain ⟨rfl, -⟩ := List.cons.inj hall
      rw [hc] at hd
      cases hd
    | cons d gap =>
      obtain ⟨rfl, rfl⟩ := List.cons.inj hall
      exact .token (hgap.tail_of_blank hc) nofun hkind h

/-- A blank at the end may go. -/
theorem of_concat (h : LaidOut afterAtom kinds (cs ++ [c])) (hc : Text.isBlank c = true) :
    LaidOut afterAtom kinds cs := by
  generalize hall : cs ++ [c] = all at h
  induction h generalizing cs with
  | last hgap =>
    subst hall
    rcases hgap.of_concat with hfront | ⟨gap, text, hfront, htext, rfl⟩
    · exact .last hfront
    · exact .comment hfront htext
  | @comment _ gap text hgap htext =>
    -- The blank belongs to the comment.
    cases text.eq_nil_or_concat' with
    | inl hnil =>
      subst hnil
      obtain ⟨-, hlast⟩ := List.append_inj' hall rfl
      obtain ⟨rfl, -⟩ := List.cons.inj hlast
      cases hc
    | inr hconcat =>
      obtain ⟨text', d, rfl⟩ := hconcat
      have heq : cs ++ [c] = (gap ++ ';' :: text') ++ [d] := by
        rw [hall]
        simp
      obtain ⟨rfl, -⟩ := List.append_inj' heq rfl
      exact .comment hgap fun hmem => htext (List.mem_append_left _ hmem)
  | @token _ gap kind kinds ds hgap hapart hkind h ih =>
    cases ds.eq_nil_or_concat' with
    | inl hnil =>
      -- The source ends in a token, and so in no blank.
      subst hnil
      obtain ⟨es, d, hspelling, hd⟩ := hkind.exists_last
      have heq : cs ++ [c] = (gap ++ es) ++ [d] := by
        rw [hall, hspelling]
        simp
      obtain ⟨rfl, -⟩ := List.cons.inj (List.append_inj' heq rfl).2
      rw [hc] at hd
      cases hd
    | inr hconcat =>
      obtain ⟨es, d, rfl⟩ := hconcat
      have heq : cs ++ [c] = (gap ++ (kind.spelling ++ es)) ++ [d] := by
        rw [hall]
        simp
      obtain ⟨rfl, hd⟩ := List.append_inj' heq rfl
      exact .token hgap hapart hkind (ih (by rw [hd]))

/-- A blank may come at the end: it goes to the gap or to the comment there. -/
theorem concat (h : LaidOut afterAtom kinds cs) (hc : Text.isBlank c = true) :
    LaidOut afterAtom kinds (cs ++ [c]) := by
  induction h with
  | last hgap => exact .last (hgap.append (.blank hc .nil))
  | @comment _ gap text hgap htext =>
    rw [List.append_assoc, List.cons_append]
    by_cases hline : c = '\n'
    · subst hline
      exact .last (hgap.append (.comment htext .nil))
    · refine .comment hgap fun hmem => ?_
      rcases List.mem_append.1 hmem with hmem | hmem
      · exact htext hmem
      · exact hline (List.mem_singleton.1 hmem).symm
  | token hgap hapart hkind _ ih =>
    rw [List.append_assoc, List.append_assoc]
    exact .token hgap hapart hkind ih

end LaidOut

/-- The blanks in front of a source do not matter, nor do those at its end. -/
theorem laidOut_trim_iff : LaidOut false kinds (Text.trim cs) ↔ LaidOut false kinds cs := by
  have hfront : LaidOut false kinds (cs.dropWhile Text.isBlank) ↔ LaidOut false kinds cs := by
    induction cs with
    | nil => rfl
    | cons c cs ih =>
      by_cases hc : Text.isBlank c = true
      · rw [List.dropWhile_cons_of_pos hc]
        exact ih.trans
          ⟨.gap_append (.blank hc .nil) (List.cons_ne_nil c []), (·.tail_of_blank hc)⟩
      · rw [List.dropWhile_cons_of_neg hc]
  rw [← hfront]
  unfold Text.trim
  generalize cs.dropWhile Text.isBlank = ds
  induction ds using List.reverseRecOn with
  | nil => rfl
  | append_singleton ds c ih =>
    rw [List.reverse_append, List.reverse_singleton, List.singleton_append]
    by_cases hc : Text.isBlank c = true
    · rw [List.dropWhile_cons_of_pos hc]
      exact ih.trans ⟨(·.concat hc), (·.of_concat hc)⟩
    · rw [List.dropWhile_cons_of_neg hc, List.reverse_cons, List.reverse_reverse]

/-- A source of which nothing is left is laid out with its tokens. -/
theorem laidOut_lexemes (hafter : afterAtom = true → Stops cs) (h : (lexemes cs).2 = []) :
    LaidOut afterAtom ((lexemes cs).1.filterMap Lexeme.kind?) cs := by
  fun_induction lexemes cs generalizing afterAtom with
  | case1 cs hnext =>
    subst h
    exact .last .nil
  | case2 cs l rest hnext ls unread hrest ih =>
    rw [hrest] at ih
    obtain ⟨rfl, hmatches⟩ := Lexeme.next?_eq_some_iff.1 hnext
    cases l with
    | blanks bs =>
      have hothers : LaidOut false _ rest := ih (absurd · Bool.false_ne_true) h
      exact hothers.gap_append (.of_blanks hmatches.2.1) hmatches.1
    | comment text =>
      have htext : '\n' ∉ text := fun hmem => hmatches.2.1 _ (List.mem_cons_of_mem _ hmem) rfl
      have hothers : LaidOut false _ rest := ih (absurd · Bool.false_ne_true) h
      cases rest with
      | nil =>
        rw [lexemes_nil] at hrest
        obtain ⟨rfl, -⟩ := Prod.mk.inj hrest
        rw [List.append_nil]
        exact .comment .nil htext
      | cons c rest =>
        -- The end of the line belongs to the comment here.
        obtain rfl : c = '\n' := hmatches.2.2 c rfl
        have hgap := Gap.comment htext .nil
        have hall : LaidOut afterAtom _ _ :=
          (hothers.tail_of_blank (by decide)).gap_append hgap (List.cons_ne_nil _ _)
        simpa [Lexeme.spelling, Lexeme.kind?, List.filterMap_cons] using hall
    | token kind =>
      have hkind := Token.Kind.spellable_of_next? hnext
      refine LaidOut.token .nil (fun htrue hatom _ => ?_) hkind (ih (fun hatom => ?_) h)
      · cases kind with
        | atom text =>
          obtain ⟨c, cs, rfl⟩ := List.exists_cons_of_ne_nil hkind.1
          have hstop : isAtomChar c = false := hafter htrue c rfl
          rw [hkind.2 c List.mem_cons_self] at hstop
          cases hstop
        | _ => cases hatom
      · cases kind with
        | atom text => exact hmatches.2.2
        | _ => cases hatom

theorem laidOut_of_lexemes {ls : List Lexeme} (h : lexemes cs = (ls, [])) :
    LaidOut false (ls.filterMap Lexeme.kind?) cs := by
  have hlexemes : LaidOut false ((lexemes cs).1.filterMap Lexeme.kind?) cs :=
    laidOut_lexemes nofun (by rw [h])
  rwa [h] at hlexemes

end Fexpr
