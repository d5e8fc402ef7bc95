import Fexpr.Proofs.Reader.Faults
import Fexpr.Proofs.Token.Lines

/-!
# Reading line by line

A source that is read as forms leaves nothing open, so another source may follow it after a line
feed. The reader goes through the tokens of that one as if they came first, but for two things:
there are forms before its own, and its places are further down (`Reading.run_after`). So it is read
as it would be by itself: its forms come after those before it, and its faults are the same, further
down (`readForms_newline`).

So the texts of several files, joined by line feeds, are read as the forms of all of them
(`readForms_intercalate`).
-/

namespace Fexpr

/-! ## Other places -/

/-- What is open, opened at another place. -/
def Pending.mapPosition (f : Position → Position) : Pending → Pending
  | list b p items => list b (f p) items
  | mark m p => mark m (f p)

/-- The fault at another place, if it has one. -/
def SyntaxFault.mapPosition (f : Position → Position) : SyntaxFault → SyntaxFault
  | unclosedString p => unclosedString (f p)
  | unexpectedCloser found p => unexpectedCloser found (f p)
  | mismatchedCloser found expected p => mismatchedCloser found expected (f p)
  | unclosedList b p => unclosedList b (f p)
  | nothingMarked m p => nothingMarked m (f p)
  | noForm => noForm
  | manyForms count => manyForms count

/-- The fault at another place, if it has one. -/
def ReadFault.mapPosition (f : Position → Position) : ReadFault → ReadFault
  | invalid fault => invalid (fault.mapPosition f)
  | longNumeral digits => longNumeral digits
  | tooDeep => tooDeep

namespace SyntaxFault

variable (f : Position → Position) (fault : SyntaxFault)

@[simp] theorem message_mapPosition : (fault.mapPosition f).message = fault.message := by
  cases fault <;> rfl

@[simp] theorem details_mapPosition : (fault.mapPosition f).details = fault.details := by
  cases fault <;> rfl

@[simp] theorem position?_mapPosition :
    (fault.mapPosition f).position? = fault.position?.map f := by
  cases fault <;> rfl

end SyntaxFault

namespace Reading

variable {room : Nat} {r : Reading}

/-- The reading at other places, after forms that were read before. -/
def after (before : List Value) (f : Position → Position) (r : Reading) : Reading :=
  ⟨r.forms ++ before, r.pending.map (.mapPosition f)⟩

variable (before : List Value) (f : Position → Position)

theorem deliver_after (forms : List Value) (pending : List Pending) (v : Value) :
    deliver (forms ++ before) (pending.map (.mapPosition f)) v =
      (deliver forms pending v).after before f := by
  induction pending generalizing v with
  | nil => rfl
  | cons waiting outer ih =>
    cases waiting with
    | list b p items => rfl
    | mark m p => exact ih (m.apply v)

theorem enter_after (p : Pending) :
    (r.after before f).enter room (p.mapPosition f) =
      ((r.enter room p).map (after before f)).mapError (.mapPosition f) := by
  unfold enter after
  rw [List.length_map]
  split <;> rfl

theorem close_list (forms items : List Value) (outer : List Pending) (b b' : Bracket)
    (p q : Position) :
    close ⟨forms, .list b' q items :: outer⟩ b p =
      if b = b' then .ok (deliver forms outer (.ofItems items.reverse))
      else .error (.invalid (.mismatchedCloser b b' p)) := rfl

theorem close_after (b : Bracket) (p : Position) :
    (r.after before f).close b (f p) =
      ((r.close b p).map (after before f)).mapError (.mapPosition f) := by
  obtain ⟨forms, pending⟩ := r
  cases pending with
  | nil => rfl
  | cons waiting outer =>
    cases waiting with
    | mark m q => rfl
    | list b' q items =>
      show close ⟨forms ++ before, .list b' (f q) items :: outer.map _⟩ b (f p) = _
      rw [close_list, close_list, deliver_after]
      split <;> rfl

/-- One token is taken as it is at other places, after other forms. -/
theorem step_after (t : Token) :
    (r.after before f).step room (t.mapPosition f) =
      ((r.step room t).map (after before f)).mapError (.mapPosition f) := by
  obtain ⟨kind, p⟩ := t
  cases kind with
  | opener b => exact enter_after before f (.list b p [])
  | closer b => exact close_after before f b p
  | mark m => exact enter_after before f (.mark m p)
  | string body => exact congrArg Except.ok (deliver_after before f _ _ _)
  | atom text =>
    unfold step
    dsimp only [Token.mapPosition]
    unfold atom
    split
    · split
      · exact congrArg Except.ok (deliver_after before f _ _ _)
      · rfl
    · exact congrArg Except.ok (deliver_after before f _ _ _)

/-- Tokens are gone through as they are at other places, after other forms. -/
theorem run_after (ts : List Token) :
    (r.after before f).run room (ts.map (.mapPosition f)) =
      ((r.run room ts).map (after before f)).mapError (.mapPosition f) := by
  induction ts generalizing r with
  | nil => rfl
  | cons t ts ih =>
    rw [List.map_cons, run, run, step_after]
    cases r.step room t with
    | error fault => rfl
    | ok r' => exact ih

theorem finish_after :
    (r.after before f).finish =
      (r.finish.map (before.reverse ++ ·)).mapError (.mapPosition f) := by
  obtain ⟨forms, pending⟩ := r
  cases pending with
  | nil => exact congrArg Except.ok List.reverse_append
  | cons waiting outer => cases waiting <;> rfl

/-- Tokens that are read leave the forms and nothing open. -/
theorem run_of_readTokens {ts : List Token} {forms : List Value} (h : readTokens ts = .ok forms) :
    empty.run readingRoom ts = .ok ⟨forms.reverse, []⟩ := by
  unfold readTokens at h
  cases hrun : empty.run readingRoom ts with
  | error fault => rw [hrun] at h; cases h
  | ok r =>
    rw [hrun] at h
    change r.finish = .ok forms at h
    obtain ⟨forms', pending⟩ := r
    cases pending with
    | nil =>
      obtain rfl := Except.ok.inj h
      rw [List.reverse_reverse]
    | cons waiting outer => cases waiting <;> cases h

/-- Tokens after others that are read are read as they are by themselves. -/
theorem readTokens_append {ts us : List Token} {forms : List Value}
    (h : readTokens ts = .ok forms) :
    readTokens (ts ++ us.map (.mapPosition f)) =
      ((readTokens us).map (forms ++ ·)).mapError (.mapPosition f) := by
  have hafter : (⟨forms.reverse, []⟩ : Reading) = empty.after forms.reverse f := rfl
  have hrun : empty.run readingRoom (ts ++ us.map (.mapPosition f)) =
      ((empty.run readingRoom us).map (after forms.reverse f)).mapError (.mapPosition f) := by
    rw [run_append, run_of_readTokens h, hafter]
    exact run_after forms.reverse f us
  unfold readTokens
  rw [hrun]
  cases empty.run readingRoom us with
  | error fault => rfl
  | ok r =>
    have hfinish := finish_after (r := r) forms.reverse f
    rw [List.reverse_reverse] at hfinish
    exact hfinish

/-! ## Where faults are -/

/-- A closing bracket that cannot be taken is where the fault is. -/
theorem position?_of_close {b : Bracket} {p : Position} {fault : SyntaxFault}
    (h : r.close b p = .error (.invalid fault)) : fault.position? = some p := by
  unfold close at h
  split at h
  · split at h
    · cases h
    · cases h
      rfl
  · cases h
    rfl

theorem exists_position?_of_finish {fault : SyntaxFault} (h : r.finish = .error (.invalid fault)) :
    ∃ p, fault.position? = some p := by
  unfold finish at h
  split at h
  · cases h
  next p _ _ _ =>
    cases h
    exact ⟨p, rfl⟩
  next p _ _ =>
    cases h
    exact ⟨p, rfl⟩

theorem exists_position?_of_readTokens {ts : List Token} {fault : SyntaxFault}
    (h : readTokens ts = .error (.invalid fault)) : ∃ p, fault.position? = some p := by
  unfold readTokens at h
  cases hrun : empty.run readingRoom ts with
  | ok r =>
    rw [hrun] at h
    exact exists_position?_of_finish h
  | error fault' =>
    rw [hrun] at h
    cases h
    obtain ⟨-, t, -, r, -, -, hstep⟩ := exists_step_of_error hrun
    obtain ⟨b, p, -, hclose⟩ := eq_closer_of_step hstep
    exact ⟨p, position?_of_close hclose⟩

end Reading

/-! ## Sources -/

variable {s t : String} {forms : List Value}

theorem readForms_of_unclosed {p : Position} (h : (tokenize s.toList).unclosed = some p) :
    readForms s = .error (.invalid (.unclosedString p)) := by
  unfold readForms
  dsimp only
  rw [h]

theorem closed_of_readForms (h : readForms s = .ok forms) :
    (tokenize s.toList).unclosed = none := by
  cases hunclosed : (tokenize s.toList).unclosed with
  | none => rfl
  | some p =>
    rw [readForms_of_unclosed hunclosed] at h
    cases h

theorem toList_newline (s t : String) : (s ++ "\n" ++ t).toList = s.toList ++ '\n' :: t.toList := by
  rw [String.toList_append, String.toList_append, List.append_assoc]
  rfl

/-- How many lines down a source goes by that comes after another one and a line feed. -/
def linesOf (s : String) : Nat :=
  s.toList.count '\n' + 1

/-- After a source that is read to its end and a line feed, another source has the tokens that it
has by itself, further down, and the same string is not closed, if there is one. -/
theorem tokenize_newline (h : (tokenize s.toList).unclosed = none) (t : String) :
    tokenize (s ++ "\n" ++ t).toList =
      { tokens := (tokenize s.toList).tokens ++
          (tokenize t.toList).tokens.map (.mapPosition (.down (linesOf s)))
        unclosed := (tokenize t.toList).unclosed.map (.down (linesOf s)) } := by
  have hscan : scan .start (s ++ "\n" ++ t).toList =
      ((tokenize s.toList).tokens ++
          (tokenize t.toList).tokens.map (.mapPosition (.down (linesOf s))),
        (scan .start t.toList).2) := by
    rw [toList_newline, scan_newline ((unclosed_tokenize_eq_none_iff s.toList).1 h),
      Position.start_advance_newline, scan_down]
    rfl
  obtain ⟨scanned, hscanned⟩ : ∃ scanned, scanned ++ (scan .start t.toList).2 = t.toList :=
    ⟨_, lexemes_spelling t.toList⟩
  have hplace : Position.start.advance (s.toList ++ '\n' :: scanned) =
      (Position.start.advance scanned).down (linesOf s) := by
    rw [← Position.advance_down, linesOf, ← Position.start_advance_newline,
      ← Position.advance_append, List.append_assoc]
    rfl
  have hall : s.toList ++ '\n' :: scanned ++ (scan .start (s ++ "\n" ++ t).toList).2 =
      (s ++ "\n" ++ t).toList := by
    rw [hscan, toList_newline, List.append_assoc, List.cons_append, hscanned]
  have hunclosed : (tokenize (s ++ "\n" ++ t).toList).unclosed =
      (tokenize t.toList).unclosed.map (.down (linesOf s)) := by
    rw [unclosed_tokenize hall, unclosed_tokenize hscanned, hscan, hplace]
    dsimp only
    split <;> rfl
  have htokens : (tokenize (s ++ "\n" ++ t).toList).tokens =
      (tokenize s.toList).tokens ++
        (tokenize t.toList).tokens.map (.mapPosition (.down (linesOf s))) :=
    congrArg Prod.fst hscan
  rw [← hunclosed, ← htokens]

/-- A source after one that is read and a line feed is read as it is by itself: its forms come after
the others, and its faults are further down. -/
theorem readForms_newline (h : readForms s = .ok forms) (t : String) :
    readForms (s ++ "\n" ++ t) =
      ((readForms t).map (forms ++ ·)).mapError (.mapPosition (.down (linesOf s))) := by
  have hclosed := closed_of_readForms h
  have htokens := tokenize_newline hclosed t
  rw [readForms_of_closed hclosed] at h
  cases hunclosed : (tokenize t.toList).unclosed with
  | some p =>
    rw [hunclosed] at htokens
    rw [readForms_of_unclosed hunclosed, readForms_of_unclosed (congrArg Tokens.unclosed htokens)]
    rfl
  | none =>
    rw [hunclosed] at htokens
    rw [readForms_of_closed hunclosed, readForms_of_closed (congrArg Tokens.unclosed htokens),
      htokens]
    exact Reading.readTokens_append _ h

/-- Whatever is not well formed in a source has a place there. -/
theorem exists_position?_of_readForms {fault : SyntaxFault}
    (h : readForms s = .error (.invalid fault)) : ∃ p, fault.position? = some p := by
  cases hunclosed : (tokenize s.toList).unclosed with
  | some p =>
    rw [readForms_of_unclosed hunclosed] at h
    cases h
    exact ⟨p, rfl⟩
  | none =>
    rw [readForms_of_closed hunclosed] at h
    exact Reading.exists_position?_of_readTokens h

/-- Reading is compositional over lines. Let a source be read as forms, and another one come after
it and a line feed. If the other is read, the two together are read as the forms of both. If it is
not well formed, neither are they, and the reports say the same and point at the same column, one
line further down for each line feed before it. If it is not read for one of the limits, neither are
they, for the same reason. -/
theorem readForms_over_lines (h : readForms s = .ok forms) (t : String) :
    (∀ forms', readForms t = .ok forms' →
      readForms (s ++ "\n" ++ t) = .ok (forms ++ forms')) ∧
    (∀ fault, readForms t = .error (.invalid fault) →
      ∃ fault', readForms (s ++ "\n" ++ t) = .error (.invalid fault') ∧
        let alone := fault.report t
        let joined := fault'.report (s ++ "\n" ++ t)
        joined.message = alone.message ∧ joined.details = alone.details ∧
          joined.column = alone.column ∧
          joined.line = alone.line + (s.toList.count '\n' + 1 : Nat)) ∧
    (∀ digits, readForms t = .error (.longNumeral digits) →
      readForms (s ++ "\n" ++ t) = .error (.longNumeral digits)) ∧
    (readForms t = .error .tooDeep → readForms (s ++ "\n" ++ t) = .error .tooDeep) := by
  have hjoined := readForms_newline h t
  refine ⟨fun forms' ht => ?_, fun fault ht => ?_, fun digits ht => ?_, fun ht => ?_⟩
  · rw [hjoined, ht]
    rfl
  · obtain ⟨p, hp⟩ := exists_position?_of_readForms ht
    have hp' : (fault.mapPosition (.down (linesOf s))).position? = some (p.down (linesOf s)) := by
      rw [SyntaxFault.position?_mapPosition, hp]
      rfl
    refine ⟨fault.mapPosition (.down (linesOf s)), by rw [hjoined, ht]; rfl, ?_⟩
    unfold SyntaxFault.report
    rw [hp, hp']
    exact ⟨fault.message_mapPosition _, fault.details_mapPosition _, rfl, Int.natCast_add _ _⟩
  · rw [hjoined, ht]
    rfl
  · rw [hjoined, ht]
    rfl

/-- A list that is closed in the other style on the second line of a source is so on the fourth line
after a source of two lines, of which the second ends in a comment. -/
theorem readForms_over_lines_mismatched :
    let s := "'(a)\n1 ; b"
    let t := "[c\n 2)"
    readForms s = .ok [.quote (.list [.symbol "a"] none), .number 1] ∧
      readForms t = .error (.invalid (.mismatchedCloser .round .square ⟨2, 3⟩)) ∧
      ∃ fault, readForms (s ++ "\n" ++ t) = .error (.invalid fault) ∧
        (fault.report (s ++ "\n" ++ t)).message = "Mismatched ')', expected ']'" ∧
        (fault.report (s ++ "\n" ++ t)).line = 4 ∧
        (fault.report (s ++ "\n" ++ t)).column = 3 := by
  intro s t
  have hlexemes : lexemes s.toList =
      ([.token (.mark .quote), .token (.opener .round), .token (.atom ['a']),
        .token (.closer .round), .blanks ['\n'], .token (.atom ['1']), .blanks [' '],
        .comment [' ', 'b']], []) := by
    decide +kernel
  have hlexemes' : lexemes t.toList =
      ([.token (.opener .square), .token (.atom ['c']), .blanks ['\n', ' '],
        .token (.atom ['2']), .token (.closer .round)], []) := by
    decide +kernel
  have hs : readForms s = .ok [.quote (.list [.symbol "a"] none), .number 1] := by
    rw [readForms_of_lexemes hlexemes]
    rfl
  have ht : readForms t = .error (.invalid (.mismatchedCloser .round .square ⟨2, 3⟩)) := by
    rw [readForms_of_lexemes hlexemes']
    rfl
  obtain ⟨fault, hread, hmessage, -, hcolumn, hline⟩ := (readForms_over_lines hs t).2.1 _ ht
  refine ⟨hs, ht, fault, hread, ?_, ?_, hcolumn⟩
  · rw [hmessage]
    decide
  · rw [hline]
    decide

/-- Sources that are joined by line feeds are read as the forms of all. -/
theorem readForms_intercalate {texts : List String} {all : List (List Value)}
    (h : List.Forall₂ (fun text forms => readForms text = .ok forms) texts all) :
    readForms ("\n".intercalate texts) = .ok all.flatten := by
  induction h with
  | nil =>
    have hempty : lexemes ("\n".intercalate []).toList = ([], []) := by
      rw [String.intercalate_nil]
      exact lexemes_nil
    rw [readForms_of_lexemes hempty]
    rfl
  | @cons text forms texts all hread hrest ih =>
    cases texts with
    | nil =>
      cases hrest
      simpa using hread
    | cons next texts =>
      rw [String.intercalate_cons_cons, List.flatten_cons, readForms_newline hread, ih]
      rfl

end Fexpr
