import Fexpr.Proofs.Reader.Lines
import Fexpr.Proofs.Token.Layout

/-!
# Layout and bracket style

What stands between the tokens of a source means nothing, nor does the style of its brackets. A
source is laid out anew, in other styles, with gaps of its own around the same tokens, but for the
styles of some pairs of brackets that match (`Relaid`).

Main statements: a source that is read is read as the same forms when it is laid out anew
(`readForms_of_relaid`), and any source is when the blanks at its two ends are taken off
(`readForms_trim_iff`).

The reader goes through both rows of tokens in lockstep (`Reading.Lockstep`). What it holds on
either side is alike, but for the styles of the lists that are open and for all places
(`Reading.Alike`); a list is closed on both sides in the style in which it was opened there.
-/

namespace Fexpr

variable {kind : Token.Kind} {kinds kinds' : List Token.Kind}

/-! ## Bracket style -/

/-- Whether a token is a bracket. -/
def Token.Kind.isBracket : Token.Kind → Bool
  | .opener _ | .closer _ => true
  | _ => false

/-- Two rows of tokens are the same but for the styles of some pairs of brackets that match. -/
inductive Restyled : List Token.Kind → List Token.Kind → Prop
  | nil : Restyled [] []
  | token {kind : Token.Kind} {kinds kinds' : List Token.Kind} (hkind : kind.isBracket = false)
    (h : Restyled kinds kinds') : Restyled (kind :: kinds) (kind :: kinds')
  /-- The brackets match if such rows stand between them. -/
  | pair (b b' : Bracket) {inside inside' after after' : List Token.Kind}
    (hinside : Restyled inside inside') (hafter : Restyled after after') :
    Restyled (.opener b :: (inside ++ .closer b :: after))
      (.opener b' :: (inside' ++ .closer b' :: after'))

namespace Restyled

theorem append {more more' : List Token.Kind} (h : Restyled kinds kinds')
    (hmore : Restyled more more') : Restyled (kinds ++ more) (kinds' ++ more') := by
  induction h with
  | nil => exact hmore
  | token hkind _ ih => exact .token hkind ih
  | pair b b' hinside _ _ ih =>
    rw [List.cons_append, List.cons_append, List.append_assoc, List.append_assoc]
    exact .pair b b' hinside ih

theorem refl_yieldAll {ds : List Derivation} (h : ∀ d ∈ ds, Restyled d.yield d.yield) :
    Restyled (Derivation.yieldAll ds) (Derivation.yieldAll ds) := by
  induction ds with
  | nil => exact .nil
  | cons d ds ih =>
    exact (h d List.mem_cons_self).append (ih fun e he => h e (List.mem_cons_of_mem d he))

/-- In the tokens of a form all brackets match. -/
theorem refl_yield (d : Derivation) : Restyled d.yield d.yield := by
  induction d using Derivation.induction_forms with
  | atom text => exact .token rfl .nil
  | string body => exact .token rfl .nil
  | mark m form ih => exact .token rfl ih
  | list b forms ih => exact .pair b b (refl_yieldAll ih) .nil

end Restyled

/-! ## Reading in lockstep -/

namespace Reading

variable {room : Nat} {r r' s : Reading} {pending pending' : List Pending}
  {styles styles' : List (Bracket × Bracket)}

/-- The same is open, but for the styles of the lists and for the places. The styles of each list
on the two sides are given, the innermost first. -/
inductive PendingAlike : List (Bracket × Bracket) → List Pending → List Pending → Prop
  | nil : PendingAlike [] [] []
  | list {styles : List (Bracket × Bracket)} {outer outer' : List Pending} (b b' : Bracket)
    (p p' : Position) (items : List Value) (h : PendingAlike styles outer outer') :
    PendingAlike ((b, b') :: styles) (.list b p items :: outer) (.list b' p' items :: outer')
  | mark {styles : List (Bracket × Bracket)} {outer outer' : List Pending} (m : Mark)
    (p p' : Position) (h : PendingAlike styles outer outer') :
    PendingAlike styles (.mark m p :: outer) (.mark m p' :: outer')

/-- The reader holds the same on both sides, but for the styles of the lists that are open and for
the places. -/
structure Alike (styles : List (Bracket × Bracket)) (r r' : Reading) : Prop where
  forms : r.forms = r'.forms
  pending : PendingAlike styles r.pending r'.pending

theorem PendingAlike.length_eq (h : PendingAlike styles pending pending') :
    pending.length = pending'.length := by
  induction h with
  | nil => rfl
  | list _ _ _ _ _ _ ih | mark _ _ _ _ ih => exact congrArg (· + 1) ih

theorem PendingAlike.deliver (h : PendingAlike styles pending pending') (forms : List Value)
    (v : Value) : Alike styles (deliver forms pending v) (deliver forms pending' v) := by
  induction h generalizing v with
  | nil => exact ⟨rfl, .nil⟩
  | list b b' p p' items h _ => exact ⟨rfl, .list b b' p p' (v :: items) h⟩
  | mark m _ _ _ ih => exact ih (m.apply v)

/-- A form is delivered on both sides. -/
theorem Alike.deliver (h : Alike styles r r') (v : Value) :
    Alike styles (deliver r.forms r.pending v) (deliver r'.forms r'.pending v) := by
  rw [h.forms]
  exact h.pending.deliver r'.forms v

/-- Where there is room on one side, there is on the other. -/
theorem Alike.enter {w w' : Pending} (h : Alike styles r r')
    (hopen : PendingAlike styles' (w :: r.pending) (w' :: r'.pending))
    (hs : r.enter room w = .ok s) : ∃ s', r'.enter room w' = .ok s' ∧ Alike styles' s s' := by
  obtain ⟨hlt, rfl⟩ := eq_of_enter hs
  rw [h.pending.length_eq] at hlt
  exact ⟨_, if_pos hlt, h.forms, hopen⟩

/-- Whenever one row of tokens is gone through, so is the other from a reading that is alike, and
what comes of it is alike. -/
def Lockstep (room : Nat) (styles styles' : List (Bracket × Bracket)) (ts ts' : List Token) :
    Prop :=
  ∀ ⦃r r' s : Reading⦄, Alike styles r r' → r.run room ts = .ok s →
    ∃ s', r'.run room ts' = .ok s' ∧ Alike styles' s s'

theorem Lockstep.append {styles'' : List (Bracket × Bracket)} {ts ts' us us' : List Token}
    (h : Lockstep room styles styles' ts ts') (hus : Lockstep room styles' styles'' us us') :
    Lockstep room styles styles'' (ts ++ us) (ts' ++ us') := by
  intro r r' s hr hrun
  rw [run_append] at hrun
  cases hts : r.run room ts with
  | error fault => rw [hts] at hrun; cases hrun
  | ok q =>
    rw [hts] at hrun
    obtain ⟨q', hts', hq⟩ := h hr hts
    obtain ⟨s', hus', hs⟩ := hus hq hrun
    exact ⟨s', by rw [run_append, hts']; exact hus', hs⟩

/-- Tokens are taken in lockstep that make steps in lockstep. -/
theorem Lockstep.of_step {t t' : Token}
    (h : ∀ ⦃r r' s : Reading⦄, Alike styles r r' → r.step room t = .ok s →
      ∃ s', r'.step room t' = .ok s' ∧ Alike styles' s s') :
    Lockstep room styles styles' [t] [t'] := by
  intro r r' s hr hrun
  rw [run] at hrun
  cases hstep : r.step room t with
  | error fault => rw [hstep] at hrun; cases hrun
  | ok q =>
    rw [hstep] at hrun
    obtain rfl := Except.ok.inj hrun
    obtain ⟨q', hstep', hq⟩ := h hr hstep
    exact ⟨q', run_cons_of_step hstep' [], hq⟩

variable (p p' : Position)

/-- A token that is no bracket is the same on both sides. -/
theorem lockstep_token (hkind : kind.isBracket = false) :
    Lockstep room styles styles [⟨kind, p⟩] [⟨kind, p'⟩] := by
  refine .of_step fun r r' s hr hs => ?_
  cases kind with
  | opener b | closer b => cases hkind
  | mark m => exact hr.enter (.mark m p p' hr.pending) hs
  | string body =>
    obtain rfl := Except.ok.inj hs
    exact ⟨_, rfl, hr.deliver _⟩
  | atom text =>
    obtain ⟨v, hv, rfl⟩ := eq_of_atom hs
    refine ⟨Reading.deliver r'.forms r'.pending v, ?_, hr.deliver v⟩
    show (atom text).map _ = _
    rw [hv]
    rfl

theorem lockstep_opener (b b' : Bracket) :
    Lockstep room styles ((b, b') :: styles) [⟨.opener b, p⟩] [⟨.opener b', p'⟩] :=
  .of_step fun _ _ _ hr hs => hr.enter (.list b b' p p' [] hr.pending) hs

/-- The innermost list is closed on both sides in the style in which it was opened there. -/
theorem lockstep_closer (b b' : Bracket) :
    Lockstep room ((b, b') :: styles) styles [⟨.closer b, p⟩] [⟨.closer b', p'⟩] := by
  refine .of_step fun r r' s hr hs => ?_
  obtain ⟨q, items, outer, hpending, rfl⟩ := eq_of_close hs
  obtain ⟨forms', pending'⟩ := r'
  obtain ⟨hforms, halike⟩ := hr
  obtain rfl : r.forms = forms' := hforms
  rw [hpending] at halike
  cases halike with
  | list _ _ _ q' _ houter => exact ⟨_, if_pos rfl, houter.deliver r.forms _⟩

theorem exists_of_map_kind_eq_cons {ts : List Token} (h : ts.map Token.kind = kind :: kinds) :
    ∃ p us, ts = ⟨kind, p⟩ :: us ∧ us.map Token.kind = kinds := by
  obtain ⟨⟨_, p⟩, us, rfl, rfl, hus⟩ := List.map_eq_cons_iff.1 h
  exact ⟨p, us, rfl, hus⟩

/-- Tokens in other styles are gone through in lockstep. -/
theorem lockstep_of_restyled (h : Restyled kinds kinds') {ts ts' : List Token}
    (hts : ts.map Token.kind = kinds) (hts' : ts'.map Token.kind = kinds') :
    Lockstep room styles styles ts ts' := by
  induction h generalizing ts ts' styles with
  | nil =>
    obtain rfl := List.map_eq_nil_iff.1 hts
    obtain rfl := List.map_eq_nil_iff.1 hts'
    intro r r' s hr hrun
    obtain rfl := Except.ok.inj hrun
    exact ⟨r', rfl, hr⟩
  | token hkind _ ih =>
    obtain ⟨p, us, rfl, hus⟩ := exists_of_map_kind_eq_cons hts
    obtain ⟨p', us', rfl, hus'⟩ := exists_of_map_kind_eq_cons hts'
    exact (lockstep_token p p' hkind).append (ih hus hus')
  | pair b b' _ _ ihinside ihafter =>
    obtain ⟨p, _, rfl, hrest⟩ := exists_of_map_kind_eq_cons hts
    obtain ⟨p', _, rfl, hrest'⟩ := exists_of_map_kind_eq_cons hts'
    obtain ⟨inside, _, rfl, hinside, hclosed⟩ := List.map_eq_append_iff.1 hrest
    obtain ⟨inside', _, rfl, hinside', hclosed'⟩ := List.map_eq_append_iff.1 hrest'
    obtain ⟨q, after, rfl, hafter⟩ := exists_of_map_kind_eq_cons hclosed
    obtain ⟨q', after', rfl, hafter'⟩ := exists_of_map_kind_eq_cons hclosed'
    exact (lockstep_opener p p' b b').append <| (ihinside hinside hinside').append <|
      (lockstep_closer q q' b b').append (ihafter hafter hafter')

/-- Tokens that are read are read as the same forms in other styles and other places. -/
theorem readTokens_of_restyled {ts ts' : List Token} {forms : List Value}
    (hkinds : Restyled (ts.map Token.kind) (ts'.map Token.kind)) (h : readTokens ts = .ok forms) :
    readTokens ts' = .ok forms := by
  obtain ⟨⟨forms', pending'⟩, hrun, hforms, hpending⟩ :=
    lockstep_of_restyled hkinds rfl rfl ⟨rfl, .nil⟩ (run_of_readTokens h)
  cases hpending
  obtain rfl : forms.reverse = forms' := hforms
  refine (congrArg (Except.bind · finish) hrun).trans ?_
  exact congrArg Except.ok forms.reverse_reverse

/-- All brackets of tokens that are read match. -/
theorem restyled_refl_of_readTokens {ts : List Token} {forms : List Value}
    (h : readTokens ts = .ok forms) : Restyled (ts.map Token.kind) (ts.map Token.kind) := by
  obtain ⟨ds, hds⟩ := exists_yieldAll_of_readTokens h
  rw [hds]
  exact .refl_yieldAll fun d _ => .refl_yield d

end Reading

/-! ## Sources -/

variable {s t : String} {forms : List Value}

/-- A source is another one laid out anew: they have the same tokens, but for the styles of some
pairs of brackets that match, and each has gaps of its own around them. -/
def Relaid (s t : String) : Prop :=
  ∃ kinds kinds', LaidOut false kinds s.toList ∧ Restyled kinds kinds' ∧
    LaidOut false kinds' t.toList

/-- A source that is laid out with some tokens is read as these are. -/
theorem readForms_of_laidOut (h : LaidOut false kinds s.toList) :
    ∃ ts : List Token, ts.map Token.kind = kinds ∧ readForms s = readTokens ts := by
  obtain ⟨hkinds, hunread⟩ := scan_of_laidOut h .start
  exact ⟨_, hkinds, readForms_of_closed ((unclosed_tokenize_eq_none_iff _).2 hunread)⟩

/-- A source that is read is laid out with tokens of which all brackets match. -/
theorem exists_laidOut_of_readForms (h : readForms s = .ok forms) :
    ∃ kinds, LaidOut false kinds s.toList ∧ Restyled kinds kinds := by
  have hclosed := closed_of_readForms h
  have hunread := (unclosed_tokenize_eq_none_iff _).1 hclosed
  rw [readForms_of_closed hclosed] at h
  have hkinds := Reading.restyled_refl_of_readTokens h
  rw [tokens_tokenize] at hkinds
  unfold scan at hkinds hunread
  rw [Token.map_kind_placed] at hkinds
  exact ⟨_, laidOut_lexemes nofun hunread, hkinds⟩

theorem readForms_eq_of_relaid (hrelaid : Relaid s t) (h : readForms s = .ok forms) :
    readForms t = .ok forms := by
  obtain ⟨kinds, kinds', hs, hkinds, ht⟩ := hrelaid
  obtain ⟨ts, rfl, hreads⟩ := readForms_of_laidOut hs
  obtain ⟨ts', rfl, hreadt⟩ := readForms_of_laidOut ht
  rw [hreadt]
  exact Reading.readTokens_of_restyled hkinds (hreads.symm.trans h)

/-- Taking the blanks off both ends of a source never changes what forms it is read as. -/
theorem readForms_trim_iff :
    readForms (String.ofList (Text.trim s.toList)) = .ok forms ↔ readForms s = .ok forms := by
  constructor
  · intro h
    obtain ⟨kinds, hkinds, hrefl⟩ := exists_laidOut_of_readForms h
    refine readForms_eq_of_relaid ⟨kinds, kinds, hkinds, hrefl, ?_⟩ h
    rw [String.toList_ofList] at hkinds
    exact laidOut_trim_iff.1 hkinds
  · intro h
    obtain ⟨kinds, hkinds, hrefl⟩ := exists_laidOut_of_readForms h
    refine readForms_eq_of_relaid ⟨kinds, kinds, hkinds, hrefl, ?_⟩ h
    rw [String.toList_ofList]
    exact laidOut_trim_iff.2 hkinds

/-- Layout and bracket style carry no meaning. A source that is read is laid out with its tokens, so
that it can be laid out anew. In whatever way it is, it is read as the same forms: with other blanks
and comments between its tokens, as long as there are some between two atoms, and with other styles
of brackets that match. In particular it is laid out anew, and read as the same forms, without the
blanks at its two ends. -/
theorem readForms_of_relaid (h : readForms s = .ok forms) :
    Relaid s s ∧ (∀ t, Relaid s t → readForms t = .ok forms) ∧
      let trimmed := String.ofList (Text.trim s.toList)
      Relaid s trimmed ∧ readForms trimmed = .ok forms := by
  obtain ⟨kinds, hkinds, hrefl⟩ := exists_laidOut_of_readForms h
  have htrimmed : LaidOut false kinds (String.ofList (Text.trim s.toList)).toList := by
    rw [String.toList_ofList]
    exact laidOut_trim_iff.2 hkinds
  exact ⟨⟨kinds, kinds, hkinds, hrefl, hkinds⟩, fun t ht => readForms_eq_of_relaid ht h,
    ⟨kinds, kinds, hkinds, hrefl, htrimmed⟩, readForms_trim_iff.2 h⟩

/-- A list in a list, with brackets and semicolons in a comment and in a string, is read as the same
form with the styles of both exchanged, with a comment in another place, and with no blanks but
between the atoms. -/
theorem readForms_of_relaid_nested :
    let s := " (f [\"a);\" ; ] (\n b]c d)\n"
    let t := "[f(\"a);\"b)c;[\nd]"
    let forms := [Value.list [.symbol "f", .list [.string "a);", .symbol "b"] none, .symbol "c",
      .symbol "d"] none]
    readForms s = .ok forms ∧ Relaid s t ∧ readForms t = .ok forms ∧
      readForms "(f [\"a);\" ; ] (\n b]c d)" = .ok forms := by
  intro s t forms
  have hs : lexemes s.toList =
      ([.blanks [' '], .token (.opener .round), .token (.atom ['f']), .blanks [' '],
        .token (.opener .square), .token (.string ['a', ')', ';']), .blanks [' '],
        .comment [' ', ']', ' ', '('], .blanks ['\n', ' '], .token (.atom ['b']),
        .token (.closer .square), .token (.atom ['c']), .blanks [' '], .token (.atom ['d']),
        .token (.closer .round), .blanks ['\n']], []) := by
    decide +kernel
  have ht : lexemes t.toList =
      ([.token (.opener .square), .token (.atom ['f']), .token (.opener .round),
        .token (.string ['a', ')', ';']), .token (.atom ['b']), .token (.closer .round),
        .token (.atom ['c']), .comment ['['], .blanks ['\n'], .token (.atom ['d']),
        .token (.closer .square)], []) := by
    decide +kernel
  have hread : readForms s = .ok forms := by
    rw [readForms_of_lexemes hs]
    rfl
  have hrelaid : Relaid s t := by
    have hinside : Restyled [.string ['a', ')', ';'], .atom ['b']]
        [.string ['a', ')', ';'], .atom ['b']] :=
      .token rfl (.token rfl .nil)
    have hafter : Restyled [.atom ['c'], .atom ['d']] [.atom ['c'], .atom ['d']] :=
      .token rfl (.token rfl .nil)
    have hitems := Restyled.pair .square .round hinside hafter
    have hname : (Token.Kind.atom ['f']).isBracket = false := rfl
    have hall := Restyled.pair .round .square (.token hname hitems) .nil
    exact ⟨_, _, laidOut_of_lexemes hs, hall, laidOut_of_lexemes ht⟩
  obtain ⟨-, hsame, -, htrimmed⟩ := readForms_of_relaid hread
  refine ⟨hread, hrelaid, hsame t hrelaid, ?_⟩
  have htrim : String.ofList (Text.trim s.toList) = "(f [\"a);\" ; ] (\n b]c d)" := by
    decide +kernel
  rw [← htrim]
  exact htrimmed

end Fexpr
