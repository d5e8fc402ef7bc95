import Fexpr.Proofs.Reader.Grammar
import Mathlib.Data.List.Induction

/-!
# Where a source stops being one

A source that is not well formed is blamed on one of its tokens. A closing bracket is blamed if it
is the first token that does not fit: the tokens before it can be continued to a source with forms,
and no source with forms starts with them and it (`FirstBad`). If all tokens fit, and only more of
them are missing, the last one is blamed if it is a mark, and else the innermost opening bracket
that is still open.

Which brackets are open can be told from the tokens alone (`openers`). The reader agrees with that
after each token (`Reading.Tracks`).

Main statement: `readForms_blames`.
-/

namespace Fexpr

/-! ## Tokens that can be continued -/

/-- With more tokens after them, these tokens are read as forms. -/
def Continuable (ts : List Token) : Prop :=
  ∃ more forms, readTokens (ts ++ more) = .ok forms

/-- A token that is the first one not to fit where it stands. -/
structure FirstBad (before : List Token) (t : Token) : Prop where
  continuable : Continuable before
  /-- Nothing that starts with the tokens before and this one has a derivation. -/
  underivable : ∀ more ds, (before ++ t :: more).map Token.kind ≠ Derivation.yieldAll ds
  /-- Nothing that starts with the tokens before and this one is read as forms. -/
  rejected : ∀ more forms, readTokens (before ++ t :: more) ≠ .ok forms

/-- The opening brackets that are still open after one more token, if `opened` are open before it,
the innermost first. -/
def openersAfter (opened : List Token) (t : Token) : List Token :=
  match t.kind with
  | .opener _ => t :: opened
  | .closer _ => opened.tail
  | _ => opened

/-- The opening brackets that are still open at the end of tokens, the innermost first. -/
def openers (ts : List Token) : List Token :=
  ts.foldl openersAfter []

theorem openers_concat (ts : List Token) (t : Token) :
    openers (ts ++ [t]) = openersAfter (openers ts) t := by
  simp [openers]

/-- What of its tokens a source that is not well formed is blamed on, and why. -/
def Blames (ts : List Token) (t : Token) : SyntaxFault → Prop
  | .unexpectedCloser found p =>
    t = ⟨.closer found, p⟩ ∧ ∃ before after, ts = before ++ t :: after ∧ FirstBad before t ∧
      (openers before = [] ∨ ∃ m q, before.getLast? = some ⟨.mark m, q⟩)
  | .mismatchedCloser found expected p =>
    t = ⟨.closer found, p⟩ ∧ ∃ before after, ts = before ++ t :: after ∧ FirstBad before t ∧
      found ≠ expected ∧ ∃ q, (openers before).head? = some ⟨.opener expected, q⟩
  | .nothingMarked m p => t = ⟨.mark m, p⟩ ∧ Continuable ts ∧ ts.getLast? = some t
  | .unclosedList b p =>
    t = ⟨.opener b, p⟩ ∧ Continuable ts ∧ (openers ts).head? = some t ∧
      ∀ m q, ts.getLast? ≠ some ⟨.mark m, q⟩
  | _ => False

variable {t : Token} {ts : List Token}

/-- What is open after one more token was open before it, or is that token. -/
theorem mem_openersAfter {u : Token} {opened : List Token} (h : t ∈ openersAfter opened u) :
    t ∈ opened ∨ t = u := by
  unfold openersAfter at h
  split at h
  · exact (List.mem_cons.1 h).symm
  · exact Or.inl (List.mem_of_mem_tail h)
  · exact Or.inl h

theorem mem_of_mem_openers (h : t ∈ openers ts) : t ∈ ts := by
  induction ts using List.reverseRecOn with
  | nil => exact h
  | append_singleton ts u ih =>
    rw [openers_concat] at h
    rw [List.mem_append, List.mem_singleton]
    exact (mem_openersAfter h).imp_left ih

/-- The token that is blamed is where the fault is. -/
theorem Blames.position {fault : SyntaxFault} (h : Blames ts t fault) :
    fault.position? = some t.position := by
  cases fault with
  | unexpectedCloser | mismatchedCloser | nothingMarked | unclosedList =>
    obtain ⟨rfl, -⟩ := h
    rfl
  | _ => exact h.elim

namespace Reading

variable {room : Nat} {r r' : Reading}

/-! ## What is open can be closed -/

/-- After a form has been delivered, closing brackets are all that is missing. -/
theorem exists_run_of_deliver (room : Nat) (forms : List Value) (pending : List Pending)
    (v : Value) :
    ∃ more forms', (deliver forms pending v).run room more = .ok ⟨forms', []⟩ := by
  induction pending generalizing v with
  | nil => exact ⟨[], v :: forms, rfl⟩
  | cons waiting outer ih =>
    cases waiting with
    | list b p items =>
      obtain ⟨more, forms', hmore⟩ := ih (.ofItems (v :: items).reverse)
      refine ⟨[⟨.closer b, p⟩] ++ more, forms', ?_⟩
      rw [deliver, run_append, run_closer]
      exact hmore
    | mark m p => exact ih (m.apply v)

/-- What has been read without a fault can be continued, by an atom and closing brackets. -/
theorem continuable_of_run (h : empty.run readingRoom ts = .ok r) : Continuable ts := by
  obtain ⟨more, forms, hmore⟩ :=
    exists_run_of_deliver readingRoom r.forms r.pending (.symbol "a")
  have hatom : atom ['a'] = .ok (.symbol "a") := by rfl
  let completion := Token.placed .start [.token (.atom ['a'])] ++ more
  have hrun : empty.run readingRoom (ts ++ completion) = .ok ⟨forms, []⟩ := by
    rw [run_append, h]
    show r.run readingRoom completion = _
    rw [run_append, run_atom hatom]
    exact hmore
  refine ⟨completion, forms.reverse, ?_⟩
  unfold readTokens
  rw [hrun]
  rfl

/-! ## What is derived is well formed -/

/-- The reader goes on to a reading of which something holds, or it exceeds one of its limits. -/
def Passes (P : Reading → Prop) : Except ReadFault Reading → Prop
  | .ok r => P r
  | .error (.invalid _) => False
  | .error _ => True

theorem Passes.bind {P Q : Reading → Prop} {x : Except ReadFault Reading} (h : Passes P x)
    {f : Reading → Except ReadFault Reading} (hf : ∀ r, P r → Passes Q (f r)) :
    Passes Q (x.bind f) := by
  cases x with
  | ok r => exact hf r h
  | error fault =>
    cases fault with
    | invalid => exact h.elim
    | _ => trivial

theorem Passes.mono {P Q : Reading → Prop} {x : Except ReadFault Reading} (h : Passes P x)
    (hPQ : ∀ r, P r → Q r) : Passes Q x := by
  cases x with
  | ok r => exact hPQ r h
  | error fault =>
    cases fault with
    | invalid => exact h.elim
    | _ => trivial

theorem Passes.ne_invalid {P : Reading → Prop} {x : Except ReadFault Reading} (h : Passes P x)
    (fault : SyntaxFault) : x ≠ .error (.invalid fault) := by
  rintro rfl
  exact h

theorem passes_run_append {P Q : Reading → Prop} (h : Passes P (r.run room ts)) {us : List Token}
    (hnext : ∀ r', P r' → Passes Q (r'.run room us)) : Passes Q (r.run room (ts ++ us)) := by
  rw [run_append]
  exact h.bind hnext

theorem passes_run_cons {P Q : Reading → Prop} (h : Passes P (r.step room t))
    (hnext : ∀ r', P r' → Passes Q (r'.run room ts)) : Passes Q (r.run room (t :: ts)) := by
  rw [run]
  exact h.bind hnext

theorem passes_enter (room : Nat) (r : Reading) (p : Pending) :
    Passes (· = ⟨r.forms, p :: r.pending⟩) (r.enter room p) := by
  unfold enter
  split
  · rfl
  · trivial

/-- An atom has a value, or is a numeral that is too long. -/
theorem passes_atom (r : Reading) (text : List Char) :
    Passes (fun r' => ∃ v, r' = deliver r.forms r.pending v)
      ((atom text).map (deliver r.forms r.pending)) := by
  unfold atom
  split
  · split
    · exact ⟨_, rfl⟩
    · trivial
  · exact ⟨_, rfl⟩

/-- The tokens of a derivation deliver a form, whatever is open, unless they exceed a limit. -/
def Delivers (room : Nat) (d : Derivation) : Prop :=
  ∀ (ts : List Token) (r : Reading), ts.map Token.kind = d.yield →
    Passes (fun r' => ∃ v, r' = deliver r.forms r.pending v) (r.run room ts)

/-- The tokens of a row of derivations deliver forms. `place` says what is open when some forms are
there already. -/
theorem passes_yieldAll {ds : List Derivation} (h : ∀ d ∈ ds, Delivers room d)
    (place : List Value → Reading)
    (hplace : ∀ vs v, deliver (place vs).forms (place vs).pending v = place (v :: vs))
    (hts : ts.map Token.kind = Derivation.yieldAll ds) (vs : List Value) :
    Passes (fun r' => ∃ vs', r' = place vs') ((place vs).run room ts) := by
  induction ds generalizing ts vs with
  | nil =>
    obtain rfl := List.map_eq_nil_iff.1 hts
    exact ⟨vs, rfl⟩
  | cons d ds ih =>
    rw [Derivation.yieldAll] at hts
    obtain ⟨ts₁, ts₂, rfl, hts₁, hts₂⟩ := List.map_eq_append_iff.1 hts
    refine passes_run_append (h d List.mem_cons_self ts₁ (place vs) hts₁) ?_
    rintro _ ⟨v, rfl⟩
    rw [hplace]
    exact ih (fun e he => h e (List.mem_cons_of_mem d he)) hts₂ (v :: vs)

theorem delivers (room : Nat) (d : Derivation) : Delivers room d := by
  induction d using Derivation.induction_forms with
  | atom text =>
    intro ts r hts
    obtain ⟨⟨_, p⟩, _, rfl, rfl, hnil⟩ := List.map_eq_cons_iff.1 hts
    obtain rfl := List.map_eq_nil_iff.1 hnil
    refine passes_run_cons ?_ fun r' h => h
    exact passes_atom r text
  | string body =>
    intro ts r hts
    obtain ⟨⟨_, p⟩, _, rfl, rfl, hnil⟩ := List.map_eq_cons_iff.1 hts
    obtain rfl := List.map_eq_nil_iff.1 hnil
    exact ⟨_, rfl⟩
  | mark m form ih =>
    intro ts r hts
    obtain ⟨⟨_, p⟩, ts', rfl, rfl, hts'⟩ := List.map_eq_cons_iff.1 hts
    refine passes_run_cons (passes_enter room r (.mark m p)) ?_
    rintro _ rfl
    refine Passes.mono (ih ts' _ hts') ?_
    rintro _ ⟨v, rfl⟩
    exact ⟨m.apply v, rfl⟩
  | list b forms ih =>
    intro ts r hts
    obtain ⟨⟨_, p⟩, ts', rfl, rfl, hts'⟩ := List.map_eq_cons_iff.1 hts
    obtain ⟨items, closer, rfl, hitems, hcloser⟩ := List.map_eq_append_iff.1 hts'
    obtain ⟨⟨_, q⟩, _, rfl, rfl, hnil⟩ := List.map_eq_cons_iff.1 hcloser
    obtain rfl := List.map_eq_nil_iff.1 hnil
    refine passes_run_cons (passes_enter room r (.list b p [])) ?_
    rintro _ rfl
    have hrow := passes_yieldAll ih (fun vs => ⟨r.forms, .list b p vs :: r.pending⟩)
      (fun _ _ => rfl) hitems []
    refine passes_run_append hrow ?_
    rintro _ ⟨vs, rfl⟩
    rw [run_closer]
    exact ⟨_, rfl⟩

/-- A row of derivations is read without a fault of syntax. -/
theorem not_derived_of_invalid {fault : SyntaxFault}
    (h : empty.run room ts = .error (.invalid fault)) (ds : List Derivation) :
    ts.map Token.kind ≠ Derivation.yieldAll ds := by
  intro hts
  have hpasses := passes_yieldAll (fun d _ => delivers room d) (fun vs => ⟨vs, []⟩)
    (fun _ _ => rfl) hts []
  exact hpasses.ne_invalid fault h

/-- A token that the reader cannot take after others is the first bad one. -/
theorem firstBad_of_step {fault : SyntaxFault} (h : empty.run readingRoom ts = .ok r)
    (hstep : r.step readingRoom t = .error (.invalid fault)) : FirstBad ts t := by
  have hrun (more : List Token) :
      empty.run readingRoom (ts ++ t :: more) = .error (.invalid fault) := by
    rw [run_append, h]
    exact run_cons_of_error hstep more
  have hunderivable (more : List Token) (ds : List Derivation) :
      (ts ++ t :: more).map Token.kind ≠ Derivation.yieldAll ds :=
    not_derived_of_invalid (hrun more) ds
  refine ⟨continuable_of_run h, hunderivable, fun more forms hread => ?_⟩
  obtain ⟨ds, hds⟩ := exists_yieldAll_of_readTokens hread
  exact hunderivable more ds hds

/-! ## What is open -/

/-- The opening bracket of a list that waits for its closing bracket. -/
def opener? : Pending → Option Token
  | .list b p _ => some ⟨.opener b, p⟩
  | .mark .. => none

/-- What the reader holds as open is what is open in the tokens that it has gone through. -/
structure Tracks (r : Reading) (ts : List Token) : Prop where
  openers : openers ts = r.pending.filterMap opener?
  marked : ∀ m p, (∃ outer, r.pending = .mark m p :: outer) ↔ ts.getLast? = some ⟨.mark m, p⟩

/-- A form that is delivered leaves all lists open. -/
theorem filterMap_deliver (forms : List Value) (pending : List Pending) (v : Value) :
    (deliver forms pending v).pending.filterMap opener? = pending.filterMap opener? := by
  induction pending generalizing v with
  | nil => rfl
  | cons waiting outer ih =>
    cases waiting with
    | list b p items => rfl
    | mark m p => exact ih (m.apply v)

/-- After a form has been delivered, no mark waits. -/
theorem deliver_ne_mark (forms : List Value) (pending : List Pending) (v : Value) (m : Mark)
    (p : Position) : ¬ ∃ outer, (deliver forms pending v).pending = .mark m p :: outer := by
  induction pending generalizing v with
  | nil => exact fun ⟨_, h⟩ => nomatch h
  | cons waiting outer ih =>
    cases waiting with
    | list b q items => exact fun ⟨_, h⟩ => nomatch h
    | mark m' q => exact ih (m'.apply v)

theorem tracks_deliver {forms : List Value} {pending : List Pending} {v : Value}
    (hopeners : openers (ts ++ [t]) = pending.filterMap opener?)
    (hmark : ∀ m, t.kind ≠ .mark m) : Tracks (deliver forms pending v) (ts ++ [t]) := by
  refine ⟨by rw [filterMap_deliver, hopeners], fun m p => ?_⟩
  rw [List.getLast?_concat]
  refine iff_of_false (deliver_ne_mark forms pending v m p) fun h => hmark m ?_
  rw [Option.some.inj h]

/-- One token more is tracked. -/
theorem tracks_step (hr : Tracks r ts) (h : r.step room t = .ok r') : Tracks r' (ts ++ [t]) := by
  -- Only a mark makes one wait. Every other token opens or closes a list, or delivers a form.
  have hopeners := openers_concat ts t
  rw [hr.openers] at hopeners
  obtain ⟨kind, p⟩ := t
  cases kind with
  | opener b =>
    obtain ⟨-, rfl⟩ := eq_of_enter h
    refine ⟨hopeners, fun m q => iff_of_false (fun ⟨_, heq⟩ => nomatch heq) ?_⟩
    rw [List.getLast?_concat]
    exact fun heq => nomatch heq
  | closer b =>
    obtain ⟨q, items, outer, hpending, rfl⟩ := eq_of_close h
    rw [hpending] at hopeners
    exact tracks_deliver hopeners nofun
  | mark m =>
    obtain ⟨-, rfl⟩ := eq_of_enter h
    refine ⟨hopeners, fun m' q => ?_⟩
    rw [List.getLast?_concat]
    constructor
    · rintro ⟨outer, heq⟩
      cases heq
      rfl
    · intro heq
      cases heq
      exact ⟨_, rfl⟩
  | string body =>
    cases h
    exact tracks_deliver hopeners nofun
  | atom text =>
    obtain ⟨v, -, rfl⟩ := eq_of_atom h
    exact tracks_deliver hopeners nofun

theorem tracks_run {us : List Token} (hr : Tracks r us) (h : r.run room ts = .ok r') :
    Tracks r' (us ++ ts) := by
  induction ts generalizing r us with
  | nil =>
    cases h
    rw [List.append_nil]
    exact hr
  | cons t ts ih =>
    rw [run] at h
    cases hstep : r.step room t with
    | error fault => rw [hstep] at h; cases h
    | ok r'' =>
      rw [hstep] at h
      have hts := ih (tracks_step hr hstep) h
      rwa [List.append_assoc, List.singleton_append] at hts

/-- What is open after all tokens is what the reader holds as open. -/
theorem tracks_of_run (h : empty.run room ts = .ok r) : Tracks r ts := by
  have hempty : Tracks empty [] :=
    ⟨rfl, fun m p => iff_of_false (fun ⟨_, h⟩ => nomatch h) fun h => nomatch h⟩
  exact tracks_run hempty h

/-! ## Where the reader stops -/

/-- A fault arises at the first token that the reader cannot take. -/
theorem exists_step_of_error {fault : ReadFault} (h : r.run room ts = .error fault) :
    ∃ before t after r', ts = before ++ t :: after ∧ r.run room before = .ok r' ∧
      r'.step room t = .error fault := by
  induction ts generalizing r with
  | nil => cases h
  | cons t ts ih =>
    cases hstep : r.step room t with
    | error fault' =>
      rw [run_cons_of_error hstep] at h
      cases h
      exact ⟨[], t, ts, r, rfl, rfl, hstep⟩
    | ok r' =>
      rw [run_cons_of_step hstep] at h
      obtain ⟨before, t', after, r'', rfl, hbefore, hend⟩ := ih h
      exact ⟨t :: before, t', after, r'', rfl, (run_cons_of_step hstep before).trans hbefore, hend⟩

/-- Of all tokens only a closing bracket makes a source not well formed. -/
theorem eq_closer_of_step {fault : SyntaxFault} (h : r.step room t = .error (.invalid fault)) :
    ∃ b p, t = ⟨.closer b, p⟩ ∧ r.close b p = .error (.invalid fault) := by
  obtain ⟨kind, p⟩ := t
  cases kind with
  | closer b => exact ⟨b, p, rfl, h⟩
  | opener b => exact absurd h ((passes_enter room r (.list b p [])).ne_invalid fault)
  | mark m => exact absurd h ((passes_enter room r (.mark m p)).ne_invalid fault)
  | string body => cases h
  | atom text => exact absurd h ((passes_atom r text).ne_invalid fault)

/-- A closing bracket that the reader cannot take is the one that is blamed. -/
theorem blames_of_close {before after : List Token} {b : Bracket} {p : Position}
    {fault : SyntaxFault} (hbefore : empty.run readingRoom before = .ok r)
    (hclose : r.close b p = .error (.invalid fault)) :
    Blames (before ++ ⟨.closer b, p⟩ :: after) ⟨.closer b, p⟩ fault := by
  have htracks := tracks_of_run hbefore
  have hbad : FirstBad before ⟨.closer b, p⟩ := firstBad_of_step hbefore hclose
  unfold close at hclose
  cases hpending : r.pending with
  | nil =>
    rw [hpending] at hclose
    cases hclose
    refine ⟨rfl, before, after, rfl, hbad, Or.inl ?_⟩
    rw [htracks.openers, hpending]
    rfl
  | cons waiting outer =>
    rw [hpending] at hclose
    cases waiting with
    | mark m q =>
      cases hclose
      exact ⟨rfl, before, after, rfl, hbad, Or.inr ⟨m, q, (htracks.marked m q).1 ⟨outer, hpending⟩⟩⟩
    | list b' q items =>
      dsimp only at hclose
      split at hclose
      · cases hclose
      next hne =>
        cases hclose
        refine ⟨rfl, before, after, rfl, hbad, hne, q, ?_⟩
        rw [htracks.openers, hpending]
        rfl

/-- Where more tokens are missing, the innermost thing that is open is blamed. -/
theorem blames_of_finish {fault : SyntaxFault} (hrun : empty.run readingRoom ts = .ok r)
    (hfinish : r.finish = .error (.invalid fault)) : ∃ t ∈ ts, Blames ts t fault := by
  have htracks := tracks_of_run hrun
  have hcontinuable := continuable_of_run hrun
  unfold finish at hfinish
  cases hpending : r.pending with
  | nil => rw [hpending] at hfinish; cases hfinish
  | cons waiting outer =>
    rw [hpending] at hfinish
    cases waiting with
    | mark m p =>
      cases hfinish
      have hlast := (htracks.marked m p).1 ⟨outer, hpending⟩
      exact ⟨_, List.mem_of_getLast? hlast, rfl, hcontinuable, hlast⟩
    | list b p items =>
      cases hfinish
      have hhead : (openers ts).head? = some ⟨.opener b, p⟩ := by
        rw [htracks.openers, hpending]
        rfl
      refine ⟨_, mem_of_mem_openers (List.mem_of_head? hhead), rfl, hcontinuable, hhead,
        fun m q hlast => ?_⟩
      obtain ⟨outer', hmark⟩ := (htracks.marked m q).2 hlast
      rw [hpending] at hmark
      cases hmark

end Reading

/-- The report on a source that is not well formed points at the token that is blamed. Let every
string of a source be closed. If the source is not well formed, one of its tokens is blamed, and the
report gives the line and the column of that token. A closing bracket is blamed if the tokens before
it can be continued to a source with forms, and with it they cannot; where it is the wrong one, the
innermost list that is open was opened in the other style. If all tokens can be continued, the last
one is blamed just if it is a mark, and else the innermost opening bracket that is still open. -/
theorem readForms_blames {source : String} {fault : SyntaxFault}
    (hclosed : (tokenize source.toList).unclosed = none)
    (h : readForms source = .error (.invalid fault)) :
    ∃ t ∈ (tokenize source.toList).tokens, Blames (tokenize source.toList).tokens t fault ∧
      (fault.report source).line = t.position.line ∧
      (fault.report source).column = t.position.column := by
  rw [readForms_of_closed hclosed] at h
  generalize (tokenize source.toList).tokens = ts at h ⊢
  suffices hblames : ∃ t ∈ ts, Blames ts t fault by
    obtain ⟨t, ht, hblames⟩ := hblames
    have hline : (fault.report source).line = t.position.line := by
      rw [SyntaxFault.report, hblames.position]
      rfl
    have hcolumn : (fault.report source).column = t.position.column := by
      rw [SyntaxFault.report, hblames.position]
      rfl
    exact ⟨t, ht, hblames, hline, hcolumn⟩
  unfold readTokens at h
  cases hrun : Reading.empty.run readingRoom ts with
  | ok r =>
    rw [hrun] at h
    exact Reading.blames_of_finish hrun h
  | error fault' =>
    rw [hrun] at h
    cases h
    obtain ⟨before, t, after, r, rfl, hbefore, hstep⟩ := Reading.exists_step_of_error hrun
    obtain ⟨b, p, rfl, hclose⟩ := Reading.eq_closer_of_step hstep
    refine ⟨_, ?_, Reading.blames_of_close hbefore hclose⟩
    exact List.mem_append_right before List.mem_cons_self

/-- A list that is closed in the other style, behind a mark on the second line, is blamed on the
bracket that closes it. -/
theorem readForms_blames_closer :
    let source := "(a [b\n 'c )"
    let fault := SyntaxFault.mismatchedCloser .round .square ⟨2, 5⟩
    readForms source = .error (.invalid fault) ∧
      ∃ t ∈ (tokenize source.toList).tokens, Blames (tokenize source.toList).tokens t fault ∧
        (fault.report source).line = t.position.line ∧
        (fault.report source).column = t.position.column := by
  intro source fault
  have hlexemes : lexemes source.toList =
      ([.token (.opener .round), .token (.atom ['a']), .blanks [' '], .token (.opener .square),
        .token (.atom ['b']), .blanks ['\n', ' '], .token (.mark .quote), .token (.atom ['c']),
        .blanks [' '], .token (.closer .round)], []) := by
    decide +kernel
  have hclosed : (tokenize source.toList).unclosed = none := by
    unfold tokenize
    rw [hlexemes]
    rfl
  have hread : readForms source = .error (.invalid fault) := by
    rw [readForms_of_lexemes hlexemes]
    rfl
  exact ⟨hread, readForms_blames hclosed hread⟩

end Fexpr
