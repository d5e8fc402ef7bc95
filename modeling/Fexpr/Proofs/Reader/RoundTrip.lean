import Fexpr.Proofs.Token.Pattern
import Fexpr.Proofs.Value.Written
import Fexpr.Reader

/-!
# Reading what was written

Main statement (`read_render`): a readable tree is read back from its written form, rows of them are
read back from their written forms with blanks between, and the reader builds no other trees.

The reader builds a tree from its lexemes whatever is open around them (`Reading.Builds`). What it
holds between two tokens is readable and nests no deeper than there is room (`Reading.Sound`), which
one token keeps (`sound_step`) and so all tokens do (`sound_run`).
-/

namespace Fexpr

/-! ## The reader builds the tree -/

namespace Reading

variable {room : Nat}

theorem run_append (r : Reading) (ts us : List Token) :
    r.run room (ts ++ us) = (r.run room ts).bind fun r => r.run room us := by
  induction ts generalizing r with
  | nil => rfl
  | cons t ts ih =>
    simp only [List.cons_append, run]
    cases r.step room t with
    | error e => rfl
    | ok r' => exact ih r'

theorem run_cons_of_step {r r' : Reading} {t : Token} (h : r.step room t = .ok r')
    (ts : List Token) : r.run room (t :: ts) = r'.run room ts := by
  rw [run, h]
  rfl

/-- What opens something had room for it. -/
theorem eq_of_enter {r r' : Reading} {p : Pending} (h : r.enter room p = .ok r') :
    r.pending.length < room ∧ r' = ⟨r.forms, p :: r.pending⟩ := by
  unfold enter at h
  split at h
  next hlt => exact ⟨hlt, (Except.ok.inj h).symm⟩
  · cases h

/-- What closes a list delivers its items. -/
theorem eq_of_close {r r' : Reading} {b : Bracket} {p : Position} (h : r.close b p = .ok r') :
    ∃ q items outer, r.pending = .list b q items :: outer ∧
      r' = deliver r.forms outer (.ofItems items.reverse) := by
  unfold close at h
  split at h
  next b' q items outer hpending =>
    split at h
    next hb =>
      subst hb
      exact ⟨q, items, outer, hpending, (Except.ok.inj h).symm⟩
    · cases h
  · cases h

/-- An atom delivers its value. -/
theorem eq_of_atom {r r' : Reading} {text : List Char} {p : Position}
    (h : r.step room ⟨.atom text, p⟩ = .ok r') :
    ∃ v, atom text = .ok v ∧ r' = deliver r.forms r.pending v := by
  change (atom text).map (deliver r.forms r.pending) = .ok r' at h
  cases hv : atom text with
  | error fault => rw [hv] at h; cases h
  | ok v =>
    rw [hv] at h
    exact ⟨v, rfl, (Except.ok.inj h).symm⟩

theorem run_opener {r : Reading} (h : r.pending.length < room) (b : Bracket) (p : Position)
    (ts : List Token) :
    r.run room (⟨.opener b, p⟩ :: ts) = run room ⟨r.forms, .list b p [] :: r.pending⟩ ts := by
  have hstep : r.step room ⟨.opener b, p⟩ = .ok ⟨r.forms, .list b p [] :: r.pending⟩ := if_pos h
  exact run_cons_of_step hstep ts

theorem run_mark {r : Reading} (h : r.pending.length < room) (m : Mark) (p : Position)
    (ts : List Token) :
    r.run room (⟨.mark m, p⟩ :: ts) = run room ⟨r.forms, .mark m p :: r.pending⟩ ts := by
  have hstep : r.step room ⟨.mark m, p⟩ = .ok ⟨r.forms, .mark m p :: r.pending⟩ := if_pos h
  exact run_cons_of_step hstep ts

theorem run_closer (forms items : List Value) (b : Bracket) (p q : Position)
    (outer : List Pending) :
    run room ⟨forms, .list b p items :: outer⟩ [⟨.closer b, q⟩]
      = .ok (deliver forms outer (.ofItems items.reverse)) := by
  have hstep : step room ⟨forms, .list b p items :: outer⟩ ⟨.closer b, q⟩
      = .ok (deliver forms outer (.ofItems items.reverse)) := if_pos rfl
  exact run_cons_of_step hstep []

/-- What the tokens of a written tree do: they hand the tree to what is open. -/
def Builds (room : Nat) (t : Value) : Prop :=
  ∀ (p : Position) (r : Reading), r.pending.length + t.nesting ≤ room →
    r.run room (Token.placed p t.written) = .ok (deliver r.forms r.pending t.asRead)

/-- An atom that is read as a value hands that value on. -/
theorem run_atom {text : List Char} {v : Value} (h : atom text = .ok v) (p : Position)
    (r : Reading) :
    r.run room (Token.placed p [.token (.atom text)]) = .ok (deliver r.forms r.pending v) := by
  have hstep : r.step room ⟨.atom text, p⟩ = .ok (deliver r.forms r.pending v) := by
    change (atom text).map (deliver r.forms r.pending) = _
    rw [h]
    rfl
  exact run_cons_of_step hstep []

theorem atom_symbol {name : String} (h : IsName name) : atom name.toList = .ok (.symbol name) := by
  have hnil : name.toList ≠ ['n', 'i', 'l'] := by
    intro he
    exact h.ne_nil (String.toList_inj.1 he)
  rw [atom, Text.Numeral.ofText?_eq_none_iff.2 h.not_numeral]
  simp only [if_neg hnil, String.ofList_toList]

theorem atom_number {n : Int} (h : (Nat.toDigits 10 n.natAbs).length ≤ Text.digitLimit) :
    atom (Text.integerText n) = .ok (.number n) := by
  obtain ⟨numeral, hread, hvalue, hdigits⟩ := Text.ofText?_integerText n
  rw [← hdigits] at h
  rw [atom, hread]
  simp only [if_pos h, hvalue]

/-- A row of trees goes where each tree goes, the last one first. `place` says what is open when
some trees are there already. -/
theorem run_writtenItems {items : List Value} (h : ∀ v ∈ items, Builds room v)
    (place : List Value → Reading) (depth : Nat)
    (hplace : ∀ vs v, deliver (place vs).forms (place vs).pending v = place (v :: vs))
    (hdepth : ∀ vs, (place vs).pending.length = depth)
    (hroom : depth + Value.nestingOfAll items ≤ room) (p : Position) (vs : List Value) :
    (place vs).run room (Token.placed p (Value.writtenItems items))
      = .ok (place ((items.map Value.asRead).reverse ++ vs)) := by
  induction items generalizing p vs with
  | nil => rfl
  | cons w ws ih =>
    rw [Value.nestingOfAll] at hroom
    have hw := h w List.mem_cons_self p (place vs) (by rw [hdepth]; omega)
    rw [hplace] at hw
    have hws := ih (fun v hv => h v (List.mem_cons_of_mem w hv)) (by omega)
    cases ws with
    | nil =>
      rw [Value.writtenItems, hw]
      rfl
    | cons x xs =>
      rw [Value.writtenItems, Token.placed_append, run_append, hw]
      -- the blank between two trees leaves no token
      exact (hws _ (w.asRead :: vs)).trans (by simp)

theorem builds_of_readable {t : Value} (ht : t.Readable) : Builds room t := by
  induction t using Value.induction_parts with
  | step t ih =>
    intro p r hroom
    cases t with
    | symbol name => exact run_atom (atom_symbol ht.here) p r
    | number n => exact run_atom (atom_number ht.here) p r
    | string text =>
      refine run_cons_of_step ?_ []
      simp [step, Text.StringLiteral.unescape_escape, Value.asRead]
    | list items made =>
      rw [Value.nesting] at hroom
      have hbuilds : ∀ v ∈ items, Builds room v := fun v hv => ih v hv (ht.item hv)
      have hitems := run_writtenItems hbuilds
        (fun vs => ⟨r.forms, .list .round p vs :: r.pending⟩) (r.pending.length + 1)
        (fun _ _ => rfl) (fun _ => rfl) (by omega) (p.advance ['(']) []
      have hne : items.map Value.asRead ≠ [] := fun h => ht.here (List.map_eq_nil_iff.1 h)
      refine (run_opener (by omega) .round p _).trans ?_
      refine (congrArg _ (Token.placed_append _ _ _)).trans ?_
      refine (run_append _ _ _).trans ?_
      refine (congrArg (Except.bind · _) hitems).trans ?_
      refine (run_closer _ _ _ _ _ _).trans ?_
      rw [List.append_nil, List.reverse_reverse, Value.asRead, Value.allAsRead_eq_map,
        Value.ofItems_of_ne_nil hne]
    | quote body =>
      rw [Value.nesting] at hroom
      refine (run_mark (by omega) .quote p _).trans ?_
      exact ih body (List.mem_singleton.2 rfl) ht.quoted _ _
        (by simp only [List.length_cons]; omega)
    | unquote body =>
      rw [Value.nesting] at hroom
      refine (run_mark (by omega) .unquote p _).trans ?_
      exact ih body (List.mem_singleton.2 rfl) ht.unquoted _ _
        (by simp only [List.length_cons]; omega)
    | nil => exact run_atom rfl p r
    | _ => exact absurd ht.here id

/-! ## The reader builds nothing else -/

/-- A tree that may be built with `depth` lists and marks around it: it is readable, its lists have
no numbers, and there is room for it. -/
structure Built (room depth : Nat) (v : Value) : Prop where
  readable : v.Readable
  asRead_eq : v.asRead = v
  fits : depth + v.nesting ≤ room

/-- What waits for forms holds only trees that may be built there. -/
def PendingSound (room : Nat) : List Pending → Prop
  | [] => True
  | .list _ _ items :: outer =>
    outer.length + 1 ≤ room ∧ (∀ v ∈ items, Built room (outer.length + 1) v) ∧
      PendingSound room outer
  | .mark _ _ :: outer => outer.length + 1 ≤ room ∧ PendingSound room outer

/-- The reader between two tokens holds only trees that may be built where they are. -/
structure Sound (room : Nat) (r : Reading) : Prop where
  forms : ∀ v ∈ r.forms, Built room 0 v
  pending : PendingSound room r.pending

theorem length_le_of_pendingSound {pending : List Pending} (h : PendingSound room pending) :
    pending.length ≤ room := by
  cases pending with
  | nil => exact Nat.zero_le room
  | cons waiting outer =>
    cases waiting with
    | list => exact h.1
    | mark => exact h.1

/-- A readable leaf may stand wherever there is room. -/
theorem Built.leaf {depth : Nat} {v : Value} (hnode : v.IsReadableNode) (hparts : v.parts = [])
    (hread : v.asRead = v) (hnesting : v.nesting = 0) (hroom : depth ≤ room) :
    Built room depth v := by
  refine ⟨.leaf hnode hparts, hread, ?_⟩
  omega

theorem Built.mark {depth : Nat} {v : Value} (h : Built room (depth + 1) v) (m : Mark) :
    Built room depth (m.apply v) := by
  have hfits := h.fits
  cases m with
  | quote =>
    refine ⟨.node trivial fun w hw => ?_, ?_, ?_⟩
    · exact List.mem_singleton.1 hw ▸ h.readable
    · rw [Mark.apply, Value.asRead, h.asRead_eq]
    · rw [Mark.apply, Value.nesting]; omega
  | unquote =>
    refine ⟨.node trivial fun w hw => ?_, ?_, ?_⟩
    · exact List.mem_singleton.1 hw ▸ h.readable
    · rw [Mark.apply, Value.asRead, h.asRead_eq]
    · rw [Mark.apply, Value.nesting]; omega

theorem Built.ofItems {depth : Nat} {items : List Value} (hroom : depth + 1 ≤ room)
    (h : ∀ v ∈ items, Built room (depth + 1) v) : Built room depth (.ofItems items) := by
  cases items with
  | nil => exact Built.leaf (v := .nil) trivial rfl rfl rfl (by omega)
  | cons w ws =>
    change Built room depth (.list (w :: ws) none)
    refine ⟨.node (List.cons_ne_nil w ws) fun v hv => (h v hv).readable, ?_, ?_⟩
    · have hmap : (w :: ws).map Value.asRead = w :: ws :=
        (List.map_congr_left fun v hv => (h v hv).asRead_eq).trans (List.map_id _)
      rw [Value.asRead, Value.allAsRead_eq_map, hmap]
    · have hle := Value.nestingOfAll_le (n := room - (depth + 1)) fun v hv => by
        have := (h v hv).fits
        omega
      rw [Value.nesting]
      omega

theorem sound_deliver {forms : List Value} (hforms : ∀ v ∈ forms, Built room 0 v)
    {pending : List Pending} (hpending : PendingSound room pending) {v : Value}
    (hv : Built room pending.length v) : Sound room (deliver forms pending v) := by
  induction pending generalizing v with
  | nil =>
    refine ⟨fun w hw => ?_, trivial⟩
    rcases List.mem_cons.1 hw with rfl | hw
    · exact hv
    · exact hforms w hw
  | cons waiting outer ih =>
    cases waiting with
    | list b p items =>
      refine ⟨hforms, hpending.1, fun w hw => ?_, hpending.2.2⟩
      rcases List.mem_cons.1 hw with rfl | hw
      · exact hv
      · exact hpending.2.1 w hw
    | mark m p => exact ih hpending.2 (Built.mark hv m)

/-- What an atom is read as may stand anywhere. -/
theorem built_of_atom {text : List Char} {v : Value} {depth : Nat}
    (htext : (Token.Kind.atom text).Legible) (h : atom text = .ok v) (hroom : depth ≤ room) :
    Built room depth v := by
  unfold atom at h
  split at h
  · rename_i numeral hread
    split at h
    · rename_i hdigits
      cases h
      have hlt := Text.natAbs_value_lt_tooLongFrom hdigits
      exact Built.leaf ((Text.length_toDigits_le_digitLimit_iff _).2 hlt) rfl rfl rfl hroom
    · cases h
  · rename_i hread
    have hread := Text.Numeral.ofText?_eq_none_iff.1 hread
    cases h
    split
    · exact Built.leaf trivial rfl rfl rfl hroom
    · rename_i hnil
      have hname : IsName (String.ofList text) := by
        refine ⟨fun he => htext.1 ?_, ?_, fun he => hnil ?_, ?_⟩
        · simpa using congrArg String.toList he
        · simpa using htext.2
        · simpa using congrArg String.toList he
        · simpa using hread
      exact Built.leaf hname rfl rfl rfl hroom

/-- One token keeps the reader sound. -/
theorem sound_step {r r' : Reading} {t : Token} (ht : t.kind.Legible) (hr : Sound room r)
    (h : r.step room t = .ok r') : Sound room r' := by
  -- One case for each kind of token. Only what opens something asks for room.
  have hlength := length_le_of_pendingSound hr.pending
  obtain ⟨kind, p⟩ := t
  cases kind with
  | opener b =>
    obtain ⟨hlt, rfl⟩ := eq_of_enter h
    exact ⟨hr.forms, hlt, by simp, hr.pending⟩
  | closer b =>
    obtain ⟨q, items, outer, hpending, rfl⟩ := eq_of_close h
    have hsound := hr.pending
    rw [hpending] at hsound
    refine sound_deliver hr.forms hsound.2.2 (Built.ofItems hsound.1 fun v hv => ?_)
    exact hsound.2.1 v (List.mem_reverse.1 hv)
  | mark m =>
    obtain ⟨hlt, rfl⟩ := eq_of_enter h
    exact ⟨hr.forms, hlt, hr.pending⟩
  | string body =>
    cases h
    exact sound_deliver hr.forms hr.pending (Built.leaf trivial rfl rfl rfl hlength)
  | atom text =>
    obtain ⟨v, hv, rfl⟩ := eq_of_atom h
    exact sound_deliver hr.forms hr.pending (built_of_atom ht hv hlength)

/-- All tokens keep the reader sound. -/
theorem sound_run {ts : List Token} (hts : ∀ t ∈ ts, t.kind.Legible) {r r' : Reading}
    (hr : Sound room r) (h : r.run room ts = .ok r') : Sound room r' := by
  induction ts generalizing r with
  | nil => cases h; exact hr
  | cons t ts ih =>
    rw [run] at h
    cases hstep : r.step room t with
    | error e => rw [hstep] at h; cases h
    | ok r'' =>
      rw [hstep] at h
      exact ih (fun u hu => hts u (List.mem_cons_of_mem t hu))
        (sound_step (hts t List.mem_cons_self) hr hstep) h

end Reading

/-! ## Sources -/

/-- What a source is read as, once its lexemes are known. -/
theorem readForms_of_lexemes {source : String} {ls : List Lexeme}
    (h : lexemes source.toList = (ls, [])) :
    readForms source = readTokens (Token.placed .start ls) := by
  unfold readForms tokenize
  rw [h]
  rfl

/-- A source that spells a row of readable trees is read as these trees. -/
theorem readForms_of_spelling {source : String} {ts : List Value}
    (hts : ∀ t ∈ ts, t.Readable ∧ t.nesting ≤ readingRoom)
    (hsource : source.toList = [' '].intercalate (ts.map Value.spelling)) :
    readForms source = .ok (ts.map Value.asRead) := by
  -- The lexer finds the lexemes again, and the reader builds the trees with nothing open around
  -- them.
  have hcuts : Cuts (Value.writtenItems ts) [] :=
    Value.cuts_writtenItems (fun t ht => ⟨(hts t ht).1, Value.cuts_written (hts t ht).1⟩) stops_nil
  unfold Cuts at hcuts
  rw [Value.writtenItems_spelling, ← hsource, lexemes_nil, List.append_nil, List.append_nil]
    at hcuts
  have hrun := Reading.run_writtenItems
    (fun t ht => Reading.builds_of_readable (hts t ht).1) (fun vs => ⟨vs, []⟩) 0
    (fun _ _ => rfl) (fun _ => rfl)
    ((Nat.zero_add _).trans_le (Value.nestingOfAll_le fun t ht => (hts t ht).2)) .start []
  rw [readForms_of_lexemes hcuts, readTokens]
  refine (congrArg (Except.bind · Reading.finish) hrun).trans ?_
  refine congrArg Except.ok ?_
  rw [List.append_nil, List.reverse_reverse]

/-- Every form of a source is a tree that may be built with nothing around it. -/
theorem built_of_readForms {source : String} {forms : List Value}
    (h : readForms source = .ok forms) : ∀ f ∈ forms, Reading.Built readingRoom 0 f := by
  unfold readForms tokenize at h
  dsimp only at h
  split at h
  · cases h
  · unfold readTokens at h
    cases hrun : Reading.empty.run readingRoom
        (Token.placed .start (lexemes source.toList).1) with
    | error e => rw [hrun] at h; cases h
    | ok r =>
      rw [hrun] at h
      have hempty : Reading.Sound readingRoom Reading.empty := ⟨by simp [Reading.empty], trivial⟩
      have hsound := Reading.sound_run
        (fun t ht => legible_of_mem_lexemes (Token.mem_of_mem_placed ht)) hempty hrun
      change r.finish = .ok forms at h
      unfold Reading.finish at h
      split at h
      · cases h
        exact fun f hf => hsound.forms f (List.mem_reverse.1 hf)
      · cases h
      · cases h

/-- The one form of a source that holds just one. -/
theorem readForm_eq_ok_iff {source : String} {f : Value} :
    readForm source = .ok f ↔ readForms source = .ok [f] := by
  unfold readForm
  cases h : readForms source with
  | error e => simp [bind, Except.bind]
  | ok forms =>
    match forms with
    | [] => simp [bind, Except.bind]
    | [g] => simp [bind, Except.bind]
    | g :: g' :: gs => simp [bind, Except.bind]

/-- The texts of readable trees, with a blank between two of them, are read as these trees. -/
theorem readForms_texts {ts : List Value} {room : Nat} {texts : List String}
    (hts : ∀ t ∈ ts, t.Readable ∧ t.nesting ≤ readingRoom)
    (htexts : ts.mapM (Value.render room) = .ok texts) :
    readForms (" ".intercalate texts) = .ok (ts.map Value.asRead) := by
  refine readForms_of_spelling hts ?_
  rw [String.toList_intercalate, Value.toList_of_mapM_render (fun t ht => (hts t ht).1) htexts]
  rfl

/-- The text of a readable tree is read as that tree. -/
theorem readForm_text {t : Value} {room : Nat} {text : String} (ht : t.Readable)
    (hnesting : t.nesting ≤ readingRoom) (htext : t.render room = .ok text) :
    readForm text = .ok t.asRead := by
  have hone : ∀ u ∈ [t], u.Readable ∧ u.nesting ≤ readingRoom := by
    intro u hu
    obtain rfl := List.mem_singleton.1 hu
    exact ⟨ht, hnesting⟩
  refine readForm_eq_ok_iff.2 (readForms_of_spelling hone ?_)
  rw [List.map_cons, List.map_nil, List.intercalate_singleton]
  exact Value.toList_of_render ht htext

/-- Reading undoes writing, on exactly the trees that are read: a readable tree has a text, which is
read as a tree equal to it; so have rows of readable trees, a blank between two of them; whatever is
read is readable; so forms that are read differ in their texts, and reading the text of a form that
was read gives that form. -/
theorem read_render :
    (∀ (t : Value) (room : Nat), t.Readable → t.nesting < room →
      ∃ text, t.render room = .ok text ∧
        (t.nesting ≤ readingRoom →
          readForm text = .ok t.asRead ∧ Value.same? room t.asRead t = some true)) ∧
    (∀ (ts : List Value) (room : Nat), (∀ t ∈ ts, t.Readable ∧ t.nesting < room) →
      ∃ texts, ts.mapM (Value.render room) = .ok texts ∧
        ((∀ t ∈ ts, t.nesting ≤ readingRoom) →
          readForms (" ".intercalate texts) = .ok (ts.map Value.asRead))) ∧
    (∀ source forms, readForms source = .ok forms →
      ∀ f ∈ forms, f.Readable ∧ f.asRead = f ∧ f.nesting ≤ readingRoom) ∧
    (∀ source source' forms forms', readForms source = .ok forms → readForms source' = .ok forms' →
      ∀ f ∈ forms, ∀ f' ∈ forms', ∀ room room' text,
        f.render room = .ok text → f'.render room' = .ok text → f = f') ∧
    (∀ source f room text, readForm source = .ok f → f.render room = .ok text →
      readForm text = .ok f) ∧
    (∀ source forms room texts, readForms source = .ok forms →
      forms.mapM (Value.render room) = .ok texts →
      readForms (" ".intercalate texts) = .ok forms) := by
  refine ⟨?_, ?_, ?_, ?_, ?_, ?_⟩
  · intro t room ht hroom
    obtain ⟨text, htext, -⟩ := Value.render_of_readable ht hroom
    exact ⟨text, htext, fun hnesting =>
      ⟨readForm_text ht hnesting htext, Value.same?_asRead t room hroom⟩⟩
  · intro ts room hts
    obtain ⟨texts, htexts, -⟩ := Value.render_mapM fun t ht =>
      Value.render_of_readable (hts t ht).1 (hts t ht).2
    exact ⟨texts, htexts, fun hnesting =>
      readForms_texts (fun t ht => ⟨(hts t ht).1, hnesting t ht⟩) htexts⟩
  · intro source forms h f hf
    have hbuilt := built_of_readForms h f hf
    exact ⟨hbuilt.readable, hbuilt.asRead_eq, (Nat.zero_add _).symm.trans_le hbuilt.fits⟩
  · intro source source' forms forms' h h' f hf f' hf' room room' text htext htext'
    have hbuilt := built_of_readForms h f hf
    have hbuilt' := built_of_readForms h' f' hf'
    have hread := readForm_text hbuilt.readable ((Nat.zero_add _).symm.trans_le hbuilt.fits) htext
    have hread' :=
      readForm_text hbuilt'.readable ((Nat.zero_add _).symm.trans_le hbuilt'.fits) htext'
    rw [hread, hbuilt.asRead_eq, hbuilt'.asRead_eq] at hread'
    exact Except.ok.inj hread'
  · intro source f room text h htext
    have hbuilt := built_of_readForms (readForm_eq_ok_iff.1 h) f (List.mem_singleton.2 rfl)
    have hread := readForm_text hbuilt.readable ((Nat.zero_add _).symm.trans_le hbuilt.fits) htext
    rwa [hbuilt.asRead_eq] at hread
  · intro source forms room texts h htexts
    have hbuilt := built_of_readForms h
    have hread := readForms_texts
      (fun f hf => ⟨(hbuilt f hf).readable, (Nat.zero_add _).symm.trans_le (hbuilt f hf).fits⟩)
      htexts
    rwa [(List.map_congr_left fun f hf => (hbuilt f hf).asRead_eq).trans (List.map_id _)] at hread

/-- A list that was made by a program, with a sign, an escape and both marks in it, is read back. -/
theorem read_render_made_list :
    ∃ text, (Value.list [.symbol "+", .number (-5), .quote (.string "a\"b\n"), .unquote .nil]
        (some 7)).render 3 = .ok text ∧
      readForm text = .ok
        (.list [.symbol "+", .number (-5), .quote (.string "a\"b\n"), .unquote .nil] none) := by
  have hname : IsName "+" := by
    refine ⟨by decide, List.all_eq_true.1 (by decide), by decide, ?_⟩
    rw [← Text.Numeral.ofText?_eq_none_iff]
    decide
  have hreadable : (Value.list [.symbol "+", .number (-5), .quote (.string "a\"b\n"),
      .unquote .nil] (some 7)).Readable := by
    have hnumber : (Value.number (-5)).IsReadableNode := by
      change (Nat.toDigits 10 5).length ≤ Text.digitLimit
      decide
    refine .node (List.cons_ne_nil _ _) ?_
    simp only [Value.parts, List.forall_mem_cons, List.not_mem_nil, false_implies, implies_true,
      and_true]
    refine ⟨.leaf hname rfl, .leaf hnumber rfl, .node trivial ?_, .node trivial ?_⟩
    · exact fun w hw => List.mem_singleton.1 hw ▸ .leaf trivial rfl
    · exact fun w hw => List.mem_singleton.1 hw ▸ .leaf trivial rfl
  obtain ⟨text, htext, hread⟩ := read_render.1 _ 3 hreadable (by decide)
  exact ⟨text, htext, (hread (by decide)).1⟩

end Fexpr
