import Fexpr.Proofs.Reader.RoundTrip

/-!
# The grammar of sources

A source is a row of forms. A form is an atom, a string, a mark and the form after it, or a row of
forms between an opening bracket and the closing bracket of the same style. `Derivation` holds the
trees by which tokens derive from this grammar; the leaves of such a tree, from left to right, are
the tokens that it derives (`Derivation.yield`).

Main statement (`readForms_iff_derivation`): within the limits of depth and digits, the reader
accepts the sources whose tokens have a derivation, and no others; a source has no two derivations;
and the forms that are read are the translation of the one that it has.

The reader goes through the tokens of a derivation as one form, whatever is open around them
(`Reading.run_yield`). In the other direction, what it has gone through so far is spelled by what it
holds (`Reading.Spells`), which one token keeps and so all tokens do.
-/

namespace Fexpr

/-! ## Derivations -/

/-- A tree by which tokens derive from the grammar of forms. -/
inductive Derivation where
  | atom (text : List Char)
  | string (body : List Char)
  /-- A mark and the form after it. -/
  | mark (m : Mark) (form : Derivation)
  /-- Forms between the two brackets of one style. -/
  | list (bracket : Bracket) (forms : List Derivation)

/-- The value of an atom, whatever its number of digits: an integer, `nil`, or else a symbol. -/
def atomValue (text : List Char) : Value :=
  match Text.Numeral.ofText? text with
  | some numeral => .number numeral.value
  | none => if text = ['n', 'i', 'l'] then .nil else .symbol (String.ofList text)

/-- An atom is no integer with more digits than can be read. -/
def Token.Kind.IsShort : Token.Kind → Prop
  | .atom text => ∀ numeral ∈ Text.Numeral.ofText? text, numeral.digits.length ≤ Text.digitLimit
  | _ => True

instance : DecidablePred Token.Kind.IsShort
  | .atom text =>
    inferInstanceAs (Decidable (∀ numeral ∈ Text.Numeral.ofText? text,
      numeral.digits.length ≤ Text.digitLimit))
  | .opener _ | .closer _ | .mark _ | .string _ => .isTrue trivial

namespace Derivation

mutual

/-- The tokens that are derived, from left to right. -/
def yield : Derivation → List Token.Kind
  | .atom text => [.atom text]
  | .string body => [.string body]
  | .mark m form => .mark m :: form.yield
  | .list b forms => .opener b :: (yieldAll forms ++ [.closer b])

/-- The tokens that a row of forms derives. -/
def yieldAll : List Derivation → List Token.Kind
  | [] => []
  | d :: ds => d.yield ++ yieldAll ds

end

mutual

/-- The form that a derivation stands for. -/
def value : Derivation → Value
  | .atom text => atomValue text
  | .string body => .string (String.ofList (Text.StringLiteral.unescape body))
  | .mark m form => m.apply form.value
  | .list _ forms => .ofItems (valueAll forms)

/-- The forms that a row of derivations stands for. -/
def valueAll : List Derivation → List Value
  | [] => []
  | d :: ds => d.value :: valueAll ds

end

mutual

/-- How many brackets and marks are open around the innermost form. -/
def depth : Derivation → Nat
  | .atom _ => 0
  | .string _ => 0
  | .mark _ form => form.depth + 1
  | .list _ forms => depthAll forms + 1

/-- The depth of the deepest derivation. -/
def depthAll : List Derivation → Nat
  | [] => 0
  | d :: ds => max d.depth (depthAll ds)

end

/-- What holds of a derivation whenever it holds of the forms right inside holds of all. -/
theorem induction_forms {P : Derivation → Prop} (atom : ∀ text, P (.atom text))
    (string : ∀ body, P (.string body)) (mark : ∀ m form, P form → P (.mark m form))
    (list : ∀ b forms, (∀ d ∈ forms, P d) → P (.list b forms)) (d : Derivation) : P d :=
  match d with
  | .atom text => atom text
  | .string body => string body
  | .mark m form => mark m form (induction_forms atom string mark list form)
  | .list b forms => list b forms fun d _ => induction_forms atom string mark list d
termination_by sizeOf d

theorem valueAll_append (ds es : List Derivation) :
    valueAll (ds ++ es) = valueAll ds ++ valueAll es := by
  induction ds with
  | nil => rfl
  | cons d ds ih => rw [List.cons_append, valueAll, ih]; rfl

theorem yieldAll_append (ds es : List Derivation) :
    yieldAll (ds ++ es) = yieldAll ds ++ yieldAll es := by
  induction ds with
  | nil => rfl
  | cons d ds ih => rw [List.cons_append, yieldAll, ih, yieldAll, List.append_assoc]

/-! ## No two derivations -/

/-- What comes after a row of forms: nothing, or the bracket that closes the list. -/
def Ends (rest : List Token.Kind) : Prop :=
  ∀ kind ∈ rest.head?, ∃ b, kind = .closer b

/-- A form does not start with a closing bracket. -/
theorem not_ends_yield (d : Derivation) (rest : List Token.Kind) : ¬ Ends (d.yield ++ rest) := by
  intro h
  cases d with
  | atom text | string body | mark m form | list b forms =>
    obtain ⟨b, hb⟩ := h _ rfl
    cases hb

/-- Where a form ends is determined by its tokens, and so is its derivation. -/
def Determined (d : Derivation) : Prop :=
  ∀ e rest rest', d.yield ++ rest = e.yield ++ rest' → d = e ∧ rest = rest'

/-- Where a row of forms ends is determined by its tokens, if where each form ends is. -/
theorem eq_of_yieldAll_append {ds es : List Derivation} (hds : ∀ d ∈ ds, Determined d)
    {rest rest' : List Token.Kind} (hrest : Ends rest) (hrest' : Ends rest')
    (h : yieldAll ds ++ rest = yieldAll es ++ rest') : ds = es ∧ rest = rest' := by
  induction ds generalizing es with
  | nil =>
    cases es with
    | nil => exact ⟨rfl, h⟩
    | cons e es =>
      have h : rest = e.yield ++ (yieldAll es ++ rest') := by
        rw [← List.append_assoc]
        exact h
      exact absurd (h ▸ hrest) (not_ends_yield e _)
  | cons d ds ih =>
    rw [yieldAll, List.append_assoc] at h
    cases es with
    | nil =>
      have h : d.yield ++ (yieldAll ds ++ rest) = rest' := h
      exact absurd (h ▸ hrest') (not_ends_yield d _)
    | cons e es =>
      rw [yieldAll, List.append_assoc] at h
      obtain ⟨rfl, htail⟩ := hds d List.mem_cons_self e _ _ h
      obtain ⟨rfl, hend⟩ := ih (fun d' hd' => hds d' (List.mem_cons_of_mem d hd')) htail
      exact ⟨rfl, hend⟩

theorem determined (d : Derivation) : Determined d := by
  -- The first token tells which kind of form it is, and the induction hypothesis where the forms
  -- inside end.
  induction d using induction_forms with
  | atom text =>
    intro e rest rest' h
    cases e with
    | atom text' =>
      obtain ⟨hkind, hrest⟩ := List.cons.inj h
      cases hkind
      exact ⟨rfl, hrest⟩
    | _ => cases (List.cons.inj h).1
  | string body =>
    intro e rest rest' h
    cases e with
    | string body' =>
      obtain ⟨hkind, hrest⟩ := List.cons.inj h
      cases hkind
      exact ⟨rfl, hrest⟩
    | _ => cases (List.cons.inj h).1
  | mark m form ih =>
    intro e rest rest' h
    cases e with
    | mark m' form' =>
      obtain ⟨hkind, hrest⟩ := List.cons.inj h
      cases hkind
      obtain ⟨rfl, hend⟩ := ih form' rest rest' hrest
      exact ⟨rfl, hend⟩
    | _ => cases (List.cons.inj h).1
  | list b forms ih =>
    intro e rest rest' h
    cases e with
    | list b' forms' =>
      obtain ⟨hkind, hrest⟩ := List.cons.inj h
      cases hkind
      have hclosed : yieldAll forms ++ (.closer b :: rest) =
          yieldAll forms' ++ (.closer b :: rest') := by
        simpa only [List.append_eq, List.append_assoc, List.singleton_append] using hrest
      have hends (rest : List Token.Kind) : Ends (.closer b :: rest) := by
        intro kind hkind
        exact ⟨b, (Option.some.inj hkind).symm⟩
      obtain ⟨rfl, hend⟩ := eq_of_yieldAll_append ih (hends rest) (hends rest') hclosed
      exact ⟨rfl, (List.cons.inj hend).2⟩
    | _ => cases (List.cons.inj h).1

/-- Tokens have no two derivations as a row of forms. -/
theorem yieldAll_injective {ds es : List Derivation} (h : yieldAll ds = yieldAll es) : ds = es := by
  have hends : Ends [] := fun kind hkind => nomatch hkind
  have happend : yieldAll ds ++ [] = yieldAll es ++ [] := by rw [h]
  exact (eq_of_yieldAll_append (fun d _ => determined d) hends hends happend).1

end Derivation

/-! ## The reader accepts what is derived -/

namespace Reading

open Fexpr.Derivation

variable {room : Nat}

theorem atom_eq_ok {text : List Char} (h : (Token.Kind.atom text).IsShort) :
    atom text = .ok (atomValue text) := by
  unfold atom atomValue
  cases hread : Text.Numeral.ofText? text with
  | none => rfl
  | some numeral => exact if_pos (h numeral hread)

theorem run_cons_of_error {r : Reading} {t : Token} {fault : ReadFault}
    (h : r.step room t = .error fault) (ts : List Token) : r.run room (t :: ts) = .error fault := by
  rw [run, h]
  rfl

/-- What the tokens of a derivation do: they hand its form to what is open, if there is room. -/
def Accepts (room : Nat) (d : Derivation) : Prop :=
  ∀ (ts : List Token) (r : Reading), ts.map Token.kind = d.yield → (∀ t ∈ ts, t.kind.IsShort) →
    r.pending.length ≤ room →
      r.run room ts =
        if r.pending.length + d.depth ≤ room then .ok (deliver r.forms r.pending d.value)
        else .error .tooDeep

/-- A row of derivations goes where each of them goes, the last one first, if there is room for all.
`place` says what is open when some forms are there already. -/
theorem run_yieldAll {ds : List Derivation} (h : ∀ d ∈ ds, Accepts room d)
    (place : List Value → Reading) (depth : Nat)
    (hplace : ∀ vs v, deliver (place vs).forms (place vs).pending v = place (v :: vs))
    (hdepth : ∀ vs, (place vs).pending.length = depth) (hroom : depth ≤ room) {ts : List Token}
    (hts : ts.map Token.kind = yieldAll ds) (hshort : ∀ t ∈ ts, t.kind.IsShort) (vs : List Value) :
    (place vs).run room ts =
      if depth + depthAll ds ≤ room then .ok (place ((valueAll ds).reverse ++ vs))
      else .error .tooDeep := by
  induction ds generalizing ts vs with
  | nil =>
    obtain rfl := List.map_eq_nil_iff.1 hts
    rw [depthAll, Nat.add_zero, if_pos hroom]
    rfl
  | cons d ds ih =>
    rw [yieldAll] at hts
    obtain ⟨ts₁, ts₂, rfl, hts₁, hts₂⟩ := List.map_eq_append_iff.1 hts
    have hfirst := h d List.mem_cons_self ts₁ (place vs) hts₁
      (fun t ht => hshort t (List.mem_append_left ts₂ ht)) (by rw [hdepth]; exact hroom)
    have hothers := ih (fun e he => h e (List.mem_cons_of_mem d he)) hts₂
      (fun t ht => hshort t (List.mem_append_right ts₁ ht))
    rw [hplace, hdepth] at hfirst
    rw [run_append, hfirst, depthAll]
    by_cases hd : depth + d.depth ≤ room
    · rw [if_pos hd]
      refine (hothers (d.value :: vs)).trans ?_
      have hiff : depth + depthAll ds ≤ room ↔ depth + max d.depth (depthAll ds) ≤ room := by omega
      simp only [hiff, valueAll, List.reverse_cons, List.append_assoc, List.singleton_append]
    · rw [if_neg hd, if_neg (by omega)]
      rfl

theorem run_yield (d : Derivation) : Accepts room d := by
  induction d using induction_forms with
  | atom text =>
    intro ts r hts hshort hroom
    obtain ⟨⟨_, p⟩, _, rfl, rfl, hnil⟩ := List.map_eq_cons_iff.1 hts
    obtain rfl := List.map_eq_nil_iff.1 hnil
    rw [depth, Nat.add_zero, if_pos hroom]
    have hatom := atom_eq_ok (hshort _ List.mem_cons_self)
    exact run_atom hatom p r
  | string body =>
    intro ts r hts hshort hroom
    obtain ⟨⟨_, p⟩, _, rfl, rfl, hnil⟩ := List.map_eq_cons_iff.1 hts
    obtain rfl := List.map_eq_nil_iff.1 hnil
    rw [depth, Nat.add_zero, if_pos hroom]
    rfl
  | mark m form ih =>
    intro ts r hts hshort hroom
    obtain ⟨⟨_, p⟩, ts', rfl, rfl, hts'⟩ := List.map_eq_cons_iff.1 hts
    rw [depth]
    by_cases hlt : r.pending.length < room
    · have hform := ih ts' ⟨r.forms, .mark m p :: r.pending⟩ hts'
        (fun t ht => hshort t (List.mem_cons_of_mem _ ht)) hlt
      rw [run_mark hlt, hform]
      simp only [List.length_cons, Nat.add_assoc, Nat.add_comm 1]
      rfl
    · have hstep : r.step room ⟨.mark m, p⟩ = .error .tooDeep := if_neg hlt
      rw [if_neg (by omega)]
      exact run_cons_of_error hstep ts'
  | list b forms ih =>
    intro ts r hts hshort hroom
    obtain ⟨⟨_, p⟩, ts', rfl, rfl, hts'⟩ := List.map_eq_cons_iff.1 hts
    obtain ⟨items, closer, rfl, hitems, hcloser⟩ := List.map_eq_append_iff.1 hts'
    obtain ⟨⟨_, q⟩, _, rfl, rfl, hnil⟩ := List.map_eq_cons_iff.1 hcloser
    obtain rfl := List.map_eq_nil_iff.1 hnil
    rw [depth]
    by_cases hlt : r.pending.length < room
    · have hrun := run_yieldAll ih (fun vs => ⟨r.forms, .list b p vs :: r.pending⟩)
        (r.pending.length + 1) (fun _ _ => rfl) (fun _ => rfl) hlt hitems
        (fun t ht => hshort t (List.mem_cons_of_mem _ (List.mem_append_left _ ht))) []
      rw [run_opener hlt, run_append, hrun]
      by_cases hfits : r.pending.length + 1 + depthAll forms ≤ room
      · rw [if_pos hfits, if_pos (by omega)]
        refine (run_closer _ _ _ _ _ _).trans ?_
        rw [List.append_nil, List.reverse_reverse]
        rfl
      · rw [if_neg hfits, if_neg (by omega)]
        rfl
    · have hstep : r.step room ⟨.opener b, p⟩ = .error .tooDeep := if_neg hlt
      rw [if_neg (by omega)]
      exact run_cons_of_error hstep _

/-- The tokens of a row of derivations are read as its forms, if there is room for all. -/
theorem readTokens_of_yieldAll {ts : List Token} {ds : List Derivation}
    (hts : ts.map Token.kind = yieldAll ds) (hshort : ∀ t ∈ ts, t.kind.IsShort) :
    readTokens ts =
      if depthAll ds ≤ readingRoom then .ok (valueAll ds) else .error .tooDeep := by
  have hrun := run_yieldAll (fun d _ => run_yield d) (fun vs => ⟨vs, []⟩) 0 (fun _ _ => rfl)
    (fun _ => rfl) (Nat.zero_le readingRoom) hts hshort []
  rw [Nat.zero_add] at hrun
  refine (congrArg (Except.bind · finish) hrun).trans ?_
  split
  · refine congrArg Except.ok ?_
    rw [List.append_nil, List.reverse_reverse]
  · rfl

/-! ## The reader accepts nothing else -/

/-- What is open is spelled by tokens: an opening bracket and the items of the list so far, or a
mark. -/
def PendingSpells : List Pending → List Token.Kind → Prop
  | [], kinds => kinds = []
  | .list b _ items :: outer, kinds =>
    ∃ before ds, PendingSpells outer before ∧ items.reverse = valueAll ds ∧
      kinds = before ++ .opener b :: yieldAll ds
  | .mark m _ :: outer, kinds => ∃ before, PendingSpells outer before ∧ kinds = before ++ [.mark m]

/-- What the reader holds is spelled by the tokens that it has gone through. -/
def Spells (r : Reading) (kinds : List Token.Kind) : Prop :=
  ∃ ds inside, r.forms.reverse = valueAll ds ∧ PendingSpells r.pending inside ∧
    kinds = yieldAll ds ++ inside

theorem spells_deliver {forms : List Value} {ds : List Derivation}
    (hforms : forms.reverse = valueAll ds) {pending : List Pending} {inside : List Token.Kind}
    (hpending : PendingSpells pending inside) (d : Derivation) :
    Spells (deliver forms pending d.value) (yieldAll ds ++ inside ++ d.yield) := by
  -- The induction goes outward through the marks, each of which makes one derivation more.
  induction pending generalizing inside d with
  | nil =>
    obtain rfl := hpending
    refine ⟨ds ++ [d], [], ?_, rfl, ?_⟩
    · rw [deliver, List.reverse_cons, hforms, valueAll_append]
      rfl
    · rw [yieldAll_append, List.append_nil, List.append_nil, yieldAll, yieldAll, List.append_nil]
  | cons waiting outer ih =>
    cases waiting with
    | list b p items =>
      obtain ⟨before, es, houter, hitems, rfl⟩ := hpending
      refine ⟨ds, before ++ .opener b :: yieldAll (es ++ [d]), hforms, ?_, ?_⟩
      · refine ⟨before, es ++ [d], houter, ?_, rfl⟩
        rw [List.reverse_cons, hitems, valueAll_append]
        rfl
      · rw [yieldAll_append, yieldAll, yieldAll, List.append_nil]
        simp only [List.append_assoc, List.cons_append]
    | mark m p =>
      obtain ⟨before, houter, rfl⟩ := hpending
      have hmark := ih houter (.mark m d)
      rw [yield, value] at hmark
      simpa only [deliver, List.append_assoc, List.singleton_append] using hmark

/-- An atom with a value has the one that the grammar gives it. -/
theorem eq_atomValue {text : List Char} {v : Value} (h : atom text = .ok v) :
    v = atomValue text := by
  unfold atom at h
  unfold atomValue
  cases hread : Text.Numeral.ofText? text with
  | none =>
    rw [hread] at h
    exact (Except.ok.inj h).symm
  | some numeral =>
    rw [hread] at h
    dsimp only at h
    split at h
    · exact (Except.ok.inj h).symm
    · cases h

/-- One token more is spelled by what the reader holds then. -/
theorem spells_step {r r' : Reading} {t : Token} {kinds : List Token.Kind} (hr : Spells r kinds)
    (h : r.step room t = .ok r') : Spells r' (kinds ++ [t.kind]) := by
  obtain ⟨ds, inside, hforms, hpending, rfl⟩ := hr
  obtain ⟨kind, p⟩ := t
  cases kind with
  | opener b =>
    obtain ⟨-, rfl⟩ := eq_of_enter h
    refine ⟨ds, inside ++ [.opener b], hforms, ⟨inside, [], hpending, rfl, rfl⟩, ?_⟩
    rw [List.append_assoc]
  | closer b =>
    obtain ⟨q, items, outer, hopen, rfl⟩ := eq_of_close h
    rw [hopen] at hpending
    obtain ⟨before, es, houter, hitems, rfl⟩ := hpending
    have hlist := spells_deliver hforms houter (.list b es)
    rw [yield, value, ← hitems] at hlist
    simpa only [List.append_assoc, List.cons_append] using hlist
  | mark m =>
    obtain ⟨-, rfl⟩ := eq_of_enter h
    refine ⟨ds, inside ++ [.mark m], hforms, ⟨inside, hpending, rfl⟩, ?_⟩
    rw [List.append_assoc]
  | string body =>
    cases h
    exact spells_deliver hforms hpending (.string body)
  | atom text =>
    obtain ⟨v, hv, rfl⟩ := eq_of_atom h
    rw [eq_atomValue hv]
    exact spells_deliver hforms hpending (.atom text)

/-- All tokens are spelled by what the reader holds after them. -/
theorem spells_run {r r' : Reading} {ts : List Token} {kinds : List Token.Kind}
    (hr : Spells r kinds) (h : r.run room ts = .ok r') :
    Spells r' (kinds ++ ts.map Token.kind) := by
  induction ts generalizing r kinds with
  | nil =>
    cases h
    rw [List.map_nil, List.append_nil]
    exact hr
  | cons t ts ih =>
    rw [run] at h
    cases hstep : r.step room t with
    | error fault => rw [hstep] at h; cases h
    | ok r'' =>
      rw [hstep] at h
      have hts := ih (spells_step hr hstep) h
      rwa [List.append_assoc, List.singleton_append] at hts

/-- Tokens that are read have a derivation. -/
theorem exists_yieldAll_of_readTokens {ts : List Token} {forms : List Value}
    (h : readTokens ts = .ok forms) : ∃ ds, ts.map Token.kind = yieldAll ds := by
  unfold readTokens at h
  cases hrun : Reading.empty.run readingRoom ts with
  | error fault => rw [hrun] at h; cases h
  | ok r =>
    rw [hrun] at h
    change r.finish = .ok forms at h
    have hempty : Spells Reading.empty [] := ⟨[], [], rfl, rfl, rfl⟩
    obtain ⟨ds, inside, -, hpending, hkinds⟩ := spells_run hempty hrun
    unfold finish at h
    split at h
    next hopen =>
      rw [hopen] at hpending
      obtain rfl := hpending
      rw [List.nil_append, List.append_nil] at hkinds
      exact ⟨ds, hkinds⟩
    · cases h
    · cases h

end Reading

/-! ## Sources -/

/-- The derivations of a source: rows of derivations whose leaves are its tokens, each of them once
and in their order. -/
def Derives (source : String) (ds : List Derivation) : Prop :=
  (tokenize source.toList).tokens.map Token.kind = Derivation.yieldAll ds

theorem readForms_of_closed {source : String} (h : (tokenize source.toList).unclosed = none) :
    readForms source = readTokens (tokenize source.toList).tokens := by
  unfold readForms
  dsimp only
  rw [h]

/-- The reader accepts exactly its grammar and builds the unique tree. If every string of a source
is closed and no integer in it has too many digits, then the source is read as some forms just when
these are the translation of a derivation of it that is not too deep; unless the source is too deep,
it is read just when it has a derivation; and it has no two derivations. -/
theorem readForms_iff_derivation {source : String}
    (hclosed : (tokenize source.toList).unclosed = none)
    (hshort : ∀ t ∈ (tokenize source.toList).tokens, t.kind.IsShort) :
    (∀ forms, readForms source = .ok forms ↔
      ∃ ds, Derives source ds ∧ Derivation.depthAll ds ≤ readingRoom ∧
        forms = Derivation.valueAll ds) ∧
    (readForms source ≠ .error .tooDeep →
      ((∃ forms, readForms source = .ok forms) ↔ ∃ ds, Derives source ds)) ∧
    (∀ ds ds', Derives source ds → Derives source ds' → ds = ds') := by
  rw [readForms_of_closed hclosed]
  have hread {ds : List Derivation} (hds : Derives source ds) :
      readTokens (tokenize source.toList).tokens =
        if Derivation.depthAll ds ≤ readingRoom then .ok (Derivation.valueAll ds)
        else .error .tooDeep :=
    Reading.readTokens_of_yieldAll hds hshort
  refine ⟨fun forms => ⟨fun h => ?_, ?_⟩, fun hdepth => ⟨?_, ?_⟩, ?_⟩
  · obtain ⟨ds, hds⟩ := Reading.exists_yieldAll_of_readTokens h
    rw [hread hds] at h
    split at h
    next hroom => exact ⟨ds, hds, hroom, (Except.ok.inj h).symm⟩
    · cases h
  · rintro ⟨ds, hds, hroom, rfl⟩
    rw [hread hds, if_pos hroom]
  · rintro ⟨forms, h⟩
    exact Reading.exists_yieldAll_of_readTokens h
  · rintro ⟨ds, hds⟩
    rw [hread hds] at hdepth ⊢
    split
    · exact ⟨_, rfl⟩
    next hroom =>
      rw [if_neg hroom] at hdepth
      exact absurd rfl hdepth
  · intro ds ds' hds hds'
    exact Derivation.yieldAll_injective (hds.symm.trans hds')

/-- A source with both styles of brackets, both marks, an escape and an empty list is read as the
translation of its derivation. -/
theorem readForms_of_nested_derivation :
    readForms "'(a [1 \"x\\n\"]) ,nil ()" =
      .ok [.quote (.list [.symbol "a", .list [.number 1, .string "x\n"] none] none), .unquote .nil,
        .nil] := by
  have hclosed : (tokenize "'(a [1 \"x\\n\"]) ,nil ()".toList).unclosed = none := by
    decide +kernel
  have hshort : ∀ t ∈ (tokenize "'(a [1 \"x\\n\"]) ,nil ()".toList).tokens, t.kind.IsShort := by
    decide +kernel
  have hds : Derives "'(a [1 \"x\\n\"]) ,nil ()"
      [.mark .quote (.list .round
        [.atom ['a'], .list .square [.atom ['1'], .string ['x', '\\', 'n']]]),
        .mark .unquote (.atom ['n', 'i', 'l']), .list .round []] := by
    unfold Derives
    decide +kernel
  exact ((readForms_iff_derivation hclosed hshort).1 _).2 ⟨_, hds, by decide, by rfl⟩

end Fexpr
