import Fexpr.Proofs.Text.Numeral
import Fexpr.Proofs.Token.Lexer
import Fexpr.Proofs.Value.Room

/-!
# Written trees

`Value.Readable` says which trees source text can spell, without a word about the reader. Such a
tree is written as a row of lexemes (`Value.written`), and its text spells them
(`render_of_readable`). The lexer finds the lexemes again whatever comes after them, as long as it
does not go on with an atom (`cuts_written`).
-/

namespace Fexpr

/-! ## Readable trees -/

/-- A name that is read as a symbol: it has characters, only such as may stand in an atom, and is
neither `nil` nor an integer. -/
structure IsName (name : String) : Prop where
  nonempty : name ≠ ""
  plain : ∀ c ∈ name.toList, isAtomChar c = true
  ne_nil : name ≠ "nil"
  not_numeral : ¬ Text.IsNumeral name.toList

namespace Value

/-- What a readable tree looks like at one place. Integers have no more digits than the limit, and
lists have items. -/
def IsReadableNode : Value → Prop
  | .symbol name => IsName name
  | .number n => (Nat.toDigits 10 n.natAbs).length ≤ Text.digitLimit
  | .list items _ => items ≠ []
  | .string _ | .quote _ | .unquote _ | .nil => True
  | _ => False

/-- A tree that source text can spell. -/
def Readable (v : Value) : Prop :=
  v.Every IsReadableNode

/-! ## The lexemes of a written tree -/

mutual

/-- The lexemes that a tree is written in. -/
def written : Value → List Lexeme
  | .symbol name => [.token (.atom name.toList)]
  | .number n => [.token (.atom (Text.integerText n))]
  | .string text => [.token (.string (Text.StringLiteral.escape text.toList))]
  | .list items _ =>
    .token (.opener .round) :: (writtenItems items ++ [.token (.closer .round)])
  | .quote body => .token (.mark .quote) :: written body
  | .unquote body => .token (.mark .unquote) :: written body
  | .nil => [.token (.atom ['n', 'i', 'l'])]
  | _ => []

/-- The lexemes of several trees, with a blank between two of them. -/
def writtenItems : List Value → List Lexeme
  | [] => []
  | [v] => written v
  | v :: w :: vs => written v ++ .blanks [' '] :: writtenItems (w :: vs)

end

/-- The characters that a tree is written in. -/
def spelling (v : Value) : List Char :=
  v.written.flatMap Lexeme.spelling

theorem writtenItems_spelling (items : List Value) :
    (writtenItems items).flatMap Lexeme.spelling = [' '].intercalate (items.map spelling) := by
  induction items with
  | nil => rfl
  | cons v vs ih =>
    cases vs with
    | nil => rw [writtenItems, List.map_cons, List.map_nil, List.intercalate_singleton]; rfl
    | cons w ws =>
      rw [List.map_cons, List.map_cons, List.intercalate_cons_cons, writtenItems,
        List.flatMap_append, List.flatMap_cons, ih]
      simp [spelling, Lexeme.spelling]

/-- A text as the lexemes of a tree. -/
theorem render_mapM {room : Nat} {items : List Value}
    (h : ∀ v ∈ items, ∃ text, v.render room = .ok text ∧ text.toList = v.spelling) :
    ∃ texts, items.mapM (render room) = .ok texts ∧
      texts.map String.toList = items.map spelling := by
  induction items with
  | nil => exact ⟨[], rfl, rfl⟩
  | cons v vs ih =>
    obtain ⟨text, htext, hspell⟩ := h v List.mem_cons_self
    obtain ⟨texts, htexts, hspells⟩ := ih fun w hw => h w (List.mem_cons_of_mem v hw)
    refine ⟨text :: texts, ?_, ?_⟩
    · rw [List.mapM_cons, htext, htexts]
      rfl
    · rw [List.map_cons, List.map_cons, hspell, hspells]

/-- An integer within the limit of digits has a text. -/
theorem numeral_of_lt {n : Int} (h : n.natAbs < Text.tooLongFrom) :
    numeral n = .ok (String.ofList (Text.integerText n)) := by
  unfold numeral
  rw [Text.integerText?_of_lt h]

/-- A readable tree has a written form, and it is spelled as its lexemes are. -/
theorem render_of_readable {t : Value} {room : Nat} (ht : t.Readable) (hroom : t.nesting < room) :
    ∃ text, t.render room = .ok text ∧ text.toList = t.spelling := by
  induction t using induction_parts generalizing room with
  | step t ih =>
    obtain ⟨room, rfl⟩ := Nat.exists_eq_add_of_lt (Nat.zero_lt_of_lt hroom)
    rw [Nat.zero_add] at hroom ⊢
    cases t with
    | symbol name => exact ⟨name, rfl, by simp [spelling, written, Lexeme.spelling,
        Token.Kind.spelling]⟩
    | number n =>
      have hn := (Text.length_toDigits_le_digitLimit_iff n.natAbs).1 ht.here
      refine ⟨String.ofList (Text.integerText n), ?_, ?_⟩
      · rw [render]
        exact numeral_of_lt hn
      · simp [spelling, written, Lexeme.spelling, Token.Kind.spelling]
    | string text =>
      refine ⟨stringLiteral text, rfl, ?_⟩
      simp [stringLiteral, spelling, written, Lexeme.spelling, Token.Kind.spelling]
    -- The items of a list have one level of room less, and nest one level less.
    | list items made =>
      rw [nesting] at hroom
      have hitems : ∀ v ∈ items, ∃ text, v.render room = .ok text ∧ text.toList = v.spelling := by
        intro v hv
        have hle := nesting_le_nestingOfAll hv
        exact ih v hv (ht.item hv) (by omega)
      obtain ⟨texts, htexts, hspells⟩ := render_mapM hitems
      refine ⟨"(" ++ " ".intercalate texts ++ ")", ?_, ?_⟩
      · rw [render, htexts]
        rfl
      · have hlexemes := writtenItems_spelling items
        simp [spelling, written, Lexeme.spelling, Token.Kind.spelling, Bracket.opener,
          Bracket.closer, String.toList_intercalate, hspells, hlexemes]
    | quote body =>
      rw [nesting] at hroom
      obtain ⟨text, htext, hspell⟩ :=
        @ih body (List.mem_singleton.2 rfl) room ht.quoted (by omega)
      refine ⟨"'" ++ text, ?_, ?_⟩
      · rw [render, htext]
        rfl
      · simp [hspell, spelling, written, Lexeme.spelling, Token.Kind.spelling, Mark.char]
    | unquote body =>
      rw [nesting] at hroom
      obtain ⟨text, htext, hspell⟩ :=
        @ih body (List.mem_singleton.2 rfl) room ht.unquoted (by omega)
      refine ⟨"," ++ text, ?_, ?_⟩
      · rw [render, htext]
        rfl
      · simp [hspell, spelling, written, Lexeme.spelling, Token.Kind.spelling, Mark.char]
    | nil => exact ⟨"nil", rfl, by decide⟩
    | _ => exact absurd ht.here id

/-- Whatever text a readable tree has, it spells the lexemes of the tree. -/
theorem toList_of_render {t : Value} {room : Nat} {text : String} (ht : t.Readable)
    (h : t.render room = .ok text) : text.toList = t.spelling := by
  obtain ⟨text', htext', hspell⟩ := render_of_readable ht (Nat.lt_succ_self t.nesting)
  rw [render_unique h htext', hspell]

theorem toList_of_mapM_render {ts : List Value} {room : Nat} {texts : List String}
    (hts : ∀ t ∈ ts, t.Readable) (h : ts.mapM (render room) = .ok texts) :
    texts.map String.toList = ts.map spelling := by
  induction ts generalizing texts with
  | nil => cases h; rfl
  | cons t ts ih =>
    rw [List.mapM_cons] at h
    cases htext : t.render room with
    | error e => rw [htext] at h; cases h
    | ok text =>
      cases htexts : ts.mapM (render room) with
      | error e => rw [htext, htexts] at h; cases h
      | ok rest =>
        rw [htext, htexts] at h
        cases h
        rw [List.map_cons, List.map_cons, toList_of_render (hts t List.mem_cons_self) htext,
          ih (fun u hu => hts u (List.mem_cons_of_mem t hu)) htexts]

/-! ## The lexer finds the lexemes again -/

theorem toList_ne_nil {name : String} (h : name ≠ "") : name.toList ≠ [] :=
  fun hnil => h (String.toList_eq_nil_iff.1 hnil)

/-- The numeral of an integer is an atom. -/
theorem isAtomChar_of_mem_integerText {n : Int} {c : Char} (h : c ∈ Text.integerText n) :
    isAtomChar c = true := by
  have digit : ∀ d ∈ Nat.toDigits 10 n.natAbs, isAtomChar d = true := by
    intro d hd
    have hdigit := Nat.isDigit_of_mem_toDigits (by omega) (by omega) hd
    simp only [Char.isDigit, Bool.and_eq_true, decide_eq_true_eq] at hdigit
    have h0 : '0'.toNat ≤ d.toNat := hdigit.1
    have h9 : d.toNat ≤ '9'.toNat := hdigit.2
    simp at h0 h9
    have hblank : Text.isBlank d = false := by
      simp only [Text.isBlank, Bool.or_eq_false_iff, Bool.and_eq_false_iff, decide_eq_false_iff_not,
        beq_eq_false_iff_ne, ne_eq]
      omega
    have hne : ∀ e : Char, e.toNat < 48 ∨ 57 < e.toNat → d ≠ e := by
      rintro e he rfl
      omega
    simp [isAtomChar, hblank, hne '(' (by decide), hne ')' (by decide), hne '[' (by decide),
      hne ']' (by decide), hne '\'' (by decide), hne '"' (by decide), hne ',' (by decide),
      hne ';' (by decide)]
  unfold Text.integerText at h
  split at h
  · rcases List.mem_cons.1 h with rfl | h
    · decide
    · exact digit c h
  · exact digit c h

theorem integerText_ne_nil (n : Int) : Text.integerText n ≠ [] := by
  unfold Text.integerText
  split
  · exact List.cons_ne_nil _ _
  · exact Nat.toDigits_ne_nil

theorem cuts_atom {text rest : List Char} (hne : text ≠ [])
    (htext : ∀ c ∈ text, isAtomChar c = true) (hrest : Stops rest) :
    Cuts [.token (.atom text)] rest :=
  Cuts.cons (Lexeme.next?_atom hne htext hrest) (Cuts.nil rest)

/-- A written tree does not start with a blank. -/
theorem head?_spelling {t : Value} (ht : t.Readable) (rest : List Char) :
    ∀ c ∈ (t.spelling ++ rest).head?, Text.isBlank c = false := by
  have atom : ∀ text : List Char, text ≠ [] → (∀ c ∈ text, isAtomChar c = true) →
      ∀ c ∈ (text ++ rest).head?, Text.isBlank c = false := by
    intro text hne htext c hc
    cases text with
    | nil => exact absurd rfl hne
    | cons d ds =>
      obtain rfl := Option.mem_some.1 hc
      exact (atomChar_ne (htext _ List.mem_cons_self)).1
  cases t with
  | symbol name =>
    have := atom name.toList (toList_ne_nil ht.here.nonempty) ht.here.plain
    simpa [spelling, written, Lexeme.spelling, Token.Kind.spelling] using this
  | number n =>
    have := atom _ (integerText_ne_nil n) fun c hc => isAtomChar_of_mem_integerText hc
    simpa [spelling, written, Lexeme.spelling, Token.Kind.spelling] using this
  | string | list | quote | unquote | nil =>
    intro c hc
    simp [spelling, written, Lexeme.spelling, Token.Kind.spelling, Bracket.opener, Mark.char]
      at hc
    subst hc
    decide
  | _ => exact absurd ht.here id

/-- A row of written trees starts with the first one. -/
theorem exists_spelling_writtenItems (w : Value) (ws : List Value) :
    ∃ more, (writtenItems (w :: ws)).flatMap Lexeme.spelling = w.spelling ++ more := by
  cases ws with
  | nil => exact ⟨[], (List.append_nil _).symm⟩
  | cons x xs =>
    rw [writtenItems, List.flatMap_append]
    exact ⟨_, rfl⟩

/-- The lexemes of a row of trees are found again if those of each tree are. -/
theorem cuts_writtenItems {items : List Value} {rest : List Char}
    (h : ∀ v ∈ items, v.Readable ∧ ∀ rest, Stops rest → Cuts v.written rest)
    (hrest : Stops rest) : Cuts (writtenItems items) rest := by
  induction items with
  | nil => exact Cuts.nil rest
  | cons v vs ih =>
    cases vs with
    | nil => exact (h v List.mem_cons_self).2 rest hrest
    | cons w ws =>
      -- The blank ends the lexemes of the first tree, and no blank starts the second one.
      have htail := ih fun x hx => h x (List.mem_cons_of_mem v hx)
      have hw := (h w (List.mem_cons_of_mem v List.mem_cons_self)).1
      obtain ⟨more, hmore⟩ := exists_spelling_writtenItems w ws
      rw [writtenItems]
      refine Cuts.append ((h v List.mem_cons_self).2 _ (stops_cons (by decide))) ?_
      refine Cuts.cons (Lexeme.next?_blank ?_) htail
      rw [hmore, List.append_assoc]
      exact head?_spelling hw _

/-- The lexemes of a written tree are found again. -/
theorem cuts_written {t : Value} (ht : t.Readable) :
    ∀ rest : List Char, Stops rest → Cuts t.written rest := by
  induction t using induction_parts with
  | step t ih =>
    intro rest hrest
    cases t with
    | symbol name =>
      exact cuts_atom (toList_ne_nil ht.here.nonempty) ht.here.plain hrest
    | number n =>
      exact cuts_atom (integerText_ne_nil n) (fun c hc => isAtomChar_of_mem_integerText hc) hrest
    | string text =>
      refine Cuts.cons ?_ (Cuts.nil rest)
      have := Lexeme.next?_string text.toList rest
      simpa [Lexeme.spelling, Token.Kind.spelling] using this
    | list items made =>
      have hstops : Stops (')' :: rest) := stops_cons (isAtomChar_bracket .round).2
      have hitems := cuts_writtenItems (fun v hv => ⟨ht.item hv, ih v hv (ht.item hv)⟩) hstops
      have hclose : Cuts [.token (.closer .round)] rest :=
        Cuts.cons (Lexeme.next?_closer .round rest) (Cuts.nil rest)
      exact Cuts.cons (Lexeme.next?_opener .round _) (Cuts.append hitems hclose)
    | quote body =>
      exact Cuts.cons (Lexeme.next?_mark .quote _)
        (ih body (List.mem_singleton.2 rfl) ht.quoted rest hrest)
    | unquote body =>
      exact Cuts.cons (Lexeme.next?_mark .unquote _)
        (ih body (List.mem_singleton.2 rfl) ht.unquoted rest hrest)
    | nil => exact cuts_atom (by decide) (List.all_eq_true.1 (by decide)) hrest
    | _ => exact absurd ht.here id

theorem ofItems_of_ne_nil {items : List Value} (h : items ≠ []) :
    ofItems items = .list items none := by
  cases items with
  | nil => exact absurd rfl h
  | cons v vs => rfl

end Value

end Fexpr
