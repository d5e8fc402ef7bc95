import Fexpr.Proofs.Invariant
import Fexpr.Proofs.Reader.RoundTrip
import Fexpr.Proofs.Store

/-!
# Values can be printed and read back

A source holds only symbols that can be read and no list without items, and evaluation makes none:
lists are made of items, or else are nil; symbols are taken from the source. So all values that
sources come to in a new global frame are legal (`Value.Legal`), and so is all that names are bound
to. A legal value without combiners has a text that holds no line break and is read as the same
value.

Main statement (`values_read_back`): so it is for whatever sources are run one after the other.
-/

namespace Fexpr

/-! ## Legal values -/

namespace Value

/-- What a legal value looks like at one place: a symbol is one that the reader makes, a list has
items, and nothing is suspended or made by the host. -/
def IsLegalNode : Value → Prop
  | .symbol name => IsName name
  | .list items _ => items ≠ []
  | .suspended .. | .raiser .. | .hostNumber _ | .hostText _ => False
  | _ => True

/-- A value that is legal at any depth, in the body of a combiner too. -/
def Legal (v : Value) : Prop :=
  v.Every IsLegalNode

/-- What a name may be bound to: a legal value, or a suspended operand whose expression is one. -/
def LegalBinding (v : Value) : Prop :=
  v.Legal ∨ ∃ e f s i, v = .suspended e f s i ∧ e.Legal

/-- No combiner, and no integer with more digits than the limit. -/
def IsPlainNode : Value → Prop
  | .builtin .. | .raiser .. | .fexpr .. => False
  | .number n => (Nat.toDigits 10 n.natAbs).length ≤ Text.digitLimit
  | _ => True

/-- A value without combiners whose integers have no more digits than the limit. -/
def Plain (v : Value) : Prop :=
  v.Every IsPlainNode

theorem isName_t : IsName "t" := by
  refine ⟨by decide, List.all_eq_true.1 (by decide), by decide, ?_⟩
  rw [← Text.Numeral.ofText?_eq_none_iff]
  decide

theorem Legal.suspension?_eq_none {v : Value} (h : v.Legal) : v.suspension? = none := by
  have hnode : v.IsLegalNode := h.here
  cases v with
  | suspended => exact hnode.elim
  | _ => rfl

/-- Evaluation makes legal nodes only. -/
theorem madeSo_legal : MadeSo IsLegalNode where
  nil := trivial
  t := isName_t
  number _ := trivial
  list _ hne := hne
  fexpr _ _ _ _ _ := trivial

/-- What is read is legal. -/
theorem Readable.legal {v : Value} (h : v.Readable) : v.Legal := by
  refine h.mono fun w hw => ?_
  cases w with
  | builtin | fexpr | number => trivial
  | _ => exact hw

/-- A legal value is readable unless it holds a combiner or an integer that is too long. -/
theorem Legal.readable {v : Value} (h : v.Legal) (hplain : v.Plain) : v.Readable := by
  induction v using induction_parts with
  | step v ih =>
    refine .node ?_ fun w hw => ih w hw (h.part hw) (hplain.part hw)
    have hnode : v.IsLegalNode := h.here
    have hplain : v.IsPlainNode := hplain.here
    cases v with
    | builtin | fexpr => exact hplain.elim
    | number n => exact hplain
    | _ => exact hnode

/-! ## Texts without line breaks -/

theorem newline_not_mem_escape (cs : List Char) : '\n' ∉ Text.StringLiteral.escape cs := by
  intro h
  obtain ⟨c, -, hc⟩ := List.mem_flatMap.1 h
  unfold Text.StringLiteral.escapeChar at hc
  split at hc
  · exact absurd hc (by decide)
  · split at hc
    · exact absurd hc (by decide)
    · split at hc
      · exact absurd hc (by decide)
      · next hnewline => exact hnewline (List.mem_singleton.1 hc).symm

/-- What stands in an atom is no line break. -/
theorem newline_not_mem_of_atomChars {text : List Char} (h : ∀ c ∈ text, isAtomChar c = true) :
    '\n' ∉ text := by
  intro hnewline
  have hatom : isAtomChar '\n' = true := h '\n' hnewline
  exact absurd hatom (by decide)

/-- The lexemes of several trees hold no line break if those of each tree hold none. -/
theorem newline_not_mem_writtenItems {items : List Value} (h : ∀ v ∈ items, '\n' ∉ v.spelling) :
    '\n' ∉ (writtenItems items).flatMap Lexeme.spelling := by
  induction items with
  | nil => exact List.not_mem_nil
  | cons v vs ih =>
    have hv : '\n' ∉ v.spelling := h v List.mem_cons_self
    cases vs with
    | nil => exact hv
    | cons w ws =>
      have hrest := ih fun x hx => h x (List.mem_cons_of_mem v hx)
      rw [writtenItems, List.flatMap_append, List.flatMap_cons]
      intro hnewline
      rcases List.mem_append.1 hnewline with hnewline | hnewline
      · exact hv hnewline
      · rcases List.mem_append.1 hnewline with hblank | hnewline
        · exact absurd hblank (by decide)
        · exact hrest hnewline

/-- A written tree stands on one line. -/
theorem newline_not_mem_spelling {t : Value} (ht : t.Readable) : '\n' ∉ t.spelling := by
  induction t using induction_parts with
  | step t ih =>
    cases t with
    | symbol name =>
      have hname : '\n' ∉ name.toList := newline_not_mem_of_atomChars ht.here.plain
      simpa [spelling, written, Lexeme.spelling, Token.Kind.spelling] using hname
    | number n =>
      have hn : '\n' ∉ Text.integerText n :=
        newline_not_mem_of_atomChars fun c hc => isAtomChar_of_mem_integerText hc
      simpa [spelling, written, Lexeme.spelling, Token.Kind.spelling] using hn
    | string text =>
      have htext := newline_not_mem_escape text.toList
      simpa [spelling, written, Lexeme.spelling, Token.Kind.spelling] using htext
    | list items made =>
      have hitems : '\n' ∉ (writtenItems items).flatMap Lexeme.spelling :=
        newline_not_mem_writtenItems fun v hv => ih v hv (ht.item hv)
      simpa [spelling, written, Lexeme.spelling, Token.Kind.spelling, Bracket.opener,
        Bracket.closer] using hitems
    | quote body =>
      have hbody : '\n' ∉ body.spelling := ih body (List.mem_singleton.2 rfl) ht.quoted
      simpa [spelling, written, Lexeme.spelling, Token.Kind.spelling, Mark.char] using hbody
    | unquote body =>
      have hbody : '\n' ∉ body.spelling := ih body (List.mem_singleton.2 rfl) ht.unquoted
      simpa [spelling, written, Lexeme.spelling, Token.Kind.spelling, Mark.char] using hbody
    | nil => decide
    | _ => exact absurd ht.here id

end Value

/-! ## Reading back -/

/-- A value is read back: it has a text on one line, which is read as an equal value; and where it
is quoted it is what that evaluates to, as is the value that was read. -/
structure ReadsBack (limits : Limits) (v : Value) : Prop where
  text : ∃ text, v.render limits.top.room = .ok text ∧ '\n' ∉ text.toList ∧
    readForm text = .ok v.asRead ∧ Value.same? limits.top.room v.asRead v = some true
  quoted : ∀ frame m, evaluate limits (.quote v) frame m = (.ok v, m)
  quoted_asRead : ∀ frame m, evaluate limits (.quote v.asRead) frame m = (.ok v.asRead, m)

/-- What is quoted is evaluated to itself, if it is no empty list. -/
theorem evaluate_quote {limits : Limits} (hlevels : 0 < limits.levels) {v : Value}
    (hne : ∀ made, v ≠ .list [] made) (frame : FrameId) (m : Machine) :
    evaluate limits (.quote v) frame m = (.ok v, m) := by
  obtain ⟨levels, hlevels⟩ := Nat.exists_eq_add_of_lt hlevels
  rw [Nat.zero_add] at hlevels
  rw [evaluate, hlevels, evaluateWithin_succ]
  rcases Level.step_quote v frame with ⟨made, hempty, -⟩ | ⟨-, hstep⟩
  · exact absurd hempty (hne made)
  · rw [hstep]
    rfl

theorem Value.Legal.ne_empty {v : Value} (h : v.Legal) (made : Option Nat) : v ≠ .list [] made := by
  rintro rfl
  exact h.here rfl

theorem Value.Legal.asRead_ne_empty {v : Value} (h : v.Legal) (made : Option Nat) :
    v.asRead ≠ .list [] made := by
  cases v with
  | list items made' =>
    intro heq
    have hitems : items.map Value.asRead = [] := by
      rw [← Value.allAsRead_eq_map]
      exact (Value.list.inj heq).1
    exact h.here (List.map_eq_nil_iff.1 hitems)
  | _ => exact fun heq => nomatch heq

/-- A legal value without combiners and long integers is read back, if it does not nest too deep. -/
theorem Value.Legal.readsBack {limits : Limits} {v : Value} (h : v.Legal) (hplain : v.Plain)
    (hroom : v.nesting < limits.top.room) (hreading : v.nesting ≤ readingRoom) :
    ReadsBack limits v := by
  have hreadable : v.Readable := h.readable hplain
  obtain ⟨text, htext, hspelling⟩ := Value.render_of_readable hreadable hroom
  have hlevels : 0 < limits.levels := by
    by_contra hnone
    have hzero : limits.levels = 0 := by omega
    have hroom : v.nesting < roomOf limits.levels := hroom
    rw [hzero] at hroom
    exact absurd hroom (Nat.not_lt_zero _)
  refine ⟨⟨text, htext, ?_, readForm_text hreadable hreading htext, ?_⟩, ?_, ?_⟩
  · rw [hspelling]
    exact Value.newline_not_mem_spelling hreadable
  · exact Value.same?_asRead v _ hroom
  · exact evaluate_quote hlevels h.ne_empty
  · exact evaluate_quote hlevels h.asRead_ne_empty

/-! ## What evaluation keeps -/

/-- All names are bound to what is legal. -/
def Store.LegallyBound (s : Store) : Prop :=
  ∀ id x v, s.get? id x = some v → v.LegalBinding

theorem Store.LegallyBound.define {s : Store} (h : s.LegallyBound) {id : FrameId} {x : String}
    {v : Value} (hv : v.LegalBinding) : (s.define id x v).LegallyBound := by
  intro other y w hw
  rw [Store.get?_define] at hw
  split at hw
  · exact Option.some.inj hw ▸ hv
  · exact h other y w hw

/-- A new global frame binds builtins, and `t`. -/
theorem Store.legallyBound_global : (Store.empty.global []).LegallyBound := by
  intro id x v hv
  rw [Store.global, Store.root, Store.get?_push] at hv
  split at hv
  · rcases Store.builtin_or_t_of_get?_globalBindings hv with ⟨op, -, rfl⟩ | rfl
    · exact Or.inl (.leaf trivial rfl)
    · exact Or.inl (.leaf Value.isName_t rfl)
  · cases hv

/-- Evaluation of legal expressions in legally bound frames. -/
def legality : Invariant where
  toFragment := .every (fun _ => True) Value.madeSo_legal
  store := Store.LegallyBound
  bound _ := Value.LegalBinding
  bound_of_data _ h := Or.inl h
  bound_cases := by
    intro g v _ hv
    rcases hv with hv | ⟨e, f, s, i, rfl, he⟩
    · exact Or.inl ⟨hv, hv.suspension?_eq_none⟩
    · exact Or.inr ⟨e, f, s, i, rfl, he, he, trivial⟩
  bound_suspended _ he := Or.inr ⟨_, _, _, _, rfl, he⟩
  lookup := by
    intro s g x v hs _ hv
    obtain ⟨f, -, hget⟩ := Store.exists_get?_of_lookup? hv
    exact hs f x v hget
  define := by
    intro s g x v hs _ _ hv
    exact hs.define hv
  assign := by
    intro s t g x v _ hs _ _ hv _ ht
    obtain ⟨f, -, -, rfl⟩ := Store.exists_define_of_assign? ht
    exact hs.define (Or.inl hv)

/-- The forms of a source are legal. -/
theorem legal_of_readForms {source : String} :
    ∀ forms, readForms source = .ok forms → ∀ form ∈ forms, form.Legal :=
  fun _ hread form hform => (built_of_readForms hread form hform).readable.legal

/-! ## The theorem -/

/-- The machine is come to from a new global frame, without bindings of the host, by sources that
are run in it or evaluated there, one after the other; or else by the first forms of a source. -/
inductive AfterSources (limits : Limits) : Machine → Prop
  | start : AfterSources limits { Machine.empty with store := Store.empty.global [] }
  | run {m : Machine} (h : AfterSources limits m) (source : String) :
      AfterSources limits (runSource limits source Store.empty.next m).2
  | evaluate {m : Machine} (h : AfterSources limits m) (source : String) :
      AfterSources limits (evaluateSource limits source Store.empty.next m).2
  | form {m : Machine} (h : AfterSources limits m) {source : String} {forms : List Value}
      (hread : readForms source = .ok forms) {form : Value} (hform : form ∈ forms) :
      AfterSources limits (evaluateToplevel limits form Store.empty.next m).2

/-- The value is what a source has there, or what one of its forms has, or what is reported as the
value of one. -/
inductive Returned (limits : Limits) (m : Machine) (v : Value) : Prop
  | source {source : String} (h : (evaluateSource limits source Store.empty.next m).1 = .ok v)
  | form {source : String} {forms : List Value} (hread : readForms source = .ok forms)
      {form : Value} (hform : form ∈ forms)
      (h : (evaluateToplevel limits form Store.empty.next m).1 = .ok v)
  | report {source : String} {run : RunResult}
      (h : (runSource limits source Store.empty.next m).1 = .ok run) {r : FormResult}
      (hr : r ∈ run.results) (hv : r.value? = some v)

variable {limits : Limits} {m : Machine} {v : Value}

theorem AfterSources.legallyBound (h : AfterSources limits m) : m.store.LegallyBound := by
  induction h with
  | start => exact Store.legallyBound_global
  | run _ source ih => exact (legality.runSource ih limits trivial legal_of_readForms).1
  | evaluate _ source ih => exact (legality.evaluateSource ih limits trivial legal_of_readForms).1
  | form _ hread hform ih =>
    exact (legality.evaluateToplevel ih limits (legal_of_readForms _ hread _ hform) trivial).1

theorem Returned.legal (h : Returned limits m v) (hm : m.store.LegallyBound) : v.Legal := by
  cases h with
  | source hvalue =>
    exact (legality.evaluateSource hm limits trivial legal_of_readForms).2 v hvalue
  | form hread hform hvalue =>
    have hlegal := legal_of_readForms _ hread _ hform
    exact (legality.evaluateToplevel hm limits hlegal trivial).2 v hvalue
  | report hrun hr hvalue =>
    exact (legality.runSource hm limits trivial legal_of_readForms).2 _ hrun _ hr v hvalue

/-- Whatever sources were run in a new global frame, all that names are bound to is legal, and what
the next form has as its value is legal too; and it is read back if it holds no combiner and no
integer with more digits than the limit, and does not nest too deep. -/
theorem values_read_back (h : AfterSources limits m) :
    (∀ id x v, m.store.get? id x = some v → v.LegalBinding) ∧
      ∀ v, Returned limits m v →
        v.Legal ∧
          (v.Plain → v.nesting < limits.top.room → v.nesting ≤ readingRoom →
            ReadsBack limits v) := by
  refine ⟨h.legallyBound, fun v hv => ?_⟩
  have hlegal : v.Legal := hv.legal h.legallyBound
  exact ⟨hlegal, fun hplain => hlegal.readsBack hplain⟩

/-- A list that is made in a new global frame is read back. -/
theorem values_read_back_made_list :
    let fresh := { Machine.empty with store := Store.empty.global [] }
    let v : Value := .list [.symbol "t", .list [.symbol "x"] none] (some 0)
    Returned {} fresh v ∧ v.Legal ∧ ReadsBack {} v := by
  intro fresh v
  have hread : readForms "(list t '(x))" = .ok
      [.list [.symbol "list", .symbol "t", .quote (.list [.symbol "x"] none)] none] := by
    have hlexemes : lexemes "(list t '(x))".toList =
        ([.token (.opener .round), .token (.atom ['l', 'i', 's', 't']), .blanks [' '],
          .token (.atom ['t']), .blanks [' '], .token (.mark .quote), .token (.opener .round),
          .token (.atom ['x']), .token (.closer .round), .token (.closer .round)], []) := by
      decide +kernel
    rw [readForms_of_lexemes hlexemes]
    rfl
  have hreturned : Returned {} fresh v := by
    refine .form hread (List.mem_singleton.2 rfl) ?_
    rfl
  have hplain : v.Plain := by
    have hinner : (Value.list [.symbol "x"] none).Plain :=
      .node trivial (List.forall_mem_singleton.2 (.leaf trivial rfl))
    refine .node trivial (List.forall_mem_cons.2 ⟨?_, List.forall_mem_singleton.2 hinner⟩)
    exact .leaf trivial rfl
  obtain ⟨hlegal, hback⟩ := (values_read_back .start).2 v hreturned
  exact ⟨hreturned, hlegal, hback hplain (by decide) (by decide)⟩

end Fexpr
