import Fexpr.Proofs.Correspondence
import Fexpr.Proofs.Store

/-!
# Hidden names

A program that does not mention a name cannot notice what the name is bound to. Two runs go on
alike although some names are bound differently in them, as long as no expression, no fexpr and no
suspended operand that they meet mentions such a name. A hidden name is not to be bound either, so
it must not come out of an evaluation, as the symbol that `let` binds or as the name of a parameter.

Some names may be secret without being hidden: no expression mentions them, but a value may be the
symbol.
-/

namespace Fexpr

/-- The value is the same in both runs, up to the number of a suspended operand. -/
inductive Value.Alike : Value → Value → Prop
  | refl (v : Value) : Alike v v
  | suspended (e : Value) (frame : FrameId) (sequence : Bool) (i j : Nat) :
    Alike (.suspended e frame sequence i) (.suspended e frame sequence j)

/-- Names that are kept from a program. -/
structure Hiding where
  /-- Names that may be bound differently in two runs. -/
  hidden : String → Prop
  /-- Names that no expression may mention. -/
  secret : String → Prop
  secret_of_hidden : ∀ {x}, hidden x → secret x
  /-- What spells a parameter for all remaining operands. -/
  secret_rest : ∀ {x}, hidden x → secret (x ++ restMarker)
  not_hidden_t : ¬ hidden "t"

namespace Hiding

variable (H : Hiding)

/-- The expression mentions no secret name, apart from its parts. -/
def CodeHere : Value → Prop
  | .symbol x => ¬ H.secret x
  | .fexpr _ _ params _ _ => ∀ p ∈ params, ¬ H.hidden p.name
  | _ => True

/-- The expression mentions no secret name. -/
def Code (e : Value) : Prop :=
  e.Every H.CodeHere

/-- The value has no hidden name in it and holds no expression that mentions a secret one, apart
from its parts. -/
def DataHere : Value → Prop
  | .symbol x => ¬ H.hidden x
  | .fexpr _ _ params body _ => (∀ p ∈ params, ¬ H.hidden p.name) ∧ ∀ e ∈ body, H.Code e
  | .suspended e _ _ _ => H.Code e
  | _ => True

/-- The value has no hidden name in it and holds no expression that mentions a secret one. -/
def Data (v : Value) : Prop :=
  v.Every H.DataHere

variable {H}

theorem dataHere_of_code {v : Value} (h : H.Code v) : H.DataHere v := by
  cases v with
  | symbol x => exact fun hx => h.here (H.secret_of_hidden hx)
  | fexpr id x params body home => exact ⟨h.here, fun _ he => h.part he⟩
  | suspended e frame s id => exact h.part (List.mem_singleton.2 rfl)
  | _ => trivial

theorem data_of_code {v : Value} (h : H.Code v) : H.Data v := by
  induction v using Value.induction_parts with
  | step v ih => exact .node (dataHere_of_code h) fun w hw => ih w hw (h.part hw)

theorem closed_data : Value.Closed H.Data where
  nil := .leaf trivial rfl
  t := .leaf H.not_hidden_t rfl
  number _ := .leaf trivial rfl
  list _ _ h := .node trivial h
  item h hv := h.item hv

/-- A name with the marker of a parameter for all remaining operands ends in it. -/
theorem eq_of_restName? {x base : String} (h : Param.restName? x = some base) :
    x = base ++ restMarker := by
  unfold Param.restName? at h
  dsimp only at h
  split at h
  next hif =>
    obtain rfl := Option.some.inj h
    have hsuffix : restMarker.toList <:+ x.toList :=
      List.isSuffixOf_iff_suffix.1 (Bool.and_eq_true_iff.1 hif).2
    obtain ⟨front, hfront⟩ := hsuffix
    have htake : x.toList.take (x.toList.length - restMarker.toList.length) = front := by
      rw [← hfront]
      simp
    rw [htake]
    apply String.toList_inj.1
    rw [String.toList_append, String.toList_ofList, hfront]
  · cases h

theorem not_hidden_of_param {e : Value} {p : Param} (he : H.Code e)
    (hp : Param.ofTree? e = some p) : ¬ H.hidden p.name := by
  -- The name of a parameter is what a symbol spells, with or without the marker at its end; neither
  -- symbol can be mentioned when the name is hidden.
  have hname {x : String} {suspended : Bool} (hx : ¬ H.secret x)
      (hp : Param.ofTree?.ofName x suspended = p) : ¬ H.hidden p.name := by
    intro hhidden
    unfold Param.ofTree?.ofName at hp
    cases hrest : Param.restName? x with
    | some base =>
      rw [hrest] at hp
      subst hp
      rw [eq_of_restName? hrest] at hx
      exact hx (H.secret_rest hhidden)
    | none =>
      rw [hrest] at hp
      subst hp
      exact hx (H.secret_of_hidden hhidden)
  unfold Param.ofTree? at hp
  split at hp
  · exact hname he.here (Option.some.inj hp)
  · exact hname he.quoted.here (Option.some.inj hp)
  · cases hp

/-- The expressions that mention no secret name, in any frame. -/
def fragment (H : Hiding) : Fragment where
  frame _ := True
  code := H.Code
  data := H.Data
  name x := ¬ H.hidden x
  closed := closed_data
  data_of_code h _ := data_of_code h
  data_of_quoted h _ := data_of_code h.quoted
  code_of_unquoted h := h.unquoted
  code_of_item h he := h.item he
  code_ofItems := by
    intro items h
    cases items with
    | nil => exact .leaf trivial rfl
    | cons e es => exact .node trivial h
  name_of_code := by
    intro e x he hx hhidden
    unfold Value.targetName? at hx
    split at hx
    · obtain rfl := Option.some.inj hx
      exact he.here (H.secret_of_hidden hhidden)
    · obtain rfl := Option.some.inj hx
      exact he.quoted.here (H.secret_of_hidden hhidden)
    · cases hx
  name_of_data h := h.here
  name_of_param he hp := not_hidden_of_param he hp
  code_of_fexpr h he := h.here.2 _ he
  name_of_fexpr h hp := h.here.1 _ hp
  data_fexpr _ hparams hbody _ := .node ⟨hparams, hbody⟩ fun e he => data_of_code (hbody e he)

/-! ## Two runs -/

/-- What a name that is not secret may be bound to in two runs. -/
inductive Bound (H : Hiding) : Value → Value → Prop
  | value {v : Value} (data : H.Data v) (plain : v.suspension? = none) : Bound H v v
  | operand {e : Value} (frame : FrameId) (sequence : Bool) (i j : Nat) (code : H.Code e) :
    Bound H (.suspended e frame sequence i) (.suspended e frame sequence j)

theorem Bound.alike {v w : Value} (h : H.Bound v w) : v.Alike w := by
  cases h with
  | value _ _ => exact .refl _
  | operand g s i j _ => exact .suspended _ g s i j

theorem bound_of_data {v : Value} (h : H.Data v) : H.Bound v v := by
  cases v with
  | suspended e frame s id => exact .operand frame s id id h.here
  | _ => exact .value h rfl

/-- What a name that is not hidden may be bound to in two runs. -/
def Shown (H : Hiding) (x : String) (v w : Value) : Prop :=
  v.Alike w ∧ (¬ H.secret x → H.Bound v w)

/-- Stores that differ in what hidden names are bound to. -/
structure Differ (H : Hiding) (s t : Store) : Prop where
  frames : s.frames.length = t.frames.length
  chain : ∀ g, s.chain g = t.chain g
  shown : ∀ g {x}, ¬ H.hidden x → Option.Rel (H.Shown x) (s.get? g x) (t.get? g x)

/-- The hidden names are bound as they were. -/
def Kept (H : Hiding) (start s : Store) : Prop :=
  ∀ g x, H.hidden x → s.get? g x = start.get? g x

section Steps

variable {s t start : Store} {g : FrameId} {x : String} {v w : Value}

theorem Differ.define (h : H.Differ s t) (hv : H.Bound v w) :
    H.Differ (s.define g x v) (t.define g x w) where
  frames := by rw [Store.length_define, Store.length_define, h.frames]
  chain other := by rw [Store.chain_define, Store.chain_define, h.chain]
  shown other y hy := by
    rw [Store.get?_define, Store.get?_define, h.frames]
    split
    · exact .some ⟨hv.alike, fun _ => hv⟩
    · exact h.shown other hy

theorem Kept.define (h : H.Kept start s) (hx : ¬ H.hidden x) : H.Kept start (s.define g x v) := by
  intro other y hy
  have hne : y ≠ x := by
    rintro rfl
    exact hx hy
  rw [Store.get?_define_of_ne (Or.inr hne)]
  exact h other y hy

theorem Differ.lookup? (h : H.Differ s t) (hx : ¬ H.hidden x) :
    Option.Rel (H.Shown x) (s.lookup? g x) (t.lookup? g x) :=
  Store.rel_lookup? (h.chain g) fun other => h.shown other hx

theorem isSome_eq_of_rel {R : Value → Value → Prop} {a b : Option Value} (h : Option.Rel R a b) :
    a.isSome = b.isSome := by
  cases h <;> rfl

theorem Differ.assign? (h : H.Differ s t) (hx : ¬ H.hidden x) :
    (s.assign? g x v = none ∧ t.assign? g x v = none) ∨
      ∃ f, s.assign? g x v = some (s.define f x v) ∧ t.assign? g x v = some (t.define f x v) :=
  Store.assign?_eq_of_binds (h.chain g) fun other => isSome_eq_of_rel (h.shown other hx)

end Steps

/-- Machines that two runs may be in which started with the hidden names bound differently. -/
structure State (H : Hiding) (start₁ start₂ : Store) (m n : Machine) : Prop where
  nextId : m.nextId = n.nextId
  output : m.output = n.output
  differ : H.Differ m.store n.store
  kept₁ : H.Kept start₁ m.store
  kept₂ : H.Kept start₂ n.store

/-- How two runs are compared that started with the hidden names bound differently. -/
def correspondence (H : Hiding) (start₁ start₂ : Store) (fault : Fault → Fault → Prop)
    (fault_refl : ∀ f, fault f f) (excused₁ excused₂ : Fault → Prop) : Correspondence where
  toFragment := H.fragment
  state := H.State start₁ start₂
  fault := fault
  excused₁ := excused₁
  excused₂ := excused₂
  fault_refl := fun _ => fault_refl _
  endless := fun _ => fault_refl _
  nextId_eq h := h.nextId
  count h := ⟨congrArg (· + 1) h.nextId, h.output, h.differ, h.kept₁, h.kept₂⟩
  print h output := ⟨h.nextId, congrArg output h.output, h.differ, h.kept₁, h.kept₂⟩
  bound _ := H.Bound
  bound_of_data _ h := bound_of_data h
  bound_cases := by
    intro g v w _ h
    cases h with
    | value hv hplain => exact Or.inl ⟨rfl, hv, hplain⟩
    | @operand e f s i j he =>
      exact Or.inr ⟨e, f, s, i, j, rfl, rfl, he, data_of_code he, trivial⟩
  lookup := by
    intro m n g x hmn _ hx
    -- Both runs bind the name or neither does; as an expression mentions it, it is not secret.
    have hrel := hmn.differ.lookup? (g := g) fun hhidden => hx.here (H.secret_of_hidden hhidden)
    revert hrel
    cases m.store.lookup? g x <;> cases n.store.lookup? g x <;> intro hrel
    · exact .none
    · cases hrel
    · cases hrel
    · cases hrel with
      | some hshown => exact .some (hshown.2 hx.here)
  define h _ hx hv :=
    ⟨h.nextId, h.output, h.differ.define hv, h.kept₁.define hx, h.kept₂.define hx⟩
  assign := by
    intro m n g x v _ h _ hx hv _
    rcases h.differ.assign? hx with ⟨hm, hn⟩ | ⟨f, hm, hn⟩
    · rw [hm, hn]
      exact .none
    · rw [hm, hn]
      exact .some ⟨h.nextId, h.output, h.differ.define (bound_of_data hv), h.kept₁.define hx,
        h.kept₂.define hx⟩
  suspend h _ he :=
    ⟨.operand _ _ _ _ he, ⟨h.nextId, h.output, h.differ, h.kept₁, h.kept₂⟩⟩

end Hiding
end Fexpr
