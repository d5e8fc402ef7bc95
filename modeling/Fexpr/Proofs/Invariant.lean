import Fexpr.Proofs.Correspondence.Program
import Fexpr.Proofs.Store
import Fexpr.Proofs.Toplevel

/-!
# What a run keeps

An `Invariant` is a condition on stores that every step of an evaluation keeps, for expressions of a
fragment. A run is compared with itself: the comparison asks that the store meets the condition, and
so the condition is met wherever the evaluation ends, in a value or in a fault. It is met wherever a
program ends too, and the values that a program has or reports are those of the fragment. One thing
that every evaluation keeps is the number of frames (`keepsFrames_evaluateWithin`).
-/

namespace Fexpr

/-! ## Conditions at every node -/

/-- A condition that holds at the nodes which evaluation makes: nil, `t`, numbers, lists with items,
and the combiners of programs. -/
structure Value.MadeSo (node : Value → Prop) : Prop where
  nil : node .nil
  t : node .t
  number : ∀ n, node (.number n)
  list : ∀ {items} made, items ≠ [] → node (.list items made)
  fexpr : ∀ id name params body home, node (.fexpr id name params body home)

/-- The expressions and values with such a condition at every node, evaluated in some frames. -/
def Fragment.every (frame : FrameId → Prop) {node : Value → Prop} (h : Value.MadeSo node) :
    Fragment where
  frame := frame
  code := Value.Every node
  data := Value.Every node
  name _ := True
  closed := {
    nil := .leaf h.nil rfl
    t := .leaf h.t rfl
    number := fun n => .leaf (h.number n) rfl
    list := fun made hne hitems => .node (h.list (some made) hne) hitems
    item := fun hlist hv => hlist.item hv }
  data_of_code he _ := he
  data_of_quoted he _ := he.quoted
  code_of_unquoted he := he.unquoted
  code_of_item hlist he := hlist.item he
  code_ofItems := by
    intro items hitems
    cases items with
    | nil => exact .leaf h.nil rfl
    | cons e es => exact .node (h.list none (List.cons_ne_nil e es)) hitems
  name_of_code _ _ := trivial
  name_of_data _ := trivial
  name_of_param _ _ := trivial
  code_of_fexpr hfexpr he := hfexpr.part he
  name_of_fexpr _ _ := trivial
  data_fexpr _ _ hbody _ := .node (h.fexpr _ _ _ _ _) hbody

/-! ## Invariants -/

/-- What a run keeps. -/
structure Invariant extends Fragment where
  store : Store → Prop
  /-- What a name may be bound to, seen from a frame. -/
  bound : FrameId → Value → Prop
  bound_of_data : ∀ {g v}, frame g → data v → bound g v
  bound_cases : ∀ {g v}, frame g → bound g v →
    (data v ∧ v.suspension? = none) ∨
      ∃ e h s i, v = .suspended e h s i ∧ code e ∧ data e ∧ frame h
  bound_suspended : ∀ {g e s i}, frame g → code e → bound g (.suspended e g s i)
  lookup : ∀ {s g x v}, store s → frame g → s.lookup? g x = some v → bound g v
  define : ∀ {s g x v}, store s → frame g → name x → bound g v → store (s.define g x v)
  /-- Nothing but the builtin `set` assigns. -/
  assign : ∀ {s t g x v home}, store s → frame g → name x → data v →
    data (.builtin .setForm home) → s.assign? g x v = some t → store t

namespace Invariant

/-- A run with an invariant, beside itself. -/
def diagonal (I : Invariant) : Correspondence where
  toFragment := I.toFragment
  state m n := m = n ∧ I.store m.store
  fault := Eq
  excused₁ _ := False
  excused₂ _ := False
  fault_refl _ := rfl
  nextId_eq h := by rw [h.1]
  count := by
    rintro m _ ⟨rfl, h⟩
    exact ⟨rfl, h⟩
  print := by
    rintro m _ ⟨rfl, h⟩ output
    exact ⟨rfl, h⟩
  bound g v w := v = w ∧ I.bound g v
  bound_of_data hg hv := ⟨rfl, I.bound_of_data hg hv⟩
  bound_cases := by
    rintro g v _ hg ⟨rfl, hv⟩
    rcases I.bound_cases hg hv with ⟨hdata, hplain⟩ | ⟨e, h, s, i, rfl, hcode, hdata, hh⟩
    · exact Or.inl ⟨rfl, hdata, hplain⟩
    · exact Or.inr ⟨e, h, s, i, i, rfl, rfl, hcode, hdata, hh⟩
  lookup := by
    rintro m _ g x ⟨rfl, h⟩ hg -
    cases hx : m.store.lookup? g x with
    | none => exact .none
    | some v => exact .some ⟨rfl, I.lookup h hg hx⟩
  define := by
    rintro m _ g x v _ ⟨rfl, h⟩ hg hx ⟨rfl, hv⟩
    exact ⟨rfl, I.define h hg hx hv⟩
  assign := by
    rintro m _ g x v home ⟨rfl, h⟩ hg hx hv hset
    cases ht : m.store.assign? g x v with
    | none => exact .none
    | some t => exact .some ⟨rfl, I.assign h hg hx hv hset ht⟩
  endless _ := rfl
  suspend := by
    rintro m _ g e s ⟨rfl, h⟩ hg he
    exact ⟨⟨rfl, I.bound_suspended hg he⟩, rfl, h⟩

theorem strict_diagonal (I : Invariant) : I.diagonal.Strict where
  fault h := h
  excused₁ _ h := h
  excused₂ _ h := h
  log := by
    rintro m _ ⟨rfl, h⟩ record
    exact ⟨rfl, h⟩

section

variable (I : Invariant) {m : Machine} (hm : I.store m.store) (limits : Limits) {g : FrameId}

include hm

/-- Where a computation beside itself agrees, the invariant is kept, and if there is a value, it is
one alike. -/
theorem keeps_of_agree {α : Type} {Q : α → α → Prop} {x : Eval α} (h : I.diagonal.Agree Q x x) :
    I.store (x m).2.store ∧ ∀ a, (x m).1 = .ok a → Q a a := by
  obtain ⟨hstate, hends⟩ := I.strict_diagonal.after h ⟨rfl, hm⟩
  refine ⟨hstate.2, fun a ha => ?_⟩
  rw [ha] at hends
  cases hends with
  | value hvalue => exact hvalue

/-- Evaluation keeps the invariant, however it ends, and has a value of the fragment. -/
theorem evaluateWithin (levels skipped : Nat) {e : Value} (he : I.code e) (hg : I.frame g) :
    I.store (evaluateWithin limits levels skipped e g m).2.store ∧
      ∀ v, (evaluateWithin limits levels skipped e g m).1 = .ok v → I.data v := by
  have hagree := I.diagonal.agree_evaluateWithin (Correspondence.beside_self (limits.level levels))
    skipped he hg
  obtain ⟨hstore, hvalue⟩ := I.keeps_of_agree hm hagree
  exact ⟨hstore, fun v hv => (hvalue v hv).2⟩

/-- So does evaluation at the top level. -/
theorem evaluateToplevel {e : Value} (he : I.code e) (hg : I.frame g) :
    I.store (evaluateToplevel limits e g m).2.store ∧
      ∀ v, (evaluateToplevel limits e g m).1 = .ok v → I.data v := by
  have hagree : I.diagonal.Agree _ (Fexpr.evaluateToplevel limits e g)
      (Fexpr.evaluateToplevel limits e g) :=
    Correspondence.agree_evaluateToplevel I.strict_diagonal he hg
  obtain ⟨hstore, hvalue⟩ := I.keeps_of_agree hm hagree
  exact ⟨hstore, fun v hv => (hvalue v hv).2⟩

variable (hg : I.frame g) {source : String}
  (hsource : ∀ forms, readForms source = .ok forms → ∀ e ∈ forms, I.code e)

include hg hsource

/-- The run of a source keeps the invariant, however it ends, and reports values of the fragment. -/
theorem runSource :
    I.store (runSource limits source g m).2.store ∧
      ∀ run, (runSource limits source g m).1 = .ok run →
        Correspondence.ResultsIn I.data run.results := by
  cases hread : readForms source with
  | error fault =>
    rw [runSource_of_fault hread]
    exact ⟨hm, fun run hrun => nomatch hrun⟩
  | ok forms =>
    have hagree : I.diagonal.Agree _ (runForms limits g 0 forms) (runForms limits g 0 forms) :=
      Correspondence.agree_runForms I.strict_diagonal (hsource forms hread) hg 0
    obtain ⟨hstore, hresults⟩ := I.keeps_of_agree hm hagree
    rw [runSource_of_forms hread]
    refine ⟨hstore, fun run hrun => ?_⟩
    rcases houtcome : (runForms limits g 0 forms m).1 with fault | results
    · rw [houtcome] at hrun
      cases hrun
    · rw [houtcome] at hrun
      cases hrun
      exact (hresults results houtcome).2

/-- The evaluation of a source keeps the invariant, however it ends, and has a value of the
fragment. -/
theorem evaluateSource :
    I.store (evaluateSource limits source g m).2.store ∧
      ∀ v, (evaluateSource limits source g m).1 = .ok v → I.data v := by
  cases hread : readForms source with
  | error fault =>
    rw [evaluateSource_of_fault hread]
    exact ⟨hm, fun v hv => nomatch hv⟩
  | ok forms =>
    have hagree : I.diagonal.Agree _ (evaluateForms limits g .nil forms)
        (evaluateForms limits g .nil forms) :=
      Correspondence.agree_evaluateForms I.strict_diagonal (hsource forms hread) hg I.closed.nil
    obtain ⟨hstore, hvalue⟩ := I.keeps_of_agree hm hagree
    obtain ⟨hmachine, houtcome⟩ := evaluateSource_of_forms hread limits g m
    rw [hmachine]
    exact ⟨hstore, fun v hv => (hvalue v (houtcome v hv)).2⟩

end

/-! ## Frames -/

/-- How many frames there are. -/
def frames (count : Nat) : Invariant where
  toFragment := .all
  store s := s.frames.length = count
  bound _ _ := True
  bound_of_data _ _ := trivial
  bound_cases := by
    intro g v _ _
    cases v with
    | suspended e h s i => exact Or.inr ⟨e, h, s, i, rfl, trivial, trivial, trivial⟩
    | _ => exact Or.inl ⟨trivial, rfl⟩
  bound_suspended _ _ := trivial
  lookup _ _ _ := trivial
  define hs _ _ _ := (Store.length_define _ _ _ _).trans hs
  assign := by
    intro s t g x v home hs _ _ _ _ ht
    obtain ⟨f, -, -, rfl⟩ := Store.exists_define_of_assign? ht
    exact (Store.length_define s f x v).trans hs

end Invariant

/-- A computation that makes no frames. -/
def Eval.KeepsFrames {α : Type} (x : Eval α) : Prop :=
  ∀ m, (x m).2.store.frames.length = m.store.frames.length

namespace Eval.KeepsFrames

variable {α β : Type}

theorem pure (a : α) : KeepsFrames (Pure.pure a) :=
  fun _ => rfl

theorem bind {x : Eval α} {f : α → Eval β} (hx : KeepsFrames x) (hf : ∀ a, KeepsFrames (f a)) :
    KeepsFrames (x >>= f) := by
  intro m
  have hfirst := hx m
  rw [bind_run]
  revert hfirst
  rcases x m with ⟨fault | a, m'⟩
  · exact id
  · exact (hf a m').trans

end Eval.KeepsFrames

/-- Evaluation makes no frames. -/
theorem keepsFrames_evaluateWithin (limits : Limits) (levels skipped : Nat) (e : Value)
    (g : FrameId) : Eval.KeepsFrames (evaluateWithin limits levels skipped e g) :=
  fun _ => ((Invariant.frames _).evaluateWithin rfl limits levels skipped trivial trivial).1

end Fexpr
