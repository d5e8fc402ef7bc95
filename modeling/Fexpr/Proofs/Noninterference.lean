import Fexpr.Proofs.Correspondence.Program
import Fexpr.Proofs.Hiding

/-!
# Names that a program does not mention

A program that does not mention a name cannot notice what the name is bound to, nor bind it: neither
its own forms do, nor what they can come to. What they can come to is bound in the frames that can
be reached from the frame of the program (`Store.Reaches`), along chains and through the frames that
suspended operands were captured in; what the name itself is bound to does not count.

Main statement (`run_ignores`): from machines that differ in nothing but what the name is bound to,
the evaluation of an expression and the run of a program end alike, in machines that differ in
nothing else; and where the name is bound, it is bound as before.
-/

namespace Fexpr

/-! ## Captured frames -/

/-- A suspended operand that was captured in the frame is the value, or stands in it at any
depth. -/
inductive Value.Captures (f : FrameId) : Value → Prop
  | here (e : Value) (s : Bool) (i : Nat) : Captures f (.suspended e f s i)
  | part {v w : Value} (hw : w ∈ v.parts) (h : Captures f w) : Captures f v

/-- All suspended operands in the value were captured in frames of `R`. -/
def Value.CapturedIn (R : FrameId → Prop) (v : Value) : Prop :=
  ∀ f, v.Captures f → R f

namespace Value.CapturedIn

variable {R : FrameId → Prop} {v : Value}

theorem part {w : Value} (h : v.CapturedIn R) (hw : w ∈ v.parts) : w.CapturedIn R :=
  fun f hf => h f (.part hw hf)

theorem of_parts (hplain : v.suspension? = none) (h : ∀ w ∈ v.parts, w.CapturedIn R) :
    v.CapturedIn R := by
  intro f hf
  cases hf with
  | here => cases hplain
  | part hw hf => exact h _ hw f hf

theorem leaf (hplain : v.suspension? = none) (hparts : v.parts = []) : v.CapturedIn R := by
  refine of_parts hplain fun w hw => ?_
  rw [hparts] at hw
  cases hw

theorem suspended {e : Value} {f : FrameId} {s : Bool} {i : Nat} (hf : R f)
    (he : e.CapturedIn R) : (Value.suspended e f s i).CapturedIn R := by
  intro g hg
  cases hg with
  | here => exact hf
  | part hw hg =>
    obtain rfl := List.mem_singleton.1 hw
    exact he g hg

end Value.CapturedIn

/-- The expressions and values of a fragment whose suspended operands were captured in frames of
`R`, in these frames. -/
def Fragment.within (F : Fragment) (R : FrameId → Prop) : Fragment where
  frame g := F.frame g ∧ R g
  code e := F.code e ∧ e.CapturedIn R
  data v := F.data v ∧ v.CapturedIn R
  name := F.name
  closed := {
    nil := ⟨F.closed.nil, .leaf rfl rfl⟩
    t := ⟨F.closed.t, .leaf rfl rfl⟩
    number := fun n => ⟨F.closed.number n, .leaf rfl rfl⟩
    list := fun made hne h =>
      ⟨F.closed.list made hne fun v hv => (h v hv).1, .of_parts rfl fun v hv => (h v hv).2⟩
    item := fun h hv => ⟨F.closed.item h.1 hv, h.2.part hv⟩ }
  data_of_code h hne := ⟨F.data_of_code h.1 hne, h.2⟩
  data_of_quoted h hne := ⟨F.data_of_quoted h.1 hne, h.2.part (List.mem_singleton.2 rfl)⟩
  code_of_unquoted h := ⟨F.code_of_unquoted h.1, h.2.part (List.mem_singleton.2 rfl)⟩
  code_of_item h he := ⟨F.code_of_item h.1 he, h.2.part he⟩
  code_ofItems := by
    intro items h
    refine ⟨F.code_ofItems fun e he => (h e he).1, ?_⟩
    cases items with
    | nil => exact .leaf rfl rfl
    | cons e es => exact .of_parts rfl fun v hv => (h v hv).2
  name_of_code h hx := F.name_of_code h.1 hx
  name_of_data h := F.name_of_data h.1
  name_of_param h hp := F.name_of_param h.1 hp
  code_of_fexpr h he := ⟨F.code_of_fexpr h.1 he, h.2.part he⟩
  name_of_fexpr h hp := F.name_of_fexpr h.1 hp
  data_fexpr hx hparams hbody hg :=
    ⟨F.data_fexpr hx hparams (fun e he => (hbody e he).1) hg.1,
      .of_parts rfl fun e he => (hbody e he).2⟩

/-! ## Machines that differ in one name -/

/-- The machines differ in nothing but what the name is bound to. -/
structure Machine.SameBut (x : String) (m n : Machine) : Prop where
  nextId : m.nextId = n.nextId
  nextSuspension : m.nextSuspension = n.nextSuspension
  output : m.output = n.output
  log : m.log = n.log
  frames : m.store.frames.length = n.store.frames.length
  chain : ∀ g, m.store.chain g = n.store.chain g
  bindings : ∀ g y, y ≠ x → m.store.get? g y = n.store.get? g y

/-- The computation takes no notice of what the name is bound to in the two machines: it ends alike,
in machines that differ in nothing else, and leaves the name as it is. -/
structure Eval.Ignores {α : Type} (x : String) (c : Eval α) (m n : Machine) : Prop where
  result : (c m).1 = (c n).1
  same : (c m).2.SameBut x (c n).2
  kept₁ : ∀ g, (c m).2.store.get? g x = m.store.get? g x
  kept₂ : ∀ g, (c n).2.store.get? g x = n.store.get? g x

theorem Machine.SameBut.define {x y : String} {m n : Machine} (h : m.SameBut x n) (f : FrameId)
    (v : Value) :
    Machine.SameBut x { m with store := m.store.define f y v }
      { n with store := n.store.define f y v } where
  nextId := h.nextId
  nextSuspension := h.nextSuspension
  output := h.output
  log := h.log
  frames := by rw [Store.length_define, Store.length_define, h.frames]
  chain g := by rw [Store.chain_define, Store.chain_define, h.chain]
  bindings g z hz := by rw [Store.get?_define, Store.get?_define, h.frames, h.bindings g z hz]

/-- One name kept from a program. An expression that spells a parameter of that name for all
remaining operands mentions it. -/
def Hiding.only (x : String) (hx : x ≠ "t") : Hiding where
  hidden y := y = x
  secret y := y = x ∨ y = x ++ restMarker
  secret_of_hidden h := Or.inl h
  secret_rest h := Or.inr (by rw [h])
  not_hidden_t h := hx h.symm

/-! ## Two runs -/

section

variable {x : String} {hx : x ≠ "t"} {R : FrameId → Prop} {start₁ start₂ : Store} {m n : Machine}

variable (x hx R start₁ start₂) in
/-- Machines that two runs may be in which started with the name bound differently. In the frames of
`R`, the other names are bound to what does not mention it and was captured in these frames. -/
structure Apart (m n : Machine) : Prop where
  same : m.SameBut x n
  chain : ∀ g, m.store.chain g = start₁.chain g
  bound : ∀ g y v, R g → y ≠ x → m.store.get? g y = some v →
    (Hiding.only x hx).Data v ∧ v.CapturedIn R
  kept₁ : ∀ g, m.store.get? g x = start₁.get? g x
  kept₂ : ∀ g, n.store.get? g x = start₂.get? g x

theorem Apart.define (h : Apart x hx R start₁ start₂ m n) {y : String} (hy : y ≠ x) (f : FrameId)
    {v : Value} (hv : (Hiding.only x hx).Data v ∧ v.CapturedIn R) :
    Apart x hx R start₁ start₂ { m with store := m.store.define f y v }
      { n with store := n.store.define f y v } where
  same := h.same.define f v
  chain g := by rw [Store.chain_define, h.chain]
  bound g z w hg hz hw := by
    rw [Store.get?_define] at hw
    split at hw
    · obtain rfl := Option.some.inj hw
      exact hv
    · exact h.bound g z w hg hz hw
  kept₁ g := by rw [Store.get?_define_of_ne (Or.inr hy.symm), h.kept₁]
  kept₂ g := by rw [Store.get?_define_of_ne (Or.inr hy.symm), h.kept₂]

variable (x hx R start₁ start₂) in
/-- How two runs are compared that started with the name bound differently: they are to be the same,
but for what the name is bound to. -/
def ignoring (hR : ∀ g f, R g → f ∈ start₁.chain g → R f) : Correspondence where
  toFragment := (Hiding.only x hx).fragment.within R
  state := Apart x hx R start₁ start₂
  fault := Eq
  excused₁ _ := False
  excused₂ _ := False
  fault_refl _ := rfl
  nextId_eq h := h.same.nextId
  count h :=
    { h with same := { h.same with nextId := congrArg (· + 1) h.same.nextId } }
  print h output :=
    { h with same := { h.same with output := congrArg output h.same.output } }
  bound _ v w := v = w ∧ (Hiding.only x hx).Data v ∧ v.CapturedIn R
  bound_of_data _ h := ⟨rfl, h⟩
  bound_cases := by
    rintro g v _ - ⟨rfl, hdata, hcaptured⟩
    cases v with
    | suspended e f s i =>
      have he : e.CapturedIn R := hcaptured.part (List.mem_singleton.2 rfl)
      exact Or.inr ⟨e, f, s, i, i, rfl, rfl, ⟨hdata.here, he⟩,
        ⟨Hiding.data_of_code hdata.here, he⟩, trivial, hcaptured f (.here e s i)⟩
    | _ => exact Or.inl ⟨rfl, ⟨hdata, hcaptured⟩, rfl⟩
  lookup := by
    intro m n g y h hg hy
    have hne : y ≠ x := fun heq => hy.1.here (Or.inl heq)
    have hrel : Option.Rel Eq (m.store.lookup? g y) (n.store.lookup? g y) := by
      refine Store.rel_lookup? (h.same.chain g) fun f => ?_
      rw [h.same.bindings f y hne]
      cases n.store.get? f y with
      | none => exact .none
      | some v => exact .some rfl
    cases hv : m.store.lookup? g y with
    | none =>
      rw [hv] at hrel
      cases hw : n.store.lookup? g y with
      | none => exact .none
      | some w => rw [hw] at hrel; cases hrel
    | some v =>
      rw [hv] at hrel
      -- The frame that binds the name is above `g`, so it is one of those that are spoken of.
      obtain ⟨f, hf, hget⟩ := Store.exists_get?_of_lookup? hv
      rw [h.chain] at hf
      have hbound := h.bound f y v (hR g f hg.2 hf) hne hget
      cases hw : n.store.lookup? g y with
      | none => rw [hw] at hrel; cases hrel
      | some w =>
        rw [hw] at hrel
        cases hrel with
        | some hvw => exact .some ⟨hvw, hbound⟩
  define := by
    rintro m n g y v _ h - hy ⟨rfl, hv⟩
    exact h.define hy g hv
  assign := by
    intro m n g y v _ h _ hy hv _
    have hbinds (f : FrameId) : (m.store.get? f y).isSome = (n.store.get? f y).isSome := by
      rw [h.same.bindings f y hy]
    rcases Store.assign?_eq_of_binds (v := v) (h.same.chain g) hbinds with
      ⟨hm, hn⟩ | ⟨f, hm, hn⟩
    · rw [hm, hn]
      exact .none
    · rw [hm, hn]
      exact .some (h.define hy f hv)
  endless _ := rfl
  suspend := by
    intro m n g e s h hg he
    refine ⟨⟨by rw [h.same.nextSuspension], ?_, .suspended hg.2 he.2⟩, ?_⟩
    · refine .node he.1 fun w hw => ?_
      obtain rfl := List.mem_singleton.1 hw
      exact Hiding.data_of_code he.1
    · have hsuspension := congrArg (· + 1) h.same.nextSuspension
      exact { h with same := { h.same with nextSuspension := hsuspension } }

/-! ## Programs -/

open Comparison

variable {hR : ∀ g f, R g → f ∈ start₁.chain g → R f} {limits : Limits} {home : FrameId}

theorem strict_ignoring : (ignoring x hx R start₁ start₂ hR).Strict where
  fault h := h
  excused₁ _ h := h
  excused₂ _ h := h
  log := by
    intro m n h record
    have hlog : record :: m.log = record :: n.log := by rw [h.same.log]
    exact { h with same := { h.same with log := hlog } }

theorem agree_evaluate {e : Value} (he : (Hiding.only x hx).Code e ∧ e.CapturedIn R)
    (hhome : R home) :
    (ignoring x hx R start₁ start₂ hR).Agree (Both (ignoring x hx R start₁ start₂ hR).data)
      (evaluate limits e home) (evaluate limits e home) :=
  Correspondence.agree_evaluateWithin (Correspondence.beside_self _) 0 he ⟨trivial, hhome⟩

/-- The forms of a program end alike in both runs, one after the other. -/
theorem agree_runForms {es : List Value}
    (hes : ∀ e ∈ es, (Hiding.only x hx).Code e ∧ e.CapturedIn R) (hhome : R home) (index : Nat) :
    (ignoring x hx R start₁ start₂ hR).Agree Eq (runForms limits home index es)
      (runForms limits home index es) :=
  (Correspondence.agree_runForms strict_ignoring hes ⟨trivial, hhome⟩ index).mono fun _ _ h => h.1

/-- What agrees with itself takes no notice of the name. -/
theorem ignores_of_agree {hR : ∀ g f, R g → f ∈ m.store.chain g → R f} {α : Type}
    {Q : α → α → Prop} (hQ : ∀ a b, Q a b → a = b) {c : Eval α}
    (h : (ignoring x hx R m.store n.store hR).Agree Q c c)
    (hmn : Apart x hx R m.store n.store m n) : c.Ignores x m n := by
  obtain ⟨hstate, hends⟩ := strict_ignoring.after h hmn
  refine ⟨?_, hstate.same, hstate.kept₁, hstate.kept₂⟩
  generalize (c m).1 = r at hends ⊢
  generalize (c n).1 = s at hends ⊢
  cases hends with
  | value hab => rw [hQ _ _ hab]
  | fault hfg => exact congrArg _ hfg

end

/-! ## The theorem -/

/-- The frames that expressions can come to when they are evaluated in a frame, apart from what a
name is bound to: the frame, those above a frame that they can come to, and those that a suspended
operand was captured in which is bound there or stands in the expressions. -/
inductive Store.Reaches (s : Store) (x : String) (es : List Value) (home : FrameId) :
    FrameId → Prop
  | here : Reaches s x es home home
  | written {e : Value} {f : FrameId} (he : e ∈ es) (hf : e.Captures f) : Reaches s x es home f
  | above {g f : FrameId} (hg : Reaches s x es home g) (hf : f ∈ s.chain g) : Reaches s x es home f
  | bound {g f : FrameId} {y : String} {v : Value} (hg : Reaches s x es home g) (hy : y ≠ x)
    (hv : s.get? g y = some v) (hf : v.Captures f) : Reaches s x es home f

/-- A name that is not mentioned is not noticed and not touched. Let neither the name, which is not
`t`, nor what spells a parameter of that name for all remaining operands be mentioned in expressions
or in anything but the name's own value that is bound in a frame that they can come to. Then on two
machines that differ in nothing but what the name is bound to, each of the expressions has the same
value or ends in the same fault, and the program that they make has the same report; the machines
differ in nothing else afterwards, what was printed and logged included; and in each of them the
name is bound as before, wherever it was bound. -/
theorem run_ignores (limits : Limits) {x : String} (hx : x ≠ "t") {m n : Machine} {home : FrameId}
    {es : List Value} (hes : ∀ e ∈ es, (Hiding.only x hx).Code e)
    (hbound : ∀ g y v, m.store.Reaches x es home g → y ≠ x → m.store.get? g y = some v →
      (Hiding.only x hx).Data v)
    (hsame : m.SameBut x n) :
    (∀ e ∈ es, (evaluate limits e home).Ignores x m n) ∧
      ∀ index, (runForms limits home index es).Ignores x m n := by
  have hcode : ∀ e ∈ es, (Hiding.only x hx).Code e ∧ e.CapturedIn (m.store.Reaches x es home) :=
    fun e he => ⟨hes e he, fun f hf => .written he hf⟩
  have hapart : Apart x hx (m.store.Reaches x es home) m.store n.store m n := {
    same := hsame
    chain := fun _ => rfl
    bound := fun g y v hg hy hv => ⟨hbound g y v hg hy hv, fun f hf => .bound hg hy hv hf⟩
    kept₁ := fun _ => rfl
    kept₂ := fun _ => rfl }
  have hR : ∀ g f, m.store.Reaches x es home g → f ∈ m.store.chain g →
      m.store.Reaches x es home f := fun _ _ => .above
  let C := ignoring x hx (m.store.Reaches x es home) m.store n.store hR
  refine ⟨fun e he => ?_, fun index => ?_⟩
  · have hagree : C.Agree (Both C.data) (evaluate limits e home) (evaluate limits e home) :=
      agree_evaluate (hcode e he) .here
    exact ignores_of_agree (fun _ _ h => h.1) hagree hapart
  · have hagree : C.Agree Eq (runForms limits home index es) (runForms limits home index es) :=
      agree_runForms hcode .here index
    exact ignores_of_agree (fun _ _ h => h) hagree hapart

/-- A call that forces its operands twice takes no notice of whether the name `key` is bound to a
suspended operand or not at all. -/
theorem run_ignores_suspended_key :
    let twice : Value := .fexpr 0 "twice" [{ name := "body", suspended := true, rest := true }]
      [.unquote (.symbol "body"), .unquote (.symbol "body")] 0
    let store := (Store.empty.global []).define 0 "twice" twice
    let m := { Machine.empty with
      store := store.define 0 "key" (.suspended (.symbol "t") 0 false 0) }
    let n := { Machine.empty with store }
    let e : Value := .list [.symbol "twice", .list [.symbol "debug", .symbol "t"] none] none
    (evaluate {} e 0).Ignores "key" m n ∧ (runForms {} 0 0 [e]).Ignores "key" m n := by
  intro twice store m n e
  have hsecret (y : String) (hy : y = "twice" ∨ y = "body" ∨ y = "debug" ∨ y = "t") :
      ¬ (Hiding.only "key" (by decide)).secret y := by
    rcases hy with rfl | rfl | rfl | rfl <;> simp [Hiding.only, restMarker]
  have hsymbol (y : String) (hy : y = "twice" ∨ y = "body" ∨ y = "debug" ∨ y = "t") :
      (Hiding.only "key" (by decide)).Code (.symbol y) := .leaf (hsecret y hy) rfl
  have htwice : (Hiding.only "key" (by decide)).Code twice := by
    have hbody : (Hiding.only "key" (by decide)).Code (.unquote (.symbol "body")) :=
      .node trivial (List.forall_mem_singleton.2 (hsymbol "body" (by simp)))
    refine .node ?_ (List.forall_mem_cons.2 ⟨hbody, List.forall_mem_singleton.2 hbody⟩)
    exact List.forall_mem_singleton.2 (by decide : "body" ≠ "key")
  have he : (Hiding.only "key" (by decide)).Code e := by
    have hdebug : (Hiding.only "key" (by decide)).Code
        (.list [.symbol "debug", .symbol "t"] none) :=
      .node trivial (List.forall_mem_cons.2
        ⟨hsymbol "debug" (by simp), List.forall_mem_singleton.2 (hsymbol "t" (by simp))⟩)
    exact .node trivial (List.forall_mem_cons.2
      ⟨hsymbol "twice" (by simp), List.forall_mem_singleton.2 hdebug⟩)
  have hbound : ∀ g y v, m.store.Reaches "key" [e] 0 g → y ≠ "key" → m.store.get? g y = some v →
      (Hiding.only "key" (by decide)).Data v := by
    intro g y v _ hy hv
    rw [Store.get?_define_of_ne (Or.inr hy), Store.get?_define] at hv
    split at hv
    · exact Option.some.inj hv ▸ Hiding.data_of_code htwice
    · rw [Store.global, Store.root, Store.get?_push] at hv
      split at hv
      · rcases Store.builtin_or_t_of_get?_globalBindings hv with ⟨op, -, rfl⟩ | rfl
        · exact .leaf trivial rfl
        · exact .leaf (by decide : "t" ≠ "key") rfl
      · cases hv
  have hsame : m.SameBut "key" n := {
    nextId := rfl
    nextSuspension := rfl
    output := rfl
    log := rfl
    frames := rfl
    chain := fun g => Store.chain_define _ _ _ _ _
    bindings := fun g y hy => Store.get?_define_of_ne (Or.inr hy) _ }
  have hall := run_ignores {} (by decide) (fun e' he' => List.mem_singleton.1 he' ▸ he) hbound hsame
  exact ⟨hall.1 e List.mem_cons_self, hall.2 0⟩

end Fexpr
