import Fexpr.Proofs.Invariant
import Fexpr.Proofs.Store

/-!
# Confinement

An expression is evaluated in a frame. Whatever it does, it stays in the chain of that frame: it
makes no frame, moves none, and binds nothing elsewhere. Suspended operands stay there too. They
are bound to names and nothing else: no value is one or holds one, so none is handed out of the
chain it was made in.

What carries this is that a suspended operand is bound only below the frame it was captured in, so
that forcing it leads up the chain.
-/

namespace Fexpr

/-- The value is no suspended operand and holds none at any depth. -/
def Value.Settled (v : Value) : Prop :=
  v.Every fun w => w.suspension? = none

/-- What a name may be bound to in a frame with this chain: a settled value, or an operand captured
in a frame of the chain. -/
def Value.Fits (chain : List FrameId) (v : Value) : Prop :=
  v.Settled ∨ ∃ e f s i, v = .suspended e f s i ∧ e.Settled ∧ f ∈ chain

namespace Value

theorem Settled.suspension?_eq_none {v : Value} (h : v.Settled) : v.suspension? = none :=
  h.here

theorem settled_of_parts {v : Value} (here : v.suspension? = none) (h : ∀ w ∈ v.parts, w.Settled) :
    v.Settled :=
  .node here h

theorem settled_list {items : List Value} (h : ∀ v ∈ items, v.Settled) (made : Option Nat) :
    (Value.list items made).Settled :=
  settled_of_parts rfl h

theorem settled_ofItems {items : List Value} (h : ∀ v ∈ items, v.Settled) :
    (ofItems items).Settled := by
  cases items with
  | nil => exact .leaf rfl rfl
  | cons v vs => exact settled_list h none

theorem closed_settled : Closed Settled where
  nil := .leaf rfl rfl
  t := .leaf rfl rfl
  number _ := .leaf rfl rfl
  list made _ h := settled_list h (some made)
  item h hv := h.item hv

/-- A chain with more frames fits more. -/
theorem Fits.mono {chain chain' : List FrameId} (hchain : ∀ f ∈ chain, f ∈ chain') {v : Value}
    (h : v.Fits chain) : v.Fits chain' := by
  rcases h with h | ⟨e, f, s, i, rfl, he, hf⟩
  · exact Or.inl h
  · exact Or.inr ⟨e, f, s, i, rfl, he, hchain f hf⟩

end Value

namespace Store

/-- Frames that stand below one another and bind only what fits their chains. -/
structure Confined (s : Store) : Prop where
  forest : s.IsForest
  fits : ∀ {id name v}, s.get? id name = some v → v.Fits (s.chain id)

/-- What may have changed between two stores when only frames of a scope were bound in. -/
structure ChangedWithin (scope : List FrameId) (s t : Store) : Prop where
  frames : t.frames.length = s.frames.length
  chain : ∀ id, t.chain id = s.chain id
  bindings : ∀ id, id ∉ scope → t.bindings id = s.bindings id
  names : ∀ id name, (s.get? id name).isSome → (t.get? id name).isSome

variable {s t : Store} {scope : List FrameId} {id : FrameId} {name : String} {v : Value}

theorem ChangedWithin.refl (scope : List FrameId) (s : Store) : s.ChangedWithin scope s :=
  ⟨rfl, fun _ => rfl, fun _ _ => rfl, fun _ _ h => h⟩

theorem ChangedWithin.define (h : s.ChangedWithin scope t) (hid : id ∈ scope) :
    s.ChangedWithin scope (t.define id name v) where
  frames := by rw [length_define, h.frames]
  chain other := by rw [chain_define, h.chain]
  bindings other hother := by
    have hne : other ≠ id := fun heq => hother (heq ▸ hid)
    rw [bindings_define, if_neg fun hand => hne hand.1, h.bindings other hother]
  names other x hx := isSome_get?_define (h.names other x hx)

theorem Confined.define (h : s.Confined) (hv : v.Fits (s.chain id)) :
    (s.define id name v).Confined where
  forest := h.forest.define id name v
  fits := by
    intro other x w hw
    rw [chain_define]
    rw [get?_define] at hw
    split at hw
    next hdefined =>
      obtain rfl := Option.some.inj hw
      rw [hdefined.1]
      exact hv
    · exact h.fits hw

/-- What is seen from a frame fits the chain of that frame. -/
theorem Confined.fits_lookup? (h : s.Confined) (hv : s.lookup? id name = some v) :
    v.Fits (s.chain id) := by
  obtain ⟨f, hf, hget⟩ := exists_get?_of_lookup? hv
  exact (h.fits hget).mono fun g hg => h.forest.mem_chain_trans hf hg

/-! ## Stores that hosts make -/

theorem confined_empty : Store.empty.Confined where
  forest _ := Or.inl rfl
  fits h := nomatch h

/-- A confined store stays so with a new frame that binds what fits its chain. -/
theorem Confined.push (h : s.Confined) {f : Frame}
    (hf : f.ancestors = [] ∨ ∃ parent < s.frames.length, f.ancestors = s.chain parent)
    (hbindings : ∀ x v, f.bindings.get? x = some v → v.Fits (s.next :: f.ancestors)) :
    (s.push f).Confined where
  forest := h.forest.push hf
  fits := by
    intro id x v hv
    rw [get?_push] at hv
    split at hv
    next hid =>
      rw [hid, chain_push_next]
      exact hbindings x v hv
    · have hlt : id < s.frames.length := by
        by_contra hge
        rw [get?, bindings, List.getElem?_eq_none (Nat.le_of_not_lt hge)] at hv
        cases hv
      rw [chain_push_of_lt hlt]
      exact h.fits hv

/-- A frame below another one may bind operands that it captured itself. -/
theorem Confined.extend (h : s.Confined) {parent : FrameId} (hparent : parent < s.frames.length)
    {bindings : Bindings}
    (hbindings : ∀ x v, bindings.get? x = some v → v.Fits (s.next :: s.chain parent)) :
    (s.extend parent bindings).Confined :=
  h.push (Or.inr ⟨parent, hparent, rfl⟩) hbindings

/-- What every global frame binds is settled. -/
theorem settled_of_get?_globalBindings {home : FrameId}
    (h : (globalBindings home).get? name = some v) : v.Settled := by
  rcases builtin_or_t_of_get?_globalBindings h with ⟨op, -, rfl⟩ | rfl
  · exact .leaf rfl rfl
  · exact .leaf rfl rfl

theorem Confined.global (h : s.Confined) : (s.global []).Confined :=
  h.push (Or.inl rfl) fun _ _ hv => Or.inl (settled_of_get?_globalBindings hv)

end Store

/-! ## Evaluation -/

/-- Evaluation of settled expressions in the chain of a frame, from a confined store. -/
def confinement (start : Store) (hstart : start.IsForest) (home : FrameId) : Invariant where
  frame g := g ∈ start.chain home
  code := Value.Settled
  data := Value.Settled
  name _ := True
  closed := Value.closed_settled
  data_of_code h _ := h
  data_of_quoted h _ := h.quoted
  code_of_unquoted h := h.unquoted
  code_of_item h he := h.item he
  code_ofItems h := Value.settled_ofItems h
  name_of_code _ _ := trivial
  name_of_data _ := trivial
  name_of_param _ _ := trivial
  code_of_fexpr h he := h.part he
  name_of_fexpr _ _ := trivial
  data_fexpr _ _ hbody _ := Value.settled_of_parts rfl hbody
  store s := s.Confined ∧ start.ChangedWithin (start.chain home) s
  bound g v := v.Fits (start.chain g)
  bound_of_data _ h := Or.inl h
  bound_cases := by
    intro g v hg hv
    rcases hv with hv | ⟨e, f, s, i, rfl, he, hf⟩
    · exact Or.inl ⟨hv, hv.suspension?_eq_none⟩
    · exact Or.inr ⟨e, f, s, i, rfl, he, he, hstart.mem_chain_trans hg hf⟩
  bound_suspended hg he := Or.inr ⟨_, _, _, _, rfl, he, Store.mem_chain_self _ _⟩
  lookup := by
    intro s g x v hs hg hv
    rw [← hs.2.chain]
    exact hs.1.fits_lookup? hv
  define := by
    intro s g x v hs hg _ hv
    rw [← hs.2.chain] at hv
    exact ⟨hs.1.define hv, hs.2.define hg⟩
  assign := by
    intro s t g x v _ hs hg _ hv _ ht
    -- The frame that is assigned in is above `g`, which is above `home` or the same.
    obtain ⟨f, hf, -, rfl⟩ := Store.exists_define_of_assign? ht
    rw [hs.2.chain] at hf
    exact ⟨hs.1.define (Or.inl hv), hs.2.define (hstart.mem_chain_trans hg hf)⟩

/-- Evaluation is confined to the chain of its frame, and no suspended operand leaks. From a
confined store, a settled expression leaves a confined store, however its evaluation ends; it
changes no frame outside the chain, no frame's place, and takes no name away; and if it has a value,
that is settled. -/
theorem evaluate_confined (limits : Limits) {m : Machine} (hm : m.store.Confined) {e : Value}
    (he : e.Settled) (frame : FrameId) :
    (evaluate limits e frame m).2.store.Confined ∧
      m.store.ChangedWithin (m.store.chain frame) (evaluate limits e frame m).2.store ∧
      ∀ v, (evaluate limits e frame m).1 = .ok v → v.Settled := by
  have hstart := Store.ChangedWithin.refl (m.store.chain frame) m.store
  -- The start fixes the chains; the invariant says of any later store that they are still the same.
  obtain ⟨⟨hconfined, hchanged⟩, hvalue⟩ :=
    (confinement m.store hm.forest frame).evaluateWithin ⟨hm, hstart⟩ limits limits.levels 0 he
      (Store.mem_chain_self _ _)
  exact ⟨hconfined, hchanged, hvalue⟩

/-- A frame below a global one, with an operand that was captured above it, is confined; so is what
an expression makes of it that forces the operand and binds the value. -/
theorem evaluate_confined_below_global :
    let limits : Limits := {}
    let operand : Value := .suspended (.symbol "t") 0 false 0
    let m := { Machine.empty with store := (Store.empty.global []).extend 0 [("p", operand)] }
    let e : Value := .list [.symbol "let", .symbol "x", .unquote (.symbol "p")] none
    (evaluate limits e 1 m).2.store.Confined ∧
      m.store.ChangedWithin (m.store.chain 1) (evaluate limits e 1 m).2.store ∧
      ∀ v, (evaluate limits e 1 m).1 = .ok v → v.Settled := by
  intro limits operand m e
  have hoperand : operand.Fits [1, 0] :=
    Or.inr ⟨_, _, _, _, rfl, .leaf rfl rfl, List.mem_cons_of_mem 1 List.mem_cons_self⟩
  have hm : m.store.Confined := by
    refine Store.confined_empty.global.extend Nat.one_pos fun x v hv => ?_
    rw [Bindings.get?, Option.map_eq_some_iff] at hv
    obtain ⟨b, hb, rfl⟩ := hv
    obtain rfl := List.mem_singleton.1 (List.mem_of_find?_eq_some hb)
    exact hoperand
  have he : e.Settled := by
    refine Value.settled_list (fun v hv => ?_) none
    simp only [List.mem_cons, List.not_mem_nil, or_false] at hv
    rcases hv with rfl | rfl | rfl
    · exact .leaf rfl rfl
    · exact .leaf rfl rfl
    · exact Value.settled_of_parts rfl fun w hw => by
        obtain rfl := List.mem_singleton.1 hw
        exact .leaf rfl rfl
  exact evaluate_confined limits hm he 1

end Fexpr
