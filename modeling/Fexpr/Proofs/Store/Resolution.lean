import Fexpr.Proofs.Steps
import Fexpr.Proofs.Store

/-!
# Where names are resolved

The search for a name walks from a frame to its parent until it comes to a frame that binds the
name. Reading, asking, assigning and defining are told by that walk alone.

Main statement: in a forest, a name can be read where it is bound and where it can be assigned; an
assignment changes the one binding that is read, and a definition the one of its own frame, and
either is seen from the frames whose search comes to the changed frame, and from no others.
-/

namespace Fexpr.Store

variable {s t : Store} {e e' f g parent : FrameId} {x y : String} {v : Value}

/-- The search for a name from one frame comes to another: no frame before that one binds the
name. -/
inductive Sees (s : Store) (x : String) : FrameId → FrameId → Prop
  | here (f : FrameId) : Sees s x f f
  | above {e parent f : FrameId} (hnone : s.get? e x = none) (hparent : s.parent? e = some parent)
      (h : Sees s x parent f) : Sees s x e f

/-- The search for a name from one frame ends in another, which binds it. -/
def Resolves (s : Store) (x : String) (e f : FrameId) : Prop :=
  s.Sees x e f ∧ (s.get? f x).isSome

/-! ## Chains, parent by parent -/

theorem chain_of_root (h : s.parent? e = none) : s.chain e = [e] := by
  rw [chain, List.head?_eq_none_iff.1 h]

theorem IsForest.chain_of_parent (h : s.IsForest) (hparent : s.parent? e = some parent) :
    s.chain e = e :: s.chain parent := by
  unfold parent? at hparent
  rcases h e with hroot | ⟨above, -, habove⟩
  · rw [hroot] at hparent
    cases hparent
  · rw [habove, chain, List.head?_cons] at hparent
    rw [chain, habove, Option.some.inj hparent]

/-- What holds of the roots, and of a frame when it does of its parent, holds of all frames. -/
theorem IsForest.induction (h : s.IsForest) {motive : FrameId → Prop}
    (root : ∀ e, s.parent? e = none → motive e)
    (child : ∀ e parent, s.parent? e = some parent → motive parent → motive e) (e : FrameId) :
    motive e := by
  induction hlen : (s.ancestors e).length generalizing e with
  | zero => exact root e (by rw [parent?, List.length_eq_zero_iff.1 hlen]; rfl)
  | succ length ih =>
    cases hparent : s.parent? e with
    | none => exact root e hparent
    | some parent =>
      have hchain := h.chain_of_parent hparent
      rw [chain, List.cons.injEq] at hchain
      refine child e parent hparent (ih parent ?_)
      rw [hchain.2, chain, List.length_cons] at hlen
      exact Nat.succ.inj hlen

theorem lookup?_of_root (h : s.parent? e = none) (x : String) :
    s.lookup? e x = s.get? e x := by
  rw [lookup?, chain_of_root h, List.findSome?_singleton]

/-- A name that a frame does not bind is what it is seen from the parent. -/
theorem IsForest.lookup?_of_parent (h : s.IsForest) (hparent : s.parent? e = some parent)
    (x : String) : s.lookup? e x = (s.get? e x).or (s.lookup? parent x) := by
  rw [lookup?, h.chain_of_parent hparent, List.findSome?_cons]
  cases s.get? e x <;> rfl

@[simp] theorem parent?_define (s : Store) (id other : FrameId) (name : String) (v : Value) :
    (s.define id name v).parent? other = s.parent? other := by
  rw [parent?, ancestors_define, parent?]

/-! ## Searches -/

theorem Sees.mem_chain (h : s.IsForest) (hsees : s.Sees x e f) : f ∈ s.chain e := by
  induction hsees with
  | here f => exact mem_chain_self s f
  | above _ hparent _ ih =>
    rw [h.chain_of_parent hparent]
    exact List.mem_cons_of_mem _ ih

/-- No search from an ancestor of a frame comes to the frame. -/
theorem IsForest.not_sees_of_mem_ancestors (h : s.IsForest) (he' : e' ∈ s.ancestors e) :
    ¬ s.Sees x e' e := by
  intro hsees
  have hlt := h.length_ancestors_lt he'
  rcases List.mem_cons.1 (hsees.mem_chain h) with rfl | he
  · exact Nat.lt_irrefl _ hlt
  · exact Nat.lt_asymm hlt (h.length_ancestors_lt he)

/-- A search ends in the nearest frame of the chain that binds the name. -/
theorem IsForest.resolves_iff (h : s.IsForest) :
    s.Resolves x e f ↔ (s.chain e).find? (fun g => (s.get? g x).isSome) = some f := by
  constructor
  · rintro ⟨hsees, hbinds⟩
    induction hsees with
    | here f => rw [chain, List.find?_cons, hbinds]
    | above hnone hparent _ ih =>
      rw [h.chain_of_parent hparent, List.find?_cons_of_neg (by simp [hnone]), ih hbinds]
  · intro hfind
    refine ⟨?_, List.find?_some (p := fun g => (s.get? g x).isSome) hfind⟩
    induction e using h.induction with
    | root e hroot =>
      rw [chain_of_root hroot] at hfind
      obtain rfl := List.mem_singleton.1 (List.mem_of_find?_eq_some hfind)
      exact .here f
    | child e parent hparent ih =>
      rw [h.chain_of_parent hparent, List.find?_cons] at hfind
      cases hget : s.get? e x with
      | none => exact .above hget hparent (ih (by simpa [hget] using hfind))
      | some w =>
        obtain rfl : e = f := by simpa [hget] using hfind
        exact .here e

theorem Resolves.unique (h : s.IsForest) (hf : s.Resolves x e f) (hg : s.Resolves x e g) :
    f = g := by
  rw [h.resolves_iff] at hf hg
  exact Option.some.inj (hf.symm.trans hg)

/-- What a name stands for is what the frame binds it to in which the search ends. -/
theorem Resolves.lookup?_eq (h : s.IsForest) (hf : s.Resolves x e f) :
    s.lookup? e x = s.get? f x := by
  obtain ⟨hsees, hbinds⟩ := hf
  obtain ⟨w, hw⟩ := Option.isSome_iff_exists.1 hbinds
  rw [hw]
  induction hsees with
  | here f => exact lookup?_of_get? hw
  | above hnone hparent _ ih =>
    rw [h.lookup?_of_parent hparent, hnone, ih hbinds hw, Option.none_or]

theorem isSome_lookup?_iff : (s.lookup? e x).isSome ↔ s.isBound e x = true := by
  rw [lookup?, isBound, List.findSome?_isSome_iff, List.any_eq_true]

theorem isBound_iff_isSome_assign? : s.isBound e x = true ↔ (s.assign? e x v).isSome := by
  rw [isBound, assign?, Option.isSome_map, List.find?_isSome, List.any_eq_true]

/-! ## What a change of one binding does -/

/-- The second store has the value for the name in the frame, and is the first one otherwise; seen
from a frame, the name stands for the value if the search comes to the changed frame, and nothing
else stands for anything new. -/
structure Rebinds (s t : Store) (f : FrameId) (x : String) (v : Value) : Prop where
  /-- The binding is there. -/
  get?_self : t.get? f x = some v
  /-- No other binding has changed. -/
  get?_other : ∀ g y, g ≠ f ∨ y ≠ x → t.get? g y = s.get? g y
  /-- The frames stand as they did. -/
  chain : ∀ g, t.chain g = s.chain g
  /-- The change is seen wherever the search comes to the frame. -/
  seen : ∀ e, s.Sees x e f → t.lookup? e x = some v
  /-- It is seen from nowhere else, and other names are not touched. -/
  unseen : ∀ e y, ¬ (y = x ∧ s.Sees x e f) → t.lookup? e y = s.lookup? e y

/-- A definition is seen wherever the search for the name comes to its frame. -/
theorem IsForest.lookup?_define_of_sees (h : s.IsForest) (hf : f < s.frames.length)
    (hsees : s.Sees x e f) (v : Value) : (s.define f x v).lookup? e x = some v := by
  induction hsees with
  | here f => exact lookup?_define_self hf x v
  | above hnone hparent _ ih =>
    rename_i e parent f _
    rw [(h.define f x v).lookup?_of_parent ((parent?_define ..).trans hparent), get?_define, ih hf]
    split
    · rfl
    · rw [hnone, Option.none_or]

/-- A definition is not seen where the search for the name ends before it comes to its frame, or
passes elsewhere. -/
theorem IsForest.lookup?_define_of_not_sees (h : s.IsForest) (hsees : ¬ s.Sees x e f)
    (v : Value) : (s.define f x v).lookup? e x = s.lookup? e x := by
  have get?_of_ne {e : FrameId} (hsees : ¬ s.Sees x e f) :
      (s.define f x v).get? e x = s.get? e x := by
    refine get?_define_of_ne (Or.inl ?_) v
    rintro rfl
    exact hsees (.here e)
  induction e using h.induction with
  | root e hroot =>
    rw [lookup?_of_root hroot, lookup?_of_root ((parent?_define ..).trans hroot),
      get?_of_ne hsees]
  | child e parent hparent ih =>
    rw [h.lookup?_of_parent hparent,
      (h.define f x v).lookup?_of_parent ((parent?_define ..).trans hparent), get?_of_ne hsees]
    cases hget : s.get? e x with
    | none => rw [ih fun habove => hsees (.above hget hparent habove)]
    | some w => rfl

theorem IsForest.rebinds_define (h : s.IsForest) (hf : f < s.frames.length) (x : String)
    (v : Value) : s.Rebinds (s.define f x v) f x v where
  get?_self := get?_define_self hf x v
  get?_other _ _ hne := get?_define_of_ne hne v
  chain g := chain_define s f g x v
  seen _ hsees := h.lookup?_define_of_sees hf hsees v
  unseen e y hne := by
    by_cases hy : y = x
    · subst hy
      exact h.lookup?_define_of_not_sees (fun hsees => hne ⟨rfl, hsees⟩) v
    · exact lookup?_define_of_ne hy v

/-- After a change in a frame that binds the name already, the name stands for the value where the
search ends in that frame, and where it stood for the value before. -/
theorem Rebinds.lookup?_eq_some_iff (h : s.Rebinds t f x v) (hbinds : (s.get? f x).isSome) :
    t.lookup? e x = some v ↔ s.Resolves x e f ∨ s.lookup? e x = some v := by
  by_cases hsees : s.Sees x e f
  · exact ⟨fun _ => Or.inl ⟨hsees, hbinds⟩, fun _ => h.seen e hsees⟩
  · rw [h.unseen e x fun hand => hsees hand.2]
    exact ⟨Or.inr, fun hor => hor.resolve_left fun hres => hsees hres.1⟩

/-! ## Names -/

theorem map_fst_put_of_isSome {bs : Bindings} (h : (Bindings.get? bs x).isSome) (v : Value) :
    (Bindings.put x v bs).map Prod.fst = bs.map Prod.fst := by
  induction bs with
  | nil => cases h
  | cons b bs ih =>
    rw [Bindings.put]
    by_cases hb : b.1 == x
    · rw [if_pos hb, List.map_cons, List.map_cons]
    · have htail : (Bindings.get? bs x).isSome := by simpa [Bindings.get?, hb] using h
      rw [if_neg hb, List.map_cons, List.map_cons, ih htail]

/-- Binding a bound name anew changes the names of no frame. -/
theorem map_fst_bindings_define (hbinds : (s.get? f x).isSome) (v : Value) (g : FrameId) :
    ((s.define f x v).bindings g).map Prod.fst = (s.bindings g).map Prod.fst := by
  rw [bindings_define]
  split
  next hand => rw [hand.1, map_fst_put_of_isSome hbinds]
  next => rfl

/-- An assignment is a definition in the frame in which the search ends. -/
theorem IsForest.assign?_eq_some_iff (h : s.IsForest) :
    s.assign? e x v = some t ↔ ∃ f, s.Resolves x e f ∧ t = s.define f x v := by
  simp only [assign?, Option.map_eq_some_iff, h.resolves_iff, eq_comm (a := t)]

/-! ## Reading, assigning and defining -/

/-- In a forest, a name can be read from a frame if it is bound there, and then it can be assigned.
A successful assignment rebinds the name in the frame that was read, where no names come or go; so
afterwards the name stands for the value wherever it was resolved in that same frame, or stood for
the value already. A failing assignment leaves the machine as it is. A definition rebinds the name
in its own frame, and no ancestor sees it. -/
theorem lookup_isBound_assign_define_agree {m : Machine} (h : m.store.IsForest)
    (he : e < m.store.frames.length) (x : String) (v : Value) :
    ((m.store.lookup? e x).isSome ↔ m.store.isBound e x = true) ∧
    (m.store.isBound e x = true ↔ (Eval.assign e x v m).1 = .ok true) ∧
    (m.store.isBound e x = true → ∃ f t,
      Eval.assign e x v m = (.ok true, { m with store := t }) ∧
      m.store.Resolves x e f ∧ m.store.lookup? e x = m.store.get? f x ∧
      m.store.Rebinds t f x v ∧
      (∀ g, (t.bindings g).map Prod.fst = (m.store.bindings g).map Prod.fst) ∧
      (∀ e', t.lookup? e' x = some v ↔
        (∃ g, m.store.Resolves x e g ∧ m.store.Resolves x e' g) ∨
          m.store.lookup? e' x = some v) ∧
      ∀ e' y, ¬ (y = x ∧ ∃ g, m.store.Resolves x e g ∧ m.store.Resolves x e' g) →
        t.lookup? e' y = m.store.lookup? e' y) ∧
    (m.store.isBound e x = false → Eval.assign e x v m = (.ok false, m)) ∧
    Eval.define e x v m = (.ok (), { m with store := m.store.define e x v }) ∧
    m.store.Rebinds (m.store.define e x v) e x v ∧
    ∀ e' ∈ m.store.ancestors e, ∀ y,
      (m.store.define e x v).lookup? e' y = m.store.lookup? e' y := by
  have hdefine := h.rebinds_define he x v
  have hassign : m.store.isBound e x = true ↔ (m.store.assign? e x v).isSome :=
    isBound_iff_isSome_assign?
  refine ⟨isSome_lookup?_iff, ?_, ?_, ?_, rfl, hdefine, ?_⟩
  · cases hsome : m.store.assign? e x v with
    | none => simp [hassign, hsome, Eval.assign_run_of_none hsome]
    | some t => simp [hassign, hsome, Eval.assign_run_of_some hsome]
  · intro hbound
    obtain ⟨t, ht⟩ := Option.isSome_iff_exists.1 (hassign.1 hbound)
    obtain ⟨f, hf, rfl⟩ := h.assign?_eq_some_iff.1 ht
    have hrebinds := h.rebinds_define (lt_length_of_isSome_get? hf.2) x v
    have hsame (e' : FrameId) :
        (∃ g, m.store.Resolves x e g ∧ m.store.Resolves x e' g) ↔ m.store.Resolves x e' f := by
      refine ⟨?_, fun hres => ⟨f, hf, hres⟩⟩
      rintro ⟨g, hg, hres⟩
      rwa [hf.unique h hg]
    refine ⟨f, _, Eval.assign_run_of_some ht, hf, hf.lookup?_eq h, hrebinds,
      map_fst_bindings_define hf.2 v, fun e' => ?_, fun e' y hne => ?_⟩
    · rw [hsame, hrebinds.lookup?_eq_some_iff hf.2]
    · rw [hsame] at hne
      exact hrebinds.unseen e' y fun hand => hne ⟨hand.1, hand.2, hf.2⟩
  · intro hunbound
    refine Eval.assign_run_of_none (Option.not_isSome_iff_eq_none.1 fun hsome => ?_)
    rw [hassign.2 hsome] at hunbound
    cases hunbound
  · intro e' he' y
    exact hdefine.unseen e' y fun hand => h.not_sees_of_mem_ancestors he' hand.2

/-- A root that binds `x`, two frames below it of which the first binds `x` too, and a frame below
that one. -/
def shadowed : Store :=
  (((Store.empty.root [("x", .number 1)]).extend 0 [("x", .number 10)]).extend 0 []).extend 1 []

theorem isForest_shadowed : shadowed.IsForest := by
  have hempty : Store.empty.IsForest := fun _ => Or.inl rfl
  have hroot := hempty.push (f := ⟨[], [("x", .number 1)]⟩) (Or.inl rfl)
  have hfirst := hroot.push (f := ⟨[0], [("x", .number 10)]⟩) (Or.inr ⟨0, by decide, rfl⟩)
  have hsecond := hfirst.push (f := ⟨[0], []⟩) (Or.inr ⟨0, by decide, rfl⟩)
  exact hsecond.push (f := ⟨[1, 0], []⟩) (Or.inr ⟨1, by decide, rfl⟩)

/-- An assignment from the frame below the first one is seen there and in the first one, and neither
in the root nor in the second; a definition there is seen nowhere else. -/
theorem agree_in_shadowed :
    let m := { Machine.empty with store := shadowed }
    shadowed.IsForest ∧ 3 < shadowed.frames.length ∧
    (∃ t, Eval.assign 3 "x" (.number 7) m = (.ok true, { m with store := t }) ∧
      t.lookup? 3 "x" = some (.number 7) ∧ t.lookup? 1 "x" = some (.number 7) ∧
      t.lookup? 0 "x" = some (.number 1) ∧ t.lookup? 2 "x" = some (.number 1)) ∧
    Eval.assign 3 "y" (.number 7) m = (.ok false, m) ∧
    (shadowed.define 3 "x" (.number 7)).lookup? 1 "x" = some (.number 10) := by
  intro m
  have hlength : 3 < shadowed.frames.length := by decide
  have hsees : shadowed.Sees "x" 3 1 := .above rfl rfl (.here 1)
  have hresolves : shadowed.Resolves "x" 3 1 := ⟨hsees, rfl⟩
  have hagree (x : String) := lookup_isBound_assign_define_agree (m := m) isForest_shadowed hlength
    x (.number 7)
  obtain ⟨-, -, hassign, -, -, -, habove⟩ := hagree "x"
  obtain ⟨f, t, hrun, hf, -, hrebinds, -, -, hother⟩ := hassign rfl
  obtain rfl := hresolves.unique isForest_shadowed hf
  -- The searches from the root and from the second frame end in the root.
  have hroot : shadowed.Resolves "x" 0 0 := ⟨.here 0, rfl⟩
  have hsecond : shadowed.Resolves "x" 2 0 := ⟨.above rfl rfl (.here 0), rfl⟩
  have unlike {e : FrameId} (he : shadowed.Resolves "x" e 0) :
      ¬ ("x" = "x" ∧ ∃ g, shadowed.Resolves "x" 3 g ∧ shadowed.Resolves "x" e g) := by
    rintro ⟨-, g, hg, heg⟩
    exact absurd ((hresolves.unique isForest_shadowed hg).trans (heg.unique isForest_shadowed he))
      Nat.one_ne_zero
  refine ⟨isForest_shadowed, hlength, ⟨t, hrun, hrebinds.seen 3 hsees, hrebinds.seen 1 (.here 1),
    ?_, ?_⟩, ?_, ?_⟩
  · rw [hother 0 "x" (unlike hroot)]
    rfl
  · rw [hother 2 "x" (unlike hsecond)]
    rfl
  · exact (hagree "y").2.2.2.1 rfl
  · rw [habove 1 (by decide) "x"]
    rfl

end Fexpr.Store
