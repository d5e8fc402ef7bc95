import Fexpr.Store
import Fexpr.Proofs.Value.Tree

/-!
# Frames and chains

What a definition and an assignment do to a store, seen from any frame, and the shape of a store in
which frames stand below one another.
-/

namespace Fexpr.Store

variable {s t : Store} {id other : FrameId} {name : String} {v : Value}

/-! ## Definitions -/

@[simp] theorem length_define (s : Store) (id : FrameId) (name : String) (v : Value) :
    (s.define id name v).frames.length = s.frames.length := by
  simp [define]

/-- A definition changes what one name is bound to in one frame, if there is such a frame. -/
theorem get?_define (s : Store) (id other : FrameId) (name x : String) (v : Value) :
    (s.define id name v).get? other x =
      if other = id ∧ x = name ∧ id < s.frames.length then some v else s.get? other x := by
  by_cases hid : other = id
  · subst hid
    by_cases hx : x = name
    · subst hx
      by_cases hlen : other < s.frames.length
      · rw [get?_define_self hlen, if_pos ⟨rfl, rfl, hlen⟩]
      · rw [if_neg fun h => hlen h.2.2, get?, get?, bindings_define, if_neg fun h => hlen h.2]
    · rw [get?_define_of_ne (Or.inr hx), if_neg fun h => hx h.2.1]
  · rw [get?_define_of_ne (Or.inl hid), if_neg fun h => hid h.1]

/-- A definition takes no name away. -/
theorem isSome_get?_define {x : String} (h : (s.get? other x).isSome) :
    ((s.define id name v).get? other x).isSome := by
  rw [get?_define]
  split
  · rfl
  · exact h

@[simp] theorem length_defineAll (s : Store) (id : FrameId) (pairs : List (String × Value)) :
    (s.defineAll id pairs).frames.length = s.frames.length := by
  induction pairs generalizing s with
  | nil => rfl
  | cons pair pairs ih =>
    rw [defineAll, List.foldl_cons, ← defineAll, ih, length_define]

@[simp] theorem chain_defineAll (s : Store) (id other : FrameId) (pairs : List (String × Value)) :
    (s.defineAll id pairs).chain other = s.chain other := by
  induction pairs generalizing s with
  | nil => rfl
  | cons pair pairs ih =>
    rw [defineAll, List.foldl_cons, ← defineAll, ih, chain_define]

/-- Definitions change no other names. -/
theorem get?_defineAll_of_not_mem {pairs : List (String × Value)} {x : String}
    (h : x ∉ pairs.map Prod.fst) : (s.defineAll id pairs).get? other x = s.get? other x := by
  induction pairs generalizing s with
  | nil => rfl
  | cons pair pairs ih =>
    rw [List.map_cons, List.mem_cons, not_or] at h
    rw [defineAll, List.foldl_cons, ← defineAll, ih h.2, get?_define_of_ne (Or.inr h.1)]

/-- Definitions change no other frames. -/
theorem get?_defineAll_of_ne {pairs : List (String × Value)} (h : other ≠ id) (x : String) :
    (s.defineAll id pairs).get? other x = s.get? other x := by
  induction pairs generalizing s with
  | nil => rfl
  | cons pair pairs ih =>
    rw [defineAll, List.foldl_cons, ← defineAll, ih, get?_define_of_ne (Or.inl h)]

/-- Of definitions of different names, each is seen from its own frame. -/
theorem get?_defineAll_of_mem {pairs : List (String × Value)} {x : String}
    (hid : id < s.frames.length) (hnodup : (pairs.map Prod.fst).Nodup) (h : (x, v) ∈ pairs) :
    (s.defineAll id pairs).get? id x = some v := by
  induction pairs generalizing s with
  | nil => cases h
  | cons pair pairs ih =>
    obtain ⟨hnew, hnodup'⟩ := List.nodup_cons.1 hnodup
    rw [defineAll, List.foldl_cons, ← defineAll]
    rcases List.mem_cons.1 h with rfl | h
    · rw [get?_defineAll_of_not_mem hnew, get?_define_self hid]
    · exact ih (by rwa [length_define]) hnodup' h

theorem defineAll_append (s : Store) (id : FrameId) (pairs : Bindings) (name : String) (v : Value) :
    s.defineAll id (pairs ++ [(name, v)]) = (s.defineAll id pairs).define id name v := by
  simp only [defineAll, List.foldl_append, List.foldl_cons, List.foldl_nil]

/-! ## Lookups and assignments -/

theorem lookup?_define_self (h : id < s.frames.length) (name : String) (v : Value) :
    (s.define id name v).lookup? id name = some v := by
  rw [lookup?, chain, List.findSome?_cons, get?_define_self h]

theorem lookup?_define_of_ne {x : String} (h : x ≠ name) (v : Value) :
    (s.define id name v).lookup? other x = s.lookup? other x := by
  simp only [lookup?, chain_define, get?_define_of_ne (Or.inr h)]

/-- Seen from the frame of a definition, a name stands for what was defined or for what it stood
for before. -/
theorem lookup?_define_cases {x : String} {w : Value}
    (h : (s.define id name v).lookup? id x = some w) : w = v ∨ s.lookup? id x = some w := by
  by_cases hx : x = name ∧ id < s.frames.length
  · obtain ⟨rfl, hlt⟩ := hx
    rw [lookup?_define_self hlt] at h
    exact Or.inl (Option.some.inj h).symm
  · have hsame (g : FrameId) : (s.define id name v).get? g x = s.get? g x := by
      rw [get?_define, if_neg fun hand => hx hand.2]
    simp only [lookup?, chain_define, hsame] at h
    exact Or.inr h

/-- Definitions do not change what other names stand for. -/
theorem lookup?_defineAll_of_not_mem {pairs : List (String × Value)} {x : String}
    (h : x ∉ pairs.map Prod.fst) :
    (s.defineAll id pairs).lookup? other x = s.lookup? other x := by
  simp only [lookup?, chain_defineAll, get?_defineAll_of_not_mem h]

theorem lookup?_of_get? (h : s.get? id name = some v) : s.lookup? id name = some v := by
  rw [lookup?, chain, List.findSome?_cons, h]

theorem mem_chain_self (s : Store) (id : FrameId) : id ∈ s.chain id :=
  List.mem_cons_self

theorem mem_chain_of_mem_ancestors (h : other ∈ s.ancestors id) : other ∈ s.chain id :=
  List.mem_cons_of_mem id h

/-- What is seen from a frame is bound in a frame of its chain. -/
theorem exists_get?_of_lookup? (h : s.lookup? id name = some v) :
    ∃ f ∈ s.chain id, s.get? f name = some v :=
  List.exists_of_findSome?_eq_some h

/-- An assignment is a definition in a frame of the chain that binds the name already. -/
theorem exists_define_of_assign? (h : s.assign? id name v = some t) :
    ∃ f ∈ s.chain id, (s.get? f name).isSome ∧ t = s.define f name v := by
  unfold assign? at h
  rw [Option.map_eq_some_iff] at h
  obtain ⟨f, hf, rfl⟩ := h
  have hbinds : (s.get? f name).isSome := List.find?_some (p := fun f => (s.get? f name).isSome) hf
  exact ⟨f, List.mem_of_find?_eq_some hf, hbinds, rfl⟩

/-- A frame that binds a name is there. -/
theorem lt_length_of_isSome_get? (h : (s.get? id name).isSome) : id < s.frames.length := by
  refine Nat.lt_of_not_le fun hle => ?_
  rw [get?, bindings, List.getElem?_eq_none hle] at h
  cases h

/-- A name that is defined anew in the nearest frame that binds it stands for what was defined. -/
theorem lookup?_define_nearest {g : FrameId}
    (h : (s.chain id).find? (fun f => (s.get? f name).isSome) = some g) (v : Value) :
    (s.define g name v).lookup? id name = some v := by
  obtain ⟨hbinds, nearer, further, hchain, hnearer⟩ := List.find?_eq_some_iff_append.1 h
  have hnone : nearer.findSome? ((s.define g name v).get? · name) = none := by
    refine List.findSome?_eq_none_iff.2 fun f hf => ?_
    have hf' : s.get? f name = none := by simpa using hnearer f hf
    have hne : f ≠ g := by
      rintro rfl
      rw [hf'] at hbinds
      cases hbinds
    rw [get?_define_of_ne (Or.inl hne), hf']
  rw [lookup?, chain_define, hchain, List.findSome?_append, hnone, List.findSome?_cons,
    get?_define_self (lt_length_of_isSome_get? hbinds)]
  rfl

/-- Stores with the same chains that agree on a name in every frame agree on it seen from any. -/
theorem rel_lookup? {R : Value → Value → Prop} (hchain : s.chain id = t.chain id)
    (h : ∀ g, Option.Rel R (s.get? g name) (t.get? g name)) :
    Option.Rel R (s.lookup? id name) (t.lookup? id name) := by
  rw [lookup?, lookup?, hchain]
  induction t.chain id with
  | nil => exact .none
  | cons g gs ih =>
    rw [List.findSome?_cons, List.findSome?_cons]
    have hg := h g
    revert hg
    cases s.get? g name <;> cases t.get? g name <;> intro hg
    · exact ih
    · cases hg
    · cases hg
    · exact hg

/-- Stores with the same chains that bind a name in the same frames assign it in the same frame. -/
theorem assign?_eq_of_binds (hchain : s.chain id = t.chain id)
    (h : ∀ g, (s.get? g name).isSome = (t.get? g name).isSome) :
    (s.assign? id name v = none ∧ t.assign? id name v = none) ∨
      ∃ g, s.assign? id name v = some (s.define g name v) ∧
        t.assign? id name v = some (t.define g name v) := by
  simp only [assign?, hchain, h]
  cases (t.chain id).find? fun g => (t.get? g name).isSome with
  | none => exact Or.inl ⟨rfl, rfl⟩
  | some g => exact Or.inr ⟨g, rfl, rfl⟩

/-! ## Forests -/

/-- Every frame is a root or stands right below another frame. -/
def IsForest (s : Store) : Prop :=
  ∀ id, s.ancestors id = [] ∨ ∃ parent < s.frames.length, s.ancestors id = s.chain parent

/-- In a forest, the chain of a frame holds the chains of its ancestors. -/
theorem IsForest.mem_chain_trans (h : s.IsForest) {id f g : FrameId} (hf : f ∈ s.chain id)
    (hg : g ∈ s.chain f) : g ∈ s.chain id := by
  -- The induction is on the number of ancestors: the chain above a frame is the chain of its
  -- parent, which has one ancestor less.
  induction hlen : (s.ancestors id).length generalizing id with
  | zero =>
    have hnil : s.ancestors id = [] := List.length_eq_zero_iff.1 hlen
    rw [chain, hnil] at hf
    obtain rfl := List.mem_singleton.1 hf
    exact hg
  | succ length ih =>
    rcases List.mem_cons.1 hf with rfl | hf
    · exact hg
    · rcases h id with hroot | ⟨parent, -, hparent⟩
      · rw [hroot] at hf
        cases hf
      · rw [hparent] at hf
        have hshorter : (s.ancestors parent).length = length := by
          rw [hparent, chain, List.length_cons] at hlen
          omega
        refine mem_chain_of_mem_ancestors ?_
        rw [hparent]
        exact ih hf hshorter

/-- In a forest, an ancestor of a frame has fewer ancestors than the frame. -/
theorem IsForest.length_ancestors_lt (h : s.IsForest) {id f : FrameId} (hf : f ∈ s.ancestors id) :
    (s.ancestors f).length < (s.ancestors id).length := by
  induction hlen : (s.ancestors id).length generalizing id with
  | zero =>
    have hnil : s.ancestors id = [] := List.length_eq_zero_iff.1 hlen
    rw [hnil] at hf
    cases hf
  | succ length ih =>
    rcases h id with hroot | ⟨parent, -, hparent⟩
    · rw [hroot] at hf
      cases hf
    · rw [hparent, chain, List.length_cons] at hlen
      have hshorter : (s.ancestors parent).length = length := Nat.succ.inj hlen
      rw [hparent] at hf
      rcases List.mem_cons.1 hf with rfl | hf
      · omega
      · have hlt := ih hf hshorter
        omega

/-- In a forest, no frame stands above itself. -/
theorem IsForest.not_mem_ancestors (h : s.IsForest) (id : FrameId) : id ∉ s.ancestors id :=
  fun hid => Nat.lt_irrefl _ (h.length_ancestors_lt hid)

@[simp] theorem ancestors_define (s : Store) (id other : FrameId) (name : String) (v : Value) :
    (s.define id name v).ancestors other = s.ancestors other :=
  (List.cons.inj (chain_define s id other name v)).2

theorem IsForest.define (h : s.IsForest) (id : FrameId) (name : String) (v : Value) :
    (s.define id name v).IsForest := by
  intro other
  simpa only [ancestors_define, chain_define, length_define] using h other

/-! ## New frames -/

@[simp] theorem length_push (s : Store) (f : Frame) :
    (s.push f).frames.length = s.frames.length + 1 := by
  simp [push]

theorem chain_push_of_lt {f : Frame} (h : id < s.frames.length) :
    (s.push f).chain id = s.chain id := by
  simp only [chain, ancestors, push, List.getElem?_append_left h]

theorem chain_push_next (s : Store) (f : Frame) :
    (s.push f).chain s.next = s.next :: f.ancestors := by
  simp [chain, ancestors, push, next]

theorem ancestors_eq_nil_of_le (h : s.frames.length ≤ id) : s.ancestors id = [] := by
  simp [ancestors, List.getElem?_eq_none h]

theorem get?_push (s : Store) (f : Frame) (id : FrameId) (x : String) :
    (s.push f).get? id x = if id = s.next then f.bindings.get? x else s.get? id x := by
  unfold get? bindings push next
  rcases Nat.lt_trichotomy id s.frames.length with hlt | rfl | hgt
  · rw [if_neg (Nat.ne_of_lt hlt), List.getElem?_append_left hlt]
  · simp
  · rw [if_neg (Nat.ne_of_gt hgt), List.getElem?_eq_none (by simp; omega),
      List.getElem?_eq_none (by omega)]

/-- A forest grows by roots and by frames below the frames there are. -/
theorem IsForest.push (h : s.IsForest) {f : Frame}
    (hf : f.ancestors = [] ∨ ∃ parent < s.frames.length, f.ancestors = s.chain parent) :
    (s.push f).IsForest := by
  intro id
  have hnext : (s.push f).ancestors s.next = f.ancestors :=
    (List.cons.inj (chain_push_next s f)).2
  have below {parent : FrameId} (hlt : parent < s.frames.length) :
      parent < (s.push f).frames.length := by
    rw [length_push]
    exact Nat.lt_succ_of_lt hlt
  -- A place is that of an old frame, of the new one, or of none.
  rcases Nat.lt_trichotomy id s.next with hlt | rfl | hgt
  · have hid : (s.push f).ancestors id = s.ancestors id :=
      (List.cons.inj (chain_push_of_lt hlt)).2
    rw [hid]
    rcases h id with hroot | ⟨parent, hlt', hparent⟩
    · exact Or.inl hroot
    · exact Or.inr ⟨parent, below hlt', by rw [chain_push_of_lt hlt', hparent]⟩
  · rw [hnext]
    rcases hf with hroot | ⟨parent, hlt, hparent⟩
    · exact Or.inl hroot
    · exact Or.inr ⟨parent, below hlt, by rw [chain_push_of_lt hlt, hparent]⟩
  · refine Or.inl (ancestors_eq_nil_of_le ?_)
    rw [length_push]
    exact hgt

/-- A global frame binds builtins to their names, and `t`. -/
theorem builtin_or_t_of_get?_globalBindings {home : FrameId} {x : String}
    (h : (globalBindings home).get? x = some v) :
    (∃ op : Builtin, x = op.name ∧ v = .builtin op home) ∨ v = .t := by
  rw [Bindings.get?, Option.map_eq_some_iff] at h
  obtain ⟨b, hb, rfl⟩ := h
  have hname : (b.1 == x) = true := List.find?_some (p := fun b : String × Value => b.1 == x) hb
  rcases List.mem_append.1 (List.mem_of_find?_eq_some hb) with hop | ht
  · obtain ⟨op, -, rfl⟩ := List.mem_map.1 hop
    exact Or.inl ⟨op, (eq_of_beq hname).symm, rfl⟩
  · obtain rfl := List.mem_singleton.1 ht
    exact Or.inr rfl

end Fexpr.Store
