import Fexpr.Proofs.Confinement
import Fexpr.Proofs.Reader.RoundTrip
import Mathlib.Data.List.Induction

/-!
# Sandboxes

A host that makes a frame below others and runs a program there wants those others left alone. A
program can do two things to the store: bind a name in its own frame, which is what `let`, `defun`
and the parameters of a fexpr do, and assign a name that it sees bound, which is what `set` does. So
it reaches an ancestor only by an assignment of a name that its own frame does not bind, and adds no
name there.

This needs that the program is never evaluated elsewhere: a suspended operand of another frame would
be. `Store.Sandbox` says that there is none, and is kept: what evaluation suspends it suspends in
the frame it is in, and it binds that there; what it assigns is a value.

What a run does is told as its history, a list of changes that can be replayed. The statements on
ancestors are about any history, by induction on the changes; that a run has one is the invariant.
Which of the changes are assignments is told apart by taking `set` away: where no name leads to that
builtin, all changes are definitions in the frame itself.

Main statement (`sandbox_protects`): whatever is evaluated or run in a sandbox has a history, and
after each change of it the ancestors are guarded (`Store.Guarded`); without `set` it only defines
names in its own frame.
-/

namespace Fexpr
namespace Store

variable {s t mid : Store} {home f : FrameId} {x : String} {v : Value}

/-! ## Histories -/

/-- A change of what a name is bound to, made in a frame. -/
inductive Change where
  /-- The frame binds the name. -/
  | define (name : String) (value : Value)
  /-- The nearest frame of the chain that binds the name binds it anew. -/
  | assign (name : String) (value : Value)

/-- The store after a change made in a frame; none is made if the name to assign is not bound. -/
def change? (s : Store) (home : FrameId) : Change → Option Store
  | .define name value => some (s.define home name value)
  | .assign name value => s.assign? home name value

/-- The store after changes made in a frame, one after the other. -/
def replay? (s : Store) (home : FrameId) : List Change → Option Store
  | [] => some s
  | c :: cs => (s.change? home c).bind fun t => t.replay? home cs

theorem replay?_append (s : Store) (home : FrameId) (before after : List Change) :
    s.replay? home (before ++ after) =
      (s.replay? home before).bind fun t => t.replay? home after := by
  induction before generalizing s with
  | nil => rfl
  | cons c cs ih =>
    rw [List.cons_append, replay?, replay?, Option.bind_assoc]
    exact congrArg _ (funext fun t => ih t)

/-- One more change. -/
theorem replay?_concat {changes : List Change} {c : Change} (h : s.replay? home changes = some mid)
    (hc : mid.change? home c = some t) : s.replay? home (changes ++ [c]) = some t := by
  rw [replay?_append, h, Option.bind_some, replay?, hc]
  rfl

/-! ## Sandboxes -/

/-- What the frame of a sandbox may bind: a settled value, or an operand that was suspended in the
frame itself. -/
def BoundAt (home : FrameId) (v : Value) : Prop :=
  v.Settled ∨ ∃ e q i, v = .suspended e home q i ∧ e.Settled

/-- A frame to run programs in. Its ancestors bind no suspended operand and no value that holds one,
and it binds itself only such operands as were captured in it. -/
structure Sandbox (s : Store) (home : FrameId) : Prop where
  apart : home ∉ s.ancestors home
  ancestors : ∀ f ∈ s.ancestors home, ∀ x v, s.get? f x = some v → v.Settled
  own : ∀ x v, s.get? home x = some v → BoundAt home v

/-- What the changes of a sandbox bind. -/
def Change.Fits (home : FrameId) : Change → Prop
  | .define _ value => BoundAt home value
  | .assign _ value => value.Settled

/-- An assignment seen from a frame is a definition there or, if the frame does not bind the name,
in the first ancestor that does. -/
theorem assign?_cases (h : s.assign? home x v = some t) :
    ((s.get? home x).isSome ∧ t = s.define home x v) ∨
      ∃ f, s.get? home x = none ∧
        (s.ancestors home).find? (fun g => (s.get? g x).isSome) = some f ∧
        t = s.define f x v := by
  unfold assign? chain at h
  rw [List.find?_cons] at h
  cases hown : s.get? home x with
  | some w =>
    rw [hown] at h
    exact Or.inl ⟨rfl, (Option.some.inj h).symm⟩
  | none =>
    rw [hown] at h
    obtain ⟨f, hf, ht⟩ := Option.map_eq_some_iff.1 h
    exact Or.inr ⟨f, rfl, hf, ht.symm⟩

/-- A definition in the frame or above it keeps the sandbox, if it binds what may be bound there. -/
theorem Sandbox.define (h : s.Sandbox home) (hv : BoundAt home v)
    (hancestor : f ∈ s.ancestors home → v.Settled) : (s.define f x v).Sandbox home where
  apart := by
    rw [ancestors_define]
    exact h.apart
  ancestors := by
    intro g hg y w hw
    rw [ancestors_define] at hg
    rw [get?_define] at hw
    split at hw
    next hdefined =>
      have hf : f ∈ s.ancestors home := hdefined.1 ▸ hg
      exact Option.some.inj hw ▸ hancestor hf
    · exact h.ancestors g hg y w hw
  own := by
    intro y w hw
    rw [get?_define] at hw
    split at hw
    · exact Option.some.inj hw ▸ hv
    · exact h.own y w hw

/-- A change that fits is a definition in the frame itself, or it assigns a name that the frame does
not bind in the first ancestor that does. Either keeps the sandbox. -/
theorem Sandbox.change_cases (h : s.Sandbox home) {c : Change} (hfits : c.Fits home)
    (hc : s.change? home c = some t) :
    t.Sandbox home ∧
      ((∃ x v, t = s.define home x v) ∨
        ∃ x v f, c = .assign x v ∧ s.get? home x = none ∧
          (s.ancestors home).find? (fun g => (s.get? g x).isSome) = some f ∧
          t = s.define f x v) := by
  cases c with
  | define x v =>
    have ht : s.define home x v = t := Option.some.inj hc
    subst ht
    exact ⟨h.define hfits fun hself => absurd hself h.apart, Or.inl ⟨x, v, rfl⟩⟩
  | assign x v =>
    have hv : v.Settled := hfits
    rcases assign?_cases hc with ⟨-, rfl⟩ | ⟨f, hnone, hfind, rfl⟩
    · exact ⟨h.define (Or.inl hv) fun _ => hv, Or.inl ⟨x, v, rfl⟩⟩
    · exact ⟨h.define (Or.inl hv) fun _ => hv, Or.inr ⟨x, v, f, rfl, hnone, hfind, rfl⟩⟩

/-! ## What a history leaves alone -/

/-- How the ancestors of a frame are guarded against changes made in the frame: no name is bound
there or unbound; what the frame bound at the start is not touched there; and where a name is bound
to something else, that was assigned when the frame did not bind the name, and the ancestor was the
first that did. Frames off the chain stay as they are, and the frame is a sandbox still. -/
structure Guarded (s : Store) (home : FrameId) (changes : List Change) (t : Store) : Prop where
  names : ∀ f ∈ s.ancestors home, ∀ x, (t.get? f x).isSome = (s.get? f x).isSome
  kept : ∀ f ∈ s.ancestors home, ∀ x, (s.get? home x).isSome → t.get? f x = s.get? f x
  assigned : ∀ f ∈ s.ancestors home, ∀ x, t.get? f x ≠ s.get? f x →
    ∃ before v after mid, changes = before ++ .assign x v :: after ∧
      s.replay? home before = some mid ∧ mid.get? home x = none ∧
      (s.ancestors home).find? (fun g => (mid.get? g x).isSome) = some f ∧ t.get? f x = some v
  elsewhere : ∀ f, f ∉ s.chain home → t.bindings f = s.bindings f
  own : ∀ x, (s.get? home x).isSome → (t.get? home x).isSome
  chain : ∀ id, t.chain id = s.chain id
  sandbox : t.Sandbox home

theorem Sandbox.guarded_nil (h : s.Sandbox home) : s.Guarded home [] s where
  names _ _ _ := rfl
  kept _ _ _ _ := rfl
  assigned _ _ _ hne := absurd rfl hne
  elsewhere _ _ := rfl
  own _ hx := hx
  chain _ := rfl
  sandbox := h

/-- One more change keeps the ancestors guarded. -/
theorem Guarded.change {changes : List Change} (h : s.Guarded home changes mid)
    (hreplay : s.replay? home changes = some mid) {c : Change} (hfits : c.Fits home)
    (hc : mid.change? home c = some t) : s.Guarded home (changes ++ [c]) t := by
  have hancestors : mid.ancestors home = s.ancestors home := (List.cons.inj (h.chain home)).2
  obtain ⟨hsandbox, hcases⟩ := h.sandbox.change_cases hfits hc
  -- What was assigned before stays accounted for where this change makes no difference.
  have hearlier : ∀ f ∈ s.ancestors home, ∀ x, t.get? f x = mid.get? f x →
      t.get? f x ≠ s.get? f x →
      ∃ before v after mid, changes ++ [c] = before ++ .assign x v :: after ∧
        s.replay? home before = some mid ∧ mid.get? home x = none ∧
        (s.ancestors home).find? (fun g => (mid.get? g x).isSome) = some f ∧
        t.get? f x = some v := by
    intro f hf x hsame hne
    rw [hsame] at hne ⊢
    obtain ⟨before, v, after, mid', rfl, hbefore⟩ := h.assigned f hf x hne
    exact ⟨before, v, after ++ [c], mid', by simp, hbefore⟩
  rcases hcases with ⟨x, v, rfl⟩ | ⟨x, v, f, rfl, hnone, hfind, rfl⟩
  · have hsame : ∀ f ∈ s.ancestors home, ∀ y, (mid.define home x v).get? f y = mid.get? f y := by
      intro f hf y
      have hne : f ≠ home := by
        intro heq
        have hself : home ∈ mid.ancestors home := hancestors ▸ heq ▸ hf
        exact h.sandbox.apart hself
      exact get?_define_of_ne (Or.inl hne) v
    exact {
      names := fun f hf y => by rw [hsame f hf, h.names f hf]
      kept := fun f hf y hy => by rw [hsame f hf, h.kept f hf y hy]
      assigned := fun f hf y => hearlier f hf y (hsame f hf y)
      elsewhere := fun f hf => by
        have hne : f ≠ home := fun heq => hf (heq ▸ mem_chain_self s home)
        rw [bindings_define, if_neg fun hand => hne hand.1, h.elsewhere f hf]
      own := fun y hy => isSome_get?_define (h.own y hy)
      chain := fun id => by rw [chain_define, h.chain]
      sandbox := hsandbox }
  · rw [hancestors] at hfind
    have hmem : f ∈ s.ancestors home := List.mem_of_find?_eq_some hfind
    have hbinds : (mid.get? f x).isSome :=
      List.find?_some (p := fun g => (mid.get? g x).isSome) hfind
    exact {
      names := fun g hg y => by
        rw [get?_define]
        split
        next hdefined =>
          rw [← h.names g hg y, hdefined.1, hdefined.2.1, hbinds]
          rfl
        · exact h.names g hg y
      kept := fun g hg y hy => by
        have hown : (mid.get? home y).isSome := h.own y hy
        have hne : y ≠ x := by
          intro heq
          rw [heq, hnone] at hown
          cases hown
        rw [get?_define_of_ne (Or.inr hne), h.kept g hg y hy]
      assigned := fun g hg y hne => by
        by_cases hdefined : g = f ∧ y = x ∧ f < mid.frames.length
        · obtain ⟨rfl, rfl, hlt⟩ := hdefined
          exact ⟨changes, v, [], mid, rfl, hreplay, hnone, hfind, get?_define_self hlt y v⟩
        · have hsame : (mid.define f x v).get? g y = mid.get? g y := by
            rw [get?_define, if_neg hdefined]
          exact hearlier g hg y hsame hne
      elsewhere := fun g hg => by
        have hne : g ≠ f := fun heq => hg (heq ▸ mem_chain_of_mem_ancestors hmem)
        rw [bindings_define, if_neg fun hand => hne hand.1, h.elsewhere g hg]
      own := fun y hy => isSome_get?_define (h.own y hy)
      chain := fun id => by rw [chain_define, h.chain]
      sandbox := hsandbox }

/-- After any history of changes that fit, the ancestors are guarded. -/
theorem Sandbox.guarded (h : s.Sandbox home) {changes : List Change}
    (hfits : ∀ c ∈ changes, c.Fits home) (hreplay : s.replay? home changes = some t) :
    s.Guarded home changes t := by
  induction changes using List.reverseRecOn generalizing t with
  | nil =>
    obtain rfl := Option.some.inj hreplay
    exact h.guarded_nil
  | append_singleton changes c ih =>
    rw [replay?_append] at hreplay
    obtain ⟨mid, hmid, hlast⟩ := Option.bind_eq_some_iff.1 hreplay
    obtain ⟨t', hc, ht⟩ := Option.bind_eq_some_iff.1 hlast
    obtain rfl := Option.some.inj ht
    have hbefore : s.Guarded home changes mid :=
      ih (fun c' hc' => hfits c' (List.mem_append_left [c] hc')) hmid
    exact hbefore.change hmid (hfits c (List.mem_append_right changes List.mem_cons_self)) hc

/-- The ancestors of the frame are protected: what became of the store is what changes made in the
frame lead to, and the ancestors are guarded after each of them. -/
def Protected (s : Store) (home : FrameId) (t : Store) : Prop :=
  ∃ changes, (∀ c ∈ changes, c.Fits home) ∧ s.replay? home changes = some t ∧
    ∀ before after, changes = before ++ after →
      ∃ mid, s.replay? home before = some mid ∧ s.Guarded home before mid

/-- In a sandbox, to have a history is to have the ancestors protected. -/
theorem Sandbox.protected (h : s.Sandbox home) {changes : List Change}
    (hfits : ∀ c ∈ changes, c.Fits home) (hreplay : s.replay? home changes = some t) :
    s.Protected home t := by
  refine ⟨changes, hfits, hreplay, fun before after hsplit => ?_⟩
  rw [hsplit, replay?_append] at hreplay
  obtain ⟨mid, hmid, -⟩ := Option.bind_eq_some_iff.1 hreplay
  have hbefore : ∀ c ∈ before, c.Fits home :=
    fun c hc => hfits c (hsplit ▸ List.mem_append_left after hc)
  exact ⟨mid, hmid, h.guarded hbefore hmid⟩

/-- What the chain of a sandbox binds, its frame may bind. -/
theorem Sandbox.boundAt_lookup? (h : s.Sandbox home) (hv : s.lookup? home x = some v) :
    BoundAt home v := by
  obtain ⟨f, hf, hget⟩ := exists_get?_of_lookup? hv
  rcases List.mem_cons.1 hf with rfl | hf
  · exact h.own x v hget
  · exact Or.inl (h.ancestors f hf x v hget)

/-- A frame below others is a sandbox if nothing that it or they bind is or holds a suspended
operand. -/
theorem sandbox_extend (hforest : s.IsForest) {parent : FrameId}
    (hparent : parent < s.frames.length)
    (hchain : ∀ f ∈ s.chain parent, ∀ x v, s.get? f x = some v → v.Settled) {bindings : Bindings}
    (hbindings : ∀ x v, bindings.get? x = some v → v.Settled) :
    (s.extend parent bindings).Sandbox s.next := by
  have hforest' : (s.extend parent bindings).IsForest :=
    hforest.push (Or.inr ⟨parent, hparent, rfl⟩)
  have hancestors : (s.extend parent bindings).ancestors s.next = s.chain parent :=
    (List.cons.inj (chain_push_next s _)).2
  refine ⟨hforest'.not_mem_ancestors s.next, ?_, ?_⟩
  · intro f hf x v hv
    have hne : f ≠ s.next := fun heq => hforest'.not_mem_ancestors s.next (heq ▸ hf)
    rw [hancestors] at hf
    rw [extend, get?_push, if_neg hne] at hv
    exact hchain f hf x v hv
  · intro x v hv
    rw [extend, get?_push, if_pos rfl] at hv
    exact Or.inl (hbindings x v hv)

end Store

/-! ## Evaluation in a sandbox -/

open Store

/-- Evaluation makes settled nodes only. -/
theorem Value.madeSo_settled : Value.MadeSo fun v => v.suspension? = none where
  nil := rfl
  t := rfl
  number _ := rfl
  list _ _ := rfl
  fexpr _ _ _ _ _ := rfl

/-- Evaluation of settled expressions in a sandbox has a history. -/
def sandboxing (start : Store) (home : FrameId) (hstart : start.Sandbox home) : Invariant where
  toFragment := .every (fun g => g = home) Value.madeSo_settled
  store s := ∃ changes, (∀ c ∈ changes, c.Fits home) ∧ start.replay? home changes = some s
  bound _ := BoundAt home
  bound_of_data _ h := Or.inl h
  bound_cases := by
    intro g v _ hv
    rcases hv with hv | ⟨e, q, i, rfl, he⟩
    · exact Or.inl ⟨hv, hv.suspension?_eq_none⟩
    · exact Or.inr ⟨e, home, q, i, rfl, he, he, rfl⟩
  bound_suspended := by
    rintro g e q i rfl he
    exact Or.inr ⟨e, q, i, rfl, he⟩
  lookup := by
    rintro s g x v ⟨changes, hfits, hreplay⟩ rfl hv
    exact (hstart.guarded hfits hreplay).sandbox.boundAt_lookup? hv
  define := by
    rintro s g x v ⟨changes, hfits, hreplay⟩ rfl - hv
    have hall : ∀ c ∈ changes ++ [.define x v], c.Fits g :=
      List.forall_mem_append.2 ⟨hfits, List.forall_mem_singleton.2 hv⟩
    exact ⟨changes ++ [.define x v], hall, replay?_concat hreplay rfl⟩
  assign := by
    rintro s t g x v _ ⟨changes, hfits, hreplay⟩ rfl - hv - ht
    have hall : ∀ c ∈ changes ++ [.assign x v], c.Fits g :=
      List.forall_mem_append.2 ⟨hfits, List.forall_mem_singleton.2 hv⟩
    have hchange : s.change? g (.assign x v) = some t := ht
    exact ⟨changes ++ [.assign x v], hall, replay?_concat hreplay hchange⟩

/-- The forms of a source are settled. -/
theorem settled_of_readForms {source : String} :
    ∀ forms, readForms source = .ok forms → ∀ form ∈ forms, form.Settled := by
  intro forms hread form hform
  refine (built_of_readForms hread form hform).readable.mono fun v hv => ?_
  cases v with
  | suspended => exact hv.elim
  | _ => rfl

/-! ## Evaluation without `set` -/

/-- The value is not the builtin `set` and does not hold it at any depth. -/
def Value.WithoutSet (v : Value) : Prop :=
  v.Every fun w => ∀ home, w ≠ .builtin .setForm home

/-- Seen from the frame, no name leads to the builtin `set`. -/
def Store.WithoutSet (s : Store) (home : FrameId) : Prop :=
  ∀ x v, s.lookup? home x = some v → v.WithoutSet

/-- The one store is the other after definitions in the frame, and nothing else. -/
def Store.OnlyDefined (s : Store) (home : FrameId) (t : Store) : Prop :=
  ∃ pairs, t = s.defineAll home pairs

/-- Settled, and without `set`. -/
def Value.Harmless (v : Value) : Prop :=
  v.Every fun w => w.suspension? = none ∧ ∀ home, w ≠ .builtin .setForm home

theorem Value.Settled.harmless {v : Value} (h : v.Settled) (hset : v.WithoutSet) : v.Harmless :=
  Value.Every.and h hset

/-- Evaluation makes harmless nodes only. -/
theorem Value.madeSo_harmless :
    Value.MadeSo fun v => v.suspension? = none ∧ ∀ home, v ≠ .builtin .setForm home where
  nil := ⟨rfl, nofun⟩
  t := ⟨rfl, nofun⟩
  number _ := ⟨rfl, nofun⟩
  list _ _ := ⟨rfl, nofun⟩
  fexpr _ _ _ _ _ := ⟨rfl, nofun⟩

/-- What names lead to where nothing leads to `set`. -/
def Store.HarmlessAt (home : FrameId) (v : Value) : Prop :=
  v.Harmless ∨ ∃ e q i, v = .suspended e home q i ∧ e.Harmless

theorem Store.BoundAt.harmlessAt {home : FrameId} {v : Value} (h : BoundAt home v)
    (hset : v.WithoutSet) : HarmlessAt home v := by
  rcases h with hv | ⟨e, q, i, rfl, he⟩
  · exact Or.inl (hv.harmless hset)
  · exact Or.inr ⟨e, q, i, rfl, he.harmless (hset.part List.mem_cons_self)⟩

/-- Evaluation of harmless expressions defines names in its frame, and changes nothing else. -/
def definesOnly (start : Store) (home : FrameId) : Invariant where
  toFragment := .every (fun g => g = home) Value.madeSo_harmless
  store s := start.OnlyDefined home s ∧ ∀ x v, s.lookup? home x = some v → HarmlessAt home v
  bound _ := HarmlessAt home
  bound_of_data _ h := Or.inl h
  bound_cases := by
    intro g v _ hv
    rcases hv with hv | ⟨e, q, i, rfl, he⟩
    · exact Or.inl ⟨hv, hv.here.1⟩
    · exact Or.inr ⟨e, home, q, i, rfl, he, he, rfl⟩
  bound_suspended := by
    rintro g e q i rfl he
    exact Or.inr ⟨e, q, i, rfl, he⟩
  lookup := by
    rintro s g x v ⟨-, hharmless⟩ rfl hv
    exact hharmless x v hv
  define := by
    rintro s g x v ⟨⟨pairs, hpairs⟩, hharmless⟩ rfl - hv
    refine ⟨⟨pairs ++ [(x, v)], by rw [hpairs, defineAll_append]⟩, fun y w hw => ?_⟩
    rcases lookup?_define_cases hw with rfl | hw
    · exact hv
    · exact hharmless y w hw
  assign := by
    intro s t g x v home _ _ _ _ hset _
    exact absurd rfl (hset.here.2 home)

/-- A global frame binds no other name to `set`. -/
theorem withoutSet_of_get?_globalBindings {home : FrameId} {x : String} {v : Value}
    (h : (globalBindings home).get? x = some v) (hx : x ≠ "set") : v.WithoutSet := by
  rcases builtin_or_t_of_get?_globalBindings h with ⟨op, hop, rfl⟩ | rfl
  · refine .leaf (fun home heq => ?_) rfl
    obtain ⟨rfl, -⟩ := Value.builtin.inj heq
    exact hx hop
  · exact .leaf nofun rfl

/-- The forms of a source are without `set`: they may only name it. -/
theorem withoutSet_of_readForms {source : String} :
    ∀ forms, readForms source = .ok forms → ∀ form ∈ forms, form.WithoutSet := by
  intro forms hread form hform
  refine (built_of_readForms hread form hform).readable.mono fun v hv home heq => ?_
  rw [heq] at hv
  exact hv

/-- Where nothing leads to `set`, evaluation only defines names in its frame. -/
theorem Store.Sandbox.onlyDefined {m : Machine} {home : FrameId} (h : m.store.Sandbox home)
    (hset : m.store.WithoutSet home) (limits : Limits) :
    (∀ e : Value, e.Settled → e.WithoutSet →
      m.store.OnlyDefined home (evaluate limits e home m).2.store) ∧
      ∀ source,
        m.store.OnlyDefined home (runSource limits source home m).2.store ∧
          m.store.OnlyDefined home (evaluateSource limits source home m).2.store := by
  let I := definesOnly m.store home
  have hstart : I.store m.store :=
    ⟨⟨[], rfl⟩, fun x v hv => (h.boundAt_lookup? hv).harmlessAt (hset x v hv)⟩
  have hsource (source : String) :
      ∀ forms, readForms source = .ok forms → ∀ form ∈ forms, I.code form :=
    fun forms hread form hform => (settled_of_readForms forms hread form hform).harmless
      (withoutSet_of_readForms forms hread form hform)
  refine ⟨fun e he hnone => ?_, fun source => ⟨?_, ?_⟩⟩
  · exact (I.evaluateWithin hstart limits limits.levels 0 (he.harmless hnone) rfl).1.1
  · exact (I.runSource hstart limits rfl (hsource source)).1.1
  · exact (I.evaluateSource hstart limits rfl (hsource source)).1.1

/-! ## The theorem -/

/-- A sandbox protects the frames above it: whatever is evaluated in its frame, and whatever source
is run or evaluated there, however that ends, the ancestors are protected. It is only `set` that
reaches above: where no name leads to it, names are defined in the frame itself, and that is all. -/
theorem sandbox_protects (limits : Limits) {m : Machine} {home : FrameId}
    (h : m.store.Sandbox home) :
    (∀ e : Value, e.Settled → m.store.Protected home (evaluate limits e home m).2.store) ∧
      (∀ source,
        m.store.Protected home (runSource limits source home m).2.store ∧
          m.store.Protected home (evaluateSource limits source home m).2.store) ∧
      (m.store.WithoutSet home →
        (∀ e : Value, e.Settled → e.WithoutSet →
          m.store.OnlyDefined home (evaluate limits e home m).2.store) ∧
        ∀ source,
          m.store.OnlyDefined home (runSource limits source home m).2.store ∧
            m.store.OnlyDefined home (evaluateSource limits source home m).2.store) := by
  let I := sandboxing m.store home h
  have hstart : I.store m.store := ⟨[], List.forall_mem_nil _, rfl⟩
  refine ⟨fun e he => ?_, fun source => ⟨?_, ?_⟩, fun hset => h.onlyDefined hset limits⟩
  · obtain ⟨changes, hfits, hreplay⟩ :=
      (I.evaluateWithin hstart limits limits.levels 0 he rfl).1
    exact h.protected hfits hreplay
  · obtain ⟨changes, hfits, hreplay⟩ :=
      (I.runSource hstart limits rfl settled_of_readForms).1
    exact h.protected hfits hreplay
  · obtain ⟨changes, hfits, hreplay⟩ :=
      (I.evaluateSource hstart limits rfl settled_of_readForms).1
    exact h.protected hfits hreplay

/-- A frame below a global one that binds a number protects it from a program that binds, assigns
and forces; and if the frame binds `set` to nil, the program only defines names there. -/
theorem sandbox_protects_below_global :
    let m := { Machine.empty with store := (Store.empty.global []).extend 0 [("x", .number 5)] }
    let n := { Machine.empty with store := (Store.empty.global []).extend 0 [("set", .nil)] }
    let source := "(defun read-it ['e] ,e) (set 't (read-it x))"
    (m.store.Sandbox 1 ∧ m.store.Protected 1 (runSource {} source 1 m).2.store) ∧
      n.store.Sandbox 1 ∧ n.store.WithoutSet 1 ∧
        n.store.OnlyDefined 1 (runSource {} source 1 n).2.store := by
  intro m n source
  have hglobal : (Store.empty.global []).Confined := confined_empty.global
  have hchain : ∀ f ∈ (Store.empty.global []).chain 0, ∀ x v,
      (Store.empty.global []).get? f x = some v → v.Settled := by
    intro f _ x v hv
    rw [global, root, get?_push] at hv
    split at hv
    · exact settled_of_get?_globalBindings hv
    · cases hv
  have hsandbox (name : String) (value : Value) (hvalue : value.Settled) :
      ((Store.empty.global []).extend 0 [(name, value)]).Sandbox 1 := by
    refine sandbox_extend hglobal.forest Nat.one_pos hchain fun x v hv => ?_
    obtain ⟨b, hb, rfl⟩ := Option.map_eq_some_iff.1 hv
    obtain rfl := List.mem_singleton.1 (List.mem_of_find?_eq_some hb)
    exact hvalue
  have hm : m.store.Sandbox 1 := hsandbox "x" (.number 5) (.leaf rfl rfl)
  have hn : n.store.Sandbox 1 := hsandbox "set" .nil (.leaf rfl rfl)
  have hset : n.store.WithoutSet 1 := by
    intro x v hv
    by_cases hx : x = "set"
    · subst hx
      obtain rfl : Value.nil = v := Option.some.inj hv
      exact .leaf nofun rfl
    · obtain ⟨f, -, hget⟩ := exists_get?_of_lookup? hv
      have hstore : n.store = (Store.empty.global []).extend 0 [("set", .nil)] := rfl
      rw [hstore, extend, get?_push] at hget
      split at hget
      · have hnone : Bindings.get? [("set", Value.nil)] x = none := by
          simp [Bindings.get?, Ne.symm hx]
        exact absurd (hnone.symm.trans hget) (Option.some_ne_none v).symm
      · rw [global, root, get?_push] at hget
        split at hget
        · exact withoutSet_of_get?_globalBindings hget hx
        · cases hget
  exact ⟨⟨hm, ((sandbox_protects {} hm).2.1 source).1⟩, hn, hset,
    (((sandbox_protects {} hn).2.2 hset).2 source).1⟩

end Fexpr
