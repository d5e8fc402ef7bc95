import Fexpr.Value

/-!
# Frames and their store

A frame binds names to values and knows its ancestors, the nearest first; so each frame heads a
chain, and frames share what lies above them. Frames are made by the host only; evaluation reads
them and changes their bindings.

A name is resolved in the first frame of a chain that binds it. `lookup?`, `isBound` and `assign?`
all ask that frame; `define` asks no chain and binds in the frame it is given.
-/

namespace Fexpr

/-- Names and what they are bound to, each name once, the oldest first. -/
abbrev Bindings := List (String × Value)

namespace Bindings

/-- What a name is bound to. -/
def get? (bs : Bindings) (name : String) : Option Value :=
  (bs.find? (·.1 == name)).map (·.2)

/-- Binds a name, in its old place if it has one. -/
def put (name : String) (value : Value) : Bindings → Bindings
  | [] => [(name, value)]
  | (n, v) :: bs => if n == name then (n, value) :: bs else (n, v) :: put name value bs

/-- Binds several names, one after the other. -/
def putAll (bs : Bindings) (pairs : List (String × Value)) : Bindings :=
  pairs.foldl (fun bs pair => put pair.1 pair.2 bs) bs

theorem get?_put_self (name : String) (value : Value) (bs : Bindings) :
    get? (put name value bs) name = some value := by
  induction bs with
  | nil => simp [put, get?]
  | cons b bs ih =>
    by_cases h : b.1 == name
    · simp [put, get?, h]
    · simpa [put, get?, h] using ih

theorem get?_put_of_ne {name other : String} (h : name ≠ other) (value : Value) (bs : Bindings) :
    get? (put name value bs) other = get? bs other := by
  induction bs with
  | nil => simp [put, get?, h]
  | cons b bs ih =>
    by_cases hb : b.1 = name
    · simp [put, get?, hb, h]
    · by_cases ho : b.1 = other
      · simp [put, get?, ho, Ne.symm h]
      · simpa [put, get?, hb, ho] using ih

end Bindings

/-- Bindings and the ancestors of the frame that holds them, the nearest first. -/
structure Frame where
  ancestors : List FrameId
  bindings : Bindings

/-- All frames, each found by its place. -/
structure Store where
  frames : List Frame

namespace Store

/-- A store without frames. -/
def empty : Store := ⟨[]⟩

/-- The bindings of a frame, none if there is no such frame. -/
def bindings (s : Store) (id : FrameId) : Bindings :=
  (s.frames[id]?.map Frame.bindings).getD []

/-- The ancestors of a frame, the nearest first. -/
def ancestors (s : Store) (id : FrameId) : List FrameId :=
  (s.frames[id]?.map Frame.ancestors).getD []

/-- A frame and its ancestors, the nearest first. -/
def chain (s : Store) (id : FrameId) : List FrameId :=
  id :: s.ancestors id

/-- The frame right above a frame. -/
def parent? (s : Store) (id : FrameId) : Option FrameId :=
  (s.ancestors id).head?

/-- What a frame by itself binds a name to. -/
def get? (s : Store) (id : FrameId) (name : String) : Option Value :=
  (s.bindings id).get? name

/-- What a name is bound to, seen from a frame. -/
def lookup? (s : Store) (id : FrameId) (name : String) : Option Value :=
  (s.chain id).findSome? (s.get? · name)

/-- Whether a name is bound, seen from a frame. -/
def isBound (s : Store) (id : FrameId) (name : String) : Bool :=
  (s.chain id).any fun f => (s.get? f name).isSome

/-- Binds a name in a frame. -/
def define (s : Store) (id : FrameId) (name : String) (value : Value) : Store :=
  ⟨s.frames.modify id fun f => { f with bindings := f.bindings.put name value }⟩

/-- Changes a binding in the nearest frame that has one; there is no answer if none has. -/
def assign? (s : Store) (id : FrameId) (name : String) (value : Value) : Option Store :=
  ((s.chain id).find? fun f => (s.get? f name).isSome).map (s.define · name value)

/-- Binds several names in a frame, in order. -/
def defineAll (s : Store) (id : FrameId) (pairs : List (String × Value)) : Store :=
  pairs.foldl (fun s pair => s.define id pair.1 pair.2) s

/-- The place of the next frame. -/
def next (s : Store) : FrameId :=
  s.frames.length

/-- The store with one more frame. -/
def push (s : Store) (f : Frame) : Store :=
  ⟨s.frames ++ [f]⟩

/-- A new frame below another one. -/
def extend (s : Store) (parent : FrameId) (bindings : Bindings) : Store :=
  s.push ⟨s.chain parent, bindings⟩

/-- A new frame without ancestors. -/
def root (s : Store) (bindings : Bindings) : Store :=
  s.push ⟨[], bindings⟩

/-- What every global frame binds: the builtins of its own, and `t` to itself. -/
def globalBindings (home : FrameId) : Bindings :=
  Builtin.all.map (fun op => (op.name, .builtin op home)) ++ [("t", Value.t)]

/-- A new global frame; what the host binds comes after the builtins and may shadow them. -/
def global (s : Store) (pairs : List (String × Value)) : Store :=
  s.root ((globalBindings s.next).putAll pairs)

/-! ## What a definition changes -/

/-- Defining a name changes the bindings of one frame only. -/
theorem bindings_define (s : Store) (id other : FrameId) (name : String) (value : Value) :
    (s.define id name value).bindings other =
      if other = id ∧ id < s.frames.length then (s.bindings id).put name value
      else s.bindings other := by
  simp only [bindings, define, List.getElem?_modify]
  by_cases h : other = id
  · subst h
    cases hf : s.frames[other]? with
    | none =>
      have : ¬ other < s.frames.length := by simpa using hf
      simp [this]
    | some f =>
      have : other < s.frames.length := (List.getElem?_eq_some_iff.1 hf).1
      simp [this]
  · simp [h, Ne.symm h]

/-- Defining a name leaves every chain as it is. -/
@[simp] theorem chain_define (s : Store) (id other : FrameId) (name : String) (value : Value) :
    (s.define id name value).chain other = s.chain other := by
  simp only [chain, ancestors, define, List.getElem?_modify]
  cases s.frames[other]? with
  | none => simp
  | some f => by_cases h : id = other <;> simp [h]

/-- A definition is seen from its own frame. -/
theorem get?_define_self {s : Store} {id : FrameId} (h : id < s.frames.length) (name : String)
    (value : Value) : (s.define id name value).get? id name = some value := by
  simp [get?, bindings_define, h, Bindings.get?_put_self]

/-- A definition leaves other names, and other frames, as they are. -/
theorem get?_define_of_ne {s : Store} {id other : FrameId} {name other' : String}
    (h : other ≠ id ∨ other' ≠ name) (value : Value) :
    (s.define id name value).get? other other' = s.get? other other' := by
  simp only [get?, bindings_define]
  split
  next hid =>
    have hne : name ≠ other' := by
      rcases h with h | h
      · exact absurd hid.1 h
      · exact Ne.symm h
    rw [hid.1, Bindings.get?_put_of_ne hne]
  · rfl

end Store
end Fexpr
