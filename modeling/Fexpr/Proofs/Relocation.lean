import Fexpr.Level.Application
import Fexpr.Proofs.Steps
import Fexpr.Proofs.Store
import Fexpr.Proofs.Value.Written

/-!
# Runs on top of other machines

What a machine holds may be put on top of another one, the base: the frames come after those of the
base, and frames and numbers are counted on from there. Nothing in the part on top speaks of the
base. So a computation that runs on top does what it does by itself, moved there, and leaves the
base alone.

`moved` puts a thing on top of a base: a value, bindings, a frame, a store, a machine. What a
program can see of a value, its text and what it equals, is not moved. `Moves` says of two
computations that the second does on top of a base what the first does by itself; it has a rule for
each way to build a computation.
-/

namespace Fexpr

/-! ## Values -/

/-- The place on top of the base that a frame is moved to. -/
def Machine.place (base : Machine) (frame : FrameId) : FrameId :=
  base.store.next + frame

@[simp] theorem Machine.place_beq (base : Machine) (f g : FrameId) :
    (base.place f == base.place g) = (f == g) := by
  simp [place, beq_eq_decide]

namespace Value

mutual

/-- The value on top of the base. -/
def moved (base : Machine) : Value → Value
  | .list items made => .list (movedAll base items) (made.map (base.nextId + ·))
  | .quote body => .quote (moved base body)
  | .unquote body => .unquote (moved base body)
  | .builtin op home => .builtin op (base.place home)
  | .raiser message id => .raiser message (base.nextId + id)
  | .fexpr id name params body home =>
    .fexpr (base.nextId + id) name params (movedAll base body) (base.place home)
  | .suspended e frame sequence id =>
    .suspended (moved base e) (base.place frame) sequence (base.nextSuspension + id)
  | v => v

/-- The values on top of the base. -/
def movedAll (base : Machine) : List Value → List Value
  | [] => []
  | v :: vs => moved base v :: movedAll base vs

end

theorem movedAll_eq_map (base : Machine) (vs : List Value) :
    movedAll base vs = vs.map (moved base) := by
  induction vs with
  | nil => rfl
  | cons v vs ih => rw [movedAll, ih, List.map_cons]

variable (base : Machine)

@[simp] theorem moved_list (items : List Value) (made : Option Nat) :
    (Value.list items made).moved base =
      .list (items.map (moved base)) (made.map (base.nextId + ·)) := by
  rw [moved, movedAll_eq_map]

@[simp] theorem moved_fexpr (id : Nat) (name : String) (params : List Param) (body : List Value)
    (home : FrameId) :
    (Value.fexpr id name params body home).moved base =
      .fexpr (base.nextId + id) name params (body.map (moved base)) (base.place home) := by
  rw [moved, movedAll_eq_map]

/-- A value that was read is nowhere, so it is the same on top of the base. -/
theorem moved_eq_self {v : Value} (hreadable : v.Readable) (hread : v.asRead = v) :
    v.moved base = v := by
  induction v using induction_parts with
  | step v ih =>
    cases v with
    | list items made =>
      rw [asRead, allAsRead_eq_map] at hread
      obtain ⟨hitems, rfl⟩ := list.inj hread
      have hread : ∀ w ∈ items, w.asRead = w :=
        List.map_inj_left.1 (hitems.trans (List.map_id' items).symm)
      have hself : ∀ w ∈ items, w.moved base = w := fun w hw =>
        ih w hw (hreadable.item hw) (hread w hw)
      rw [moved_list, List.map_congr_left hself, List.map_id']
      rfl
    | quote body =>
      have hbody := ih body (List.mem_singleton.2 rfl) hreadable.quoted (quote.inj hread)
      rw [moved, hbody]
    | unquote body =>
      have hbody := ih body (List.mem_singleton.2 rfl) hreadable.unquoted (unquote.inj hread)
      rw [moved, hbody]
    | symbol | number | string | nil => rfl
    | _ => exact hreadable.here.elim

/-! ### What a program sees -/

variable (v w : Value)

@[simp] theorem render_moved (room : Nat) : (v.moved base).render room = v.render room := by
  induction room generalizing v with
  | zero => rfl
  | succ room ih =>
    have hitems : Value.render room ∘ moved base = Value.render room := funext ih
    cases v with
    | list items made => rw [moved_list, render, render, List.mapM_map, hitems]
    | fexpr => rw [moved_fexpr, render, render]
    | quote body | unquote body | suspended body => rw [moved, render, render, ih]
    | _ => rfl

@[simp] theorem constructorText_moved (room : Nat) :
    (v.moved base).constructorText room = v.constructorText room := by
  induction room generalizing v with
  | zero => rfl
  | succ room ih =>
    have hitems : Value.constructorText room ∘ moved base = Value.constructorText room := funext ih
    cases v with
    | list items made =>
      rw [moved_list, constructorText, constructorText, List.mapM_map, hitems]
    | fexpr => rw [moved_fexpr, constructorText, constructorText, List.length_map]
    | quote body | unquote body | suspended body =>
      rw [moved, constructorText, constructorText, ih]
    | _ => rfl

@[simp] theorem typeName_moved : (v.moved base).typeName = v.typeName := by
  cases v <;> rfl

@[simp] theorem targetName?_moved : (v.moved base).targetName? = v.targetName? := by
  cases v with
  | quote body => cases body <;> rfl
  | _ => rfl

theorem isSameMaking_moved (m n : Option Nat) :
    isSameMaking (m.map (base.nextId + ·)) (n.map (base.nextId + ·)) = isSameMaking m n := by
  cases m <;> cases n <;> simp [isSameMaking]

theorem sameItems?_map {f : Value → Value} {same : Value → Value → Option Bool}
    (h : ∀ v w, same (f v) (f w) = same v w) (vs ws : List Value) :
    sameItems? same (vs.map f) (ws.map f) = sameItems? same vs ws := by
  induction vs generalizing ws with
  | nil => cases ws <;> rfl
  | cons v vs ih =>
    cases ws with
    | nil => rfl
    | cons w ws => simp only [List.map_cons, sameItems?, h, ih]

/-- All numbers are counted on alike, so what differs still differs. -/
@[simp] theorem same?_moved (room : Nat) :
    same? room (v.moved base) (w.moved base) = same? room v w := by
  induction room generalizing v w with
  | zero => rfl
  | succ room ih =>
    cases v with
    | list items made =>
      cases w with
      | list items' made' =>
        rw [moved_list, moved_list, same?, same?, isSameMaking_moved, sameItems?_map ih]
      | _ => rfl
    | quote body => cases w <;> first | rfl | exact ih _ _
    | unquote body => cases w <;> first | rfl | exact ih _ _
    | _ => cases w <;> simp [moved, same?]

@[simp] theorem allSame?_moved (room : Nat) (vs : List Value) :
    allSame? room (v.moved base) (vs.map (moved base)) = allSame? room v vs := by
  induction vs with
  | nil => rfl
  | cons w ws ih => simp only [List.map_cons, allSame?, same?_moved, ih]

@[simp] theorem moved_ofItems (vs : List Value) :
    (ofItems vs).moved base = ofItems (vs.map (moved base)) := by
  cases vs with
  | nil => rfl
  | cons v vs => exact moved_list base (v :: vs) none

end Value

/-! ### Parameter lists -/

/-- Why a tree on top of the base spells no parameter list. -/
def ParamFault.moved (base : Machine) : ParamFault → ParamFault
  | .notAList tree => .notAList (tree.moved base)
  | .notAName item => .notAName (item.moved base)
  | .restNotLast item => .restNotLast (item.moved base)
  | .duplicate name => .duplicate name

namespace Param

variable (base : Machine)

theorem ofTree?_moved (v : Value) : ofTree? (v.moved base) = ofTree? v := by
  cases v with
  | quote body => cases body <;> rfl
  | _ => rfl

theorem ofTrees_moved (seen : List String) (items : List Value) :
    ofTrees seen (items.map (Value.moved base)) =
      (ofTrees seen items).mapError (ParamFault.moved base) := by
  induction items generalizing seen with
  | nil => rfl
  | cons item items ih =>
    rw [List.map_cons, ofTrees, ofTrees, ofTree?_moved]
    cases ofTree? item with
    | none => rfl
    | some param =>
      dsimp only
      rw [List.isEmpty_map]
      split
      · rfl
      · split
        · rfl
        · rw [ih]
          cases ofTrees (param.name :: seen) items <;> rfl

/-- A tree spells the same parameters wherever it is. -/
theorem listOfTree_moved (tree : Value) :
    listOfTree (tree.moved base) = (listOfTree tree).mapError (ParamFault.moved base) := by
  cases tree with
  | list items made => rw [Value.moved_list]; exact ofTrees_moved base [] items
  | _ => rfl

end Param

/-! ## Frames -/

/-- The bindings on top of the base. -/
def Bindings.moved (base : Machine) (bs : Bindings) : Bindings :=
  bs.map fun b => (b.1, b.2.moved base)

/-- The frame on top of the base. -/
def Frame.moved (base : Machine) (f : Frame) : Frame :=
  ⟨f.ancestors.map base.place, Bindings.moved base f.bindings⟩

/-- The frames of the base, and the others on top of them. -/
def Store.moved (base : Machine) (s : Store) : Store :=
  ⟨base.store.frames ++ s.frames.map (Frame.moved base)⟩

namespace Bindings

variable (base : Machine) (bs : Bindings)

theorem get?_moved (x : String) :
    Bindings.get? (Bindings.moved base bs) x = (bs.get? x).map (Value.moved base) := by
  unfold Bindings.get? Bindings.moved
  rw [List.find?_map, Option.map_map, Option.map_map]
  rfl

theorem put_moved (x : String) (v : Value) :
    put x (v.moved base) (Bindings.moved base bs) = Bindings.moved base (put x v bs) := by
  induction bs with
  | nil => rfl
  | cons b bs ih =>
    change (if b.1 == x then _ else (b.1, b.2.moved base) :: put x _ (Bindings.moved base bs)) = _
    rw [ih, put]
    split <;> rfl

end Bindings

namespace Store

variable (base : Machine) (s : Store)

theorem frame_moved (id : FrameId) :
    (s.moved base).frames[base.place id]? = s.frames[id]?.map (Frame.moved base) := by
  rw [moved, Machine.place, next, List.getElem?_append_right (Nat.le_add_right _ _),
    Nat.add_sub_cancel_left, List.getElem?_map]

theorem bindings_moved (id : FrameId) :
    (s.moved base).bindings (base.place id) = Bindings.moved base (s.bindings id) := by
  rw [bindings, frame_moved, bindings]
  cases s.frames[id]? <;> rfl

theorem chain_moved (id : FrameId) :
    (s.moved base).chain (base.place id) = (s.chain id).map base.place := by
  rw [chain, ancestors, frame_moved, chain, ancestors]
  cases s.frames[id]? <;> rfl

theorem get?_moved (id : FrameId) (x : String) :
    (s.moved base).get? (base.place id) x = (s.get? id x).map (Value.moved base) := by
  rw [get?, bindings_moved, Bindings.get?_moved, get?]

theorem lookup?_moved (id : FrameId) (x : String) :
    (s.moved base).lookup? (base.place id) x = (s.lookup? id x).map (Value.moved base) := by
  rw [lookup?, lookup?, chain_moved]
  induction s.chain id with
  | nil => rfl
  | cons f fs ih =>
    rw [List.map_cons, List.findSome?_cons, List.findSome?_cons, get?_moved, ih]
    cases s.get? f x <;> rfl

/-- A definition on top of the base changes no frame of the base. -/
theorem define_moved (id : FrameId) (x : String) (v : Value) :
    (s.moved base).define (base.place id) x (v.moved base) = (s.define id x v).moved base := by
  refine congrArg Store.mk (List.ext_getElem? fun i => ?_)
  rcases Nat.lt_or_ge i base.store.frames.length with hlt | hge
  · have hne : base.place id ≠ i :=
      Nat.ne_of_gt (Nat.lt_of_lt_of_le hlt (Nat.le_add_right _ id))
    rw [List.getElem?_modify_ne _ _ hne, moved, List.getElem?_append_left hlt,
      List.getElem?_append_left hlt]
  · obtain ⟨j, rfl⟩ := Nat.exists_eq_add_of_le hge
    change ((s.moved base).frames.modify _ _)[base.place j]? =
      ((s.define id x v).moved base).frames[base.place j]?
    rw [frame_moved, define]
    by_cases hid : id = j
    · subst hid
      rw [List.getElem?_modify_eq, List.getElem?_modify_eq, frame_moved]
      cases s.frames[id]? with
      | none => rfl
      | some f => exact congrArg (fun bs => some (Frame.mk _ bs)) (Bindings.put_moved base _ x v)
    · have hplace : base.place id ≠ base.place j := fun h => hid (Nat.add_left_cancel h)
      rw [List.getElem?_modify_ne _ _ hplace, List.getElem?_modify_ne _ _ hid, frame_moved]

theorem defineAll_moved (id : FrameId) (pairs : Bindings) :
    (s.moved base).defineAll (base.place id) (Bindings.moved base pairs) =
      (s.defineAll id pairs).moved base := by
  induction pairs generalizing s with
  | nil => rfl
  | cons pair pairs ih =>
    change ((s.moved base).define (base.place id) pair.1 (pair.2.moved base)).defineAll _
      (Bindings.moved base pairs) = _
    rw [define_moved, ih]
    rfl

theorem assign?_moved (id : FrameId) (x : String) (v : Value) :
    (s.moved base).assign? (base.place id) x (v.moved base) =
      (s.assign? id x v).map (Store.moved base) := by
  have hbinds : (fun f => ((s.moved base).get? f x).isSome) ∘ base.place =
      fun f => (s.get? f x).isSome := by
    funext f
    rw [Function.comp_apply, get?_moved, Option.isSome_map]
  rw [assign?, assign?, chain_moved, List.find?_map, hbinds, Option.map_map, Option.map_map]
  congr 1
  funext f
  exact define_moved base s f x v

theorem next_moved : (s.moved base).next = base.place s.next := by
  rw [next, moved, List.length_append, List.length_map]
  rfl

theorem moved_globalBindings (home : FrameId) :
    Bindings.moved base (globalBindings home) = globalBindings (base.place home) := by
  rfl

/-- A new global frame on top of the base is the same as it is by itself. -/
theorem global_moved : (s.moved base).global [] = (s.global []).moved base := by
  rw [global, next_moved]
  change Store.mk (_ ++ [⟨[], globalBindings _⟩]) = Store.mk (_ ++ List.map _ (_ ++ [_]))
  rw [List.map_append, ← List.append_assoc, ← moved_globalBindings]
  rfl

end Store

/-! ## Machines -/

/-- The machine on top of the base: it goes on with the output and the log of the base. -/
def Machine.moved (m base : Machine) : Machine where
  store := m.store.moved base
  nextId := base.nextId + m.nextId
  nextSuspension := base.nextSuspension + m.nextSuspension
  output := base.output ++ m.output
  log := m.log ++ base.log

/-- The call on top of the base. -/
def Call.moved (base : Machine) (c : Call) : Call :=
  ⟨c.operands.map (Value.moved base), base.place c.frame, c.text⟩

/-! ## Computations -/

/-- On top of the base, the second computation does what the first does by itself, and has the same
value, moved by `f`, or the same fault. -/
def Moves (base : Machine) {α β : Type} (f : α → β) (x : Eval α) (y : Eval β) : Prop :=
  ∀ m : Machine, y (m.moved base) = ((x m).1.map f, (x m).2.moved base)

namespace Moves

variable {base : Machine} {α β γ δ : Type} {f : α → β} {g : γ → δ}

theorem pure (a : α) : Moves base f (Pure.pure a) (Pure.pure (f a)) :=
  fun _ => rfl

theorem pure_of_eq {a : α} {b : β} (h : f a = b) : Moves base f (Pure.pure a) (Pure.pure b) :=
  h ▸ pure a

theorem throw (fault : Fault) :
    Moves base f (MonadExcept.throw fault) (MonadExcept.throw fault) :=
  fun _ => rfl

theorem bind {x : Eval α} {y : Eval β} {k : α → Eval γ} {l : β → Eval δ} (h : Moves base f x y)
    (hnext : ∀ a, Moves base g (k a) (l (f a))) : Moves base g (x >>= k) (y >>= l) := by
  intro m
  rw [Eval.bind_run, Eval.bind_run, h m]
  rcases x m with ⟨fault | a, m'⟩
  · rfl
  · exact hnext a m'

/-! ### Primitive steps -/

theorem lookup? (frame : FrameId) (x : String) :
    Moves base (Option.map (Value.moved base)) (Eval.lookup? frame x)
      (Eval.lookup? (base.place frame) x) := by
  intro m
  rw [Eval.lookup?_run, Eval.lookup?_run, Machine.moved, Store.lookup?_moved]
  rfl

theorem define (frame : FrameId) (x : String) (v : Value) :
    Moves base id (Eval.define frame x v) (Eval.define (base.place frame) x (v.moved base)) := by
  intro m
  exact congrArg (fun store => (Except.ok (), { m.moved base with store }))
    (Store.define_moved base m.store frame x v)

theorem defineAll (frame : FrameId) (pairs : Bindings) :
    Moves base id (Eval.defineAll frame pairs)
      (Eval.defineAll (base.place frame) (Bindings.moved base pairs)) := by
  intro m
  exact congrArg (fun store => (Except.ok (), { m.moved base with store }))
    (Store.defineAll_moved base m.store frame pairs)

theorem assign (frame : FrameId) (x : String) (v : Value) :
    Moves base id (Eval.assign frame x v) (Eval.assign (base.place frame) x (v.moved base)) := by
  intro m
  have hassign : (m.moved base).store.assign? (base.place frame) x (v.moved base) =
      (m.store.assign? frame x v).map (Store.moved base) :=
    Store.assign?_moved base m.store frame x v
  cases h : m.store.assign? frame x v with
  | none =>
    rw [h, Option.map_none] at hassign
    rw [Eval.assign_run_of_none h, Eval.assign_run_of_none hassign]
    rfl
  | some store =>
    rw [h, Option.map_some] at hassign
    rw [Eval.assign_run_of_some h, Eval.assign_run_of_some hassign]
    rfl

theorem freshId : Moves base (base.nextId + ·) Eval.freshId Eval.freshId :=
  fun _ => rfl

theorem suspend (e : Value) (frame : FrameId) (sequence : Bool) :
    Moves base (Value.moved base) (Eval.suspend e frame sequence)
      (Eval.suspend (e.moved base) (base.place frame) sequence) :=
  fun _ => rfl

theorem makeList (vs : List Value) :
    Moves base (Value.moved base) (Eval.makeList vs)
      (Eval.makeList (vs.map (Value.moved base))) := by
  cases vs with
  | nil => exact .pure Value.nil
  | cons v vs =>
    exact freshId.bind fun made => .pure_of_eq (Value.moved_list base (v :: vs) (some made))

theorem printLine (text : String) : Moves base id (Eval.printLine text) (Eval.printLine text) := by
  intro m
  have houtput : base.output ++ m.output ++ text ++ "\n" =
      base.output ++ (m.output ++ text ++ "\n") := by
    simp only [String.append_assoc]
  exact congrArg (fun output => (Except.ok (), { m.moved base with output })) houtput

theorem log (record : LogRecord) : Moves base id (Eval.log record) (Eval.log record) :=
  fun _ => rfl

end Moves
end Fexpr
