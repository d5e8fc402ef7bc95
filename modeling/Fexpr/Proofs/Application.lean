import Fexpr.Proofs.Invariant
import Fexpr.Proofs.ParamList

/-!
# How a fexpr binds its parameters

The parameters of a fexpr share the operands of a call (`Param.Shares`): each one takes the operand
in its place, and the one for the rest takes all that remain. What each parameter is bound to is
settled in turn (`InTurn`, `Level.Settles`), and only when all are settled is any of them bound.

Main statement: a call whose operands do not fit changes nothing; else its parameters are settled
one after the other, and are all bound, in the frame of the call and nowhere else, before the body
is evaluated, or are none of them bound (`call_binds_all_or_nothing`).
-/

namespace Fexpr

/-! ## Shares of operands -/

/-- What a parameter takes of the operands: one, or all that remain. -/
inductive Share where
  | one (param : Param) (operand : Value)
  | rest (param : Param) (operands : List Value)

/-- The parameter that takes the share. -/
def Share.param : Share → Param
  | one p _ => p
  | rest p _ => p

namespace Param

/-- How parameters share operands. -/
inductive Shares : List Param → List Value → List Share → Prop
  | nil : Shares [] [] []
  | one {p : Param} {ps : List Param} {e : Value} {es : List Value} {shares : List Share}
    (hp : p.rest = false) (h : Shares ps es shares) :
    Shares (p :: ps) (e :: es) (.one p e :: shares)
  | rest {p : Param} (hp : p.rest = true) (es : List Value) : Shares [p] es [.rest p es]

/-- A number of operands fits parameters: there is one for each of those that take one, and no more
unless some parameter takes the rest. -/
def Fits (params : List Param) (count : Nat) : Prop :=
  (required params).length ≤ count ∧
    ((∀ p ∈ params, p.rest = false) → count ≤ (required params).length)

theorem fits_cons {p : Param} (hp : p.rest = false) {ps : List Param} {count : Nat} :
    Fits (p :: ps) (count + 1) ↔ Fits ps count := by
  unfold Fits
  rw [required_cons hp, List.length_cons, Nat.add_le_add_iff_right, Nat.add_le_add_iff_right,
    List.forall_mem_cons, and_iff_right hp]

namespace Shares

variable {p : Param} {ps : List Param} {es : List Value} {shares : List Share}

theorem map_param (h : Shares ps es shares) : shares.map Share.param = ps := by
  induction h with
  | nil => rfl
  | one _ _ ih => exact congrArg _ ih
  | rest _ _ => rfl

/-- Operands that fit proper parameters are shared by them. -/
theorem exists_of_fits (hproper : Proper ps) (hfits : Fits ps es.length) :
    ∃ shares, Shares ps es shares := by
  induction ps generalizing es with
  | nil =>
    obtain rfl := List.length_eq_zero_iff.1 (Nat.le_zero.1 (hfits.2 nofun))
    exact ⟨[], .nil⟩
  | cons p ps ih =>
    cases hp : p.rest with
    | true =>
      obtain rfl := hproper.eq_nil_of_rest hp
      exact ⟨_, .rest hp es⟩
    | false =>
      cases es with
      | nil =>
        have hcount := hfits.1
        rw [required_cons hp] at hcount
        cases hcount
      | cons e es =>
        obtain ⟨shares, hshares⟩ := ih hproper.tail ((fits_cons hp).1 hfits)
        exact ⟨_, .one hp hshares⟩

end Shares
end Param

/-! ## One after the other -/

/-- Steps for a row of items, each from where the one before left the machine, up to the first that
ends in a fault. -/
inductive InTurn {α β : Type} (Step : α → Machine → Except Fault β → Machine → Prop) :
    List α → Machine → Except Fault (List β) → Machine → Prop
  | nil (m : Machine) : InTurn Step [] m (.ok []) m
  | fault {a : α} (as : List α) {m m' : Machine} {f : Fault} (h : Step a m (.error f) m') :
    InTurn Step (a :: as) m (.error f) m'
  | cons {a : α} {as : List α} {b : β} {m m' m'' : Machine} {r : Except Fault (List β)}
    (h : Step a m (.ok b) m') (hs : InTurn Step as m' r m'') :
    InTurn Step (a :: as) m (r.map (b :: ·)) m''

namespace InTurn

variable {α β : Type} {Step : α → Machine → Except Fault β → Machine → Prop} {as : List α}
  {m m' : Machine} {r : Except Fault (List β)}

/-- What every step keeps, a row of steps keeps. -/
theorem keeps {γ : Type} (f : Machine → γ) (hstep : ∀ {a m r m'}, Step a m r m' → f m' = f m)
    (h : InTurn Step as m r m') : f m' = f m := by
  induction h with
  | nil => rfl
  | fault _ h => exact hstep h
  | cons h _ ih => exact ih.trans (hstep h)

/-- What every step says of its result, a row of steps says of all of them. -/
theorem map_eq {γ : Type} {f : α → γ} {g : β → γ}
    (hstep : ∀ {a m b m'}, Step a m (.ok b) m' → g b = f a) {bs : List β}
    (h : InTurn Step as m (.ok bs) m') : bs.map g = as.map f := by
  generalize hr : (Except.ok bs : Except Fault (List β)) = r at h
  induction h generalizing bs with
  | nil =>
    cases hr
    rfl
  | fault => cases hr
  | @cons a as b m m' m'' r h hs ih =>
    cases r with
    | error f => cases hr
    | ok bs' =>
      cases hr
      rw [List.map_cons, List.map_cons, hstep h, ih rfl]

/-- A row with a first item goes well if the first step does, and then the others. -/
theorem ok_cons_iff {a : α} {bs : List β} :
    InTurn Step (a :: as) m (.ok bs) m' ↔
      ∃ b bs' m₁, bs = b :: bs' ∧ Step a m (.ok b) m₁ ∧ InTurn Step as m₁ (.ok bs') m' := by
  constructor
  · intro h
    generalize hr : (Except.ok bs : Except Fault (List β)) = r at h
    cases h with
    | fault => cases hr
    | @cons _ _ b _ m₁ _ r h hs =>
      cases r with
      | error f => cases hr
      | ok bs' =>
        cases hr
        exact ⟨b, bs', m₁, rfl, h, hs⟩
  · rintro ⟨b, bs', m₁, rfl, h, hs⟩
    exact .cons h hs

theorem ok_nil_iff {bs : List β} :
    InTurn Step ([] : List α) m (.ok bs) m' ↔ bs = [] ∧ m' = m := by
  constructor
  · intro h
    cases h with
    | nil => exact ⟨rfl, rfl⟩
  · rintro ⟨rfl, rfl⟩
    exact .nil m'

end InTurn

/-! ## What parameters are bound to -/

namespace Level

/-- What a parameter is bound to, by name. An eager one gets the value of its operand, which is
evaluated once, and one for the rest a new list of the values of all that remain, evaluated in
turn. A suspended one gets its operand, and one for the rest the list of all that remain, with the
frame of the call and unevaluated; but where the operand forces a name that is bound to a suspended
operand, it gets that one as it is. -/
inductive Settles (lv : Level) (frame : FrameId) :
    Share → Machine → Except Fault (String × Value) → Machine → Prop
  | eager {p : Param} (hp : p.suspended = false) {e : Value} {m m' : Machine}
    {r : Except Fault Value} (h : lv.evaluate e frame m = (r, m')) :
    Settles lv frame (.one p e) m (r.map (p.name, ·)) m'
  | suspended {p : Param} (hp : p.suspended = true) {e : Value} {m : Machine}
    (hfresh : ∀ x v, e = .unquote (.symbol x) → m.store.lookup? frame x = some v →
      v.suspension? = none) :
    Settles lv frame (.one p e) m (.ok (p.name, .suspended e frame false m.nextSuspension))
      { m with nextSuspension := m.nextSuspension + 1 }
  | forwarded {p : Param} (hp : p.suspended = true) {x : String} {v : Value} {m : Machine}
    (hx : m.store.lookup? frame x = some v) (hv : v.suspension?.isSome) :
    Settles lv frame (.one p (.unquote (.symbol x))) m (.ok (p.name, v)) m
  | noRest {p : Param} (hp : p.suspended = false) (m : Machine) :
    Settles lv frame (.rest p []) m (.ok (p.name, .nil)) m
  | eagerRest {p : Param} (hp : p.suspended = false) {es vs : List Value} {m m' : Machine}
    (hes : es ≠ [])
    (h : InTurn (fun e m r m' => lv.evaluate e frame m = (r, m')) es m (.ok vs) m') :
    Settles lv frame (.rest p es) m (.ok (p.name, .list vs (some m'.nextId)))
      { m' with nextId := m'.nextId + 1 }
  | faultyRest {p : Param} (hp : p.suspended = false) {es : List Value} {m m' : Machine}
    {fault : Fault}
    (h : InTurn (fun e m r m' => lv.evaluate e frame m = (r, m')) es m (.error fault) m') :
    Settles lv frame (.rest p es) m (.error fault) m'
  | suspendedRest {p : Param} (hp : p.suspended = true) (es : List Value) (m : Machine) :
    Settles lv frame (.rest p es) m
      (.ok (p.name, .suspended (.ofItems es) frame true m.nextSuspension))
      { m with nextSuspension := m.nextSuspension + 1 }

variable {lv : Level} {frame : FrameId} {m m' : Machine}

/-- A parameter is bound by its own name. -/
theorem Settles.name_eq {share : Share} {bound : String × Value}
    (h : lv.Settles frame share m (.ok bound) m') : bound.1 = share.param.name := by
  generalize hr : (Except.ok bound : Except Fault (String × Value)) = r at h
  cases h with
  | @eager p _ _ _ _ r h =>
    cases r with
    | error fault => cases hr
    | ok v =>
      cases hr
      rfl
  | faultyRest => cases hr
  | _ =>
    cases hr
    rfl

/-- To settle a parameter makes no frames. -/
theorem Settles.length_eq
    (hevaluate : ∀ e, Eval.KeepsFrames (lv.evaluate e frame)) {share : Share}
    {r : Except Fault (String × Value)} (h : lv.Settles frame share m r m') :
    m'.store.frames.length = m.store.frames.length := by
  have hone {e : Value} {m m' : Machine} {r : Except Fault Value}
      (h : lv.evaluate e frame m = (r, m')) :
      m'.store.frames.length = m.store.frames.length := by
    have hlength := hevaluate e m
    rw [h] at hlength
    exact hlength
  cases h with
  | eager hp h => exact hone h
  | eagerRest hp hes h =>
    have hlength := h.keeps (·.store.frames.length) hone
    exact hlength
  | faultyRest hp h => exact h.keeps (·.store.frames.length) hone
  | _ => rfl

/-! ## What is done to settle them -/

/-- To evaluate expressions in order is to evaluate them in turn. -/
theorem inTurn_evaluateAll (lv : Level) (frame : FrameId) (es : List Value) (m : Machine) :
    InTurn (fun e m r m' => lv.evaluate e frame m = (r, m')) es m (lv.evaluateAll frame es m).1
      (lv.evaluateAll frame es m).2 := by
  induction es generalizing m with
  | nil => exact .nil m
  | cons e es ih =>
    rw [evaluateAll, Eval.bind_run]
    rcases hrun : lv.evaluate e frame m with ⟨fault | v, m'⟩
    · exact .fault es hrun
    · have hrest := InTurn.cons hrun (ih m')
      dsimp only
      rw [Eval.bind_run]
      rcases hes : lv.evaluateAll frame es m' with ⟨fault | vs, m''⟩ <;>
        rw [hes] at hrest <;> exact hrest

theorem settles_argument (lv : Level) (frame : FrameId) (p : Param) (e : Value) (m : Machine) :
    lv.Settles frame (.one p e) m ((lv.argument frame p e m).1.map (p.name, ·))
      (lv.argument frame p e m).2 := by
  unfold argument
  cases hp : p.suspended with
  | false => exact .eager hp rfl
  | true =>
    rw [if_pos rfl]
    by_cases hforced : ∃ x v, e = .unquote (.symbol x) ∧ m.store.lookup? frame x = some v ∧
        v.suspension?.isSome
    · obtain ⟨x, v, rfl, hx, hv⟩ := hforced
      rw [suspend_run_of_forced hx hv]
      exact .forwarded hp hx hv
    · have hfresh : ∀ x v, e = .unquote (.symbol x) → m.store.lookup? frame x = some v →
          v.suspension? = none := by
        intro x v he hx
        by_contra hv
        exact hforced ⟨x, v, he, hx, Option.isSome_iff_ne_none.2 hv⟩
      rw [suspend_run hfresh]
      exact .suspended hp hfresh

theorem settles_restArgument (lv : Level) (frame : FrameId) (p : Param) (es : List Value)
    (m : Machine) :
    lv.Settles frame (.rest p es) m ((lv.restArgument frame p es m).1.map (p.name, ·))
      (lv.restArgument frame p es m).2 := by
  cases hp : p.suspended with
  | true =>
    rw [restArgument_run lv hp]
    exact .suspendedRest hp es m
  | false =>
    have hturn := inTurn_evaluateAll lv frame es m
    unfold restArgument
    rw [if_neg (by simp [hp]), Eval.bind_run]
    rcases hes : lv.evaluateAll frame es m with ⟨fault | vs, m'⟩
    · rw [hes] at hturn
      exact .faultyRest hp hturn
    · rw [hes] at hturn
      have hlength : vs.length = es.length := by
        have hmap := hturn.map_eq (f := fun _ => ()) (g := fun _ => ()) fun _ => rfl
        simpa using congrArg List.length hmap
      cases es with
      | nil =>
        obtain rfl := List.length_eq_zero_iff.1 hlength
        cases hes
        exact .noRest hp m
      | cons e es =>
        cases vs with
        | nil => cases hlength
        | cons v vs => exact .eagerRest hp (List.cons_ne_nil e es) hturn

/-- What the parameters of a call are bound to, each by its name. -/
def settleAll (lv : Level) (frame : FrameId) (params : List Param) (operands : List Value) :
    Eval Bindings := do
  let fixed ← lv.arguments frame (Param.required params) operands
  match Param.rest? params with
  | some p => do
    let value ← lv.restArgument frame p (operands.drop (Param.required params).length)
    return fixed ++ [(p.name, value)]
  | none => return fixed

/-- A parameter that takes one operand is settled before the others. -/
theorem settleAll_cons {p : Param} (hp : p.rest = false) (ps : List Param) (e : Value)
    (es : List Value) :
    lv.settleAll frame (p :: ps) (e :: es) = (do
      let v ← lv.argument frame p e
      let bound ← lv.settleAll frame ps es
      return (p.name, v) :: bound) := by
  unfold settleAll
  rw [Param.required_cons hp, Param.rest?_cons hp]
  cases Param.rest? ps <;> simp [arguments, bind_assoc]

/-- The parameter for the rest is settled by itself. -/
theorem settleAll_rest {p : Param} (hp : p.rest = true) (es : List Value) :
    lv.settleAll frame [p] es = (do
      let v ← lv.restArgument frame p es
      return [(p.name, v)]) := by
  have hrequired : Param.required [p] = [] := List.filter_cons_of_neg (by simp [hp])
  have hrest : Param.rest? [p] = some p := by simp [Param.rest?, hp]
  unfold settleAll
  rw [hrequired, hrest]
  simp [arguments]

/-- Parameters that share operands are settled in turn. -/
theorem inTurn_settleAll {params : List Param} {operands : List Value} {shares : List Share}
    (hshares : Param.Shares params operands shares) (m : Machine) :
    InTurn (lv.Settles frame) shares m (lv.settleAll frame params operands m).1
      (lv.settleAll frame params operands m).2 := by
  induction hshares generalizing m with
  | nil => exact .nil m
  | @one p ps e es shares hp h ih =>
    have hfirst := lv.settles_argument frame p e m
    rw [settleAll_cons hp, Eval.bind_run]
    rcases hrun : lv.argument frame p e m with ⟨fault | v, m'⟩
    · rw [hrun] at hfirst
      exact .fault shares hfirst
    · rw [hrun] at hfirst
      have hall := InTurn.cons hfirst (ih m')
      dsimp only
      rw [Eval.bind_run]
      rcases hothers : lv.settleAll frame ps es m' with ⟨fault | bound, m''⟩ <;>
        rw [hothers] at hall <;> exact hall
  | @rest p hp es =>
    have hrest := lv.settles_restArgument frame p es m
    rw [settleAll_rest hp, Eval.bind_run]
    rcases hrun : lv.restArgument frame p es m with ⟨fault | v, m'⟩ <;> rw [hrun] at hrest
    · exact .fault [] hrest
    · exact .cons hrest (.nil m')

/-! ## Calls -/

variable {name : String} {params : List Param} {body : List Value} {c : Call}

/-- The test that a call makes of its operands: whether they do not fit. -/
theorem misfit_iff (hproper : Param.Proper params) (count : Nat) :
    (count < (Param.required params).length ||
      (Param.rest? params).isNone && (Param.required params).length < count) = true ↔
      ¬ Param.Fits params count := by
  unfold Param.Fits
  rw [Bool.or_eq_true, Bool.and_eq_true, decide_eq_true_iff, decide_eq_true_iff,
    Option.isNone_iff_eq_none, hproper.rest?_eq_none_iff, not_and_or, not_le, Classical.not_imp,
    not_le]

/-- Where the operands do not fit, a call fails at once. -/
theorem applyFexpr_of_not_fits (hproper : Param.Proper params)
    (hfits : ¬ Param.Fits params c.operands.length) :
    lv.applyFexpr name params body c m =
      (.error (.error (.arising (.arity name (Param.required params).length
        (Param.rest? params).isSome c.operands.length) c.text)), m) := by
  unfold applyFexpr
  dsimp only
  rw [if_pos ((misfit_iff hproper _).2 hfits)]
  rfl

/-- Where they fit, all parameters are settled, then all are bound, and then the body is
evaluated. -/
theorem applyFexpr_of_fits (hproper : Param.Proper params)
    (hfits : Param.Fits params c.operands.length) :
    lv.applyFexpr name params body c = (do
      let bound ← lv.settleAll c.frame params c.operands
      Eval.defineAll c.frame bound
      lv.sequence c.frame body) := by
  unfold applyFexpr settleAll
  dsimp only
  rw [if_neg fun h => (misfit_iff hproper _).1 h hfits]
  cases Param.rest? params <;> simp

end Level

/-- All parameters are bound in a frame, each one once, and nothing else has changed. -/
structure Param.AllBound (params : List Param) (frame : FrameId) (bound : Bindings)
    (m start : Machine) : Prop where
  names : bound.map Prod.fst = params.map Param.name
  nodup : (params.map Param.name).Nodup
  machine : start = { m with store := m.store.defineAll frame bound }
  get : ∀ x v, (x, v) ∈ bound → start.store.get? frame x = some v
  others : ∀ f x, f ≠ frame ∨ x ∉ params.map Param.name →
    start.store.get? f x = m.store.get? f x

/-- Parameters that have been settled are bound by defining them in the frame of the call. -/
theorem allBound_of_inTurn {lv : Level} {params : List Param} {operands : List Value}
    {shares : List Share} {frame : FrameId} {m m' : Machine} {bound : Bindings}
    (hproper : Param.Proper params) (hframe : frame < m'.store.frames.length)
    (hshares : Param.Shares params operands shares)
    (hturn : InTurn (lv.Settles frame) shares m (.ok bound) m') :
    Param.AllBound params frame bound m'
      { m' with store := m'.store.defineAll frame bound } := by
  have hnames : bound.map Prod.fst = params.map Param.name := by
    have hmap := hturn.map_eq (f := fun share => share.param.name) (g := Prod.fst)
      Level.Settles.name_eq
    rw [hmap, ← hshares.map_param, List.map_map]
    rfl
  refine ⟨hnames, hproper.nodup, rfl, fun x v hx => ?_, fun f x hother => ?_⟩
  · exact Store.get?_defineAll_of_mem hframe (hnames ▸ hproper.nodup) hx
  · rcases hother with hf | hx
    · exact Store.get?_defineAll_of_ne hf x
    · exact Store.get?_defineAll_of_not_mem (hnames ▸ hx)

/-- A call of a fexpr that a program made binds its parameters all or nothing. If the operands do
not fit, it fails as malformed, and nothing has happened. Else the parameters share the operands and
are settled in turn, each from where the one before left the machine. If one of them fails, the call
fails with that fault and leaves the machine there. If none does, each parameter is bound once to
what it was settled to, in the frame of the call, nothing else is changed, and then the body is
evaluated. -/
theorem call_binds_all_or_nothing (limits : Limits) (levels : Nat) {lv₀ : Level} {c₀ : Call}
    {m₀ : Machine} {id : Nat} {name : String} {params : List Param} {body : List Value}
    {home : FrameId} (hmade : (lv₀.defun c₀ m₀).1 = .ok (.fexpr id name params body home))
    (c : Call) {m : Machine} (hframe : c.frame < m.store.frames.length) :
    let call := (limits.level levels).apply (.fexpr id name params body home) c m
    let lv := limits.level (levels - Level.skippedByFexpr)
    (¬ Param.Fits params c.operands.length →
      ∃ cause, call = (.error (.error (.arising cause c.text)), m) ∧ cause.kind = .malformed) ∧
    (Param.Fits params c.operands.length →
      ∃ shares r m', Param.Shares params c.operands shares ∧
        InTurn (lv.Settles c.frame) shares m r m' ∧
        (∀ fault, r = .error fault → call = (.error fault, m')) ∧
        ∀ bound, r = .ok bound →
          ∃ start, Param.AllBound params c.frame bound m' start ∧
            call = lv.sequence c.frame body start) := by
  intro call lv
  have hproper := Level.proper_of_defun hmade
  have hcall : call = lv.applyFexpr name params body c m := by
    show ((limits.level levels).deeper Level.skippedByFexpr).applyFexpr name params body c m = _
    rw [Limits.deeper_level]
  refine ⟨fun hfits => ?_, fun hfits => ?_⟩
  · exact ⟨_, hcall.trans (Level.applyFexpr_of_not_fits hproper hfits), rfl⟩
  · obtain ⟨shares, hshares⟩ := Param.Shares.exists_of_fits hproper hfits
    have hturn : InTurn (lv.Settles c.frame) shares m _ _ := Level.inTurn_settleAll hshares m
    rw [Level.applyFexpr_of_fits hproper hfits, Eval.bind_run] at hcall
    rcases hsettled : lv.settleAll c.frame params c.operands m with ⟨fault | bound, m'⟩ <;>
      rw [hsettled] at hturn hcall
    · refine ⟨shares, .error fault, m', hshares, hturn, fun fault' hfault => ?_, nofun⟩
      cases hfault
      exact hcall
    · have hevaluate (e : Value) : Eval.KeepsFrames (lv.evaluate e c.frame) :=
        keepsFrames_evaluateWithin limits (levels - Level.skippedByFexpr) 0 e c.frame
      have hlength : m'.store.frames.length = m.store.frames.length :=
        hturn.keeps (·.store.frames.length) (Level.Settles.length_eq hevaluate)
      have hbound := allBound_of_inTurn hproper (hlength ▸ hframe) hshares hturn
      refine ⟨shares, .ok bound, m', hshares, hturn, nofun, fun bound' heq => ?_⟩
      cases heq
      exact ⟨_, hbound, hcall⟩

/-- A fexpr with an eager parameter, a suspended one and an eager one for the rest, called below the
frame where it was made with an operand that has no value and one that names a parameter. -/
theorem call_binds_eager_suspended_and_rest :
    let params : List Param := [⟨"a", false, false⟩, ⟨"b", true, false⟩, ⟨"c", false, true⟩]
    let f := Value.fexpr 0 "f" params [.symbol "a"] 0
    let spelled := Value.list [.symbol "a", .quote (.symbol "b"), .symbol "c..."] none
    let m := { Machine.empty with store := (Store.empty.global [("a", .nil)]).extend 0 [] }
    let operands : List Value :=
      [.quote (.symbol "p"), .symbol "unbound", .symbol "t", .symbol "a"]
    let call := (Limits.top {}).apply f ⟨operands, 1, ""⟩ m
    ((Limits.top {}).defun ⟨[.symbol "f", spelled, .symbol "a"], 0, ""⟩ m).1 = .ok f ∧
      1 < m.store.frames.length ∧ Param.Fits params operands.length ∧
      call.1 = .ok (.symbol "p") ∧
      (∃ bound m' start, Param.AllBound params 1 bound m' start ∧
        call = (Limits.level {} 1396).sequence 1 [.symbol "a"] start) ∧
      call.2.store.get? 0 "a" = some .nil ∧
      call.2.store.get? 1 "b" = some (.suspended (.symbol "unbound") 1 false 0) ∧
      call.2.store.get? 1 "c" = some (.list [.t, .nil] (some 0)) := by
  intro params f spelled m operands call
  have hmade : ((Limits.top {}).defun ⟨[.symbol "f", spelled, .symbol "a"], 0, ""⟩ m).1 =
      .ok f := rfl
  have hframe : 1 < m.store.frames.length := by decide
  have hfits : Param.Fits params operands.length :=
    ⟨by decide, fun hone => absurd (hone ⟨"c", false, true⟩ (by decide)) (by decide)⟩
  have hvalue : call.1 = .ok (.symbol "p") := rfl
  refine ⟨hmade, hframe, hfits, hvalue, ?_, rfl, rfl, rfl⟩
  obtain ⟨shares, r, m', -, -, hfault, hbound⟩ :=
    (call_binds_all_or_nothing {} 1400 hmade ⟨operands, 1, ""⟩ hframe).2 hfits
  cases r with
  | error fault => exact absurd (hvalue.symm.trans (congrArg Prod.fst (hfault fault rfl))) nofun
  | ok bound =>
    obtain ⟨start, hall, hcall⟩ := hbound bound rfl
    exact ⟨bound, m', start, hall, hcall⟩

end Fexpr
