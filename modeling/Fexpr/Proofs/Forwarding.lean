import Fexpr.Proofs.CallByName

/-!
# Forwarding

A fexpr may hand its suspended operands on: where its body calls another fexpr with operands that
force parameters of its own, the callee's suspended parameters are bound to the forms that these
parameters are bound to. All calls bind their parameters in one frame, so the parameters of a chain
of such calls overwrite each other, and a name may stand for something else from call to call.

Main statement (`call_chain_forwards`): still, at the end of a chain of any length each parameter is
bound to the form that the outermost call made of one of its operands, the one that the parameter
traces back to (`origins`); and on the way no operand was evaluated.

A chain is given with the machines in which its calls are evaluated, so that a body may do other
things before its call and after it (`Entry.Calls`). Where each body begins with its call, there are
such machines (`Entry.exists_leads`).
-/

namespace Fexpr

variable {limits : Limits} {lv : Level} {frame : FrameId} {m n : Machine} {s : Store}

/-! ## Arguments by name -/

section Arguments

variable {α β : Type}

/-- The argument that a parameter is bound to. Of several parameters with one name, the last one
counts, as it is bound last. -/
def argument? : List String → List α → String → Option α
  | p :: ps, a :: as, x => (argument? ps as x).or (if p = x then some a else none)
  | _, _, _ => none

theorem argument?_map (f : α → β) (ps : List String) (as : List α) (x : String) :
    argument? ps (as.map f) x = (argument? ps as x).map f := by
  induction ps generalizing as with
  | nil => rfl
  | cons p ps ih =>
    cases as with
    | nil => rfl
    | cons a as =>
      rw [List.map_cons, argument?, argument?, ih, Option.map_or]
      split <;> rfl

theorem mem_of_argument? {ps : List String} {as : List α} {x : String} {a : α}
    (h : argument? ps as x = some a) : a ∈ as := by
  induction ps generalizing as with
  | nil => cases h
  | cons p ps ih =>
    cases as with
    | nil => cases h
    | cons b as =>
      rw [argument?, Option.or_eq_some_iff] at h
      rcases h with h | ⟨-, h⟩
      · exact List.mem_cons_of_mem b (ih h)
      · split at h
        · exact Option.some.inj h ▸ List.mem_cons_self
        · cases h

/-- With as many arguments as parameters, every parameter has one. -/
theorem exists_argument? {ps : List String} {as : List α} (hlength : as.length = ps.length)
    {x : String} (hx : x ∈ ps) : ∃ a, argument? ps as x = some a := by
  induction ps generalizing as with
  | nil => cases hx
  | cons p ps ih =>
    cases as with
    | nil => cases hlength
    | cons a as =>
      rw [argument?]
      rcases List.mem_cons.1 hx with rfl | hx
      · rw [if_pos rfl]
        cases argument? ps as x with
        | none => exact ⟨a, rfl⟩
        | some b => exact ⟨b, rfl⟩
      · obtain ⟨b, hb⟩ := ih (Nat.succ.inj hlength) hx
        exact ⟨b, by rw [hb, Option.some_or]⟩

end Arguments

/-- Parameters are bound to their arguments; other names are bound as before. -/
theorem get?_defineAll_zip (h : frame < s.frames.length) (ps : List String) (vs : List Value)
    (x : String) :
    (s.defineAll frame (ps.zip vs)).get? frame x = (argument? ps vs x).or (s.get? frame x) := by
  induction ps generalizing s vs with
  | nil => rfl
  | cons p ps ih =>
    cases vs with
    | nil => rfl
    | cons v vs =>
      rw [List.zip_cons_cons, Store.defineAll, List.foldl_cons, ← Store.defineAll, ih (by simpa),
        Store.get?_define, argument?, Option.or_assoc]
      by_cases hx : x = p
      · rw [if_pos ⟨rfl, hx, h⟩, if_pos hx.symm, Option.some_or]
      · rw [if_neg fun h' => hx h'.2.1, if_neg fun h' => hx h'.symm, Option.none_or]

theorem map_fst_zip_subset {ps : List String} {vs : List Value} {x : String}
    (h : x ∈ (ps.zip vs).map Prod.fst) : x ∈ ps := by
  obtain ⟨pair, hpair, rfl⟩ := List.mem_map.1 h
  exact (List.of_mem_zip hpair).1

/-! ## Handing on -/

/-- Suspended parameters are bound to what the operands force, and nothing else happens. -/
theorem arguments_run_of_forced (lv : Level) {ps qs : List String} {vs : List Value}
    (hlength : qs.length = ps.length)
    (h : List.Forall₂ (fun q v => m.store.lookup? frame q = some v ∧ v.suspension?.isSome) qs vs) :
    lv.arguments frame (ps.map .quoted) (qs.map fun q => .unquote (.symbol q)) m =
      (.ok (ps.zip vs), m) := by
  induction h generalizing ps with
  | nil =>
    obtain rfl := List.length_eq_zero_iff.1 hlength.symm
    rfl
  | @cons q v qs vs hq _ ih =>
    cases ps with
    | nil => cases hlength
    | cons p ps =>
      have hsuspend : lv.argument frame (.quoted p) (.unquote (.symbol q)) m = (.ok v, m) :=
        suspend_run_of_forced hq.1 hq.2
      rw [List.map_cons, List.map_cons, Level.arguments, Eval.bind_run, hsuspend]
      dsimp only
      rw [Eval.bind_run, ih (Nat.succ.inj hlength)]
      rfl

/-- The form that a call makes of the operand in a place. -/
def operandForm (frame : FrameId) (id : Nat) (es : List Value) (place : Nat) : Value :=
  .suspended (es.getD place .nil) frame false (id + place)

theorem suspensions_eq_zip (frame : FrameId) (id : Nat) (ps : List String) (es : List Value) :
    suspensions frame id ps es =
      ps.zip ((List.range es.length).map (operandForm frame id es)) := by
  induction ps generalizing es id with
  | nil => rfl
  | cons p ps ih =>
    cases es with
    | nil => rfl
    | cons e es =>
      have htail : (operandForm frame id (e :: es)) ∘ Nat.succ = operandForm frame (id + 1) es := by
        funext place
        simp only [Function.comp_apply, operandForm, List.getD_cons_succ, Nat.succ_eq_add_one,
          Nat.add_assoc, Nat.add_comm 1]
      rw [suspensions, ih, List.length_cons, List.range_succ_eq_map, List.map_cons, List.map_map,
        htail, List.zip_cons_cons]
      rfl

/-! ## Chains -/

/-- A fexpr that hands operands on. -/
structure Forwarder where
  name : String
  params : List String
  body : List Value
  /-- What the operands of the body's call of the next fexpr force. -/
  handed : List String

/-- The body of a fexpr that is about to be evaluated. -/
structure Entry where
  fexpr : Forwarder
  levels : Nat
  machine : Machine

/-- A call of the next fexpr: where it is evaluated, and what is done with its value. -/
structure Link where
  fexpr : Forwarder
  levels : Nat
  machine : Machine
  made : Option Nat
  onward : Value → Eval Value

/-- The fexpr is what its name stands for; its parameters are all suspended. -/
def Forwarder.IsBound (g : Forwarder) (s : Store) (frame : FrameId) : Prop :=
  ∃ id x home, s.lookup? frame g.name = some (.fexpr id x (g.params.map .quoted) g.body home)

/-- The evaluation of the body. -/
def Entry.evaluation (a : Entry) (limits : Limits) (frame : FrameId) : Eval Value :=
  (limits.level a.levels).sequence frame a.fexpr.body

namespace Link

/-- The call, with operands that force parameters of the caller. -/
def call (t : Link) (handed : List String) : Value :=
  .list (.symbol t.fexpr.name :: handed.map fun q => .unquote (.symbol q)) t.made

/-- Where the body of the callee is evaluated: the machine of the call, but for the parameters,
which are bound to what the operands' names stand for at the call. -/
def entry (t : Link) (frame : FrameId) (handed : List String) : Entry where
  fexpr := t.fexpr
  levels := t.levels
  machine :=
    { t.machine with
      store := t.machine.store.defineAll frame
        (t.fexpr.params.zip (handed.filterMap (t.machine.store.lookup? frame))) }

end Link

/-- The body comes to a call: to evaluate it is to evaluate the call, somewhere, and to go on with
the value. The operands force parameters of the fexpr, as many as the callee has. What happens
before the call does not change what they stand for, nor what the fexprs of the chain are. -/
structure Entry.Calls (limits : Limits) (frame : FrameId) (chain : List Forwarder) (a : Entry)
    (t : Link) : Prop where
  own : ∀ q ∈ a.fexpr.handed, q ∈ a.fexpr.params
  arity : a.fexpr.handed.length = t.fexpr.params.length
  run : a.evaluation limits frame a.machine =
    (evaluateWithin limits (t.levels + 5) 0 (t.call a.fexpr.handed) frame >>= t.onward) t.machine
  kept : ∀ x, x ∈ a.fexpr.handed ∨ x ∈ chain.map Forwarder.name →
    t.machine.store.lookup? frame x = a.machine.store.lookup? frame x
  exists_frame : frame < t.machine.store.frames.length
  levels : 2 ≤ t.levels

/-- Each body comes to the call of the next fexpr. -/
def Entry.Leads (limits : Limits) (frame : FrameId) (chain : List Forwarder) :
    Entry → List Link → Prop
  | _, [] => True
  | a, t :: ts =>
    a.Calls limits frame chain t ∧ (t.entry frame a.fexpr.handed).Leads limits frame chain ts

/-- The body that the calls lead to. -/
def Entry.last (frame : FrameId) : Entry → List Link → Entry
  | a, [] => a
  | a, t :: ts => (t.entry frame a.fexpr.handed).last frame ts

/-- What is done with the value of the last body. -/
def onward : List Link → Value → Eval Value
  | [], v => pure v
  | t :: ts, v => onward ts v >>= t.onward

/-- For each argument of the last call, the place of the operand of the first call that it traces
back to; `places` tells it for the arguments of the fexpr `g`. -/
def origins (g : Forwarder) (places : List Nat) : List Link → List Nat
  | [] => places
  | t :: ts => origins t.fexpr (g.handed.filterMap (argument? g.params places)) ts

/-- The parameters are bound to values that their places give. -/
structure Entry.Binds (frame : FrameId) (value : Nat → Value) (places : List Nat) (a : Entry) :
    Prop where
  length : places.length = a.fexpr.params.length
  bound : ∀ {x place}, argument? a.fexpr.params places x = some place →
    a.machine.store.get? frame x = some (value place)

section Step

variable {value : Nat → Value} {places : List Nat} {chain : List Forwarder} {a : Entry} {t : Link}

/-- The names that are handed on stand for the values of the arguments. -/
theorem Entry.Binds.lookups (h : a.Binds frame value places)
    (hvalue : ∀ place, (value place).suspension?.isSome) (hcalls : a.Calls limits frame chain t)
    {qs : List String} (hqs : ∀ q ∈ qs, q ∈ a.fexpr.handed) :
    List.Forall₂ (fun q v => t.machine.store.lookup? frame q = some v ∧ v.suspension?.isSome) qs
      ((qs.filterMap (argument? a.fexpr.params places)).map value) := by
  induction qs with
  | nil => exact .nil
  | cons q qs ih =>
    have hq : q ∈ a.fexpr.handed := hqs q List.mem_cons_self
    obtain ⟨place, hplace⟩ := exists_argument? h.length (hcalls.own q hq)
    rw [List.filterMap_cons_some hplace, List.map_cons]
    refine .cons ⟨?_, hvalue place⟩ (ih fun q' hq' => hqs q' (List.mem_cons_of_mem q hq'))
    rw [hcalls.kept q (Or.inl hq)]
    exact Store.lookup?_of_get? (h.bound hplace)

theorem filterMap_eq_of_forall₂ {f : String → Option Value} {qs : List String} {vs : List Value}
    (h : List.Forall₂ (fun q v => f q = some v) qs vs) : qs.filterMap f = vs := by
  induction h with
  | nil => rfl
  | cons hq _ ih => rw [List.filterMap_cons_some hq, ih]

/-- A call that hands operands on can be written with little room. -/
theorem exists_render_call (t : Link) (handed : List String) (hlevels : 2 ≤ t.levels) :
    ∃ text, (t.call handed).render (roomOf (t.levels + 4)) = .ok text := by
  have hroom : 3 ≤ roomOf (t.levels + 4) := by
    unfold roomOf
    omega
  refine Value.exists_render_iff.2 ⟨Nat.le_trans ?_ hroom, ?_⟩
  · rw [Link.call, Value.height, Nat.succ_le_succ_iff, Value.heightOfAll_le_iff]
    intro v hv
    rcases List.mem_cons.1 hv with rfl | hv
    · exact Nat.le_succ 1
    · obtain ⟨q, -, rfl⟩ := List.mem_map.1 hv
      exact Nat.le_refl 2
  · rw [Link.call, Value.HasShortNumerals, Value.allHaveShortNumerals_iff]
    intro v hv
    rcases List.mem_cons.1 hv with rfl | hv
    · trivial
    · obtain ⟨q, -, rfl⟩ := List.mem_map.1 hv
      trivial

/-- A call in a chain evaluates the body of the callee, whose parameters are bound to values that
the caller's parameters were bound to. -/
theorem Entry.Binds.step (h : a.Binds frame value places)
    (hvalue : ∀ place, (value place).suspension?.isSome) (hcalls : a.Calls limits frame chain t)
    (hbound : t.fexpr.IsBound t.machine.store frame) :
    evaluateWithin limits (t.levels + 5) 0 (t.call a.fexpr.handed) frame t.machine =
        (t.entry frame a.fexpr.handed).evaluation limits frame
          (t.entry frame a.fexpr.handed).machine ∧
      (t.entry frame a.fexpr.handed).Binds frame value
        (a.fexpr.handed.filterMap (argument? a.fexpr.params places)) := by
  have hlookups := h.lookups hvalue hcalls fun q hq => hq
  have hvalues : a.fexpr.handed.filterMap (t.machine.store.lookup? frame) =
      (a.fexpr.handed.filterMap (argument? a.fexpr.params places)).map value :=
    filterMap_eq_of_forall₂ (hlookups.imp fun _ _ hq => hq.1)
  refine ⟨?_, ?_, fun {x place} hplace => ?_⟩
  · obtain ⟨id, x, home, hf⟩ := hbound
    obtain ⟨text, htext⟩ := exists_render_call t a.fexpr.handed hcalls.levels
    have hlength : (a.fexpr.handed.map fun q => Value.unquote (.symbol q)).length =
        t.fexpr.params.length := by
      rw [List.length_map, hcalls.arity]
    have hfixed := arguments_run_of_forced (limits.level t.levels) hcalls.arity hlookups
    rw [← hvalues] at hfixed
    rw [Link.call, evaluateWithin_call hf htext, applyFexpr_run_quoted _ hlength hfixed]
    rfl
  · have hlength := hlookups.length_eq
    rw [List.length_map, hcalls.arity] at hlength
    exact hlength.symm
  · rw [Link.entry, get?_defineAll_zip hcalls.exists_frame, hvalues, argument?_map]
    rw [Link.entry] at hplace
    rw [hplace]
    rfl

/-- Calls in a chain do not change what its fexprs are. -/
theorem Entry.Calls.isBound (hcalls : a.Calls limits frame chain t)
    (hnames : ∀ f ∈ chain, f.name ∉ t.fexpr.params) {f : Forwarder} (hf : f ∈ chain)
    (h : f.IsBound a.machine.store frame) :
    f.IsBound t.machine.store frame ∧
      f.IsBound (t.entry frame a.fexpr.handed).machine.store frame := by
  have hcall : f.IsBound t.machine.store frame := by
    unfold Forwarder.IsBound
    rw [hcalls.kept f.name (Or.inr (List.mem_map_of_mem hf))]
    exact h
  refine ⟨hcall, ?_⟩
  unfold Forwarder.IsBound Link.entry
  rw [Store.lookup?_defineAll_of_not_mem fun hmem => hnames f hf (map_fst_zip_subset hmem)]
  exact hcall

/-- A chain of calls leads from body to body, and the parameters stay bound to values of the
first. -/
theorem Entry.Binds.run (h : a.Binds frame value places)
    (hvalue : ∀ place, (value place).suspension?.isSome) {ts : List Link}
    (hts : ∀ t ∈ ts, t.fexpr ∈ chain) (hnames : ∀ f ∈ chain, ∀ g ∈ chain, f.name ∉ g.params)
    (hbound : ∀ f ∈ chain, f.IsBound a.machine.store frame)
    (hleads : a.Leads limits frame chain ts) :
    a.evaluation limits frame a.machine =
        ((a.last frame ts).evaluation limits frame >>= onward ts) (a.last frame ts).machine ∧
      (a.last frame ts).Binds frame value (origins a.fexpr places ts) := by
  -- Along the chain: the next body again has its parameters bound to values of the first call,
  -- though at other places, and the names of the fexprs stand for what they did.
  induction ts generalizing a places with
  | nil =>
    refine ⟨?_, h⟩
    change _ = (a.evaluation limits frame >>= pure) a.machine
    rw [bind_pure]
  | cons t ts ih =>
    obtain ⟨hcalls, hleads⟩ := hleads
    have ht : t.fexpr ∈ chain := hts t List.mem_cons_self
    have hkept : ∀ f ∈ chain, f.IsBound t.machine.store frame ∧
        f.IsBound (t.entry frame a.fexpr.handed).machine.store frame := fun f hf =>
      hcalls.isBound (fun g hg => hnames g hg t.fexpr ht) hf (hbound f hf)
    obtain ⟨hrun, hbinds⟩ := h.step hvalue hcalls (hkept t.fexpr ht).1
    obtain ⟨hlast, hlastBinds⟩ := ih hbinds (fun t' ht' => hts t' (List.mem_cons_of_mem t ht'))
      (fun f hf => (hkept f hf).2) hleads
    refine ⟨?_, hlastBinds⟩
    calc a.evaluation limits frame a.machine
        = (evaluateWithin limits (t.levels + 5) 0 (t.call a.fexpr.handed) frame >>= t.onward)
            t.machine := hcalls.run
      _ = ((t.entry frame a.fexpr.handed).evaluation limits frame >>= t.onward)
            (t.entry frame a.fexpr.handed).machine := Eval.bind_run_congr hrun t.onward
      _ = _ := by
        rw [Eval.bind_run_congr hlast t.onward, bind_assoc]
        rfl

end Step

/-- A body that begins with the call comes to it. -/
theorem Entry.calls_of_body {g h : Forwarder} {levels : Nat} {made : Option Nat}
    {after : List Value} {chain : List Forwarder} (hlevels : 2 ≤ levels)
    (hown : ∀ q ∈ g.handed, q ∈ g.params) (harity : g.handed.length = h.params.length)
    (hbody : g.body =
      .list (.symbol h.name :: g.handed.map fun q => .unquote (.symbol q)) made :: after)
    (hframe : frame < m.store.frames.length) :
    Entry.Calls limits frame chain ⟨g, levels + 5, m⟩
      ⟨h, levels, m, made, fun v => (limits.level (levels + 5)).sequenceAfter frame v after⟩ where
  own := hown
  arity := harity
  run := by
    rw [Entry.evaluation, hbody]
    rfl
  kept _ _ := rfl
  exists_frame := hframe
  levels := hlevels

/-- The body begins with a call of the fexpr `h`, whose operands force parameters of `g`. -/
structure Forwarder.Passes (g h : Forwarder) : Prop where
  own : ∀ q ∈ g.handed, q ∈ g.params
  arity : g.handed.length = h.params.length
  body : ∃ made after,
    g.body = .list (.symbol h.name :: g.handed.map fun q => .unquote (.symbol q)) made :: after

/-- Where each body begins with a call of the next fexpr, it comes to it, however long the chain
is. -/
theorem Entry.exists_leads {g : Forwarder} {gs chain : List Forwarder} {levels : Nat}
    (hlevels : 2 ≤ levels) (hpasses : (g :: gs).IsChain Forwarder.Passes)
    (hframe : frame < m.store.frames.length) :
    ∃ ts, ts.map Link.fexpr = gs ∧
      Entry.Leads limits frame chain ⟨g, levels + 5 * gs.length, m⟩ ts := by
  induction gs generalizing g m with
  | nil => exact ⟨[], rfl, trivial⟩
  | cons h gs ih =>
    obtain ⟨⟨hown, harity, made, after, hbody⟩, hpasses⟩ := List.isChain_cons_cons.1 hpasses
    have hcalls : Entry.Calls limits frame chain ⟨g, levels + 5 * gs.length + 5, m⟩
        ⟨h, levels + 5 * gs.length, m, made, _⟩ :=
      Entry.calls_of_body (by omega) hown harity hbody hframe
    have hframe' : frame < (Link.entry ⟨h, levels + 5 * gs.length, m, made, pure⟩ frame
        g.handed).machine.store.frames.length := by
      rw [Link.entry, Store.length_defineAll]
      exact hframe
    obtain ⟨ts, hts, hleads⟩ := ih hpasses hframe'
    exact ⟨_ :: ts, by rw [List.map_cons, hts], hcalls, hleads⟩

/-! ## The theorem -/

section Outermost

variable {g : Forwarder} {es : List Value} {levels : Nat}

/-- The outermost call evaluates the body where the parameters are bound to the operands. -/
theorem evaluateWithin_call_suspended (hg : g.IsBound m.store frame)
    (hlength : es.length = g.params.length)
    (hfresh : ∀ x v, .unquote (.symbol x) ∈ es → m.store.lookup? frame x = some v →
      v.suspension? = none) {made : Option Nat}
    (htext : (Value.list (.symbol g.name :: es) made).IsWritable (roomOf (levels + 4))) :
    evaluateWithin limits (levels + 5) 0 (.list (.symbol g.name :: es) made) frame m =
      (limits.level levels).sequence frame g.body (m.installed frame g.params es) := by
  obtain ⟨id, x, home, hf⟩ := hg
  obtain ⟨text, htext⟩ := Value.exists_render_iff.2 htext
  rw [evaluateWithin_call hf htext, applyFexpr_run _ hlength hfresh]

/-- In the outermost call, each operand is its own origin. -/
theorem binds_installed (hframe : frame < m.store.frames.length)
    (hlength : es.length = g.params.length) :
    Entry.Binds frame (operandForm frame m.nextSuspension es) (List.range es.length)
      ⟨g, levels, m.installed frame g.params es⟩ where
  length := by rw [List.length_range, hlength]
  bound {x place} hplace := by
    rw [Machine.installed, suspensions_eq_zip, get?_defineAll_zip hframe, argument?_map, hplace]
    rfl

theorem isBound_installed {f : Forwarder} (hlength : es.length = g.params.length)
    (hf : f.name ∉ g.params) (h : f.IsBound m.store frame) :
    f.IsBound (m.installed frame g.params es).store frame := by
  unfold Forwarder.IsBound Machine.installed
  rw [Store.lookup?_defineAll_of_not_mem (by rwa [map_fst_suspensions frame _ hlength])]
  exact h

theorem mem_of_mem_origins {g : Forwarder} {places : List Nat} {ts : List Link} {place : Nat}
    (h : place ∈ origins g places ts) : place ∈ places := by
  induction ts generalizing g places with
  | nil => exact h
  | cons t ts ih =>
    obtain ⟨q, -, hq⟩ := List.mem_filterMap.1 (ih h)
    exact mem_of_argument? hq

/-- Handing suspended operands on keeps them as they were suspended, along a chain of any length.
Let a call of `g` start the chain, with operands that force no suspended operands; let each body
come to a call of the next fexpr whose operands force parameters of its own; and let no parameter be
named like a fexpr of the chain. Then the calls evaluate no operands: to evaluate the first call is
to evaluate the last body, where a call has bound parameters and done nothing else (`Link.entry`),
and to go on with what is left of the other bodies. There each parameter is bound to the very form
that the first call made of the operand that the parameter traces back to. Wherever the name stands
for that form, to force it is to evaluate the operand in the frame of the first call, each time. -/
theorem call_chain_forwards (limits : Limits) (ts : List Link) (made : Option Nat)
    (hbound : ∀ f ∈ g :: ts.map Link.fexpr, f.IsBound m.store frame)
    (hnames : ∀ f ∈ g :: ts.map Link.fexpr, ∀ f' ∈ g :: ts.map Link.fexpr, f.name ∉ f'.params)
    (hframe : frame < m.store.frames.length) (hlength : es.length = g.params.length)
    (hfresh : ∀ x v, .unquote (.symbol x) ∈ es → m.store.lookup? frame x = some v →
      v.suspension? = none)
    (htext : (Value.list (.symbol g.name :: es) made).IsWritable (roomOf (levels + 4)))
    (hleads : Entry.Leads limits frame (g :: ts.map Link.fexpr)
      ⟨g, levels, m.installed frame g.params es⟩ ts) :
    let last := Entry.last frame ⟨g, levels, m.installed frame g.params es⟩ ts
    evaluateWithin limits (levels + 5) 0 (.list (.symbol g.name :: es) made) frame m =
        (last.evaluation limits frame >>= onward ts) last.machine ∧
      ∀ x ∈ last.fexpr.params, ∃ place e,
        argument? last.fexpr.params (origins g (List.range es.length) ts) x = some place ∧
        es[place]? = some e ∧
        last.machine.store.get? frame x =
          some (.suspended e frame false (m.nextSuspension + place)) ∧
        ∀ n more, n.store.lookup? frame x = last.machine.store.lookup? frame x →
          evaluateWithin limits (more + 3) 0 (.unquote (.symbol x)) frame n =
            (do
              (limits.level more).trace e
              evaluateWithin limits more 0 e frame) n := by
  intro last
  have hmem : g ∈ g :: ts.map Link.fexpr := List.mem_cons_self
  obtain ⟨hrun, hbinds⟩ := (binds_installed hframe hlength).run (fun _ => rfl)
    (fun t ht => List.mem_cons_of_mem g (List.mem_map_of_mem ht)) hnames
    (fun f hf => isBound_installed hlength (hnames f hf g hmem) (hbound f hf)) hleads
  refine ⟨?_, fun x hx => ?_⟩
  · rw [evaluateWithin_call_suspended (hbound g hmem) hlength hfresh htext]
    exact hrun
  · obtain ⟨place, hplace⟩ := exists_argument? hbinds.length hx
    have hlt : place < es.length :=
      List.mem_range.1 (mem_of_mem_origins (mem_of_argument? hplace))
    have hget : last.machine.store.get? frame x =
        some (.suspended es[place] frame false (m.nextSuspension + place)) := by
      rw [hbinds.bound hplace, operandForm, List.getD_eq_getElem?_getD,
        List.getElem?_eq_getElem hlt]
      rfl
    refine ⟨place, es[place], hplace, List.getElem?_eq_getElem hlt, hget, fun n more hn => ?_⟩
    rw [Store.lookup?_of_get? hget] at hn
    exact evaluateWithin_unquote more hn

end Outermost

/-- Of two operands that are handed on crosswise by `g` to `h`, and from there in order to `k`,
which has its parameters the other way round, each ends as the form that the call of `g` made of it.
-/
theorem call_chain_forwards_crosswise :
    let call (f q r : String) : Value :=
      .list [.symbol f, .unquote (.symbol q), .unquote (.symbol r)] none
    let g : Forwarder := ⟨"g", ["a", "b"], [call "h" "b" "a"], ["b", "a"]⟩
    let h : Forwarder := ⟨"h", ["a", "b"], [call "k" "a" "b", .nil], ["a", "b"]⟩
    let k : Forwarder := ⟨"k", ["b", "a"], [.unquote (.symbol "a")], []⟩
    let fexpr (i : Nat) (f : Forwarder) : String × Value :=
      (f.name, .fexpr i f.name (f.params.map .quoted) f.body 0)
    let m : Machine := { Machine.empty with
      store := (Store.empty.global []).defineAll 0 [fexpr 0 g, fexpr 1 h, fexpr 2 k] }
    let first : Value := .list [.symbol "debug", .symbol "t"] none
    let second : Value := .list [.symbol "debug", .nil] none
    ∃ n : Machine,
      evaluateWithin {} 60 0 (.list [.symbol "g", first, second] none) 0 m =
          ((Limits.level {} 45).sequence 0 k.body >>= fun v => do
            (Limits.level {} 50).sequenceAfter 0 v [.nil]) n ∧
        n.output = "" ∧
        n.store.get? 0 "a" = some (.suspended first 0 false 0) ∧
        n.store.get? 0 "b" = some (.suspended second 0 false 1) := by
  intro call g h k fexpr m first second
  let es : List Value := [first, second]
  let atH := m.installed 0 g.params es
  let toH : Link := ⟨h, 50, atH, none, fun v => (Limits.level {} 55).sequenceAfter 0 v []⟩
  let atK := (toH.entry 0 g.handed).machine
  let toK : Link := ⟨k, 45, atK, none, fun v => (Limits.level {} 50).sequenceAfter 0 v [.nil]⟩
  have hgh : Entry.Calls {} 0 [g, h, k] ⟨g, 55, atH⟩ toH :=
    Entry.calls_of_body (by decide) (by decide) rfl rfl (by decide)
  have hhk : Entry.Calls {} 0 [g, h, k] (toH.entry 0 g.handed) toK :=
    Entry.calls_of_body (by decide) (by decide) rfl rfl (by decide)
  have hbound : ∀ f ∈ [g, h, k], f.IsBound m.store 0 := by
    intro f hf
    simp only [List.mem_cons, List.not_mem_nil, or_false] at hf
    rcases hf with rfl | rfl | rfl <;> exact ⟨_, _, _, rfl⟩
  have hnames : ∀ f ∈ [g, h, k], ∀ f' ∈ [g, h, k], f.name ∉ f'.params := by
    simp [g, h, k]
  have hwritable : (Value.list (.symbol "g" :: es) none).IsWritable (roomOf 59) :=
    Value.exists_render_iff.1 ⟨_, rfl⟩
  obtain ⟨hrun, hparams⟩ := call_chain_forwards {} [toH, toK] none hbound hnames (by decide) rfl
    (by simp [es, first, second]) hwritable ⟨hgh, hhk, trivial⟩
  obtain ⟨place, e, hplace, he, hget, -⟩ := hparams "a" (by decide)
  obtain ⟨place', e', hplace', he', hget', -⟩ := hparams "b" (by decide)
  obtain rfl : 0 = place := Option.some.inj hplace
  obtain rfl : 1 = place' := Option.some.inj hplace'
  obtain rfl : first = e := Option.some.inj he
  obtain rfl : second = e' := Option.some.inj he'
  have honward : onward [toH, toK] = fun v => (Limits.level {} 50).sequenceAfter 0 v [.nil] := by
    funext v
    change (pure v >>= toK.onward) >>= pure = _
    rw [bind_pure, pure_bind]
  rw [honward] at hrun
  exact ⟨_, hrun, rfl, hget, hget'⟩

end Fexpr
