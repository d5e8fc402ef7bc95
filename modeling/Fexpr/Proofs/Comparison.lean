import Fexpr.Proofs.Steps
import Fexpr.Proofs.Value.Room

/-!
# Two runs side by side

What is to be said of evaluation mostly compares two runs: with other bindings, with other levels,
or of another expression. A `Comparison` says which machines the two runs may be in at the same
time, which faults they may both end in, and which faults of one run end the comparison, because
nothing is said of runs that meet them. `Comparison.Agree` lifts this to computations and follows
their structure. What holds of a single run is what holds of a run beside itself.
-/

namespace Fexpr

/-- No text is missing for the number of turns that a loop takes. -/
theorem TextFault.toFault_ne_endless (fault : TextFault) : fault.toFault ≠ .endless := by
  cases fault <;> nofun

/-- No error of a program stands for that number. -/
theorem Fault.error_ne_endless (e : EvalError) : Fault.error e ≠ .endless :=
  nofun

/-- How two runs are compared. -/
structure Comparison where
  /-- Machines that the runs may be in at the same time. -/
  state : Machine → Machine → Prop
  /-- Faults that the runs may end in together. -/
  fault : Fault → Fault → Prop
  /-- Faults of the first run after which nothing is said. -/
  excused₁ : Fault → Prop
  /-- Faults of the second run after which nothing is said. -/
  excused₂ : Fault → Prop
  /-- Runs may end in the same fault; but loops may be left out, and then they end in none that
  only a loop ends in. -/
  fault_refl : ∀ {f}, f ≠ .endless → fault f f
  nextId_eq : ∀ {m n}, state m n → m.nextId = n.nextId
  count : ∀ {m n}, state m n →
    state { m with nextId := m.nextId + 1 } { n with nextId := n.nextId + 1 }
  print : ∀ {m n}, state m n → ∀ output : String → String,
    state { m with output := output m.output } { n with output := output n.output }

/-- The two values are the same one, of which `D` holds. -/
def Both (D : Value → Prop) (v w : Value) : Prop :=
  v = w ∧ D v

namespace Comparison

variable (C : Comparison) {α β γ δ : Type}

/-- How two runs may end together. -/
inductive Ends (Q : α → β → Prop) : Except Fault α → Except Fault β → Prop
  | value {a : α} {b : β} (h : Q a b) : Ends Q (.ok a) (.ok b)
  | fault {f g : Fault} (h : C.fault f g) : Ends Q (.error f) (.error g)

variable {C} in
theorem Ends.mono {Q R : α → β → Prop} {x : Except Fault α} {y : Except Fault β}
    (h : C.Ends Q x y) (hQ : ∀ a b, Q a b → R a b) : C.Ends R x y := by
  cases h with
  | value hq => exact .value (hQ _ _ hq)
  | fault hf => exact .fault hf

/-- Where two runs may be at the same time, with what they ended in, unless one of them is excused
for that. -/
def After (Q : α → β → Prop) (r : Except Fault α × Machine) (s : Except Fault β × Machine) : Prop :=
  (∃ f, r.1 = .error f ∧ C.excused₁ f) ∨ (∃ g, s.1 = .error g ∧ C.excused₂ g) ∨
    (C.state r.2 s.2 ∧ C.Ends Q r.1 s.1)

/-- From machines that the runs may be in at the same time, two computations lead to such machines
and end together. -/
def Agree (Q : α → β → Prop) (x : Eval α) (y : Eval β) : Prop :=
  ∀ m n, C.state m n → C.After Q (x m) (y n)

variable {C}

namespace Agree

variable {Q R : α → β → Prop} {x : Eval α} {y : Eval β}

theorem pure {a : α} {b : β} (h : Q a b) : C.Agree Q (Pure.pure a) (Pure.pure b) :=
  fun _ _ hmn => Or.inr (Or.inr ⟨hmn, .value h⟩)

theorem throw {f g : Fault} (h : C.fault f g) :
    C.Agree Q (MonadExcept.throw f) (MonadExcept.throw g) :=
  fun _ _ hmn => Or.inr (Or.inr ⟨hmn, .fault h⟩)

theorem throw_self {f : Fault} (hf : f ≠ .endless) :
    C.Agree Q (MonadExcept.throw f) (MonadExcept.throw f) :=
  throw (C.fault_refl hf)

theorem excused₁ {f : Fault} (h : C.excused₁ f) : C.Agree Q (MonadExcept.throw f) y :=
  fun _ _ _ => Or.inl ⟨f, rfl, h⟩

theorem excused₂ {g : Fault} (h : C.excused₂ g) : C.Agree Q x (MonadExcept.throw g) :=
  fun _ _ _ => Or.inr (Or.inl ⟨g, rfl, h⟩)

theorem mono (h : C.Agree Q x y) (hQ : ∀ a b, Q a b → R a b) : C.Agree R x y := by
  intro m n hmn
  rcases h m n hmn with h | h | ⟨hstate, hends⟩
  · exact Or.inl h
  · exact Or.inr (Or.inl h)
  · exact Or.inr (Or.inr ⟨hstate, hends.mono hQ⟩)

end Agree

/-- Where the runs are one run, on one machine and to one fault, computations that agree are the
same, unless one of them is excused. -/
theorem Agree.eq_or_excused {D : Value → Prop} {x y : Eval Value} (h : C.Agree (Both D) x y)
    (hstate : C.state = Eq) (hfault : C.fault = Eq) (m : Machine) :
    x m = y m ∨ (∃ f, (x m).1 = .error f ∧ C.excused₁ f) ∨
      ∃ g, (y m).1 = .error g ∧ C.excused₂ g := by
  rcases h m m (hstate ▸ rfl) with hexcused | hexcused | ⟨hm, hends⟩
  · exact Or.inr (Or.inl hexcused)
  · exact Or.inr (Or.inr hexcused)
  · refine Or.inl (Prod.ext ?_ (hstate ▸ hm))
    generalize (x m).1 = r at hends ⊢
    generalize (y m).1 = s at hends ⊢
    cases hends with
    | value hv => rw [hv.1]
    | fault hf => exact congrArg _ (hfault ▸ hf)

/-- From two machines, computations lead to machines that the runs may be in when their first parts
do, and what goes on from there with values alike. -/
theorem After.bind {Q : α → β → Prop} {R : γ → δ → Prop} {x : Eval α} {y : Eval β}
    {f : α → Eval γ} {g : β → Eval δ} {m n : Machine} (h : C.After Q (x m) (y n))
    (hnext : ∀ a b m' n', x m = (.ok a, m') → y n = (.ok b, n') → Q a b → C.state m' n' →
      C.After R (f a m') (g b n')) : C.After R ((x >>= f) m) ((y >>= g) n) := by
  rw [Eval.bind_run, Eval.bind_run]
  -- The first parts end together. In values the rest goes on from there, in faults nothing does.
  rcases hx : x m with ⟨r, m'⟩
  rcases hy : y n with ⟨r', n'⟩
  rw [hx, hy] at h
  rcases h with ⟨e, rfl, he⟩ | ⟨e, rfl, he⟩ | ⟨hstate, hends⟩
  · exact Or.inl ⟨e, rfl, he⟩
  · exact Or.inr (Or.inl ⟨e, rfl, he⟩)
  · cases hends with
    | value hq => exact hnext _ _ m' n' hx hy hq hstate
    | fault hf => exact Or.inr (Or.inr ⟨hstate, .fault hf⟩)

/-- Computations agree when their first parts do, and what goes on from values alike. -/
theorem Agree.bind {Q : α → β → Prop} {R : γ → δ → Prop} {x : Eval α} {y : Eval β}
    {f : α → Eval γ} {g : β → Eval δ} (h : C.Agree Q x y)
    (hnext : ∀ a b, Q a b → C.Agree R (f a) (g b)) : C.Agree R (x >>= f) (y >>= g) :=
  fun m n hmn => (h m n hmn).bind fun a b m' n' _ _ hq hstate => hnext a b hq m' n' hstate

/-! ## Primitive steps -/

/-- The next thing made has the same number in both runs. -/
theorem Agree.freshId : C.Agree Eq Eval.freshId Eval.freshId :=
  fun _ _ hmn => Or.inr (Or.inr ⟨C.count hmn, .value (C.nextId_eq hmn)⟩)

theorem Agree.printLine (text : String) :
    C.Agree Eq (Eval.printLine text) (Eval.printLine text) :=
  fun _ _ hmn => Or.inr (Or.inr ⟨C.print hmn fun before => before ++ text ++ "\n", .value rfl⟩)

/-- A name is bound anew in both runs, or in none. -/
theorem Agree.assign {frame : FrameId} {x : String} {v : Value}
    (h : ∀ {m n}, C.state m n →
      Option.Rel (fun s t => C.state { m with store := s } { n with store := t })
        (m.store.assign? frame x v) (n.store.assign? frame x v)) :
    C.Agree Eq (Eval.assign frame x v) (Eval.assign frame x v) := by
  intro m n hmn
  have hassign := h hmn
  refine Or.inr (Or.inr ?_)
  cases hm : m.store.assign? frame x v with
  | none =>
    rw [hm] at hassign
    cases hn : n.store.assign? frame x v with
    | none =>
      rw [Eval.assign_run_of_none hm, Eval.assign_run_of_none hn]
      exact ⟨hmn, .value rfl⟩
    | some t => rw [hn] at hassign; cases hassign
  | some s =>
    rw [hm] at hassign
    cases hn : n.store.assign? frame x v with
    | none => rw [hn] at hassign; cases hassign
    | some t =>
      rw [hn] at hassign
      rw [Eval.assign_run_of_some hm, Eval.assign_run_of_some hn]
      cases hassign with
      | some hst => exact ⟨hst, .value rfl⟩

/-! ## Bounds and texts -/

/-- Bounds that the runs may have at the same time: one run may have a lower bound than the other
only if it is excused when it comes up against that. -/
def Bounds (C : Comparison) (reached : Fault) (a b : Nat) : Prop :=
  a = b ∨ (a ≤ b ∧ C.excused₁ reached) ∨ (b ≤ a ∧ C.excused₂ reached)

theorem Bounds.sub {reached : Fault} {a b : Nat} (h : C.Bounds reached a b) (k : Nat) :
    C.Bounds reached (a - k) (b - k) := by
  rcases h with rfl | ⟨hle, hexcused⟩ | ⟨hle, hexcused⟩
  · exact Or.inl rfl
  · exact Or.inr (Or.inl ⟨Nat.sub_le_sub_right hle k, hexcused⟩)
  · exact Or.inr (Or.inr ⟨Nat.sub_le_sub_right hle k, hexcused⟩)

/-- A first run that reaches a bound before the second does is excused. -/
theorem Agree.of_reached₁ {Q : α → β → Prop} {reached : Fault} {b : Nat}
    (h : C.Bounds reached 0 (b + 1)) {y : Eval β} : C.Agree Q (MonadExcept.throw reached) y := by
  rcases h with heq | ⟨-, hexcused⟩ | ⟨hle, -⟩
  · cases heq
  · exact .excused₁ hexcused
  · exact absurd hle (Nat.not_succ_le_zero b)

/-- A second run that reaches a bound before the first does is excused. -/
theorem Agree.of_reached₂ {Q : α → β → Prop} {reached : Fault} {a : Nat}
    (h : C.Bounds reached (a + 1) 0) {x : Eval α} : C.Agree Q x (MonadExcept.throw reached) := by
  rcases h with heq | ⟨hle, -⟩ | ⟨-, hexcused⟩
  · cases heq
  · exact absurd hle (Nat.not_succ_le_zero a)
  · exact .excused₂ hexcused

/-- Texts that the runs may need at the same time: the same one, unless a run that is excused for
it has no room for one. -/
def Texts (C : Comparison) (x y : Except TextFault α) : Prop :=
  x = y ∨ (x = .error .tooDeep ∧ C.excused₁ .tooDeep) ∨ (y = .error .tooDeep ∧ C.excused₂ .tooDeep)

theorem roomOf_mono {a b : Nat} (h : a ≤ b) : roomOf a ≤ roomOf b :=
  Nat.div_le_div_right (Nat.mul_le_mul_right 7 h)

/-- Texts that deepen with the room may be needed at the same time. -/
theorem Bounds.texts {a b : Nat} (h : C.Bounds .tooDeep a b) (text : Nat → Except TextFault α)
    (hdeepens : ∀ {room room'}, room ≤ room' → Deepens (text room) (text room')) :
    C.Texts (text (roomOf a)) (text (roomOf b)) := by
  rcases h with rfl | ⟨hle, hexcused⟩ | ⟨hle, hexcused⟩
  · exact Or.inl rfl
  · rcases hdeepens (roomOf_mono hle) with hdeep | heq
    · exact Or.inr (Or.inl ⟨hdeep, hexcused⟩)
    · exact Or.inl heq
  · rcases hdeepens (roomOf_mono hle) with hdeep | heq
    · exact Or.inr (Or.inr ⟨hdeep, hexcused⟩)
    · exact Or.inl heq.symm

/-- A text that a computation cannot go on without. -/
def needed (x : Except TextFault α) : Eval α :=
  match x with
  | .ok a => pure a
  | .error fault => throw fault.toFault

theorem write_eq_needed (lv : Level) (v : Value) : lv.write v = needed (v.render lv.room) := by
  unfold Level.write needed
  cases v.render lv.room <;> rfl

theorem Texts.agree {x y : Except TextFault α} (h : C.Texts x y) :
    C.Agree Eq (needed x) (needed y) := by
  rcases h with rfl | ⟨rfl, hexcused⟩ | ⟨rfl, hexcused⟩
  · cases x with
    | ok a => exact .pure rfl
    | error fault => exact .throw_self (TextFault.toFault_ne_endless fault)
  · exact .excused₁ hexcused
  · exact .excused₂ hexcused

/-- What the runs may rely on at the same time, apart from the evaluations below. -/
structure Beside (C : Comparison) (lv₁ lv₂ : Level) : Prop where
  levels : C.Bounds .tooDeep lv₁.levels lv₂.levels
  turns : C.Bounds .endless lv₁.turns lv₂.turns
  /-- Only one run may write out values to report progress, if a value without a text is excused
  there. -/
  tracing : lv₁.tracing = lv₂.tracing ∨
    (lv₁.tracing = true → ∀ fault : TextFault, C.excused₁ fault.toFault) ∧
      (lv₂.tracing = true → ∀ fault : TextFault, C.excused₂ fault.toFault)

namespace Beside

variable {lv₁ lv₂ : Level}

theorem deeper (h : C.Beside lv₁ lv₂) (k : Nat) : C.Beside (lv₁.deeper k) (lv₂.deeper k) :=
  ⟨h.levels.sub k, h.turns, h.tracing⟩

theorem write (h : C.Beside lv₁ lv₂) (v : Value) : C.Agree Eq (lv₁.write v) (lv₂.write v) := by
  rw [write_eq_needed, write_eq_needed]
  exact (h.levels.texts (fun room => v.render room) fun hle => Value.render_deepens hle v).agree

theorem constructorText (h : C.Beside lv₁ lv₂) (v : Value) :
    C.Agree Eq (needed (v.constructorText lv₁.room)) (needed (v.constructorText lv₂.room)) :=
  (h.levels.texts (fun room => v.constructorText room) fun hle =>
    Value.constructorText_deepens hle v).agree

/-- Writing out a value fails for the lack of a text only, and changes nothing. -/
theorem write_cases (lv : Level) (v : Value) :
    (∃ text, lv.write v = Pure.pure text) ∨
      ∃ fault : TextFault, lv.write v = MonadExcept.throw fault.toFault := by
  rw [write_eq_needed]
  cases v.render lv.room with
  | ok text => exact Or.inl ⟨text, rfl⟩
  | error fault => exact Or.inr ⟨fault, rfl⟩

/-- Progress is reported without a change, unless a level that writes it out lacks the text. -/
theorem trace_eq_or_throw (lv : Level) (v : Value) :
    lv.trace v = Pure.pure () ∨
      lv.tracing = true ∧ ∃ fault : TextFault, lv.trace v = MonadExcept.throw fault.toFault := by
  unfold Level.trace
  cases htracing : lv.tracing with
  | false => exact Or.inl rfl
  | true =>
    rcases write_cases lv v with ⟨text, heq⟩ | ⟨fault, heq⟩
    · rw [heq]
      exact Or.inl rfl
    · rw [heq]
      exact Or.inr ⟨rfl, fault, rfl⟩

/-- Reporting progress fails for the lack of a text only, and changes nothing. -/
theorem trace_cases (lv : Level) (v : Value) :
    lv.trace v = Pure.pure () ∨
      ∃ fault : TextFault, lv.trace v = MonadExcept.throw fault.toFault :=
  (trace_eq_or_throw lv v).imp_right And.right

/-- Whatever the runs write out, they agree if a value without a text is excused. -/
theorem write_of_excused
    (h : ∀ fault : TextFault, C.excused₁ fault.toFault ∧ C.excused₂ fault.toFault)
    (v w : Value) : C.Agree (fun _ _ => True) (lv₁.write v) (lv₂.write w) := by
  rcases write_cases lv₁ v with ⟨text, heq⟩ | ⟨fault, heq⟩
  · rcases write_cases lv₂ w with ⟨text', heq'⟩ | ⟨fault', heq'⟩
    · rw [heq, heq']
      exact .pure trivial
    · rw [heq']
      exact .excused₂ (h fault').2
  · rw [heq]
    exact .excused₁ (h fault).1

/-- Whatever the runs report, they agree if a value without a text is excused where it is
reported. -/
theorem trace_of_excused
    (h₁ : lv₁.tracing = true → ∀ fault : TextFault, C.excused₁ fault.toFault)
    (h₂ : lv₂.tracing = true → ∀ fault : TextFault, C.excused₂ fault.toFault)
    (v w : Value) : C.Agree Eq (lv₁.trace v) (lv₂.trace w) := by
  rcases trace_eq_or_throw lv₁ v with heq | ⟨htracing, fault, heq⟩
  · rcases trace_eq_or_throw lv₂ w with heq' | ⟨htracing, fault', heq'⟩
    · rw [heq, heq']
      exact .pure rfl
    · rw [heq']
      exact .excused₂ (h₂ htracing fault')
  · rw [heq]
    exact .excused₁ (h₁ htracing fault)

theorem trace (h : C.Beside lv₁ lv₂) (v : Value) : C.Agree Eq (lv₁.trace v) (lv₂.trace v) := by
  rcases h.tracing with heq | ⟨h₁, h₂⟩
  · unfold Level.trace
    rw [heq]
    split
    · exact (h.write v).bind fun _ _ _ => .pure rfl
    · exact .pure rfl
  · exact trace_of_excused h₁ h₂ v v

end Beside
end Comparison
end Fexpr
