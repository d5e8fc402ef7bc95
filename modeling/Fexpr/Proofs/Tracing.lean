import Fexpr.Proofs.Correspondence
import Fexpr.Proofs.Text.Numeral

/-!
# Evaluation that reports its progress

Where an evaluation is traced, `if`, `let`, `set`, `+` and the forcing of an operand write out what
they report. Nothing is made of the texts. So tracing cannot be noticed but by the lack of a text: a
traced evaluation ends as one that is not traced, or else in the fault that a value has no text
(`evaluate_tracing`).

It is noticed there: the sum of two numbers that can be written may have a digit too many, and
then a traced evaluation has no value (`tracing_loses_a_sum`), although the sum is not printed and
the other operations on numbers return what they come to.
-/

namespace Fexpr

/-! ## A traced run beside one that is not -/

namespace Correspondence

open Comparison

/-- A run beside itself, of which the first may lack a text. -/
def tracing : Correspondence :=
  excusing fun f => ∃ fault : TextFault, f = fault.toFault

/-- Only the first run is traced, and may lack a text. -/
theorem beside_tracing (limits : Limits) (levels : Nat) :
    tracing.Beside (Limits.level { limits with tracing := true } levels)
      (Limits.level { limits with tracing := false } levels) where
  levels := Or.inl rfl
  turns := Or.inl rfl
  tracing := Or.inr ⟨fun _ fault => ⟨fault, rfl⟩, fun htraced => nomatch htraced⟩

end Correspondence

/-- A traced evaluation is one that is not traced, unless it lacks a text. -/
theorem evaluateWithin_traced (limits : Limits) (levels skipped : Nat) (e : Value)
    (frame : FrameId) (m : Machine) :
    evaluateWithin { limits with tracing := true } levels skipped e frame m =
        evaluateWithin { limits with tracing := false } levels skipped e frame m ∨
      ∃ fault : TextFault,
        (evaluateWithin { limits with tracing := true } levels skipped e frame m).1 =
          .error fault.toFault := by
  have hagree : Correspondence.tracing.Agree (Both Correspondence.tracing.data)
      (evaluateWithin { limits with tracing := true } levels skipped e frame)
      (evaluateWithin { limits with tracing := false } levels skipped e frame) :=
    Correspondence.agree_evaluateWithin (Correspondence.beside_tracing limits levels) skipped
      trivial trivial
  rcases hagree.eq_or_excused rfl rfl m with heq | ⟨f, hf, fault, rfl⟩ | ⟨_, _, hfalse⟩
  · exact Or.inl heq
  · exact Or.inr ⟨fault, hf⟩
  · exact hfalse.elim

/-! ## Single builtins -/

theorem trace_run_untraced {lv : Level} (htracing : lv.tracing = false) (v : Value)
    (m : Machine) : lv.trace v m = (.ok (), m) := by
  unfold Level.trace
  rw [htracing]
  rfl

theorem trace_run_of_text {lv : Level} {v : Value} {text : String}
    (htext : v.render lv.room = .ok text) (m : Machine) : lv.trace v m = (.ok (), m) := by
  have hwrite : lv.write v = pure text := by
    unfold Level.write
    rw [htext]
  unfold Level.trace
  rw [hwrite]
  cases lv.tracing <;> rfl

theorem trace_run_of_error {lv : Level} {v : Value} {fault : TextFault}
    (htracing : lv.tracing = true) (htext : v.render lv.room = .error fault) (m : Machine) :
    lv.trace v m = (.error fault.toFault, m) := by
  have hwrite : lv.write v = throw fault.toFault := by
    unfold Level.write
    rw [htext]
  unfold Level.trace
  rw [htracing, hwrite]
  rfl

/-- To report a value changes nothing, and fails only where it is traced and has no text. -/
theorem trace_run (lv : Level) (v : Value) (m : Machine) :
    lv.trace v m = (.ok (), m) ∨
      lv.tracing = true ∧ ∃ fault : TextFault, v.render lv.room = .error fault ∧
        lv.trace v m = (.error fault.toFault, m) := by
  cases htracing : lv.tracing with
  | false => exact Or.inl (trace_run_untraced htracing v m)
  | true =>
    cases htext : v.render lv.room with
    | ok text => exact Or.inl (trace_run_of_text htext m)
    | error fault => exact Or.inr ⟨rfl, fault, rfl, trace_run_of_error htracing htext m⟩

/-- A sum is returned as it is, like a product, unless it is traced and has no text. -/
theorem add_cases (lv : Level) (c : Call) (m : Machine) :
    lv.add c m = (lv.operandNumbers .add c >>= fun ns => pure (.number (Arithmetic.sum ns))) m ∨
      lv.tracing = true ∧ ∃ ns m' fault, lv.operandNumbers .add c m = (.ok ns, m') ∧
        (Value.number (Arithmetic.sum ns)).render lv.room = .error fault ∧
        lv.add c m = (.error fault.toFault, m') := by
  unfold Level.add
  rw [Eval.bind_run, Eval.bind_run]
  rcases hnumbers : lv.operandNumbers .add c m with ⟨fault | ns, m'⟩
  · exact Or.inl rfl
  · dsimp only
    rw [Eval.bind_run]
    rcases trace_run lv (.number (Arithmetic.sum ns)) m' with htrace | ⟨htracing, fault, hfault⟩
    · rw [htrace]
      exact Or.inl rfl
    · refine Or.inr ⟨htracing, ns, m', fault, rfl, hfault.1, ?_⟩
      rw [hfault.2]

/-- A conditional with one branch decides as `when` does, unless it is traced and its test, or the
value of that, has no text. -/
theorem ifForm_cases (lv : Level) (test yes : Value) (frame : FrameId) (text : String)
    (m : Machine) :
    lv.ifForm ⟨[test, yes], frame, text⟩ m = lv.whenForm ⟨[test, yes], frame, text⟩ m ∨
      lv.tracing = true ∧ ∃ v m' fault, lv.evaluate test frame m = (.ok v, m') ∧
        (test.render lv.room = .error fault ∨ v.render lv.room = .error fault) ∧
        lv.ifForm ⟨[test, yes], frame, text⟩ m = (.error fault.toFault, m') := by
  unfold Level.ifForm Level.whenForm
  dsimp only
  rw [Eval.bind_run, Eval.bind_run]
  rcases htest : lv.evaluate test frame m with ⟨fault | v, m'⟩
  · exact Or.inl rfl
  · dsimp only
    rw [Eval.bind_run]
    rcases trace_run lv test m' with htrace | ⟨htracing, fault, htext, htrace⟩
    · rw [htrace]
      dsimp only
      rw [Eval.bind_run]
      rcases trace_run lv v m' with htrace' | ⟨htracing, fault, htext, htrace'⟩
      · rw [htrace', sequence_singleton]
        exact Or.inl rfl
      · refine Or.inr ⟨htracing, v, m', fault, rfl, Or.inr htext, ?_⟩
        rw [htrace']
    · refine Or.inr ⟨htracing, v, m', fault, rfl, Or.inl htext, ?_⟩
      rw [htrace]

/-! ## The theorem -/

/-- Tracing is noticed only by the lack of a text. A traced evaluation has the same value or ends in
the same fault, and leaves the same bindings and the same output, as one that is not traced, unless
it ends in the fault that a value has no text. So a sum is returned as a product is unless it has no
text itself, and a conditional decides as `when` does unless its test or the value of that has none;
and where nothing is traced, they always do. -/
theorem evaluate_tracing (limits : Limits) :
    (∀ e frame m,
      evaluate { limits with tracing := true } e frame m =
          evaluate { limits with tracing := false } e frame m ∨
        ∃ fault : TextFault,
          (evaluate { limits with tracing := true } e frame m).1 = .error fault.toFault) ∧
    (∀ (lv : Level) c m,
      lv.add c m = (lv.operandNumbers .add c >>= fun ns => pure (.number (Arithmetic.sum ns))) m ∨
        lv.tracing = true ∧ ∃ ns m' fault, lv.operandNumbers .add c m = (.ok ns, m') ∧
          (Value.number (Arithmetic.sum ns)).render lv.room = .error fault ∧
          lv.add c m = (.error fault.toFault, m')) ∧
    ∀ (lv : Level) test yes frame text m,
      lv.ifForm ⟨[test, yes], frame, text⟩ m = lv.whenForm ⟨[test, yes], frame, text⟩ m ∨
        lv.tracing = true ∧ ∃ v m' fault, lv.evaluate test frame m = (.ok v, m') ∧
          (test.render lv.room = .error fault ∨ v.render lv.room = .error fault) ∧
          lv.ifForm ⟨[test, yes], frame, text⟩ m = (.error fault.toFault, m') :=
  ⟨fun e frame m => evaluateWithin_traced limits limits.levels 0 e frame m, add_cases,
    ifForm_cases⟩

/-! ## A sum without a text -/

/-- A number with too many digits has no text. -/
theorem render_number_of_long {n : Int} (hlong : ¬ n.natAbs < Text.tooLongFrom) (room : Nat) :
    (Value.number n).render (room + 1) = .error .tooLong := by
  have hnumeral : Value.numeral n = .error .tooLong := by
    unfold Value.numeral Text.integerText?
    simp only [if_neg hlong]
  rw [Value.render]
  exact hnumeral

/-- A call of the sum that doubles a number. -/
def doubleForm (n : Int) : Value :=
  .list (.symbol "+" :: [n, n].map .number) none

section

variable {limits : Limits} {frame home : FrameId} {m : Machine} {n : Int}

/-- To double a number that can be written, on levels enough, is to report the double. -/
theorem evaluate_doubleForm {levels : Nat} (hlevels : limits.levels = levels + 10)
    (hshort : n.natAbs < Text.tooLongFrom)
    (hbound : m.store.lookup? frame "+" = some (.builtin .add home)) :
    evaluate limits (doubleForm n) frame m =
      ((limits.level (levels + 3)).trace (.number (n + n)) >>= fun _ =>
        pure (.number (n + n))) m := by
  have hroom : 2 ≤ roomOf (levels + 9) := by
    unfold roomOf
    omega
  have hwritable : (doubleForm n).IsWritable (roomOf (levels + 9)) :=
    ⟨hroom, trivial, hshort, hshort, trivial⟩
  have hsum : Arithmetic.sum [n, n] = n + n := by
    rw [Arithmetic.sum, List.foldl_cons, List.foldl_cons, List.foldl_nil, Int.zero_add]
  obtain ⟨text, htext⟩ := Value.exists_render_iff.2 hwritable
  rw [evaluate, hlevels, doubleForm, evaluateWithin_sum hbound htext, hsum]

/-- Where a number can be written and its double cannot, doubling it has no value if it is traced.
-/
theorem evaluate_doubleForm_traced (htracing : limits.tracing = true)
    (hlevels : 10 ≤ limits.levels) (hshort : n.natAbs < Text.tooLongFrom)
    (hlong : ¬ (n + n).natAbs < Text.tooLongFrom)
    (hbound : m.store.lookup? frame "+" = some (.builtin .add home)) :
    evaluate limits (doubleForm n) frame m = (.error .tooLong, m) := by
  obtain ⟨levels, hlevels⟩ := Nat.exists_eq_add_of_le' hlevels
  have hroom : 1 ≤ roomOf (levels + 3) := by
    unfold roomOf
    omega
  obtain ⟨room, hroom⟩ := Nat.exists_eq_add_of_le' hroom
  have htext :
      (Value.number (n + n)).render (limits.level (levels + 3)).room = .error .tooLong := by
    show (Value.number (n + n)).render (roomOf (levels + 3)) = .error .tooLong
    rw [hroom]
    exact render_number_of_long hlong room
  rw [evaluate_doubleForm hlevels hshort hbound, Eval.bind_run, trace_run_of_error htracing htext]
  rfl

/-- Where nothing is traced, doubling a number has the double as its value, however long. -/
theorem evaluate_doubleForm_untraced (htracing : limits.tracing = false)
    (hlevels : 10 ≤ limits.levels) (hshort : n.natAbs < Text.tooLongFrom)
    (hbound : m.store.lookup? frame "+" = some (.builtin .add home)) :
    evaluate limits (doubleForm n) frame m = (.ok (.number (n + n)), m) := by
  obtain ⟨levels, hlevels⟩ := Nat.exists_eq_add_of_le' hlevels
  rw [evaluate_doubleForm hlevels hshort hbound, Eval.bind_run, trace_run_untraced htracing]
  rfl

end

/-- Five and zeros: a digit less than its double. -/
def fiveAndZeros (zeros : Nat) : Int := (5 * 10 ^ zeros : Nat)

theorem natAbs_fiveAndZeros_lt {zeros : Nat} (h : zeros < Text.digitLimit) :
    (fiveAndZeros zeros).natAbs < Text.tooLongFrom := by
  have hpow : 10 ^ (zeros + 1) ≤ 10 ^ Text.digitLimit := Nat.pow_le_pow_right (by omega) h
  rw [fiveAndZeros, Int.natAbs_natCast, Text.tooLongFrom_eq]
  rw [Nat.pow_succ] at hpow
  have hpos : 0 < 10 ^ zeros := Nat.pow_pos (by omega)
  omega

theorem natAbs_double_fiveAndZeros {zeros : Nat} (h : Text.digitLimit ≤ zeros + 1) :
    ¬ (fiveAndZeros zeros + fiveAndZeros zeros).natAbs < Text.tooLongFrom := by
  have hpow : 10 ^ Text.digitLimit ≤ 10 ^ (zeros + 1) := Nat.pow_le_pow_right (by omega) h
  rw [fiveAndZeros, ← Int.natCast_add, Int.natAbs_natCast, Text.tooLongFrom_eq]
  rw [Nat.pow_succ] at hpow
  omega

/-- In a new global frame, to double five and as many zeros as make it just short enough ends in a
fault if it is traced, and has the double as its value if it is not. -/
theorem tracing_loses_a_sum :
    let fresh := { Machine.empty with store := Store.empty.global [] }
    let n := fiveAndZeros 4299
    evaluate { tracing := true } (doubleForm n) Store.empty.next fresh =
        (.error .tooLong, fresh) ∧
      evaluate { tracing := false } (doubleForm n) Store.empty.next fresh =
        (.ok (.number (n + n)), fresh) := by
  intro fresh n
  have hbound : fresh.store.lookup? Store.empty.next "+" =
      some (.builtin .add Store.empty.next) := rfl
  have hshort : n.natAbs < Text.tooLongFrom := natAbs_fiveAndZeros_lt (by decide)
  have hlong : ¬ (n + n).natAbs < Text.tooLongFrom := natAbs_double_fiveAndZeros (by decide)
  exact ⟨evaluate_doubleForm_traced rfl (by decide) hshort hlong hbound,
    evaluate_doubleForm_untraced rfl (by decide) hshort hbound⟩

end Fexpr
