import Fexpr.Proofs.Correspondence.Program

/-!
# Logging makes no difference

Nothing that a program does depends on what was logged. So two runs on machines that differ in their
logs only end alike, on such machines; and this stays so if the runs log different records, as those
do that number the same forms from different places on.
-/

namespace Fexpr

/-- The machines differ in nothing but what was logged. -/
structure Machine.SameButLog (m n : Machine) : Prop where
  store : m.store = n.store
  nextId : m.nextId = n.nextId
  nextSuspension : m.nextSuspension = n.nextSuspension
  output : m.output = n.output

namespace Machine.SameButLog

variable {m n o : Machine}

theorem refl (m : Machine) : m.SameButLog m :=
  ⟨rfl, rfl, rfl, rfl⟩

theorem symm (h : m.SameButLog n) : n.SameButLog m :=
  ⟨h.store.symm, h.nextId.symm, h.nextSuspension.symm, h.output.symm⟩

theorem trans (h : m.SameButLog n) (h' : n.SameButLog o) : m.SameButLog o :=
  ⟨h.store.trans h'.store, h.nextId.trans h'.nextId, h.nextSuspension.trans h'.nextSuspension,
    h.output.trans h'.output⟩

theorem withLog (m : Machine) (log : List LogRecord) : m.SameButLog { m with log := log } :=
  ⟨rfl, rfl, rfl, rfl⟩

end Machine.SameButLog

/-- The result as it stands when more forms stand before its form. -/
def FormResult.after (n : Nat) (r : FormResult) : FormResult :=
  { r with index := n + r.index }

namespace Correspondence

open Comparison

/-- A run beside itself, on machines that differ in their logs. -/
def logging : Correspondence :=
  { excusing (fun _ => False) with
    state := Machine.SameButLog
    nextId_eq := fun h => h.nextId
    count := fun h => ⟨h.store, congrArg (· + 1) h.nextId, h.nextSuspension, h.output⟩
    print := fun h output => ⟨h.store, h.nextId, h.nextSuspension, congrArg output h.output⟩
    lookup := by
      intro m n g x h _ _
      rw [h.store]
      cases n.store.lookup? g x with
      | none => exact .none
      | some v => exact .some rfl
    define := by
      rintro m n g x v _ h - - rfl
      exact ⟨by rw [h.store], h.nextId, h.nextSuspension, h.output⟩
    assign := by
      intro m n g x v home h _ _ _ _
      rw [h.store]
      cases n.store.assign? g x v with
      | none => exact .none
      | some s => exact .some ⟨rfl, h.nextId, h.nextSuspension, h.output⟩
    suspend := by
      intro m n g e s h _ _
      refine ⟨?_, h.store, h.nextId, congrArg (· + 1) h.nextSuspension, h.output⟩
      show Value.suspended e g s m.nextSuspension = .suspended e g s n.nextSuspension
      rw [h.nextSuspension] }

theorem strict_logging : logging.Strict where
  fault h := h
  excused₁ _ h := h
  excused₂ _ h := h
  log h _ := ⟨h.store, h.nextId, h.nextSuspension, h.output⟩

/-- Different records may be logged. -/
theorem agree_log_any (r s : LogRecord) : logging.Agree Eq (Eval.log r) (Eval.log s) :=
  fun _ _ hmn =>
    Or.inr (Or.inr ⟨⟨hmn.store, hmn.nextId, hmn.nextSuspension, hmn.output⟩, .value rfl⟩)

variable {limits : Limits} {frame : FrameId}

/-- The forms of a program have the same report wherever they are numbered from, but for the
numbers. -/
theorem agree_runForms_after (n index : Nat) (forms : List Value) :
    logging.Agree (fun rs ss => ss = rs.map (FormResult.after n))
      (runForms limits frame index forms) (runForms limits frame (n + index) forms) := by
  induction forms generalizing index with
  | nil => exact .pure rfl
  | cons form forms ih =>
    rw [runForms, runForms]
    refine ((beside_self limits.top).write form).bind ?_
    rintro text _ rfl
    refine (agree_attempt strict_logging
      (agree_evaluateToplevel strict_logging trivial trivial)).bind ?_
    intro a b hab
    cases hab with
    | @value v _ hv =>
      obtain ⟨rfl, -⟩ := hv
      refine ((beside_self limits.top).write v).bind ?_
      rintro rendered _ rfl
      refine (ih (index + 1)).bind ?_
      rintro results _ rfl
      exact .pure rfl
    | @fault f g hfg =>
      obtain rfl : f = g := hfg
      cases f with
      | error error => exact (agree_log_any _ _).bind fun _ _ _ => .pure rfl
      | endless | tooDeep | tooLong | host => exact .throw rfl

end Correspondence

/-- Two runs of the same forms on machines that differ in their logs, numbered from different places
on, end on such machines, in the same fault or in the same report but for the numbers. -/
theorem runForms_after {m n : Machine} (h : m.SameButLog n) (limits : Limits) (frame : FrameId)
    (before : Nat) (forms : List Value) :
    (runForms limits frame 0 forms m).2.SameButLog (runForms limits frame before forms n).2 ∧
      (runForms limits frame before forms n).1 =
        (runForms limits frame 0 forms m).1.map (List.map (FormResult.after before)) := by
  obtain ⟨hstate, hends⟩ := Correspondence.strict_logging.after
    (Correspondence.agree_runForms_after before 0 forms) h
  refine ⟨hstate, ?_⟩
  rw [Nat.add_zero] at hends
  generalize (runForms limits frame 0 forms m).1 = r at hends ⊢
  generalize (runForms limits frame before forms n).1 = s at hends ⊢
  cases hends with
  | value hq => rw [hq]; rfl
  | fault hf => exact congrArg Except.error hf.symm

end Fexpr
