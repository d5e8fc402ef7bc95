import Fexpr.Fault
import Fexpr.Log
import Fexpr.Store

/-!
# The machine

What evaluation reads and changes: the frames, the numbers of the next things made, what was
printed, and the log. An evaluation is a function of the machine; whether it ends in a value or in a
fault, the changes it made stay.
-/

namespace Fexpr

/-- The state of an interpreter. -/
structure Machine where
  store : Store
  /-- The number that the next list or combiner made is told from others by. -/
  nextId : Nat
  /-- The number that the next suspended operand is told from others by. Those have numbers of their
  own, so that handing an operand over unevaluated changes no other number. -/
  nextSuspension : Nat
  /-- All that was printed. -/
  output : String
  /-- All that was logged, the newest first. -/
  log : List LogRecord

/-- The machine before anything has happened. -/
def Machine.empty : Machine where
  store := .empty
  nextId := 0
  nextSuspension := 0
  output := ""
  log := []

/-- A computation on the machine that may end in a fault. -/
abbrev Eval := ExceptT Fault (StateM Machine)

namespace Eval

/-- What a name is bound to, seen from a frame. -/
def lookup? (frame : FrameId) (name : String) : Eval (Option Value) := do
  return (← get).store.lookup? frame name

/-- Binds a name in a frame. -/
def define (frame : FrameId) (name : String) (value : Value) : Eval Unit :=
  modify fun m => { m with store := m.store.define frame name value }

/-- Binds several names in a frame, in order. -/
def defineAll (frame : FrameId) (pairs : List (String × Value)) : Eval Unit :=
  modify fun m => { m with store := m.store.defineAll frame pairs }

/-- Changes a binding in the nearest frame that has one, and tells whether there is one. -/
def assign (frame : FrameId) (name : String) (value : Value) : Eval Bool := do
  let m ← get
  match m.store.assign? frame name value with
  | some store =>
    set { m with store }
    return true
  | none => return false

/-- A number that nothing made so far has. -/
def freshId : Eval Nat := do
  let m ← get
  set { m with nextId := m.nextId + 1 }
  return m.nextId

/-- A new suspended operand. -/
def suspend (expression : Value) (frame : FrameId) (sequence : Bool) : Eval Value := do
  let m ← get
  set { m with nextSuspension := m.nextSuspension + 1 }
  return .suspended expression frame sequence m.nextSuspension

/-- A new list of values, nil when there are none. -/
def makeList : List Value → Eval Value
  | [] => return .nil
  | vs => return .list vs (some (← freshId))

/-- Prints a line. -/
def printLine (text : String) : Eval Unit :=
  modify fun m => { m with output := m.output ++ text ++ "\n" }

/-- Logs a record. -/
def log (record : LogRecord) : Eval Unit :=
  modify fun m => { m with log := record :: m.log }

end Eval
end Fexpr
