import ScriptLang.Environment
import ScriptLang.Evaluation.Operators
import ScriptLang.Heap.Shape
import ScriptLang.Sink

/-!
# The state of a run

A `Machine` is all that a program can change: the scopes, the objects and the output. The steps
that programs are made of are each one change to it, or one look at it. A step that fails leaves
the machine as it is, but for `Eval.write`, which keeps what the output took.
-/

namespace ScriptLang

/-- **What programs run on.** -/
structure Machine where
  scopes : Environment
  heap : Heap
  sink : Sink

/-- The machine before any program ran, with an output of the given capacity. -/
def Machine.initial (capacity : Option Nat) : Machine := ⟨.initial, .empty, .empty capacity⟩

/-- A step of a run: it changes the machine, and gives a result or fails. -/
abbrev Eval := EStateM RuntimeError Machine

namespace Eval

/-- A result that does not depend on the machine. -/
def ofResult {α : Type} (r : Except RuntimeError α) : Eval α := fun m =>
  match r with
  | .ok a => .ok a m
  | .error e => .error e m

/-! ### Scopes -/

/-- Replaces the scopes by a result computed from them. -/
def updateScopes (f : Environment → Except RuntimeError Environment) : Eval Unit := fun m =>
  match f m.scopes with
  | .ok scopes => .ok () { m with scopes }
  | .error e => .error e m

/-- The value of a name. -/
def lookup (s : ScopeId) (name : String) : Eval Value := fun m =>
  ofResult (m.scopes.get s name) m

/-- Gives a name a new value. -/
def assign (s : ScopeId) (name : String) (v : Value) : Eval Unit :=
  updateScopes fun e => e.assign s name v

/-- Declares a name. -/
def declare (s : ScopeId) (name : String) (binding : Binding) : Eval Unit :=
  updateScopes fun e => e.declare s name binding

/-! ### Objects -/

/-- Creates an object. -/
def create (fields : Table Value) : Eval Value := fun m =>
  .ok (.object m.heap.nextId) { m with heap := m.heap.create fields }

/-- The object that a value is. Any other value is refused, with an error about its text. -/
def objectOr (refusal : String → RuntimeError) : Value → Eval ObjectId
  | .object o => pure o
  | v => fun m => .error (refusal (m.heap.text v)) m

/-- Reads a property of an object, which has to have it. -/
def getProperty (o : ObjectId) (property : String) : Eval Value := fun m =>
  match (m.heap.fields o).get? property with
  | some v => .ok v m
  | none => .error (.undefinedProperty property) m

/-- Writes a property of an object. -/
def setProperty (o : ObjectId) (property : String) (v : Value) : Eval Unit := fun m =>
  .ok () { m with heap := m.heap.set o property v }

/-! ### Operators and output -/

/-- Compares two values. -/
def compareValues (c : Comparator) (a b : Value) : Eval Value := fun m =>
  match c.apply? a b with
  | some holds => .ok (.boolean holds) m
  | none => .error (.invalidComparison (m.heap.text a) c (m.heap.text b)) m

/-- Writes text to the output. -/
def write (text : String) : Eval Unit := fun m =>
  let written := { m with sink := m.sink.write text.toUTF8 }
  if m.sink.takes text.toUTF8 then .ok () written else .error .brokenPipe written

/-- Writes a value to the output, on lines of its own. -/
def printLine (v : Value) : Eval Unit := fun m => write (m.heap.text v ++ "\n") m

end Eval

end ScriptLang
