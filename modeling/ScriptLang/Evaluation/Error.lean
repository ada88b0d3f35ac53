import ScriptLang.Program.Printer

/-!
# Errors of execution

What can go wrong while a statement runs. The values and targets that an error speaks of are kept
as the text they had when it arose.
-/

namespace ScriptLang

/-- Why a statement could not be run to its end. -/
inductive RuntimeError where
  /-- The output does not take any more. -/
  | brokenPipe
  | duplicateDeclaration (name : String)
  | undeclaredVariable (name : String)
  | constAssignment (name : String)
  | invalidAssignmentTarget (target : String)
  | getOnNonObject (value : String)
  | setOnNonObject (value : String)
  | undefinedProperty (name : String)
  | invalidComparison (left : String) (comparator : Comparator) (right : String)
  | divisionByZero
  | repetitionTooLarge (times : Int64)
  | discardedScope
deriving DecidableEq, Repr

/-- The error in words. -/
def RuntimeError.message : RuntimeError → String
  | brokenPipe => "IO error: broken pipe"
  | duplicateDeclaration name => "Variable already declared in this scope: " ++ name
  | undeclaredVariable name => "Undeclared variable: " ++ name
  | constAssignment name => "Cannot assign to constant: " ++ name
  | invalidAssignmentTarget target => "Invalid assignment target: " ++ target
  | getOnNonObject value => "Get on non-object: " ++ value
  | setOnNonObject value => "Set on non-object: " ++ value
  | undefinedProperty name => "Undefined property: " ++ name
  | invalidComparison left comparator right =>
    "Invalid comparison: " ++ left ++ " " ++ comparator.symbol ++ " " ++ right
  | divisionByZero => "Division by zero"
  | repetitionTooLarge times => "String repeated " ++ toString times.toInt ++ " times is too large"
  | discardedScope => "Scope has already been discarded"

/-- **Why a program stopped:** the error and the statement that it arose in. -/
structure ExecutionError where
  cause : RuntimeError
  statement : Stmt
deriving DecidableEq, Repr

/-- The error in words. -/
def ExecutionError.message (e : ExecutionError) : String :=
  "Error executing statement: " ++ e.statement.render ++ " - " ++ e.cause.message

end ScriptLang
