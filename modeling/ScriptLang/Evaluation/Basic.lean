import ScriptLang.Machine

/-!
# Running programs

Statements run one after the other in a given scope, and what they did before an error stays done.

* `eval` — the value of an expression.
* `exec` — the effect of a statement.
* `run` — a whole program, for the value of its last statement.
* `Expr.evaluation_induction` — induction along the evaluation of an expression.
* `runFrom_append` — running two programs one after the other is running them as one.
-/

namespace ScriptLang

/-- The value that a literal stands for. -/
def Literal.toValue : Literal → Value
  | number n => .number n
  | string s => .string s
  | boolean b => .boolean b

open Eval

mutual

/-- **The value of an expression.** Operands are evaluated from left to right. In an assignment to
a member the object comes before the new value, and what cannot be assigned to is refused before
anything is evaluated. -/
def eval (s : ScopeId) : Expr → Eval Value
  | .identifier name => lookup s name
  | .literal value => pure value.toValue
  | .assign (.identifier name) value => do
    let v ← eval s value
    assign s name v
    return v
  | .assign (.member base property) value => do
    let b ← eval s base
    let o ← objectOr .setOnNonObject b
    let v ← eval s value
    setProperty o property v
    return v
  | .assign target _ => throw (.invalidAssignmentTarget target.render)
  | .object properties => do
    let fields ← evalProperties s ∅ properties
    create fields
  | .member base property => do
    let b ← eval s base
    let o ← objectOr .getOnNonObject b
    getProperty o property
  | .compare c left right => do
    let a ← eval s left
    let b ← eval s right
    compareValues c a b
  | .binary o left right => do
    let a ← eval s left
    let b ← eval s right
    ofResult (o.apply a b)
termination_by structural e => e

/-- The properties of an object literal, evaluated in order and added to the given ones. A later
value of a name replaces an earlier one. -/
def evalProperties (s : ScopeId) (fields : Table Value) :
    List (String × Expr) → Eval (Table Value)
  | [] => return fields
  | (key, value) :: properties => do
    let v ← eval s value
    evalProperties s (fields.insert key v) properties
termination_by structural ps => ps

end

/-- What cannot be assigned to is refused before anything is evaluated. -/
theorem eval_assign_refused (s : ScopeId) {target : Expr} (value : Expr)
    (h_name : ∀ name, target ≠ .identifier name)
    (h_member : ∀ base property, target ≠ .member base property) :
    eval s (.assign target value) = throw (.invalidAssignmentTarget target.render) := by
  rw [eval]
  · exact fun name => h_name name
  · exact fun base property => h_member base property

/-- **Induction along the evaluation of an expression.** Of an assignment to a member it is the base
of the target that is evaluated and not the target, and nothing at all if the target is refused. -/
protected theorem Expr.evaluation_induction {motive : Expr → Prop}
    (identifier : ∀ name, motive (.identifier name))
    (literal : ∀ value, motive (.literal value))
    (assign : ∀ name value, motive value → motive (.assign (.identifier name) value))
    (assignMember : ∀ base property value, motive base → motive value →
      motive (.assign (.member base property) value))
    (refused : ∀ target value, (∀ name, target ≠ .identifier name) →
      (∀ base property, target ≠ .member base property) → motive (.assign target value))
    (object : ∀ properties, (∀ p ∈ properties, motive p.2) → motive (.object properties))
    (member : ∀ base property, motive base → motive (.member base property))
    (compare : ∀ c left right, motive left → motive right → motive (.compare c left right))
    (binary : ∀ o left right, motive left → motive right → motive (.binary o left right))
    (e : Expr) : motive e :=
  eval.induct motive (fun _ ps => ∀ p ∈ ps, motive p.2) identifier literal assign assignMember
    refused object member compare binary (fun _ => nofun)
    (fun _ _ _ _ head tail => List.forall_mem_cons.2 ⟨head, tail .null⟩) e

/-- **The effect of a statement.** Printing and declaring have the value `null`. -/
def exec (s : ScopeId) : Stmt → Eval Value
  | .expression e => eval s e
  | .print e => do
    let v ← eval s e
    printLine v
    return .null
  | .declare constant name e => do
    let v ← eval s e
    declare s name ⟨v, constant⟩
    return .null

/-- A statement as a step of its program, which an error then names. -/
def step (s : ScopeId) (statement : Stmt) : EStateM ExecutionError Machine Value :=
  (exec s statement).adaptExcept fun cause => ⟨cause, statement⟩

/-- Runs the statements of a program up to the first error, for the value of the last one; without
statements, for the given value. -/
def runFrom (s : ScopeId) (last : Value) : Program → EStateM ExecutionError Machine Value
  | [] => return last
  | statement :: rest => do
    let v ← step s statement
    runFrom s v rest

/-- **Runs a program in a scope,** for the value of its last statement. -/
def run (s : ScopeId) (p : Program) : EStateM ExecutionError Machine Value := runFrom s .null p

/-- Running two programs one after the other is running them as one. -/
theorem runFrom_append (s : ScopeId) (last : Value) (p q : Program) :
    runFrom s last (p ++ q) = (do
      let v ← runFrom s last p
      runFrom s v q) := by
  induction p generalizing last with
  | nil => simp [runFrom]
  | cons statement rest ih => simp [runFrom, ih]

end ScriptLang
