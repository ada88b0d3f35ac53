/-!
# Programs

The trees that scripts stand for. A program is a list of statements; expressions nest to any
depth, through their operands and through the properties of object literals.

* `Expr.induction` — to prove something of every expression, prove it of an expression whose parts
  have it, the property values of an object literal being its parts.
-/

namespace ScriptLang

/-- A value that is written out in a program. -/
inductive Literal where
  | number (value : Int64)
  | string (value : String)
  | boolean (value : Bool)
deriving DecidableEq, Repr

/-- An operator that compares two values. -/
inductive Comparator where
  | equal | notEqual | less | lessEqual | greater | greaterEqual
deriving DecidableEq, Repr

/-- An operator that computes a value from two values. -/
inductive Operator where
  | plus | minus | times | divide | modulo
deriving DecidableEq, Repr

/-- An expression. Any expression may stand on the left of an assignment; which ones can be
assigned to shows when the assignment is evaluated. -/
inductive Expr where
  | identifier (name : String)
  | literal (value : Literal)
  | assign (target value : Expr)
  | object (properties : List (String × Expr))
  | member (base : Expr) (property : String)
  | compare (comparator : Comparator) (left right : Expr)
  | binary (operator : Operator) (left right : Expr)
deriving Repr

/-- A statement. -/
inductive Stmt where
  | expression (value : Expr)
  /-- Binds a name in the current scope, for good if `constant` is set. -/
  | declare (constant : Bool) (name : String) (value : Expr)
  | print (value : Expr)
deriving Repr

/-- A program: statements to run one after the other. -/
abbrev Program := List Stmt

namespace Expr

/-- The expression that a declaration without a value gets: the name `null`, looked up like any
other name. -/
def null : Expr := .identifier "null"

/-- **Induction over expressions,** the property values of an object literal counted as its
parts. -/
protected theorem induction {motive : Expr → Prop}
    (identifier : ∀ name, motive (.identifier name))
    (literal : ∀ value, motive (.literal value))
    (assign : ∀ target value, motive target → motive value → motive (.assign target value))
    (object : ∀ properties, (∀ p ∈ properties, motive p.2) → motive (.object properties))
    (member : ∀ base property, motive base → motive (.member base property))
    (compare : ∀ c left right, motive left → motive right → motive (.compare c left right))
    (binary : ∀ o left right, motive left → motive right → motive (.binary o left right))
    (e : Expr) : motive e :=
  @Expr.rec motive (fun ps => ∀ p ∈ ps, motive p.2) (fun p => motive p.2) identifier literal
    assign object member compare binary nofun
    (fun _ _ head tail => List.forall_mem_cons.2 ⟨head, tail⟩) (fun _ _ h => h) e

/-! ### Equality -/

mutual

/-- Decides whether two expressions are the same. -/
protected def decEq : (a b : Expr) → Decidable (a = b)
  | .identifier m, b => match b with
    | .identifier n => decidable_of_iff (m = n) (by simp)
    | .literal _ | .assign .. | .object _ | .member .. | .compare .. | .binary .. =>
      .isFalse nofun
  | .literal v, b => match b with
    | .literal w => decidable_of_iff (v = w) (by simp)
    | .identifier _ | .assign .. | .object _ | .member .. | .compare .. | .binary .. =>
      .isFalse nofun
  | .assign t v, b => match b with
    | .assign t' v' =>
      have := t.decEq t'
      have := v.decEq v'
      decidable_of_iff (t = t' ∧ v = v') (by simp)
    | .identifier _ | .literal _ | .object _ | .member .. | .compare .. | .binary .. =>
      .isFalse nofun
  | .object ps, b => match b with
    | .object qs =>
      have := Expr.decEqProperties ps qs
      decidable_of_iff (ps = qs) (by simp)
    | .identifier _ | .literal _ | .assign .. | .member .. | .compare .. | .binary .. =>
      .isFalse nofun
  | .member o p, b => match b with
    | .member o' p' =>
      have := o.decEq o'
      decidable_of_iff (o = o' ∧ p = p') (by simp)
    | .identifier _ | .literal _ | .assign .. | .object _ | .compare .. | .binary .. =>
      .isFalse nofun
  | .compare c l r, b => match b with
    | .compare c' l' r' =>
      have := l.decEq l'
      have := r.decEq r'
      decidable_of_iff (c = c' ∧ l = l' ∧ r = r') (by simp)
    | .identifier _ | .literal _ | .assign .. | .object _ | .member .. | .binary .. =>
      .isFalse nofun
  | .binary o l r, b => match b with
    | .binary o' l' r' =>
      have := l.decEq l'
      have := r.decEq r'
      decidable_of_iff (o = o' ∧ l = l' ∧ r = r') (by simp)
    | .identifier _ | .literal _ | .assign .. | .object _ | .member .. | .compare .. =>
      .isFalse nofun
termination_by structural a => a

/-- Decides whether two lists of properties are the same. -/
protected def decEqProperties : (ps qs : List (String × Expr)) → Decidable (ps = qs)
  | [], [] => .isTrue rfl
  | [], _ :: _ => .isFalse nofun
  | _ :: _, [] => .isFalse nofun
  | (k, e) :: ps, (k', e') :: qs =>
    have := e.decEq e'
    have := Expr.decEqProperties ps qs
    decidable_of_iff (k = k' ∧ e = e' ∧ ps = qs) (by simp [and_assoc])
termination_by structural ps => ps

end

instance : DecidableEq Expr := Expr.decEq

end Expr

deriving instance DecidableEq for Stmt

end ScriptLang
