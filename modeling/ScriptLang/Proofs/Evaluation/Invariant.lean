import ScriptLang.Evaluation.Basic
import ScriptLang.Proofs.Heap.Renaming
import ScriptLang.Proofs.Table

/-!
# Invariants of runs

What holds of a machine while programs run on it, at their end and wherever they stop. An
`Invariant` says what is to hold of machines and of the values that expressions give, and that the
steps of expressions keep it. Assignments are kept apart, and so are the steps of statements: an
invariant that assignments break still holds of expressions without any.

* `Maintains` — a computation keeps a property of machines, and its result has a property.
* `Invariant.eval`, `Invariant.evalProperties` — what the steps keep expressions keep, by induction
  on the expression.
* `Invariant.Statements.exec`, `Invariant.Statements.run` — what follows for statements and for
  programs.
* `Expr.AssignFree`, `Program.AssignFree` — expressions and programs without assignments.
-/

namespace ScriptLang

/-! ### Computations that keep a property -/

section Computations

variable {ε ε' α β : Type} {P : Machine → Prop} {R : α → Prop}

/-- The machine that a computation leaves, whether it gave a result or failed. -/
def finalMachine : EStateM.Result ε Machine α → Machine
  | .ok _ m => m
  | .error _ m => m

/-- An outcome as it should be: the machine has the one property in any case, and the result, if
there is one, has the other. -/
inductive EndsIn (P : Machine → Prop) (R : α → Prop) : EStateM.Result ε Machine α → Prop where
  | ok {a m} (machine : P m) (result : R a) : EndsIn P R (.ok a m)
  | error {e m} (machine : P m) : EndsIn P R (.error e m)

theorem EndsIn.machine {r : EStateM.Result ε Machine α} (h : EndsIn P R r) :
    P (finalMachine r) := by
  cases h with
  | ok machine _ => exact machine
  | error machine => exact machine

/-- **A computation keeps a property of machines,** and its results have a property of their own. -/
def Maintains (P : Machine → Prop) (x : EStateM ε Machine α) (R : α → Prop) : Prop :=
  ∀ m, P m → EndsIn P R (x m)

theorem maintains_pure {a : α} (h : R a) : Maintains P (pure a : EStateM ε Machine α) R :=
  fun _ machine => .ok machine h

theorem maintains_throw (e : ε) : Maintains P (throw e : EStateM ε Machine α) R :=
  fun _ machine => .error machine

/-- A look at the machine, which leaves it as it is. -/
theorem maintains_look {f : Machine → Except RuntimeError α}
    (h : ∀ m a, P m → f m = .ok a → R a) :
    Maintains P (fun m => Eval.ofResult (f m) m) R := by
  intro m machine
  show EndsIn P R (Eval.ofResult (f m) m)
  unfold Eval.ofResult
  cases h_f : f m with
  | ok a => exact .ok machine (h m a machine h_f)
  | error e => exact .error machine

/-- **One computation after another.** -/
theorem Maintains.bind {S : β → Prop} {x : EStateM ε Machine α} {f : α → EStateM ε Machine β}
    (h : Maintains P x R) (h_f : ∀ a, R a → Maintains P (f a) S) : Maintains P (x >>= f) S := by
  intro m machine
  show EndsIn P S (EStateM.bind x f m)
  unfold EStateM.bind
  have h_first := h m machine
  generalize x m = r at h_first ⊢
  cases h_first with
  | ok machine' result => exact h_f _ result _ machine'
  | error machine' => exact .error machine'

/-- Errors that are put in a context. -/
theorem Maintains.adaptExcept {x : EStateM ε Machine α} (h : Maintains P x R) (f : ε → ε') :
    Maintains P (x.adaptExcept f) R := by
  intro m machine
  unfold EStateM.adaptExcept
  have h_end := h m machine
  generalize x m = r at h_end ⊢
  cases h_end with
  | ok machine' result => exact .ok machine' result
  | error machine' => exact .error machine'

/-- A change to the scopes. -/
theorem maintains_updateScopes {f : Environment → Except RuntimeError Environment}
    (h : ∀ m e, P m → f m.scopes = .ok e → P { m with scopes := e }) :
    Maintains P (Eval.updateScopes f) fun _ => True := by
  intro m machine
  unfold Eval.updateScopes
  cases h_f : f m.scopes with
  | ok e => exact .ok (h m e machine h_f) trivial
  | error e => exact .error machine

/-- A value printed: what the output took of it stays written in any case. -/
theorem maintains_printLine (h : ∀ m bytes, P m → P { m with sink := m.sink.write bytes })
    (v : Value) : Maintains P (Eval.printLine v) fun _ => True := by
  intro m machine
  unfold Eval.printLine Eval.write
  dsimp only
  split
  · exact .ok (h m _ machine) trivial
  · exact .error (h m _ machine)

end Computations

/-! ### Invariants -/

/-- **An invariant of expressions** in a scope: properties of machines and of values that the steps
of expressions keep, assignments left aside. Values that are no objects are not restricted. -/
structure Invariant (s : ScopeId) where
  Machines : Machine → Prop
  Values : Value → Prop
  plain : ∀ v, (∀ o, v ≠ .object o) → Values v
  lookup : ∀ m name v, Machines m → m.scopes.get s name = .ok v → Values v
  create : ∀ m fields, Machines m → (∀ key v, fields.get? key = some v → Values v) →
    Machines { m with heap := m.heap.create fields } ∧ Values (.object m.heap.nextId)
  getProperty : ∀ m o property v, Machines m → Values (.object o) →
    (m.heap.fields o).get? property = some v → Values v

/-- Assignments keep the invariant too. -/
structure Invariant.Assignments {s : ScopeId} (I : Invariant s) : Prop where
  assign : ∀ m name v e, I.Machines m → I.Values v → m.scopes.assign s name v = .ok e →
    I.Machines { m with scopes := e }
  setProperty : ∀ m o property v, I.Machines m → I.Values (.object o) → I.Values v →
    I.Machines { m with heap := m.heap.set o property v }

/-- Declaring and printing keep the invariant too. -/
structure Invariant.Statements {s : ScopeId} (I : Invariant s) : Prop where
  declare : ∀ m constant name v e, I.Machines m → I.Values v →
    m.scopes.declare s name ⟨v, constant⟩ = .ok e → I.Machines { m with scopes := e }
  write : ∀ m bytes, I.Machines m → I.Machines { m with sink := m.sink.write bytes }

/-- An expression without assignments, whatever its form. -/
inductive Expr.AssignFree : Expr → Prop where
  | identifier (name) : AssignFree (.identifier name)
  | literal (v) : AssignFree (.literal v)
  | object {properties} (values : ∀ p ∈ properties, p.2.AssignFree) :
      AssignFree (.object properties)
  | member {base property} (h : base.AssignFree) : AssignFree (.member base property)
  | compare {c left right} (h : left.AssignFree) (h' : right.AssignFree) :
      AssignFree (.compare c left right)
  | binary {o left right} (h : left.AssignFree) (h' : right.AssignFree) :
      AssignFree (.binary o left right)

/-- The expression of a statement. -/
def Stmt.value : Stmt → Expr
  | expression e => e
  | declare _ _ e => e
  | print e => e

/-- **A program without assignments.** -/
def Program.AssignFree (p : Program) : Prop := ∀ statement ∈ p, statement.value.AssignFree

namespace Invariant

variable {s : ScopeId} (I : Invariant s)

/-! ### Expressions -/

/-- An expression keeps the invariant, if it has no assignments or these keep it. -/
private def Holds (e : Expr) : Prop :=
  e.AssignFree ∨ I.Assignments → Maintains I.Machines (ScriptLang.eval s e) I.Values

private theorem objectOr (refusal : String → RuntimeError) {v : Value} (h : I.Values v) :
    Maintains I.Machines (Eval.objectOr refusal v) fun o => I.Values (.object o) := by
  cases v with
  | object o => exact maintains_pure h
  | null | boolean | number | string => exact fun m machine => .error machine

private theorem lookup_maintains (name : String) :
    Maintains I.Machines (Eval.lookup s name) I.Values :=
  maintains_look fun m v machine h => I.lookup m name v machine h

private theorem create_maintains {fields : Table Value}
    (h : ∀ key v, fields.get? key = some v → I.Values v) :
    Maintains I.Machines (Eval.create fields) I.Values := by
  intro m machine
  obtain ⟨machine', h_new⟩ := I.create m fields machine h
  exact .ok machine' h_new

private theorem getProperty_maintains {o : ObjectId} (property : String)
    (h : I.Values (.object o)) :
    Maintains I.Machines (Eval.getProperty o property) I.Values := by
  intro m machine
  unfold Eval.getProperty
  cases h_v : (m.heap.fields o).get? property with
  | none => exact .error machine
  | some v => exact .ok machine (I.getProperty m o property v machine h h_v)

private theorem compareValues (c : Comparator) (a b : Value) :
    Maintains I.Machines (Eval.compareValues c a b) I.Values := by
  intro m machine
  unfold Eval.compareValues
  cases c.apply? a b with
  | none => exact .error machine
  | some holds => exact .ok machine (I.plain _ (by rintro o ⟨⟩))

private theorem operator (o : Operator) (a b : Value) :
    Maintains I.Machines (Eval.ofResult (o.apply a b)) I.Values :=
  maintains_look (f := fun _ => o.apply a b) fun _ v _ h =>
    I.plain v (Operator.apply_ne_object h)

variable {I} in
private theorem Assignments.assign_maintains (assignments : I.Assignments) (name : String)
    {v : Value} (h : I.Values v) :
    Maintains I.Machines (Eval.assign s name v) fun _ => True :=
  maintains_updateScopes fun m e machine h_e => assignments.assign m name v e machine h h_e

variable {I} in
private theorem Assignments.setProperty_maintains (assignments : I.Assignments) {o : ObjectId}
    (property : String) {v : Value} (h_o : I.Values (.object o)) (h : I.Values v) :
    Maintains I.Machines (Eval.setProperty o property v) fun _ => True :=
  fun m machine => .ok (assignments.setProperty m o property v machine h_o h) trivial

/-- The properties of an object literal, one after the other. -/
private theorem evalProperties_of_holds {properties : List (String × Expr)}
    (h : ∀ p ∈ properties, I.Holds p.2)
    (admitted : (∀ p ∈ properties, p.2.AssignFree) ∨ I.Assignments) {fields : Table Value}
    (h_fields : ∀ key v, fields.get? key = some v → I.Values v) :
    Maintains I.Machines (ScriptLang.evalProperties s fields properties)
      fun fields => ∀ key v, fields.get? key = some v → I.Values v := by
  induction properties generalizing fields with
  | nil =>
    rw [ScriptLang.evalProperties]
    exact maintains_pure h_fields
  | cons p properties ih =>
    obtain ⟨key, value⟩ := p
    obtain ⟨h_value, h_rest⟩ := List.forall_mem_cons.1 h
    have first : value.AssignFree ∨ I.Assignments := admitted.imp_left fun free =>
      free _ List.mem_cons_self
    have rest : (∀ p ∈ properties, p.2.AssignFree) ∨ I.Assignments := admitted.imp_left
      fun free => (List.forall_mem_cons.1 free).2
    rw [ScriptLang.evalProperties]
    refine (h_value first).bind fun v h_v => ih h_rest rest ?_
    -- the properties so far, and the new one among them
    intro key' v' h_key
    rw [Table.get?_insert] at h_key
    split at h_key
    · cases h_key
      exact h_v
    · exact h_fields key' v' h_key

private theorem holds (e : Expr) : I.Holds e := by
  induction e using Expr.evaluation_induction with
  | identifier name =>
    intro _
    rw [ScriptLang.eval]
    exact I.lookup_maintains name
  | literal value =>
    intro _
    rw [ScriptLang.eval]
    refine maintains_pure (I.plain _ ?_)
    cases value <;> rintro o ⟨⟩
  | assign name value ih =>
    intro admitted
    -- there is an assignment, so assignments keep the invariant
    have assignments : I.Assignments := admitted.resolve_left (by rintro ⟨⟩)
    rw [ScriptLang.eval]
    refine (ih (.inr assignments)).bind fun v h_v => ?_
    refine (assignments.assign_maintains name h_v).bind fun _ _ => ?_
    exact maintains_pure h_v
  | assignMember base property value ih_base ih_value =>
    intro admitted
    have assignments : I.Assignments := admitted.resolve_left (by rintro ⟨⟩)
    rw [ScriptLang.eval]
    refine (ih_base (.inr assignments)).bind fun b h_b => ?_
    refine (I.objectOr _ h_b).bind fun o h_o => ?_
    refine (ih_value (.inr assignments)).bind fun v h_v => ?_
    refine (assignments.setProperty_maintains property h_o h_v).bind fun _ _ => ?_
    exact maintains_pure h_v
  | refused target value h_name h_member =>
    intro _
    rw [eval_assign_refused s value h_name h_member]
    exact maintains_throw _
  | object properties ih =>
    intro admitted
    have values : (∀ p ∈ properties, p.2.AssignFree) ∨ I.Assignments := by
      refine admitted.imp_left fun free => ?_
      cases free with
      | object values => exact values
    have none : ∀ key v, (∅ : Table Value).get? key = some v → I.Values v := by
      intro key v h_v
      rw [Table.get?_empty] at h_v
      cases h_v
    rw [ScriptLang.eval]
    exact (I.evalProperties_of_holds ih values none).bind fun fields h => I.create_maintains h
  | member base property ih =>
    intro admitted
    have h_base : base.AssignFree ∨ I.Assignments := by
      refine admitted.imp_left fun free => ?_
      cases free with
      | member h => exact h
    rw [ScriptLang.eval]
    refine (ih h_base).bind fun b h_b => ?_
    refine (I.objectOr _ h_b).bind fun o h_o => ?_
    exact I.getProperty_maintains property h_o
  | compare c left right ih_left ih_right =>
    intro admitted
    have operands : (left.AssignFree ∧ right.AssignFree) ∨ I.Assignments := by
      refine admitted.imp_left fun free => ?_
      cases free with
      | compare h h' => exact ⟨h, h'⟩
    rw [ScriptLang.eval]
    refine (ih_left (operands.imp_left And.left)).bind fun a _ => ?_
    refine (ih_right (operands.imp_left And.right)).bind fun b _ => ?_
    exact I.compareValues c a b
  | binary o left right ih_left ih_right =>
    intro admitted
    have operands : (left.AssignFree ∧ right.AssignFree) ∨ I.Assignments := by
      refine admitted.imp_left fun free => ?_
      cases free with
      | binary h h' => exact ⟨h, h'⟩
    rw [ScriptLang.eval]
    refine (ih_left (operands.imp_left And.left)).bind fun a _ => ?_
    refine (ih_right (operands.imp_left And.right)).bind fun b _ => ?_
    exact I.operator o a b

/-- **Expressions keep the invariant,** if they have no assignments or these keep it. -/
theorem eval (e : Expr) (admitted : e.AssignFree ∨ I.Assignments) :
    Maintains I.Machines (ScriptLang.eval s e) I.Values := I.holds e admitted

/-- **The properties of an object literal keep the invariant** likewise. -/
theorem evalProperties (properties : List (String × Expr))
    (admitted : (∀ p ∈ properties, p.2.AssignFree) ∨ I.Assignments) {fields : Table Value}
    (h_fields : ∀ key v, fields.get? key = some v → I.Values v) :
    Maintains I.Machines (ScriptLang.evalProperties s fields properties)
      fun fields => ∀ key v, fields.get? key = some v → I.Values v :=
  I.evalProperties_of_holds (fun p _ => I.holds p.2) admitted h_fields

/-! ### Statements and programs -/

variable {I}

private theorem values_null : I.Values .null := I.plain .null (by rintro o ⟨⟩)

/-- **Statements keep the invariant.** -/
theorem Statements.exec (statements : I.Statements) (statement : Stmt)
    (admitted : statement.value.AssignFree ∨ I.Assignments) :
    Maintains I.Machines (ScriptLang.exec s statement) I.Values := by
  cases statement with
  | expression e => exact I.eval e admitted
  | print e =>
    refine (I.eval e admitted).bind fun v _ => ?_
    exact (maintains_printLine statements.write v).bind fun _ _ => maintains_pure values_null
  | declare constant name e =>
    refine (I.eval e admitted).bind fun v h_v => ?_
    refine Maintains.bind (maintains_updateScopes ?_) fun _ _ => maintains_pure values_null
    exact fun m e' machine h_e' => statements.declare m constant name v e' machine h_v h_e'

theorem Statements.runFrom (statements : I.Statements) {p : Program}
    (admitted : p.AssignFree ∨ I.Assignments) {last : Value} (h : I.Values last) :
    Maintains I.Machines (ScriptLang.runFrom s last p) I.Values := by
  induction p generalizing last with
  | nil => exact maintains_pure h
  | cons statement rest ih =>
    have first : statement.value.AssignFree ∨ I.Assignments := admitted.imp_left fun free =>
      free _ List.mem_cons_self
    have others : Program.AssignFree rest ∨ I.Assignments := admitted.imp_left fun free =>
      (List.forall_mem_cons.1 free).2
    have h_step : Maintains I.Machines (step s statement) I.Values :=
      (statements.exec statement first).adaptExcept _
    exact h_step.bind fun v h_v => ih others h_v

/-- **Programs keep the invariant,** whether they run to their end or stop with an error. -/
theorem Statements.run (statements : I.Statements) {p : Program}
    (admitted : p.AssignFree ∨ I.Assignments) :
    Maintains I.Machines (ScriptLang.run s p) I.Values := statements.runFrom admitted values_null

end Invariant

end ScriptLang
