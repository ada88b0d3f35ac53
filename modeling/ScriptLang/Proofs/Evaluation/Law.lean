import ScriptLang.Evaluation.Basic

/-!
# Laws of evaluation

Expressions are evaluated by a few elementary steps, one after the other. So whatever property of
computations these steps have, and sequencing keeps, evaluation has for every expression. What the
property says of machines, of results and of errors does not matter here, and it may speak of more
than one machine.

* `Law` — a property of computations, with what has to be shown of the steps.
* `Law.eval` — evaluation has the property, by induction on the expression.
* `bind_apply_of_ok`, `bind_apply_of_error` — how sequencing goes on, or does not.
* `bind_apply_eq_ok` — what there is to a sequence that gives a result.
-/

namespace ScriptLang

/-! ### Sequencing -/

section Sequencing

variable {ε σ α β : Type} {x : EStateM ε σ α} {f : α → EStateM ε σ β} {m m' : σ}

/-- After a result the rest goes on with it. -/
theorem bind_apply_of_ok {a : α} (h : x m = .ok a m') : (x >>= f) m = f a m' := by
  show EStateM.bind x f m = f a m'
  rw [EStateM.bind, h]

/-- After an error nothing else happens. -/
theorem bind_apply_of_error {e : ε} (h : x m = .error e m') : (x >>= f) m = .error e m' := by
  show EStateM.bind x f m = .error e m'
  rw [EStateM.bind, h]

/-- Parts that have the same outcome go on alike. -/
theorem bind_apply_congr {y : EStateM ε σ α} (h : x m = y m') (f : α → EStateM ε σ β) :
    (x >>= f) m = (y >>= f) m' := by
  show EStateM.bind x f m = EStateM.bind y f m'
  rw [EStateM.bind, EStateM.bind, h]

/-- There is a result in the end exactly if there is one of the first part, with which the rest
gives it. -/
theorem bind_apply_eq_ok {b : β} {m'' : σ} :
    (x >>= f) m = .ok b m'' ↔ ∃ a m', x m = .ok a m' ∧ f a m' = .ok b m'' := by
  constructor
  · intro h
    cases h_x : x m with
    | ok a m' =>
      rw [bind_apply_of_ok h_x] at h
      exact ⟨a, m', rfl, h⟩
    | error e m' =>
      rw [bind_apply_of_error h_x] at h
      cases h
  · rintro ⟨a, m', h_x, h_f⟩
    rw [bind_apply_of_ok h_x]
    exact h_f

end Sequencing

/-! ### Laws -/

/-- **A law of evaluation** in a scope: a property of computations that the elementary steps of
expressions have and that sequencing keeps. -/
structure Law (s : ScopeId) where
  Holds : ∀ {α : Type}, Eval α → Prop
  pure : ∀ {α : Type} (a : α), Holds (pure a : Eval α)
  bind : ∀ {α β : Type} {x : Eval α} {f : α → Eval β},
    Holds x → (∀ a, Holds (f a)) → Holds (x >>= f)
  /-- What cannot be assigned to is refused. -/
  refuse : ∀ target, Holds (throw (.invalidAssignmentTarget target) : Eval Value)
  lookup : ∀ name, Holds (Eval.lookup s name)
  assign : ∀ name v, Holds (Eval.assign s name v)
  create : ∀ fields, Holds (Eval.create fields)
  /-- Reading and writing properties both demand an object, and refuse anything else. -/
  objectOr : ∀ refusal v, refusal = .getOnNonObject ∨ refusal = .setOnNonObject →
    Holds (Eval.objectOr refusal v)
  getProperty : ∀ o property, Holds (Eval.getProperty o property)
  setProperty : ∀ o property v, Holds (Eval.setProperty o property v)
  compareValues : ∀ c a b, Holds (Eval.compareValues c a b)
  operator : ∀ (o : Operator) a b, Holds (Eval.ofResult (o.apply a b))

namespace Law

variable {s : ScopeId} (law : Law s)

/-- The properties of an object literal, one after the other. -/
private theorem evalProperties {properties : List (String × Expr)}
    (h : ∀ p ∈ properties, law.Holds (ScriptLang.eval s p.2)) (fields : Table Value) :
    law.Holds (ScriptLang.evalProperties s fields properties) := by
  induction properties generalizing fields with
  | nil =>
    rw [ScriptLang.evalProperties]
    exact law.pure fields
  | cons p properties ih =>
    obtain ⟨key, value⟩ := p
    obtain ⟨h_value, h_rest⟩ := List.forall_mem_cons.1 h
    rw [ScriptLang.evalProperties]
    exact law.bind h_value fun v => ih h_rest (fields.insert key v)

/-- **What the elementary steps have, evaluation has,** for every expression. -/
theorem eval (e : Expr) : law.Holds (ScriptLang.eval s e) := by
  induction e using Expr.evaluation_induction with
  | identifier name =>
    rw [ScriptLang.eval]
    exact law.lookup name
  | literal value =>
    rw [ScriptLang.eval]
    exact law.pure value.toValue
  | assign name value ih =>
    rw [ScriptLang.eval]
    refine law.bind ih fun v => ?_
    refine law.bind (law.assign name v) fun _ => ?_
    exact law.pure v
  | assignMember base property value ih_base ih_value =>
    rw [ScriptLang.eval]
    -- the base, then the object that it is, then the new value
    refine law.bind ih_base fun b => ?_
    refine law.bind (law.objectOr _ b (.inr rfl)) fun o => ?_
    refine law.bind ih_value fun v => ?_
    refine law.bind (law.setProperty o property v) fun _ => ?_
    exact law.pure v
  | refused target value h_name h_member =>
    rw [eval_assign_refused s value h_name h_member]
    exact law.refuse _
  | object properties ih =>
    rw [ScriptLang.eval]
    refine law.bind (law.evalProperties ih ∅) fun fields => ?_
    exact law.create fields
  | member base property ih =>
    rw [ScriptLang.eval]
    refine law.bind ih fun b => ?_
    refine law.bind (law.objectOr _ b (.inl rfl)) fun o => ?_
    exact law.getProperty o property
  | compare c left right ih_left ih_right =>
    rw [ScriptLang.eval]
    refine law.bind ih_left fun a => ?_
    refine law.bind ih_right fun b => ?_
    exact law.compareValues c a b
  | binary o left right ih_left ih_right =>
    rw [ScriptLang.eval]
    refine law.bind ih_left fun a => ?_
    refine law.bind ih_right fun b => ?_
    exact law.operator o a b

end Law

end ScriptLang
