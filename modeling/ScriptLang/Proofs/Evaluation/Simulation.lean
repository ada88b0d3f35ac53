import ScriptLang.Evaluation.Basic
import ScriptLang.Proofs.Table

/-!
# Simulations between runs

Two runs of one program, in two scopes and from two states, go on alike if each elementary step of
theirs does. What they have in common is said relative to a *world*, which may grow in the course of
a run, as objects are created on both sides; whatever is related in a world stays related in every
later one.

* `Comparison.Related` — two computations that lead from related states to related states, with
  related results or the same error.
* `Comparison.Related.bind` — related computations one after the other.
* `Simulation` — what has to be shown of the elementary steps.
* `Simulation.related_eval`, `related_exec` and `related_run` — what follows for expressions, by
  induction on them, for statements and for programs.
-/

namespace ScriptLang

/-- **What states are compared by:** the worlds and how they grow, and which states are related in a
world. -/
structure Comparison where
  World : Type
  le : World → World → Prop
  le_refl : ∀ w, le w w
  le_trans : ∀ {u v w}, le u v → le v w → le u w
  Machines : World → Machine → Machine → Prop

namespace Comparison

variable (C : Comparison) {ε ε' α β : Type}

/-- Two outcomes agree if both are results that are related in a later world, or both are the same
error; the states they leave are related in that world in any case. -/
inductive Agree (R : C.World → α → α → Prop) (w : C.World) :
    EStateM.Result ε Machine α → EStateM.Result ε Machine α → Prop where
  | ok {w' a₁ a₂ m₁ m₂} (later : C.le w w') (machines : C.Machines w' m₁ m₂)
      (results : R w' a₁ a₂) : Agree R w (.ok a₁ m₁) (.ok a₂ m₂)
  | error {w' e m₁ m₂} (later : C.le w w') (machines : C.Machines w' m₁ m₂) :
      Agree R w (.error e m₁) (.error e m₂)

/-- **Related computations:** in every later world, related states lead to outcomes that agree. -/
def Related (w : C.World) (x₁ x₂ : EStateM ε Machine α) (R : C.World → α → α → Prop) : Prop :=
  ∀ w', C.le w w' → ∀ m₁ m₂, C.Machines w' m₁ m₂ → C.Agree R w' (x₁ m₁) (x₂ m₂)

variable {C} {w : C.World}

/-- Outcomes that agree after a later world agree after the earlier one. -/
theorem Agree.of_le {R : C.World → α → α → Prop} {w' : C.World}
    {r₁ r₂ : EStateM.Result ε Machine α} (le : C.le w w') (h : C.Agree R w' r₁ r₂) :
    C.Agree R w r₁ r₂ := by
  cases h with
  | ok later machines results => exact .ok (C.le_trans le later) machines results
  | error later machines => exact .error (C.le_trans le later) machines

/-- Results without a step. -/
theorem related_pure {R : C.World → α → α → Prop} {a₁ a₂ : α}
    (h : ∀ w', C.le w w' → R w' a₁ a₂) :
    C.Related w (pure a₁ : EStateM ε Machine α) (pure a₂) R := fun w' later _ _ machines =>
  .ok (C.le_refl w') machines (h w' later)

/-- The same refusal on both sides. -/
theorem related_throw {R : C.World → α → α → Prop} (e : ε) :
    C.Related w (throw e : EStateM ε Machine α) (throw e) R := fun w' _ _ _ machines =>
  .error (C.le_refl w') machines

/-- **Related computations one after the other.** -/
theorem Related.bind {R : C.World → α → α → Prop} {S : C.World → β → β → Prop}
    {x₁ x₂ : EStateM ε Machine α} {f₁ f₂ : α → EStateM ε Machine β} (h : C.Related w x₁ x₂ R)
    (h_f : ∀ w', C.le w w' → ∀ a₁ a₂, R w' a₁ a₂ → C.Related w' (f₁ a₁) (f₂ a₂) S) :
    C.Related w (x₁ >>= f₁) (x₂ >>= f₂) S := by
  intro w' later m₁ m₂ machines
  show C.Agree S w' (EStateM.bind x₁ f₁ m₁) (EStateM.bind x₂ f₂ m₂)
  unfold EStateM.bind
  have h_first := h w' later m₁ m₂ machines
  generalize x₁ m₁ = r₁ at h_first
  generalize x₂ m₂ = r₂ at h_first
  cases h_first with
  | @ok w'' a₁ a₂ m₁' m₂' later' machines' results =>
    have h_second := h_f w'' (C.le_trans later later') a₁ a₂ results
    exact (h_second w'' (C.le_refl w'') m₁' m₂' machines').of_le later'
  | error later' machines' => exact .error later' machines'

/-- Errors that are put in a context. -/
theorem Related.adaptExcept {R : C.World → α → α → Prop} {x₁ x₂ : EStateM ε Machine α}
    (h : C.Related w x₁ x₂ R) (f : ε → ε') :
    C.Related w (x₁.adaptExcept f) (x₂.adaptExcept f) R := by
  intro w' later m₁ m₂ machines
  unfold EStateM.adaptExcept
  have h_outcome := h w' later m₁ m₂ machines
  generalize x₁ m₁ = r₁ at h_outcome
  generalize x₂ m₂ = r₂ at h_outcome
  cases h_outcome with
  | ok later' machines' results => exact .ok later' machines' results
  | error later' machines' => exact .error later' machines'

end Comparison

/-! ### The elementary steps -/

/-- No condition on results that nobody looks at. -/
abbrev unconditional {World α : Type} : World → α → α → Prop := fun _ _ _ => True

/-- **A simulation** between runs in one scope and runs in another: which values are related, which
names are declared, and that each elementary step respects it. -/
structure Simulation (s₁ s₂ : ScopeId) extends Comparison where
  Values : World → Value → Value → Prop
  values_mono : ∀ {w w' a b}, le w w' → Values w a b → Values w' a b
  /-- Values that are no objects are related to themselves. -/
  plain : ∀ w v, (∀ o, v ≠ .object o) → Values w v v
  lookup : ∀ w name,
    toComparison.Related w (Eval.lookup s₁ name) (Eval.lookup s₂ name) Values
  assign : ∀ w name {v₁ v₂}, Values w v₁ v₂ →
    toComparison.Related w (Eval.assign s₁ name v₁) (Eval.assign s₂ name v₂) unconditional
  /-- The names that programs may declare. -/
  Declares : String → Prop
  declare : ∀ w name constant {v₁ v₂}, Declares name → Values w v₁ v₂ →
    toComparison.Related w (Eval.declare s₁ name ⟨v₁, constant⟩)
      (Eval.declare s₂ name ⟨v₂, constant⟩) unconditional
  create : ∀ w {t₁ t₂ : Table Value}, t₁.Rel (Values w) t₂ →
    toComparison.Related w (Eval.create t₁) (Eval.create t₂) Values
  objectOr : ∀ w refusal {v₁ v₂}, Values w v₁ v₂ →
    toComparison.Related w (Eval.objectOr refusal v₁) (Eval.objectOr refusal v₂)
      fun w' o₁ o₂ => Values w' (.object o₁) (.object o₂)
  getProperty : ∀ w property {o₁ o₂}, Values w (.object o₁) (.object o₂) →
    toComparison.Related w (Eval.getProperty o₁ property) (Eval.getProperty o₂ property) Values
  setProperty : ∀ w property {o₁ o₂ v₁ v₂}, Values w (.object o₁) (.object o₂) →
    Values w v₁ v₂ →
    toComparison.Related w (Eval.setProperty o₁ property v₁) (Eval.setProperty o₂ property v₂)
      unconditional
  compareValues : ∀ w c {a₁ a₂ b₁ b₂}, Values w a₁ a₂ → Values w b₁ b₂ →
    toComparison.Related w (Eval.compareValues c a₁ b₁) (Eval.compareValues c a₂ b₂) Values
  operator : ∀ w (o : Operator) {a₁ a₂ b₁ b₂}, Values w a₁ a₂ → Values w b₁ b₂ →
    toComparison.Related w (Eval.ofResult (o.apply a₁ b₁)) (Eval.ofResult (o.apply a₂ b₂)) Values
  printLine : ∀ w {v₁ v₂}, Values w v₁ v₂ →
    toComparison.Related w (Eval.printLine v₁) (Eval.printLine v₂) unconditional

namespace Simulation

open Comparison

variable {s₁ s₂ : ScopeId} (sim : Simulation s₁ s₂)

/-! ### Expressions -/

/-- An expression is evaluated alike in both scopes. -/
private def Evaluates (e : Expr) : Prop :=
  ∀ w, sim.Related w (eval s₁ e) (eval s₂ e) sim.Values

/-- The properties of an object literal, one after the other. -/
private theorem related_evalProperties {properties : List (String × Expr)}
    (h : ∀ p ∈ properties, sim.Evaluates p.2) (w : sim.World) {t₁ t₂ : Table Value}
    (h_t : t₁.Rel (sim.Values w) t₂) :
    sim.Related w (evalProperties s₁ t₁ properties) (evalProperties s₂ t₂ properties)
      fun w' t₁ t₂ => t₁.Rel (sim.Values w') t₂ := by
  induction properties generalizing w t₁ t₂ with
  | nil =>
    rw [evalProperties, evalProperties]
    exact related_pure fun w' later => h_t.mono fun _ _ => sim.values_mono later
  | cons p properties ih =>
    obtain ⟨key, value⟩ := p
    obtain ⟨h_value, h_rest⟩ := List.forall_mem_cons.1 h
    rw [evalProperties, evalProperties]
    -- the properties so far are still related in the world that the value leads to
    refine (h_value w).bind fun w' later v₁ v₂ h_v => ?_
    exact ih h_rest w' ((h_t.mono fun _ _ => sim.values_mono later).insert key h_v)

private theorem evaluates (e : Expr) : sim.Evaluates e := by
  induction e using Expr.evaluation_induction with
  | identifier name =>
    intro w
    rw [eval, eval]
    exact sim.lookup w name
  | literal value =>
    intro w
    rw [eval, eval]
    refine related_pure fun w' _ => sim.plain w' _ ?_
    cases value <;> rintro o ⟨⟩
  | assign name value ih =>
    intro w
    rw [eval, eval]
    refine (ih w).bind fun w' _ v₁ v₂ h_v => ?_
    refine (sim.assign w' name h_v).bind fun w'' later _ _ _ => ?_
    exact related_pure fun _ later' => sim.values_mono (sim.le_trans later later') h_v
  | assignMember base property value ih_base ih_value =>
    intro w
    rw [eval, eval]
    -- the base, then the object that it is, then the new value
    refine (ih_base w).bind fun w₁ _ b₁ b₂ h_b => ?_
    refine (sim.objectOr w₁ _ h_b).bind fun w₂ _ o₁ o₂ h_o => ?_
    refine (ih_value w₂).bind fun w₃ later v₁ v₂ h_v => ?_
    refine (sim.setProperty w₃ property (sim.values_mono later h_o) h_v).bind
      fun w₄ later _ _ _ => ?_
    exact related_pure fun _ later' => sim.values_mono (sim.le_trans later later') h_v
  | refused target value h_name h_member =>
    intro w
    rw [eval_assign_refused s₁ value h_name h_member,
      eval_assign_refused s₂ value h_name h_member]
    exact related_throw _
  | object properties ih =>
    intro w
    rw [eval, eval]
    refine (sim.related_evalProperties ih w (Table.rel_empty _)).bind fun w' _ t₁ t₂ h_t => ?_
    exact sim.create w' h_t
  | member base property ih =>
    intro w
    rw [eval, eval]
    refine (ih w).bind fun w₁ _ b₁ b₂ h_b => ?_
    refine (sim.objectOr w₁ _ h_b).bind fun w₂ _ o₁ o₂ h_o => ?_
    exact sim.getProperty w₂ property h_o
  | compare c left right ih_left ih_right =>
    intro w
    rw [eval, eval]
    refine (ih_left w).bind fun w₁ _ a₁ a₂ h_a => ?_
    refine (ih_right w₁).bind fun w₂ later b₁ b₂ h_b => ?_
    exact sim.compareValues w₂ c (sim.values_mono later h_a) h_b
  | binary o left right ih_left ih_right =>
    intro w
    rw [eval, eval]
    refine (ih_left w).bind fun w₁ _ a₁ a₂ h_a => ?_
    refine (ih_right w₁).bind fun w₂ later b₁ b₂ h_b => ?_
    exact sim.operator w₂ o (sim.values_mono later h_a) h_b

/-- **Expressions are evaluated alike.** -/
theorem related_eval (e : Expr) (w : sim.World) :
    sim.Related w (eval s₁ e) (eval s₂ e) sim.Values := sim.evaluates e w

/-! ### Statements and programs -/

private theorem values_null (w : sim.World) : sim.Values w .null .null :=
  sim.plain w .null (by rintro o ⟨⟩)

/-- **Statements have the same effect.** -/
theorem related_exec (s : Stmt)
    (h : ∀ constant name e, s = .declare constant name e → sim.Declares name) (w : sim.World) :
    sim.Related w (exec s₁ s) (exec s₂ s) sim.Values := by
  cases s with
  | expression e => exact sim.related_eval e w
  | print e =>
    refine (sim.related_eval e w).bind fun w₁ _ v₁ v₂ h_v => ?_
    refine (sim.printLine w₁ h_v).bind fun w₂ _ _ _ _ => ?_
    exact related_pure fun w₃ _ => sim.values_null w₃
  | declare constant name e =>
    have h_name : sim.Declares name := h constant name e rfl
    refine (sim.related_eval e w).bind fun w₁ _ v₁ v₂ h_v => ?_
    refine (sim.declare w₁ name constant h_name h_v).bind fun w₂ _ _ _ _ => ?_
    exact related_pure fun w₃ _ => sim.values_null w₃

private theorem related_runFrom (p : Program)
    (h_p : ∀ constant name e, .declare constant name e ∈ p → sim.Declares name) (w : sim.World)
    {v₁ v₂ : Value} (h : sim.Values w v₁ v₂) :
    sim.Related w (runFrom s₁ v₁ p) (runFrom s₂ v₂ p) sim.Values := by
  induction p generalizing w v₁ v₂ with
  | nil => exact related_pure fun w' later => sim.values_mono later h
  | cons s p ih =>
    have h_s : ∀ constant name e, s = .declare constant name e → sim.Declares name :=
      fun constant name e h_eq => h_p constant name e (h_eq ▸ List.mem_cons_self)
    have h_rest : ∀ constant name e, .declare constant name e ∈ p → sim.Declares name :=
      fun constant name e h_mem => h_p constant name e (List.mem_cons_of_mem s h_mem)
    -- both errors name the same statement
    have h_step : sim.Related w (step s₁ s) (step s₂ s) sim.Values :=
      (sim.related_exec s h_s w).adaptExcept _
    exact h_step.bind fun w' _ v₁ v₂ h_v => ih h_rest w' h_v

/-- **Programs run alike,** if they declare only names that they may. -/
theorem related_run (p : Program)
    (h_p : ∀ constant name e, .declare constant name e ∈ p → sim.Declares name) (w : sim.World) :
    sim.Related w (run s₁ p) (run s₂ p) sim.Values :=
  sim.related_runFrom p h_p w (sim.values_null w)

end Simulation

end ScriptLang
