import Mathlib.Data.Fintype.Card
import ScriptLang.Environment
import ScriptLang.Proofs.Heap.Renaming

/-!
# Chains of scopes

What a name means in a scope depends on the chain from the scope outwards and on nothing else. Two
chains, of two environments, are alike if they have the same length and end alike, in an outermost
scope or in one that is no more, and if corresponding scopes bind the same names to the same values
up to renaming. Then names mean the same in both, and assignments and declarations keep the chains
alike, since a chain that ends passes no scope twice.

* `Environment.Depth.le_size` — a chain that ends is no longer than the walk along it can be.
* `Environment.ChainsAlike` — chains that are alike.
* `Environment.ChainsAlike.get`, `assign`, `declare` — what names mean, and what changes them.
-/

namespace ScriptLang

/-- Outcomes that agree: related results, or the same error. -/
inductive Outcomes {ε α : Type} (R : α → α → Prop) : Except ε α → Except ε α → Prop where
  | ok {a₁ a₂} (h : R a₁ a₂) : Outcomes R (.ok a₁) (.ok a₂)
  | error (e : ε) : Outcomes R (.error e) (.error e)

/-- Bindings that are the same up to renaming. -/
def Binding.Rel (β : Renaming) (b₁ b₂ : Binding) : Prop :=
  b₁.constant = b₂.constant ∧ b₁.value.Rel β b₂.value

namespace Environment

/-! ### How long a chain is -/

/-- **The chain from a scope outwards ends** at the step of the given number. -/
inductive Depth (e : Environment) : Nat → ScopeId → Prop where
  | gone {s} (h : e.scope? s = none) : Depth e 1 s
  | outermost {s scope} (h : e.scope? s = some scope) (h_parent : scope.parent = none) :
      Depth e 1 s
  | inside {n s scope p} (h : e.scope? s = some scope) (h_parent : scope.parent = some p)
      (around : Depth e n p) : Depth e (n + 1) s

namespace Depth

variable {e : Environment}

/-- A chain has one length. -/
theorem unique {m n : Nat} {s : ScopeId} (h : e.Depth m s) (h' : e.Depth n s) : m = n := by
  induction h generalizing n with
  | gone h =>
    cases h' with
    | gone _ => rfl
    | outermost h' _ => rfl
    | inside h' _ _ => rw [h] at h'; cases h'
  | outermost h h_parent =>
    cases h' with
    | gone _ => rfl
    | outermost _ _ => rfl
    | inside h' h_parent' _ =>
      rw [h] at h'
      cases h'
      rw [h_parent] at h_parent'
      cases h_parent'
  | inside h h_parent _ ih =>
    cases h' with
    | gone h' => rw [h] at h'; cases h'
    | outermost h' h_parent' =>
      rw [h] at h'
      cases h'
      rw [h_parent] at h_parent'
      cases h_parent'
    | inside h' h_parent' around' =>
      rw [h] at h'
      cases h'
      rw [h_parent] at h_parent'
      cases h_parent'
      rw [ih around']

/-- Every smaller length is that of some scope on the chain, and all but the last have a slot. -/
private theorem exists_of_le {n : Nat} {s : ScopeId} (h : e.Depth n s) :
    ∀ k, k + 2 ≤ n → ∃ t : ScopeId, e.Depth (k + 2) t ∧ t.index < e.slots.size := by
  induction h with
  | gone _ => intro k h_k; omega
  | outermost _ _ => intro k h_k; omega
  | @inside n s scope p h h_parent around ih =>
    intro k h_k
    -- the greatest of these lengths is that of the scope itself
    by_cases h_last : k + 2 = n + 1
    · refine ⟨s, ?_, index_lt_size h⟩
      rw [h_last]
      exact .inside h h_parent around
    · exact ih k (by omega)

/-- **A chain that ends is no longer than the walk along it.** Scopes of different lengths are
different scopes, so there are no more of them than slots. -/
theorem le_size {n : Nat} {s : ScopeId} (h : e.Depth n s) : n ≤ e.slots.size + 1 := by
  have h_scopes : ∀ i : Fin (n - 1), ∃ t : ScopeId, e.Depth (i + 2) t ∧ t.index < e.slots.size :=
    fun i => h.exists_of_le i (by omega)
  choose scopeAt h_depth h_index using h_scopes
  have h_injective : Function.Injective
      (fun i => (⟨(scopeAt i).index, h_index i⟩ : Fin e.slots.size)) := by
    intro i j h_eq
    have h_same : scopeAt i = scopeAt j := congrArg ScopeId.mk (Fin.mk.inj h_eq)
    have h_length := (h_same ▸ h_depth i).unique (h_depth j)
    exact Fin.ext (by omega)
  -- the scopes of the lengths from 2 on have slots of their own
  have h_card := Fintype.card_le_of_injective _ h_injective
  rw [Fintype.card_fin, Fintype.card_fin] at h_card
  omega

end Depth

/-! ### Chains that are alike -/

/-- **Two chains that are alike,** with the number of the step at which both of them end. -/
inductive ChainsAlike (β : Renaming) (e₁ e₂ : Environment) : Nat → ScopeId → ScopeId → Prop where
  | gone {s₁ s₂} (h₁ : e₁.scope? s₁ = none) (h₂ : e₂.scope? s₂ = none) :
      ChainsAlike β e₁ e₂ 1 s₁ s₂
  | outermost {s₁ s₂ scope₁ scope₂} (h₁ : e₁.scope? s₁ = some scope₁)
      (h₂ : e₂.scope? s₂ = some scope₂) (parent₁ : scope₁.parent = none)
      (parent₂ : scope₂.parent = none)
      (bindings : scope₁.bindings.Rel (Binding.Rel β) scope₂.bindings) :
      ChainsAlike β e₁ e₂ 1 s₁ s₂
  | inside {n s₁ s₂ scope₁ scope₂ p₁ p₂} (h₁ : e₁.scope? s₁ = some scope₁)
      (h₂ : e₂.scope? s₂ = some scope₂) (parent₁ : scope₁.parent = some p₁)
      (parent₂ : scope₂.parent = some p₂)
      (bindings : scope₁.bindings.Rel (Binding.Rel β) scope₂.bindings)
      (around : ChainsAlike β e₁ e₂ n p₁ p₂) : ChainsAlike β e₁ e₂ (n + 1) s₁ s₂

namespace ChainsAlike

variable {β : Renaming} {e₁ e₂ : Environment} {n : Nat} {s₁ s₂ : ScopeId}

theorem mono {β' : Renaming} (h : ChainsAlike β e₁ e₂ n s₁ s₂)
    (le : ∀ o₁ o₂, β o₁ o₂ → β' o₁ o₂) : ChainsAlike β' e₁ e₂ n s₁ s₂ := by
  have le_bindings : ∀ b₁ b₂, Binding.Rel β b₁ b₂ → Binding.Rel β' b₁ b₂ := fun _ _ h_b =>
    ⟨h_b.1, h_b.2.mono le⟩
  induction h with
  | gone h₁ h₂ => exact .gone h₁ h₂
  | outermost h₁ h₂ parent₁ parent₂ bindings =>
    exact .outermost h₁ h₂ parent₁ parent₂ (bindings.mono le_bindings)
  | inside h₁ h₂ parent₁ parent₂ bindings _ ih =>
    exact .inside h₁ h₂ parent₁ parent₂ (bindings.mono le_bindings) ih

theorem symm (h : ChainsAlike β e₁ e₂ n s₁ s₂) : ChainsAlike β.swap e₂ e₁ n s₂ s₁ := by
  have swap_bindings : ∀ b₁ b₂, Binding.Rel β b₁ b₂ → Binding.Rel β.swap b₂ b₁ := fun _ _ h_b =>
    ⟨h_b.1.symm, h_b.2.symm⟩
  induction h with
  | gone h₁ h₂ => exact .gone h₂ h₁
  | outermost h₁ h₂ parent₁ parent₂ bindings =>
    exact .outermost h₂ h₁ parent₂ parent₁ (bindings.symm swap_bindings)
  | inside h₁ h₂ parent₁ parent₂ bindings _ ih =>
    exact .inside h₂ h₁ parent₂ parent₁ (bindings.symm swap_bindings) ih

theorem depth (h : ChainsAlike β e₁ e₂ n s₁ s₂) : e₁.Depth n s₁ ∧ e₂.Depth n s₂ := by
  induction h with
  | gone h₁ h₂ => exact ⟨.gone h₁, .gone h₂⟩
  | outermost h₁ h₂ parent₁ parent₂ _ => exact ⟨.outermost h₁ parent₁, .outermost h₂ parent₂⟩
  | inside h₁ h₂ parent₁ parent₂ _ _ ih =>
    exact ⟨.inside h₁ parent₁ ih.1, .inside h₂ parent₂ ih.2⟩

/-! ### Changes -/

/-- A scope that is not on a chain of another length has the record it had. -/
private theorem scope?_bind_of_depth {e : Environment} {m n : Nat} {o s : ScopeId}
    (h_o : e.Depth m o) (h_s : e.Depth n s) (h : n ≠ m) (name : String) (b : Binding) :
    (e.bind o name b).scope? s = e.scope? s := by
  rw [scope?_bind, if_neg]
  rintro rfl
  exact h (h_s.unique h_o)

/-- **A change further in leaves a chain as it is.** -/
theorem bind_of_lt (h : ChainsAlike β e₁ e₂ n s₁ s₂) {m : Nat} {o₁ o₂ : ScopeId}
    (h_o₁ : e₁.Depth m o₁) (h_o₂ : e₂.Depth m o₂) (lt : n < m) (name : String)
    (b₁ b₂ : Binding) : ChainsAlike β (e₁.bind o₁ name b₁) (e₂.bind o₂ name b₂) n s₁ s₂ := by
  induction h with
  | gone h₁ h₂ =>
    refine .gone ?_ ?_
    · rw [scope?_bind_of_depth h_o₁ (.gone h₁) (by omega), h₁]
    · rw [scope?_bind_of_depth h_o₂ (.gone h₂) (by omega), h₂]
  | outermost h₁ h₂ parent₁ parent₂ bindings =>
    refine .outermost ?_ ?_ parent₁ parent₂ bindings
    · rw [scope?_bind_of_depth h_o₁ (.outermost h₁ parent₁) (by omega), h₁]
    · rw [scope?_bind_of_depth h_o₂ (.outermost h₂ parent₂) (by omega), h₂]
  | inside h₁ h₂ parent₁ parent₂ bindings around ih =>
    obtain ⟨h_p₁, h_p₂⟩ := around.depth
    refine .inside ?_ ?_ parent₁ parent₂ bindings (ih (by omega))
    · rw [scope?_bind_of_depth h_o₁ (.inside h₁ parent₁ h_p₁) (by omega), h₁]
    · rw [scope?_bind_of_depth h_o₂ (.inside h₂ parent₂ h_p₂) (by omega), h₂]

/-- The record of a scope in which a name is bound. -/
private theorem scope?_bind_self {e : Environment} {s : ScopeId} {scope : Scope}
    (h : e.scope? s = some scope) (name : String) (b : Binding) :
    (e.bind s name b).scope? s =
      some { scope with bindings := scope.bindings.insert name b } := by
  rw [scope?_bind, if_pos rfl, h, Option.map_some]

/-- **Binding a name to related values** in the scopes at which two chains begin. -/
theorem bind_self (h : ChainsAlike β e₁ e₂ n s₁ s₂) (name : String) {b₁ b₂ : Binding}
    (h_b : b₁.Rel β b₂) :
    ChainsAlike β (e₁.bind s₁ name b₁) (e₂.bind s₂ name b₂) n s₁ s₂ := by
  obtain ⟨h_s₁, h_s₂⟩ := h.depth
  cases h with
  | gone h₁ h₂ =>
    refine .gone ?_ ?_
    · rw [scope?_bind, if_pos rfl, h₁, Option.map_none]
    · rw [scope?_bind, if_pos rfl, h₂, Option.map_none]
  | outermost h₁ h₂ parent₁ parent₂ bindings =>
    exact .outermost (scope?_bind_self h₁ name b₁) (scope?_bind_self h₂ name b₂) parent₁ parent₂
      (bindings.insert name h_b)
  | @inside n _ _ _ _ _ _ h₁ h₂ parent₁ parent₂ bindings around =>
    -- what is around is a shorter chain, which the scope is not on
    exact .inside (scope?_bind_self h₁ name b₁) (scope?_bind_self h₂ name b₂) parent₁ parent₂
      (bindings.insert name h_b) (around.bind_of_lt h_s₁ h_s₂ (Nat.lt_succ_self n) name b₁ b₂)

/-! ### Names -/

/-- Two searches agree if both fail alike, or if they find related bindings in scopes in which the
name can be bound anew. -/
inductive Finds (β : Renaming) (e₁ e₂ : Environment) (n : Nat) (s₁ s₂ : ScopeId) (name : String) :
    Except RuntimeError (ScopeId × Binding) → Except RuntimeError (ScopeId × Binding) → Prop where
  | error (e : RuntimeError) : Finds β e₁ e₂ n s₁ s₂ name (.error e) (.error e)
  | ok {m o₁ o₂ b₁ b₂} (le : m ≤ n) (owners : ChainsAlike β e₁ e₂ m o₁ o₂)
      (bindings : b₁.Rel β b₂)
      (rebind : ∀ b₁' b₂', b₁'.Rel β b₂' →
        ChainsAlike β (e₁.bind o₁ name b₁') (e₂.bind o₂ name b₂') n s₁ s₂) :
      Finds β e₁ e₂ n s₁ s₂ name (.ok (o₁, b₁)) (.ok (o₂, b₂))

/-- What is found further out is found from further in, and rebinding it leaves the inner scopes as
they are. -/
private theorem Finds.inside {p₁ p₂ : ScopeId} {scope₁ scope₂ : Scope}
    (h₁ : e₁.scope? s₁ = some scope₁) (h₂ : e₂.scope? s₂ = some scope₂)
    (parent₁ : scope₁.parent = some p₁) (parent₂ : scope₂.parent = some p₂)
    (bindings : scope₁.bindings.Rel (Binding.Rel β) scope₂.bindings)
    (around : ChainsAlike β e₁ e₂ n p₁ p₂) {name : String}
    {r₁ r₂ : Except RuntimeError (ScopeId × Binding)}
    (h : Finds β e₁ e₂ n p₁ p₂ name r₁ r₂) : Finds β e₁ e₂ (n + 1) s₁ s₂ name r₁ r₂ := by
  cases h with
  | error e => exact .error e
  | ok le owners h_b rebind =>
    -- the owner is on a shorter chain, so it is not the scope itself
    refine .ok (Nat.le_succ_of_le le) owners h_b fun b₁' b₂' h_b' => ?_
    obtain ⟨h_p₁, h_p₂⟩ := around.depth
    obtain ⟨h_o₁, h_o₂⟩ := owners.depth
    refine .inside ?_ ?_ parent₁ parent₂ bindings (rebind b₁' b₂' h_b')
    · rw [scope?_bind_of_depth h_o₁ (.inside h₁ parent₁ h_p₁) (by omega), h₁]
    · rw [scope?_bind_of_depth h_o₂ (.inside h₂ parent₂ h_p₂) (by omega), h₂]

/-- **A walk along two chains that are alike,** long enough for both, agrees. -/
private theorem findWithin (h : ChainsAlike β e₁ e₂ n s₁ s₂) (name : String) {k₁ k₂ : Nat}
    (h_k₁ : n ≤ k₁) (h_k₂ : n ≤ k₂) : Finds β e₁ e₂ n s₁ s₂ name
      (e₁.findWithin name k₁ s₁) (e₂.findWithin name k₂ s₂) := by
  induction h generalizing k₁ k₂ with
  | gone h₁ h₂ =>
    obtain ⟨k₁, rfl⟩ : ∃ k, k₁ = k + 1 := ⟨k₁ - 1, by omega⟩
    obtain ⟨k₂, rfl⟩ : ∃ k, k₂ = k + 1 := ⟨k₂ - 1, by omega⟩
    rw [Environment.findWithin, Environment.findWithin, h₁, h₂]
    exact .error .discardedScope
  | outermost h₁ h₂ parent₁ parent₂ bindings =>
    obtain ⟨k₁, rfl⟩ : ∃ k, k₁ = k + 1 := ⟨k₁ - 1, by omega⟩
    obtain ⟨k₂, rfl⟩ : ∃ k, k₂ = k + 1 := ⟨k₂ - 1, by omega⟩
    have h_self : ChainsAlike β e₁ e₂ 1 _ _ := .outermost h₁ h₂ parent₁ parent₂ bindings
    -- both scopes bind the name, or both walks end here
    have h_name := bindings name
    rw [Environment.findWithin, Environment.findWithin, h₁, h₂]
    dsimp only
    rw [parent₁, parent₂]
    generalize Table.get? _ name = found₁ at h_name ⊢
    generalize Table.get? _ name = found₂ at h_name ⊢
    cases h_name with
    | none => exact .error (.undeclaredVariable name)
    | some h_b => exact .ok (Nat.le_refl 1) h_self h_b fun _ _ h_b' => h_self.bind_self name h_b'
  | @inside n s₁ s₂ scope₁ scope₂ p₁ p₂ h₁ h₂ parent₁ parent₂ bindings around ih =>
    obtain ⟨k₁, rfl⟩ : ∃ k, k₁ = k + 1 := ⟨k₁ - 1, by omega⟩
    obtain ⟨k₂, rfl⟩ : ∃ k, k₂ = k + 1 := ⟨k₂ - 1, by omega⟩
    have h_self : ChainsAlike β e₁ e₂ (n + 1) s₁ s₂ :=
      .inside h₁ h₂ parent₁ parent₂ bindings around
    have h_name := bindings name
    rw [Environment.findWithin, Environment.findWithin, h₁, h₂]
    dsimp only
    rw [parent₁, parent₂]
    generalize scope₁.bindings.get? name = found₁ at h_name ⊢
    generalize scope₂.bindings.get? name = found₂ at h_name ⊢
    cases h_name with
    | none =>
      -- both walks go on outwards, with one step less
      exact (ih (by omega) (by omega)).inside h₁ h₂ parent₁ parent₂ bindings around
    | some h_b =>
      exact .ok (Nat.le_refl _) h_self h_b fun _ _ h_b' => h_self.bind_self name h_b'

/-- **Names mean the same** along two chains that are alike. -/
theorem find (h : ChainsAlike β e₁ e₂ n s₁ s₂) (name : String) :
    Finds β e₁ e₂ n s₁ s₂ name (e₁.find s₁ name) (e₂.find s₂ name) :=
  h.findWithin name h.depth.1.le_size h.depth.2.le_size

/-! ### Operations -/

/-- Names have related values. -/
theorem get (h : ChainsAlike β e₁ e₂ n s₁ s₂) (name : String) :
    Outcomes (Value.Rel β) (e₁.get s₁ name) (e₂.get s₂ name) := by
  unfold Environment.get
  have h_find := h.find name
  generalize e₁.find s₁ name = found₁ at h_find ⊢
  generalize e₂.find s₂ name = found₂ at h_find ⊢
  cases h_find with
  | error e => exact .error e
  | ok _ _ h_b _ => exact .ok h_b.2

/-- **Assigning related values** is refused in both scopes or keeps the chains alike. -/
theorem assign (h : ChainsAlike β e₁ e₂ n s₁ s₂) (name : String) {v₁ v₂ : Value}
    (h_v : v₁.Rel β v₂) : Outcomes (fun e₁' e₂' => ChainsAlike β e₁' e₂' n s₁ s₂)
      (e₁.assign s₁ name v₁) (e₂.assign s₂ name v₂) := by
  unfold Environment.assign
  have h_find := h.find name
  generalize e₁.find s₁ name = found₁ at h_find ⊢
  generalize e₂.find s₂ name = found₂ at h_find ⊢
  cases h_find with
  | error e => exact .error e
  | @ok _ o₁ o₂ b₁ b₂ _ _ h_b rebind =>
    show Outcomes _ (if b₁.constant then _ else _) (if b₂.constant then _ else _)
    rw [h_b.1]
    by_cases h_constant : b₂.constant
    · rw [if_pos h_constant, if_pos h_constant]
      exact .error (RuntimeError.constAssignment name)
    · rw [if_neg h_constant, if_neg h_constant]
      exact .ok (rebind ⟨v₁, b₂.constant⟩ ⟨v₂, b₂.constant⟩ ⟨rfl, h_v⟩)

/-- Declaring a name in scopes that there are, which bind the same names. -/
private theorem declare_of_scopes (h : ChainsAlike β e₁ e₂ n s₁ s₂) {scope₁ scope₂ : Scope}
    (h₁ : e₁.scope? s₁ = some scope₁) (h₂ : e₂.scope? s₂ = some scope₂)
    (bindings : scope₁.bindings.Rel (Binding.Rel β) scope₂.bindings) (name : String)
    {b₁ b₂ : Binding} (h_b : b₁.Rel β b₂) :
    Outcomes (fun e₁' e₂' => ChainsAlike β e₁' e₂' n s₁ s₂)
      (e₁.declare s₁ name b₁) (e₂.declare s₂ name b₂) := by
  unfold Environment.declare
  rw [h₁, h₂]
  dsimp only
  rw [bindings.contains_eq name]
  split
  · exact .error (RuntimeError.duplicateDeclaration name)
  · exact .ok (h.bind_self name h_b)

/-- **Declaring related values** is refused in both scopes or keeps the chains alike. -/
theorem declare (h : ChainsAlike β e₁ e₂ n s₁ s₂) (name : String) {b₁ b₂ : Binding}
    (h_b : b₁.Rel β b₂) : Outcomes (fun e₁' e₂' => ChainsAlike β e₁' e₂' n s₁ s₂)
      (e₁.declare s₁ name b₁) (e₂.declare s₂ name b₂) := by
  have h_chains := h
  cases h with
  | gone h₁ h₂ =>
    unfold Environment.declare
    rw [h₁, h₂]
    exact .error RuntimeError.discardedScope
  | outermost h₁ h₂ _ _ bindings => exact declare_of_scopes h_chains h₁ h₂ bindings name h_b
  | inside h₁ h₂ _ _ bindings _ => exact declare_of_scopes h_chains h₁ h₂ bindings name h_b

end ChainsAlike

end Environment

end ScriptLang
