import ScriptLang.Proofs.Environment.Requests
import ScriptLang.Proofs.Evaluation.Law
import ScriptLang.Proofs.Script.Rendering
import ScriptLang.Proofs.Session.History

/-!
# Declarations without a value

A declaration without a value declares the name for whatever the name `null` means in the scope, and
`null` is a name like any other. In the root it is a constant, but a scope inside may declare it anew,
and then this is what declarations without a value give there and further inside.

* `readProgram_let` — how such a declaration is read.
* `get_of_exec_declare` — what a declaration of a name for another one makes it mean.
* `declared_without_value` — what such a declaration gives in the end.
* `declared_without_value_of_hidden` — that need not be the value `null`.
-/

namespace ScriptLang

open Lexeme

/-! ### Reading -/

/-- **A declaration without a value** is read as one for the name `null`. -/
theorem readProgram_let {x : String} (h : IsName x) :
    readProgram ("let " ++ x ++ ";") = .ok [.declare false x .null] := by
  have h_text : ("let " ++ x ++ ";").toList = "let".toList ++ ' ' :: (x.toList ++ [';']) := by
    simp
  have h_keyword : Fits .declaration "let" := .inl rfl
  have h_fits : Fits .identifier x := h
  have h_wording : wording ("let " ++ x ++ ";").toList =
      ⟨[⟨.declaration, "let"⟩, ⟨.identifier, x⟩, Word.symbol .semicolon], true⟩ := by
    rw [h_text, wording_word h_keyword rfl (isBorder_blank rfl _), wording_blank rfl,
      wording_word h_fits rfl (isBorder_symbol rfl (by decide) []),
      wording_sign .semicolon ';' rfl (by decide) (by decide), wording_nil]
    rfl
  refine readProgram_eq_ok.2 ⟨[⟨.declaration, "let"⟩, ⟨.identifier, x⟩,
    Word.symbol .semicolon].map Word.token, ?_, ?_⟩
  · rw [map_word_token]
    exact h_wording
  · exact .cons (.declareNull rfl (by decide) rfl rfl) .nil

/-! ### Running -/

section Running

variable {s : ScopeId} {m m' : Machine} {v : Value}

/-- **What is declared means its value** where it is declared. -/
theorem get_of_exec_declare {constant : Bool} {x : String} {e : Expr}
    (h : exec s (.declare constant x e) m = .ok v m') :
    ∃ w m₁, eval s e m = .ok w m₁ ∧ m'.scopes.get s x = .ok w := by
  obtain ⟨w, m₁, h_eval, h⟩ := bind_apply_eq_ok.1 h
  obtain ⟨⟨⟩, m₂, h_declare, h⟩ := bind_apply_eq_ok.1 h
  cases h
  refine ⟨w, m₁, h_eval, ?_⟩
  unfold Eval.declare Eval.updateScopes at h_declare
  split at h_declare
  next scopes h_scopes =>
    cases h_declare
    obtain ⟨h_live, _, rfl⟩ := Environment.declare_eq_ok h_scopes
    have h_bound : (m₁.scopes.bind s x ⟨w, constant⟩).binding? s x = some ⟨w, constant⟩ := by
      obtain ⟨scope, h_scope⟩ := Option.isSome_iff_exists.1 h_live
      rw [Environment.binding?_bind, if_pos ⟨rfl, rfl⟩, h_scope, Option.map_some]
    exact Environment.get_of_binding? h_bound
  next => cases h_declare

/-- The value of a name is what it means. -/
theorem get_of_eval_identifier {name : String} (h : eval s (.identifier name) m = .ok v m') :
    m.scopes.get s name = .ok v := by
  rw [eval] at h
  unfold Eval.lookup Eval.ofResult at h
  split at h
  next w h_get =>
    cases h
    exact h_get
  next => cases h

/-- What runs to its end with its errors changed runs to its end without. -/
private theorem adaptExcept_eq_ok {ε ε' : Type} {x : EStateM ε Machine Value} {f : ε → ε'}
    (h : x.adaptExcept f m = .ok v m') : x m = .ok v m' := by
  unfold EStateM.adaptExcept at h
  split at h
  next => cases h
  next w m₁ h_x =>
    cases h
    exact h_x

/-- **A script of one statement** that runs to its end executes it to its end. -/
theorem exec_of_runScript {source : String} {statement : Stmt}
    (h_read : readProgram source = .ok [statement]) (h : runScript s source m = .ok v m') :
    exec s statement m = .ok v m' := by
  unfold runScript at h
  rw [h_read] at h
  obtain ⟨w, m₁, h_step, h_rest⟩ := bind_apply_eq_ok.1 (adaptExcept_eq_ok h)
  cases h_rest
  exact adaptExcept_eq_ok h_step

end Running

/-- **What a declaration without a value gives.** In a scope of whatever machine the host of a fresh
one brings about, if such a declaration is run to its end, then the name means what `null` meant in
the scope before. That is the value `null`, unless a scope around, the scope itself included, binds
the name `null` anew. -/
theorem declared_without_value {capacity : Option Nat} {operations : List Operation} {m m' : Machine}
    (h_m : m = (Machine.initial capacity).perform operations) {s : ScopeId} {x : String}
    (h_name : IsName x) {v : Value} (h : runScript s ("let " ++ x ++ ";") m = .ok v m') :
    m'.scopes.get s x = m.scopes.get s "null" ∧
      ((∀ t, m.scopes.Around s t → t ≠ Environment.root → m.scopes.binding? t "null" = none) →
        m'.scopes.get s x = .ok .null) := by
  have h_exec := exec_of_runScript (readProgram_let h_name) h
  obtain ⟨w, m₁, h_eval, h_x⟩ := get_of_exec_declare h_exec
  have h_null := get_of_eval_identifier h_eval
  refine ⟨h_x.trans h_null.symm, fun h_own => ?_⟩
  obtain ⟨o, b, around, h_bound, rfl⟩ := Environment.get_eq_ok h_null
  -- it can only be found in the root, where it is the constant that was there from the beginning
  obtain rfl : o = Environment.root := by
    by_contra h_o
    rw [h_own o around h_o] at h_bound
    cases h_bound
  have h_start : (Machine.initial capacity).scopes.binding? Environment.root "null" =
      some ⟨.null, true⟩ := rfl
  obtain ⟨b', h_bound', lasts⟩ := Machine.retains_perform h_start
    (Machine.not_discarded_root _ operations)
  rw [← h_m, h_bound] at h_bound'
  cases h_bound'
  rw [h_x, lasts.value rfl]

/-- A machine with two scopes beside each other, in the first of which `null` is 5. -/
def Machine.hiding : Machine := (initial none).perform
  [.child Environment.root, .run ⟨1⟩ [.declare false "null" (.literal (.number 5))],
    .child Environment.root]

private theorem runScript_let (s : ScopeId) :
    runScript s "let x;" Machine.hiding =
      (run s [.declare false "x" .null]).adaptExcept .execution Machine.hiding := by
  have h_read : readProgram "let x;" = .ok [.declare false "x" .null] :=
    eq_ok_of_toOption (by decide +kernel)
  rw [runScript, h_read]

/-- What the first scope binds is nothing to the second. -/
theorem declared_without_value_of_beside : ∃ v m',
    runScript ⟨2⟩ "let x;" Machine.hiding = .ok v m' ∧ m'.scopes.get ⟨2⟩ "x" = .ok .null := by
  have h_own : ∀ t, Machine.hiding.scopes.Around ⟨2⟩ t → t ≠ Environment.root →
      Machine.hiding.scopes.binding? t "null" = none := by
    intro t around h_t
    cases around with
    | self => rfl
    | further h_p around =>
      -- the scope is in the root, and the root is in none
      cases h_p
      cases around with
      | self => exact absurd rfl h_t
      | further h_p _ => cases h_p
  have h_run := (runScript_let ⟨2⟩).trans rfl
  have h_text : "let x;" = "let " ++ "x" ++ ";" := by decide +kernel
  exact ⟨_, _, h_run, (declared_without_value rfl (by decide) (h_text ▸ h_run)).2 h_own⟩

/-- **A declaration without a value need not give `null`:** in the first scope it gives 5. -/
theorem declared_without_value_of_hidden :
    readProgram "let null = 5;" = .ok [.declare false "null" (.literal (.number 5))] ∧
      Machine.hiding.scopes.Live ⟨1⟩ ∧ IsName "x" ∧
      ∃ v m', runScript ⟨1⟩ "let x;" Machine.hiding = .ok v m' ∧
        m'.scopes.get ⟨1⟩ "x" = .ok (.number 5) ∧ (Value.number 5) ≠ .null := by
  have h_read : readProgram "let null = 5;" = .ok [.declare false "null" (.literal (.number 5))] :=
    eq_ok_of_toOption (by decide +kernel)
  exact ⟨h_read, rfl, by decide, _, _, (runScript_let ⟨1⟩).trans rfl, rfl, nofun⟩

end ScriptLang
