import ScriptLang.Proofs.Environment.Bindings
import ScriptLang.Proofs.Evaluation.Invariant
import ScriptLang.Proofs.Evaluation.Law

/-!
# What a run declares

A run executes its statements one after the other, and stops at the first that fails. Names are
bound where they were not by declarations alone, in the scope of the run, and by those alone that
were executed to their end. So the names a run adds to what is bound can be read off the statements
that it executed.

* `executed` — the statements that a run executes to their end.
* `executed_of_ok`, `executed_of_error` — these are all of them, or those before the one that the
  error names.
* `Environment.Adds` — the names that are bound in one environment and were not in another.
* `run_adds` — a run adds the names that it declared.
-/

namespace ScriptLang

/-! ### Statements that are executed -/

/-- **The statements that a run executes to their end:** those before the first that fails. -/
def executed (s : ScopeId) : Program → Machine → Program
  | [], _ => []
  | statement :: rest, m =>
    match exec s statement m with
    | .ok _ m' => statement :: executed s rest m'
    | .error _ _ => []

/-- The name that a statement declares, if it is a declaration. -/
def Stmt.declared? : Stmt → Option String
  | declare _ name _ => some name
  | expression _ | print _ => none

/-- The names that a program declares, in order. -/
def Program.declared (p : Program) : List String := p.filterMap Stmt.declared?

section Executed

variable {s : ScopeId} {statement : Stmt} {rest : Program} {m m' : Machine} {v last : Value}
  {e : RuntimeError}

theorem runFrom_of_ok (h : exec s statement m = .ok v m') (last : Value) (rest : Program) :
    runFrom s last (statement :: rest) m = runFrom s v rest m' := by
  have h_step : step s statement m = .ok v m' := by
    unfold step EStateM.adaptExcept
    rw [h]
  exact bind_apply_of_ok h_step

theorem runFrom_of_error (h : exec s statement m = .error e m') (last : Value) (rest : Program) :
    runFrom s last (statement :: rest) m = .error ⟨e, statement⟩ m' := by
  have h_step : step s statement m = .error ⟨e, statement⟩ m' := by
    unfold step EStateM.adaptExcept
    rw [h]
  exact bind_apply_of_error h_step

theorem executed_cons_of_ok (h : exec s statement m = .ok v m') (rest : Program) :
    executed s (statement :: rest) m = statement :: executed s rest m' := by
  rw [executed, h]

theorem executed_cons_of_error (h : exec s statement m = .error e m') (rest : Program) :
    executed s (statement :: rest) m = [] := by
  rw [executed, h]

private theorem executed_of_runFrom (s : ScopeId) (last : Value) (p : Program) (m : Machine) :
    (∀ v m', runFrom s last p m = .ok v m' → executed s p m = p) ∧
      ∀ e m', runFrom s last p m = .error e m' →
        ∃ rest, p = executed s p m ++ e.statement :: rest := by
  induction p generalizing last m with
  | nil => exact ⟨fun _ _ _ => rfl, by rintro _ _ ⟨⟩⟩
  | cons statement p ih =>
    cases h_exec : exec s statement m with
    | ok v m₁ =>
      rw [runFrom_of_ok h_exec, executed_cons_of_ok h_exec]
      obtain ⟨h_ok, h_error⟩ := ih v m₁
      refine ⟨fun v' m' h => ?_, fun e m' h => ?_⟩
      · rw [h_ok v' m' h]
      · obtain ⟨rest, h_p⟩ := h_error e m' h
        exact ⟨rest, congrArg (statement :: ·) h_p⟩
    | error e m₁ =>
      rw [runFrom_of_error h_exec, executed_cons_of_error h_exec]
      exact ⟨by rintro _ _ ⟨⟩, by rintro _ _ ⟨⟩; exact ⟨p, rfl⟩⟩

/-- **A run to the end executes every statement.** -/
theorem executed_of_ok {p : Program} (h : run s p m = .ok v m') : executed s p m = p :=
  (executed_of_runFrom s .null p m).1 v m' h

/-- **A run that stops executes the statements before the one that its error names.** -/
theorem executed_of_error {p : Program} {e : ExecutionError} (h : run s p m = .error e m') :
    ∃ rest, p = executed s p m ++ e.statement :: rest :=
  (executed_of_runFrom s .null p m).2 e m' h

end Executed

/-! ### Names that are added -/

namespace Environment

/-- **The names that are added** to a scope: they were not bound there, each of them is added once,
and nothing else is bound that was not. -/
structure Adds (e : Environment) (s : ScopeId) (names : List String) (e' : Environment) : Prop where
  bound : ∀ t name,
    (e'.binding? t name).isSome ↔ (e.binding? t name).isSome ∨ t = s ∧ name ∈ names
  fresh : ∀ name ∈ names, e.binding? s name = none
  nodup : names.Nodup

variable {e e' : Environment} {s : ScopeId}

theorem Adds.refl (e : Environment) (s : ScopeId) : e.Adds s [] e where
  bound t name := by simp only [List.not_mem_nil, and_false, or_false]
  fresh name h := absurd h List.not_mem_nil
  nodup := List.nodup_nil

/-- Names that are added later are other names. -/
theorem Adds.append {e'' : Environment} {names names' : List String} (h : e.Adds s names e')
    (h' : e'.Adds s names' e'') : e.Adds s (names ++ names') e'' where
  bound t name := by
    rw [h'.bound, h.bound, List.mem_append, and_or_left, or_assoc]
  fresh name h_name := by
    rcases List.mem_append.1 h_name with h_name | h_name
    · exact h.fresh name h_name
    · -- what is not bound later was not bound before
      have h_none := h'.fresh name h_name
      refine Option.not_isSome_iff_eq_none.1 fun h_some => ?_
      have h_bound := (h.bound s name).2 (.inl h_some)
      rw [h_none] at h_bound
      cases h_bound
  nodup := by
    refine List.nodup_append.2 ⟨h.nodup, h'.nodup, ?_⟩
    rintro name h_name _ h_name' rfl
    have h_bound := (h.bound s name).2 (.inr ⟨rfl, h_name⟩)
    rw [h'.fresh name h_name'] at h_bound
    cases h_bound

/-- An assignment adds nothing. -/
theorem Adds.assign {t : ScopeId} {name : String} {v : Value} (h : e.assign t name v = .ok e') :
    e.Adds s [] e' := by
  obtain ⟨o, b, _, h_name, _, rfl⟩ := assign_eq_ok h
  refine ⟨fun t name' => ?_, (Adds.refl e s).fresh, List.nodup_nil⟩
  rw [← (Adds.refl e s).bound t name', binding?_bind]
  split
  · next h_same =>
    obtain ⟨rfl, rfl⟩ := h_same
    obtain ⟨scope, h_scope, _⟩ := binding?_eq_some.1 h_name
    rw [h_scope, h_name]
    rfl
  · rfl

/-- A declaration adds its name. -/
theorem Adds.declare {name : String} {b : Binding} (h : e.declare s name b = .ok e') :
    e.Adds s [name] e' := by
  obtain ⟨h_scope, h_none, rfl⟩ := declare_eq_ok h
  refine ⟨fun t name' => ?_, fun name' h_name' => ?_, List.pairwise_singleton _ name⟩
  · rw [binding?_bind, List.mem_singleton]
    split
    · next h_same =>
      rw [Option.isSome_map, h_scope]
      exact iff_of_true rfl (.inr h_same)
    · next h_other => rw [or_iff_left h_other]
  · rw [List.mem_singleton.1 h_name', h_none]

end Environment

/-! ### Runs -/

namespace Declarations

variable (s : ScopeId) (e : Environment)

/-- The names that are bound are those that are bound in the given scopes. -/
private def invariant : Invariant s where
  Machines m := e.Adds s [] m.scopes
  Values _ := True
  plain _ _ := trivial
  lookup _ _ _ _ _ := trivial
  create _ _ h _ := ⟨h, trivial⟩
  getProperty _ _ _ _ _ _ _ := trivial

private theorem assignments : (invariant s e).Assignments where
  assign _ _ _ _ h _ h_assign := h.append (.assign h_assign)
  setProperty _ _ _ _ h _ _ := h

end Declarations

section Runs

variable {s : ScopeId} {m m' : Machine}

/-- **An expression adds no name,** whether it has a value or not. -/
theorem eval_adds (s : ScopeId) (e : Expr) (m : Machine) :
    m.scopes.Adds s [] (finalMachine (eval s e m)).scopes :=
  ((Declarations.invariant s m.scopes).eval e (.inr (Declarations.assignments s m.scopes)) m
    (.refl m.scopes s)).machine

private theorem print_adds (s : ScopeId) (e : Expr) (m : Machine) :
    m.scopes.Adds s [] (finalMachine (exec s (.print e) m)).scopes := by
  have h_print : Maintains (fun m' => m.scopes.Adds s [] m'.scopes) (exec s (.print e))
      fun _ => True := by
    refine Maintains.bind ((Declarations.invariant s m.scopes).eval e
      (.inr (Declarations.assignments s m.scopes))) fun v _ => ?_
    exact (maintains_printLine (fun _ _ h => h) v).bind fun _ _ => maintains_pure trivial
  exact (h_print m (.refl m.scopes s)).machine

/-- A declaration adds its name if it is executed to its end, and nothing otherwise. -/
private theorem declare_adds (s : ScopeId) (constant : Bool) (name : String) (e : Expr)
    (m : Machine) : m.scopes.Adds s (Program.declared (executed s [.declare constant name e] m))
      (finalMachine (exec s (.declare constant name e) m)).scopes := by
  have h_value := eval_adds s e m
  cases h_eval : eval s e m with
  | error cause m₁ =>
    have h_exec : exec s (.declare constant name e) m = .error cause m₁ :=
      bind_apply_of_error h_eval
    rw [executed_cons_of_error h_exec, h_exec]
    rw [h_eval] at h_value
    exact h_value
  | ok v m₁ =>
    rw [h_eval] at h_value
    have h_exec : exec s (.declare constant name e) m =
        (do Eval.declare s name ⟨v, constant⟩; return .null : Eval Value) m₁ :=
      bind_apply_of_ok h_eval
    cases h_declare : m₁.scopes.declare s name ⟨v, constant⟩ with
    | error cause =>
      have h_refused : Eval.declare s name ⟨v, constant⟩ m₁ = .error cause m₁ := by
        rw [Eval.declare, Eval.updateScopes, h_declare]
      rw [bind_apply_of_error h_refused] at h_exec
      rw [executed_cons_of_error h_exec, h_exec]
      exact h_value
    | ok scopes =>
      have h_declared : Eval.declare s name ⟨v, constant⟩ m₁ = .ok () { m₁ with scopes } := by
        rw [Eval.declare, Eval.updateScopes, h_declare]
      rw [bind_apply_of_ok h_declared] at h_exec
      rw [executed_cons_of_ok h_exec, h_exec]
      exact h_value.append (.declare h_declare)

/-- **A statement adds the name that it declares,** if it is executed to its end. -/
private theorem exec_adds (s : ScopeId) (statement : Stmt) (m : Machine) :
    m.scopes.Adds s (Program.declared (executed s [statement] m))
      (finalMachine (exec s statement m)).scopes := by
  have h_none : ∀ st : Stmt, st.declared? = none →
      Program.declared (executed s [st] m) = [] := by
    intro st h_st
    unfold executed
    split
    · rw [Program.declared, List.filterMap_cons, h_st]
      rfl
    · rfl
  cases statement with
  | expression e =>
    rw [h_none _ rfl]
    exact eval_adds s e m
  | print e =>
    rw [h_none _ rfl]
    exact print_adds s e m
  | declare constant name e => exact declare_adds s constant name e m

private theorem runFrom_adds (s : ScopeId) (last : Value) (p : Program) (m : Machine) :
    m.scopes.Adds s (executed s p m).declared (finalMachine (runFrom s last p m)).scopes := by
  induction p generalizing last m with
  | nil => exact .refl m.scopes s
  | cons statement p ih =>
    have h_first := exec_adds s statement m
    cases h_exec : exec s statement m with
    | ok v m₁ =>
      rw [executed_cons_of_ok h_exec, h_exec] at h_first
      rw [runFrom_of_ok h_exec, executed_cons_of_ok h_exec]
      have h_split : Program.declared (statement :: executed s p m₁) =
          Program.declared [statement] ++ (executed s p m₁).declared :=
        List.filterMap_append (l := [statement])
      rw [h_split]
      exact h_first.append (ih v m₁)
    | error e m₁ =>
      rw [executed_cons_of_error h_exec, h_exec] at h_first
      rw [runFrom_of_error h_exec, executed_cons_of_error h_exec]
      exact h_first

/-- **A run adds the names that it declared:** those of the declarations it executed to their
end. -/
theorem run_adds (s : ScopeId) (p : Program) (m : Machine) :
    m.scopes.Adds s (executed s p m).declared (finalMachine (run s p m)).scopes :=
  runFrom_adds s .null p m

end Runs

end ScriptLang
