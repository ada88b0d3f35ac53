import ScriptLang.Proofs.Evaluation.Invariant
import ScriptLang.Proofs.Evaluation.Law
import ScriptLang.Proofs.Evaluation.Recursion
import ScriptLang.Proofs.Script.RoundTrip

/-!
# How tall the programs of scripts are

The parser refuses expressions that are nested too deeply. That bounds the height of what it
accepts, and with it the recursion of evaluation and printing, as far as nesting goes: operations and
members are strung together in loops, which no nesting counts. So there is a bound for the scripts
whose chains are no longer than some length, and none for all scripts.

* `height_le_of_readProgram` — the bound for the chains of a length.
* `exists_readProgram_sum` — every height is reached, by sums.
* `recursion_bounded_by_chains` — how deep evaluation and printing recurse.
* `readProgram_height_unbounded` — there is no bound for all scripts.
-/

namespace ScriptLang

/-- **The height of what is read** is bounded by the nesting that the parser allows and the longest
chain. -/
theorem height_le_of_readProgram {source : String} {p : Program} (h : readProgram source = .ok p)
    {statement : Stmt} (h_mem : statement ∈ p) {n : Nat}
    (h_chains : statement.value.longestChain ≤ n) :
    statement.value.height ≤ maxNesting * Expr.levelHeight n := by
  have h_levels := Program.levels_le_iff.1 (wellSpelled_of_readProgram h).2 statement h_mem
  have h_value : statement.value.levels 0 = statement.levels := by cases statement <;> rfl
  exact Expr.height_le h_chains (Nat.le_trans (Nat.le_of_eq h_value) h_levels)

/-- **What evaluation and printing recurse to.** Whatever script is read, if no chain of operations
and members in the program has more than `n` links, then every expression of it is at most
`128 * (4 * n + 5)` tall, and neither printing nor evaluating it, in any scope, recurses deeper. -/
theorem recursion_bounded_by_chains {source : String} {p : Program} {n : Nat}
    (h : readProgram source = .ok p)
    (h_chains : ∀ statement ∈ p, statement.value.longestChain ≤ n) :
    ∀ statement ∈ p,
      statement.value.height ≤ 128 * (4 * n + 5) ∧
      (∀ below, Expr.renderWithin below (128 * (4 * n + 5)) statement.value =
        statement.value.render) ∧
      (∀ s below, evalWithin s below (128 * (4 * n + 5)) statement.value =
        eval s statement.value) := by
  intro statement h_mem
  have h_height : statement.value.height ≤ 128 * (4 * n + 5) :=
    height_le_of_readProgram h h_mem (h_chains statement h_mem)
  exact ⟨h_height, fun below => Expr.renderWithin_eq below h_height,
    fun s below => evalWithin_eq s below h_height⟩

/-- A sum, a member and a product inside one another are short enough. -/
theorem recursion_bounded_by_chains_of_product :
    readProgram "x.a = (1 + 2) * x;" = .ok [.expression (.assign
        (.member (.identifier "x") "a") (.binary .times
          (.binary .plus (.literal (.number 1)) (.literal (.number 2))) (.identifier "x")))] ∧
      ∀ s below, evalWithin s below (128 * (4 * 2 + 5)) (.assign
        (.member (.identifier "x") "a") (.binary .times
          (.binary .plus (.literal (.number 1)) (.literal (.number 2))) (.identifier "x"))) =
        eval s (.assign (.member (.identifier "x") "a") (.binary .times
          (.binary .plus (.literal (.number 1)) (.literal (.number 2))) (.identifier "x"))) := by
  have h_read : readProgram "x.a = (1 + 2) * x;" = .ok [.expression (.assign
      (.member (.identifier "x") "a") (.binary .times
        (.binary .plus (.literal (.number 1)) (.literal (.number 2))) (.identifier "x")))] :=
    eq_ok_of_toOption (by decide +kernel)
  have h_bounded := recursion_bounded_by_chains (n := 2) h_read
    (List.forall_mem_singleton.2 (by decide))
  exact ⟨h_read, (List.forall_mem_singleton.1 h_bounded).2.2⟩

/-! ### No bound for all scripts -/

/-- A name added to itself, so many times. -/
def Expr.sum : Nat → Expr
  | 0 => .identifier "x"
  | n + 1 => .binary .plus (sum n) (.identifier "x")

theorem Expr.wellSpelled_sum (n : Nat) : (sum n).WellSpelled := by
  have h_name : (Expr.identifier "x").WellSpelled := .identifier (by decide)
  induction n with
  | zero => exact h_name
  | succ n ih => exact .binary ih h_name

/-- The operands of a sum are not nested. -/
theorem Expr.levels_sum (n : Nat) : (sum n).levels 3 = 0 := by
  induction n with
  | zero => rfl
  | succ n ih =>
    show max ((sum n).levels 3) 0 + 0 = 0
    rw [ih]
    rfl

theorem Expr.height_sum (n : Nat) : (sum n).height = n + 1 := by
  induction n with
  | zero => rfl
  | succ n ih =>
    show max (sum n).height 1 + 1 = n + 2
    omega

/-- A sum that is too deep for the levels is evaluated from below, first operand first. -/
theorem evalWithin_sum {s : ScopeId} {m : Machine} (cause : RuntimeError) {depth n : Nat}
    (h : depth ≤ n) : evalWithin s (fun _ => throw cause) depth (Expr.sum n) m = .error cause m := by
  induction depth generalizing n with
  | zero => rfl
  | succ depth ih =>
    obtain ⟨n, rfl⟩ := Nat.exists_eq_add_of_le' (Nat.le_trans (Nat.le_add_left 1 depth) h)
    exact bind_apply_of_error (ih (Nat.le_of_succ_le_succ h))

/-- A sum of a name that is not declared is refused for the name. -/
theorem eval_sum {s : ScopeId} {m : Machine}
    (h : m.scopes.get s "x" = .error (.undeclaredVariable "x")) (n : Nat) :
    eval s (Expr.sum n) m = .error (.undeclaredVariable "x") m := by
  induction n with
  | zero =>
    show Eval.ofResult (m.scopes.get s "x") m = _
    rw [h]
    rfl
  | succ n ih => exact bind_apply_of_error ih

/-- **Sums of any length are read,** so every height is reached. -/
theorem exists_readProgram_sum (n : Nat) :
    ∃ source, readProgram source = .ok [.expression (.sum n)] := by
  refine ⟨Program.unparse [.expression (.sum n)], readProgram_unparse ?_ ?_⟩
  · exact List.forall_mem_singleton.2 (Expr.wellSpelled_sum n)
  · refine Program.levels_le_iff.2 (List.forall_mem_singleton.2 ?_)
    show (Expr.sum n).levels 0 ≤ maxNesting
    have h_loose := (Expr.sum n).levels_mono (j := 1) (k := 3) (by decide) (by decide)
    have h_zero := (Expr.sum n).levels_zero_le
    rw [Expr.levels_sum] at h_loose
    exact Nat.le_trans (Nat.le_trans h_zero (Nat.succ_le_succ h_loose)) (by decide)

/-- **There is no bound for all scripts,** neither on the height of what is read nor on how deep
printing it or evaluating it recurses. -/
theorem readProgram_height_unbounded :
    (¬ ∃ bound, ∀ source p, readProgram source = .ok p → ∀ statement ∈ p,
      statement.value.height ≤ bound) ∧
    (¬ ∃ bound, ∀ source p, readProgram source = .ok p → ∀ statement ∈ p,
      ∀ below, Expr.renderWithin below bound statement.value = statement.value.render) ∧
    ¬ ∃ bound, ∀ source p, readProgram source = .ok p → ∀ statement ∈ p,
      ∀ s below, evalWithin s below bound statement.value = eval s statement.value := by
  have h_unbounded : ¬ ∃ bound, ∀ source p, readProgram source = .ok p →
      ∀ statement ∈ p, statement.value.height ≤ bound := by
    rintro ⟨bound, h⟩
    obtain ⟨source, h_read⟩ := exists_readProgram_sum bound
    have h_le : (Expr.sum bound).height ≤ bound := h source _ h_read _ (List.mem_singleton_self _)
    rw [Expr.height_sum] at h_le
    exact Nat.not_succ_le_self bound h_le
  refine ⟨h_unbounded, fun ⟨bound, h⟩ => h_unbounded ⟨bound, ?_⟩, fun ⟨bound, h⟩ => ?_⟩
  · intro source p h_read statement h_mem
    exact Expr.renderWithin_eq_iff.1 (h source p h_read statement h_mem)
  · obtain ⟨source, h_read⟩ := exists_readProgram_sum bound
    have h_same : evalWithin Environment.root (fun _ => throw .divisionByZero) bound (.sum bound) =
        eval Environment.root (.sum bound) := h source _ h_read _ (List.mem_singleton_self _) _ _
    -- on a fresh machine the name is not declared, but what is below fails otherwise
    have h_eval := congrFun h_same (.initial none)
    rw [evalWithin_sum .divisionByZero (Nat.le_refl bound), eval_sum rfl] at h_eval
    cases h_eval

end ScriptLang
