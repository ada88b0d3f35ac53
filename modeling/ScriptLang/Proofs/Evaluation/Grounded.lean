import ScriptLang.Proofs.Environment.Slots
import ScriptLang.Proofs.Evaluation.Declarations
import ScriptLang.Proofs.Evaluation.Law

/-!
# Runs that come to no discarded scope

A machine is grounded in a scope if the scope is there and no scope lacks the one around it. Then
every walk outwards from the scope stays among scopes that are there, and running a program in it
discards nothing. So no statement fails for the reason that a scope was discarded.

* `Machine.Grounded` — a machine on which programs may run in a scope.
* `KeepsGround`, `eval_keepsGround`, `exec_keepsGround` — what computations do to such machines.
* `run_keepsGround` — what programs do to such machines.
* `Environment.Upheld` — what requests to an environment uphold.
* `perform_upheld_and_grounded` — this is so whatever is asked for, and it is safe to run programs
  if scopes were opened only inside such as were there.
-/

namespace ScriptLang

/-- **A machine is grounded in a scope:** the scope is there, and no scope lacks the one around. -/
structure Machine.Grounded (s : ScopeId) (m : Machine) : Prop where
  anchored : m.scopes.Anchored
  live : m.scopes.Live s

/-- **A computation that comes to no discarded scope** and discards none, on a machine that is
grounded in the given scope. -/
def KeepsGround {α : Type} (s : ScopeId) (x : Eval α) : Prop :=
  ∀ m, m.Grounded s →
    (finalMachine (x m)).Grounded s ∧ ∀ m', x m ≠ .error .discardedScope m'

namespace KeepsGround

variable {α β : Type} {s : ScopeId}

/-! ### Steps -/

theorem pure (a : α) : KeepsGround s (pure a : Eval α) :=
  fun _ h => ⟨h, by rintro _ ⟨⟩⟩

theorem bind {x : Eval α} {f : α → Eval β} (h : KeepsGround s x) (h_f : ∀ a, KeepsGround s (f a)) :
    KeepsGround s (x >>= f) := by
  intro m h_m
  obtain ⟨h_final, h_error⟩ := h m h_m
  cases h_x : x m with
  | ok a m' =>
    rw [bind_apply_of_ok h_x]
    rw [h_x] at h_final
    exact h_f a m' h_final
  | error e m' =>
    rw [bind_apply_of_error h_x]
    rw [h_x] at h_final h_error
    -- the error is that of the first computation
    refine ⟨h_final, fun m'' h_eq => h_error m'' ?_⟩
    obtain ⟨rfl, rfl⟩ := EStateM.Result.error.inj h_eq
    rfl

/-- A look at the machine that does not come to a discarded scope. -/
theorem look {f : Machine → Except RuntimeError α}
    (h : ∀ m, m.Grounded s → f m ≠ .error .discardedScope) :
    KeepsGround s fun m => Eval.ofResult (f m) m := by
  intro m h_m
  have h_f := h m h_m
  show (finalMachine (Eval.ofResult (f m) m)).Grounded s ∧
    ∀ m', Eval.ofResult (f m) m ≠ .error .discardedScope m'
  cases h_eq : f m with
  | ok a => exact ⟨h_m, by rintro _ ⟨⟩⟩
  | error e =>
    refine ⟨h_m, ?_⟩
    rintro _ ⟨⟩
    exact h_f h_eq

/-- A change to the scopes that discards none and comes to none that is discarded. -/
theorem updateScopes {f : Environment → Except RuntimeError Environment}
    (h : ∀ m : Machine, m.Grounded s → f m.scopes ≠ .error .discardedScope)
    (h_bind : ∀ e e', f e = .ok e' → ∃ t name b, e' = e.bind t name b) :
    KeepsGround s (Eval.updateScopes f) := by
  intro m h_m
  have h_f := h m h_m
  unfold Eval.updateScopes
  cases h_eq : f m.scopes with
  | ok e =>
    obtain ⟨t, name, b, rfl⟩ := h_bind _ _ h_eq
    have h_live : (m.scopes.bind t name b).Live s :=
      (Environment.live_bind m.scopes t name b s).2 h_m.live
    exact ⟨⟨h_m.anchored.bind t name b, h_live⟩, by rintro _ ⟨⟩⟩
  | error e =>
    refine ⟨h_m, ?_⟩
    rintro _ ⟨⟩
    exact h_f h_eq

private theorem get_ne_discarded {m : Machine} (h : m.Grounded s) (name : String) :
    m.scopes.get s name ≠ .error .discardedScope := by
  have h_find := h.anchored.find_ne_discarded h.live name
  unfold Environment.get
  intro h_eq
  cases h_found : m.scopes.find s name with
  | ok r =>
    rw [h_found] at h_eq
    cases h_eq
  | error e =>
    rw [h_found] at h_eq h_find
    cases h_eq
    exact h_find rfl

private theorem assign_ne_discarded {m : Machine} (h : m.Grounded s) (name : String) (v : Value) :
    m.scopes.assign s name v ≠ .error .discardedScope := by
  have h_find := h.anchored.find_ne_discarded h.live name
  unfold Environment.assign
  intro h_eq
  cases h_found : m.scopes.find s name with
  | ok r =>
    rw [h_found] at h_eq
    change (if r.2.constant = true then _ else _) = _ at h_eq
    split at h_eq
    · cases h_eq
    · cases h_eq
  | error e =>
    rw [h_found] at h_eq h_find
    cases h_eq
    exact h_find rfl

private theorem declare_ne_discarded {m : Machine} (h : m.Grounded s) (name : String)
    (b : Binding) : m.scopes.declare s name b ≠ .error .discardedScope := by
  obtain ⟨scope, h_scope⟩ := Option.isSome_iff_exists.1 h.live
  unfold Environment.declare
  rw [h_scope]
  dsimp only
  split
  · rintro ⟨⟩
  · rintro ⟨⟩

theorem assign (name : String) (v : Value) : KeepsGround s (Eval.assign s name v) := by
  refine updateScopes (fun _ h => assign_ne_discarded h name v) fun e e' h_assign => ?_
  obtain ⟨t, b, _, _, _, h_bind⟩ := Environment.assign_eq_ok h_assign
  exact ⟨t, name, _, h_bind⟩

theorem declare (name : String) (b : Binding) : KeepsGround s (Eval.declare s name b) := by
  refine updateScopes (fun _ h => declare_ne_discarded h name b) fun e e' h_declare => ?_
  obtain ⟨_, _, h_bind⟩ := Environment.declare_eq_ok h_declare
  exact ⟨s, name, b, h_bind⟩

private theorem objectOr (refusal : String → RuntimeError) (v : Value)
    (h : ∀ text, refusal text ≠ .discardedScope) : KeepsGround s (Eval.objectOr refusal v) := by
  cases v with
  | object o => exact pure o
  | null | boolean | number | string =>
    exact fun m h_m => ⟨h_m, fun m' h_eq => h _ (EStateM.Result.error.inj h_eq).1⟩

private theorem getProperty (o : ObjectId) (property : String) :
    KeepsGround s (Eval.getProperty o property) := by
  intro m h_m
  unfold Eval.getProperty
  split
  · exact ⟨h_m, by rintro _ ⟨⟩⟩
  · exact ⟨h_m, by rintro _ ⟨⟩⟩

private theorem compareValues (c : Comparator) (a b : Value) :
    KeepsGround s (Eval.compareValues c a b) := by
  intro m h_m
  unfold Eval.compareValues
  split
  · exact ⟨h_m, by rintro _ ⟨⟩⟩
  · exact ⟨h_m, by rintro _ ⟨⟩⟩

theorem printLine (v : Value) : KeepsGround s (Eval.printLine v) := by
  intro m h_m
  unfold Eval.printLine Eval.write
  dsimp only
  split
  · exact ⟨⟨h_m.anchored, h_m.live⟩, by rintro _ ⟨⟩⟩
  · exact ⟨⟨h_m.anchored, h_m.live⟩, by rintro _ ⟨⟩⟩

end KeepsGround

/-- An operator knows nothing of scopes. -/
private theorem Operator.apply_ne_discarded (o : Operator) (a b : Value) :
    o.apply a b ≠ .error .discardedScope := by
  intro h
  -- each rule gives a value or another error, some of them after a choice
  rw [Operator.apply.eq_def] at h
  split at h
  case h_4 | h_5 => split at h <;> cases h
  case h_7 s n =>
    rw [repeatText] at h
    split at h <;> cases h
  all_goals cases h

/-! ### Expressions, statements and programs -/

section Runs

variable {s : ScopeId}

/-- Coming to no discarded scope is a law of evaluation. -/
private def groundLaw (s : ScopeId) : Law s where
  Holds := KeepsGround s
  pure := KeepsGround.pure
  bind := KeepsGround.bind
  refuse _ := fun _ h => ⟨h, by rintro _ ⟨⟩⟩
  lookup name := .look fun _ h => KeepsGround.get_ne_discarded h name
  assign := KeepsGround.assign
  create _ := fun _ h => ⟨⟨h.anchored, h.live⟩, by rintro _ ⟨⟩⟩
  objectOr refusal v h_refusal := .objectOr refusal v <| by
    rcases h_refusal with rfl | rfl
    · rintro _ ⟨⟩
    · rintro _ ⟨⟩
  getProperty := .getProperty
  setProperty _ _ _ := fun _ h => ⟨⟨h.anchored, h.live⟩, by rintro _ ⟨⟩⟩
  compareValues := .compareValues
  operator o a b := .look (f := fun _ => o.apply a b) fun _ _ => o.apply_ne_discarded a b

/-- **Expressions come to no discarded scope.** -/
theorem eval_keepsGround (s : ScopeId) (e : Expr) : KeepsGround s (eval s e) := (groundLaw s).eval e

/-- **Statements come to no discarded scope.** -/
theorem exec_keepsGround (s : ScopeId) (statement : Stmt) : KeepsGround s (exec s statement) := by
  cases statement with
  | expression e => exact eval_keepsGround s e
  | print e =>
    refine (eval_keepsGround s e).bind fun v => ?_
    exact (KeepsGround.printLine v).bind fun _ => .pure _
  | declare constant name e =>
    refine (eval_keepsGround s e).bind fun v => ?_
    exact (KeepsGround.declare name _).bind fun _ => .pure _

private theorem runFrom_keepsGround (s : ScopeId) (last : Value) (p : Program) {m : Machine}
    (h : m.Grounded s) :
    (finalMachine (runFrom s last p m)).Grounded s ∧
      ∀ err m', runFrom s last p m = .error err m' → err.cause ≠ .discardedScope := by
  induction p generalizing last m with
  | nil => exact ⟨h, by rintro _ _ ⟨⟩⟩
  | cons statement p ih =>
    obtain ⟨h_final, h_error⟩ := exec_keepsGround s statement m h
    cases h_exec : exec s statement m with
    | ok v m₁ =>
      rw [runFrom_of_ok h_exec]
      rw [h_exec] at h_final
      exact ih v h_final
    | error cause m₁ =>
      rw [runFrom_of_error h_exec]
      rw [h_exec] at h_final h_error
      refine ⟨h_final, ?_⟩
      rintro _ _ ⟨⟩ rfl
      exact h_error m₁ rfl

/-- **Programs come to no discarded scope,** and after them there is the same to run others on. -/
theorem run_keepsGround (p : Program) {m : Machine} (h : m.Grounded s) :
    (finalMachine (run s p m)).Grounded s ∧
      ∀ err m', run s p m = .error err m' → err.cause ≠ .discardedScope :=
  runFrom_keepsGround s .null p h

end Runs

/-! ### What requests to an environment uphold -/

namespace Environment

/-- **What requests uphold** of an environment, whatever they are, as long as scopes are opened only
inside such as were opened before. -/
structure Upheld (requests : List Request) : Prop where
  arranged : (initial.perform requests).Arranged
  /-- Walks outwards end, and within the steps that looking up a name has. -/
  ends : ∀ s, ∃ n ≤ (initial.perform requests).slots.size + 1, (initial.perform requests).Depth n s
  /-- Whenever discarding looks for the scope around another, there is a slot to look at. -/
  inRange : ∀ s k t p, ((initial.perform requests).sweep s k).parent? t = some p →
    ((initial.perform requests).sweep s k).Issued p
  /-- No identity is given out twice, and those that were given out are those of the slots. -/
  nodup : (root :: initial.issued requests).Nodup
  issued : ∀ s, s ∈ root :: initial.issued requests ↔ (initial.perform requests).Issued s
  /-- A slot can be emptied, but for the root's. -/
  emptied : ∀ s ≠ root, (initial.perform requests).Issued s →
    ((initial.perform requests).discard s).scope? s = none
  /-- A slot that is empty is so for good, whatever else is asked for. -/
  stale : ∀ s, (initial.perform requests).Issued s → (initial.perform requests).scope? s = none →
    ∀ later, ((initial.perform requests).perform later).Stale s

theorem upheld {requests : List Request} (h : OpensInside Issued initial requests) :
    Upheld requests := by
  have arranged : (initial.perform requests).Arranged := Arranged.initial.perform h
  obtain ⟨h_nodup, h_issued⟩ := nodup_issued requests
  refine ⟨arranged, fun s => ?_, ?_, h_nodup, h_issued, ?_, ?_⟩
  · obtain ⟨n, h_n⟩ := arranged.exists_depth s
    exact ⟨n, h_n.le_size, h_n⟩
  · exact fun _ _ _ _ h_p => arranged.parent_issued_of_sweep h_p
  · exact fun _ h_root h_s => scope?_discard_self h_root h_s
  · intro s h_s h_none later
    exact stale_of_scope? (scope?_perform_of_none h_s h_none later)

end Environment

open Environment

/-- **Slots stay in order, and where scopes are opened inside such as are there, it is safe to run
programs.** Whatever is asked of a fresh environment, as long as scopes are opened only inside such
as were opened before: the root is there and is the only scope inside none, every scope is in a
later slot than the one around it, and a slot once emptied stays empty. If moreover every scope was
opened inside one that was there at the time, then all scopes around a scope that is there are
there, and no program that runs in it fails because a scope was discarded. -/
theorem perform_upheld_and_grounded (requests : List Request)
    (h : OpensInside Issued initial requests) :
    Upheld requests ∧ (OpensInside Live initial requests →
      (∀ s t, (initial.perform requests).Live s → (initial.perform requests).Around s t →
        (initial.perform requests).Live t) ∧
      ∀ (m : Machine) (s : ScopeId) (p : Program), m.scopes = initial.perform requests →
        m.scopes.Live s → ∀ err m', run s p m = .error err m' → err.cause ≠ .discardedScope) := by
  refine ⟨upheld h, fun h_live => ?_⟩
  have anchored : (initial.perform requests).Anchored :=
    Anchored.initial.perform Arranged.initial h_live
  refine ⟨fun s t h_s around => anchored.live_of_around around h_s, ?_⟩
  intro m s p h_scopes h_s err m' h_run
  have grounded : m.Grounded s := ⟨h_scopes ▸ anchored, h_s⟩
  exact (run_keepsGround p grounded).2 err m' h_run

/-- A scope is discarded, and another one is opened inside it afterwards. -/
private def reopened : List Request :=
  [.push root, .push ⟨1⟩, .discard ⟨1⟩, .push ⟨1⟩, .declare ⟨3⟩ "x" ⟨.null, false⟩]

/-- Every scope is opened inside one that is there. -/
private def nested : List Request :=
  [.push root, .declare ⟨1⟩ "x" ⟨.null, false⟩, .push ⟨1⟩, .push root, .discard ⟨3⟩]

/-- A scope opened inside a discarded one, and a program that fails for another reason. -/
theorem perform_upheld_and_grounded_of_nested :
    (OpensInside Issued initial reopened ∧ Upheld reopened ∧
      (initial.perform reopened).parent? ⟨3⟩ = some ⟨1⟩ ∧
      (initial.perform reopened).scope? ⟨1⟩ = none) ∧
    OpensInside Live initial nested ∧
      ∃ err m', run ⟨2⟩ [.print (.identifier "y")] ⟨initial.perform nested, .empty, .empty none⟩ =
        .error err m' ∧ err.cause ≠ .discardedScope := by
  have h_reopened : OpensInside Issued initial reopened := by
    refine ⟨?_, ?_, nofun, ?_, nofun, trivial⟩
    all_goals
      rintro _ ⟨⟩
      exact Nat.lt_of_sub_eq_succ rfl
  have h_nested : OpensInside Live initial nested := by
    refine ⟨?_, nofun, ?_, ?_, nofun, trivial⟩
    all_goals
      rintro _ ⟨⟩
      rfl
  have h_issued : OpensInside Issued initial nested := by
    refine ⟨?_, nofun, ?_, ?_, nofun, trivial⟩
    all_goals
      rintro _ ⟨⟩
      exact Nat.lt_of_sub_eq_succ rfl
  refine ⟨⟨h_reopened, (perform_upheld_and_grounded reopened h_reopened).1, rfl, rfl⟩, h_nested, ?_⟩
  obtain ⟨-, h_run⟩ := (perform_upheld_and_grounded nested h_issued).2 h_nested
  let m : Machine := ⟨initial.perform nested, .empty, .empty none⟩
  have h_stop : run ⟨2⟩ [.print (.identifier "y")] m =
      .error ⟨.undeclaredVariable "y", .print (.identifier "y")⟩ m := rfl
  exact ⟨_, m, h_stop, h_run m ⟨2⟩ _ rfl rfl _ m h_stop⟩

end ScriptLang
