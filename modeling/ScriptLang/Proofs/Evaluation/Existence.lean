import ScriptLang.Proofs.Evaluation.Simulation
import ScriptLang.Proofs.Heap.Renaming

/-!
# Objects exist

Objects are never removed, so whatever a program gets hold of is an object that exists. A machine is
*closed* if all objects that its scopes and its objects speak of exist. Runs keep machines closed,
and never make the heap smaller.

The proof is a simulation of every run by itself: a world is a number of objects that exist already,
and a value is related to itself in a world if it is no later object. So nothing is said again here
about expressions and statements, only about the elementary steps.

* `Machine.Closed` — all objects spoken of exist.
* `Machine.Reaches` — the objects that can be reached from a scope, which exist in closed machines.
* `Machine.Closed.of_run_ok`, `Machine.Closed.of_run_error` — runs keep machines closed.
-/

namespace ScriptLang

/-- Values that are no objects but those with a number below the given one. -/
def Value.Below (n : Nat) (v : Value) : Prop := ∀ o, v = .object o → o.index < n

theorem Value.Below.mono {n n' : Nat} {v : Value} (h : v.Below n) (le : n ≤ n') : v.Below n' :=
  fun o h_o => Nat.lt_of_lt_of_le (h o h_o) le

/-! ### Scopes -/

namespace Environment

/-- All values that names are bound to are below the given number. -/
def Below (n : Nat) (e : Environment) : Prop := ∀ s scope name b, e.scope? s = some scope →
  scope.bindings.get? name = some b → b.value.Below n

variable {n : Nat} {e e' : Environment}

theorem Below.mono {n' : Nat} (h : e.Below n) (le : n ≤ n') : e.Below n' :=
  fun s scope name b h_scope h_name => (h s scope name b h_scope h_name).mono le

/-- With fewer scopes there are fewer values. -/
private theorem Below.of_scopes (h : e.Below n)
    (le : ∀ s scope, e'.scope? s = some scope → e.scope? s = some scope) : e'.Below n :=
  fun s scope name b h_scope h_name => h s scope name b (le s scope h_scope) h_name

/-- The three constants are no objects. -/
theorem below_initial (n : Nat) : initial.Below n := by
  intro s scope name b h_scope h_name
  -- there is one scope, and it has the constants in it
  have h_constants : scope = ⟨constants, none⟩ := by
    obtain ⟨_ | i⟩ := s
    · exact (Option.some.inj h_scope).symm
    · cases h_scope
  rw [h_constants, constants, Table.get?_insert, Table.get?_insert, Table.get?_insert,
    Table.get?_empty] at h_name
  rintro o h_o
  split at h_name
  · cases h_name; cases h_o
  · split at h_name
    · cases h_name; cases h_o
    · split at h_name
      · cases h_name; cases h_o
      · cases h_name

theorem Below.child (h : e.Below n) (parent : ScopeId) : (e.child parent).Below n := by
  intro s scope name b h_scope h_name
  rw [scope?_child] at h_scope
  split at h_scope
  · -- nothing is bound in the new scope
    cases h_scope
    rw [Table.get?_empty] at h_name
    cases h_name
  · exact h s scope name b h_scope h_name

private theorem scope?_of_clear {s t : ScopeId} {scope : Scope}
    (h : (e.clear s).scope? t = some scope) : e.scope? t = some scope := by
  rw [scope?_clear] at h
  split at h
  · cases h
  · exact h

private theorem scope?_of_clearOrphans {slots : List Nat} {t : ScopeId} {scope : Scope}
    (h : (slots.foldl (fun e i => e.clearOrphan ⟨i⟩) e).scope? t = some scope) :
    e.scope? t = some scope := by
  induction slots generalizing e with
  | nil => exact h
  | cons i slots ih =>
    have h_first : (e.clearOrphan ⟨i⟩).scope? t = some scope := ih h
    unfold clearOrphan at h_first
    split at h_first
    · exact scope?_of_clear h_first
    · exact h_first

/-- Discarding leaves no scope that was not there. -/
theorem scope?_of_discard {s t : ScopeId} {scope : Scope}
    (h : (e.discard s).scope? t = some scope) : e.scope? t = some scope := by
  unfold discard at h
  split at h
  · exact h
  · exact scope?_of_clear (scope?_of_clearOrphans h)

theorem Below.discard (h : e.Below n) (s : ScopeId) : (e.discard s).Below n :=
  h.of_scopes fun _ _ => scope?_of_discard

theorem Below.bind (h : e.Below n) (s : ScopeId) (name : String) {b : Binding}
    (h_b : b.value.Below n) : (e.bind s name b).Below n := by
  intro t scope name' b' h_scope h_name
  rw [scope?_bind] at h_scope
  split at h_scope
  · obtain ⟨scope', h_scope', rfl⟩ := Option.map_eq_some_iff.1 h_scope
    rw [Table.get?_insert] at h_name
    split at h_name
    · cases h_name
      exact h_b
    · exact h s scope' name' b' h_scope' h_name
  · exact h t scope name' b' h_scope h_name

/-- What is found is bound in some scope. -/
private theorem exists_of_findWithin {name : String} {k : Nat} {s o : ScopeId} {b : Binding}
    (h : e.findWithin name k s = .ok (o, b)) :
    ∃ scope, e.scope? o = some scope ∧ scope.bindings.get? name = some b := by
  -- along the walk: only the scope at which it ends counts
  fun_induction e.findWithin name k s with
  | case1 | case2 | case4 => cases h
  | case3 steps s scope h_scope b' h_name =>
    cases h
    exact ⟨scope, h_scope, h_name⟩
  | case5 _ _ _ _ _ _ _ ih => exact ih h

theorem Below.get (h : e.Below n) {s : ScopeId} {name : String} {v : Value}
    (h_get : e.get s name = .ok v) : v.Below n := by
  unfold Environment.get find at h_get
  cases h_find : e.findWithin name (e.slots.size + 1) s with
  | error _ => rw [h_find] at h_get; cases h_get
  | ok found =>
    rw [h_find] at h_get
    cases h_get
    obtain ⟨scope, h_scope, h_name⟩ := exists_of_findWithin h_find
    exact h found.1 scope name found.2 h_scope h_name

theorem Below.declare (h : e.Below n) {s : ScopeId} {name : String} {b : Binding}
    (h_b : b.value.Below n) (h_declare : e.declare s name b = .ok e') : e'.Below n := by
  unfold Environment.declare at h_declare
  split at h_declare
  · cases h_declare
  · split at h_declare
    · cases h_declare
    · cases h_declare
      exact h.bind s name h_b

theorem Below.assign (h : e.Below n) {s : ScopeId} {name : String} {v : Value}
    (h_v : v.Below n) (h_assign : e.assign s name v = .ok e') : e'.Below n := by
  unfold Environment.assign at h_assign
  cases h_find : e.find s name with
  | error _ => rw [h_find] at h_assign; cases h_assign
  | ok found =>
    obtain ⟨owner, b⟩ := found
    rw [h_find] at h_assign
    change (if b.constant then _ else _) = _ at h_assign
    split at h_assign
    · cases h_assign
    · -- the name is bound anew where it was found
      cases h_assign
      exact h.bind owner name h_v

end Environment

/-! ### Objects -/

namespace Heap

/-- All objects that objects refer to exist. -/
def Closed (h : Heap) : Prop := ∀ o key v, (h.fields o).get? key = some v → v.Below h.size

variable {h : Heap}

theorem closed_empty : empty.Closed := by
  rintro o key v ⟨⟩

theorem Closed.set (closed : h.Closed) (o : ObjectId) (property : String) {v : Value}
    (h_v : v.Below h.size) : (h.set o property v).Closed := by
  intro o' key v' h_key
  rw [size_set]
  rw [fields_set] at h_key
  split at h_key
  · rw [Table.get?_insert] at h_key
    split at h_key
    · cases h_key
      exact h_v
    · exact closed o key v' h_key
  · exact closed o' key v' h_key

theorem Closed.create (closed : h.Closed) {t : Table Value}
    (h_t : ∀ key v, t.get? key = some v → v.Below h.size) : (h.create t).Closed := by
  intro o key v h_key
  rw [size_create]
  rw [fields_create] at h_key
  split at h_key
  · exact (h_t key v h_key).mono (Nat.le_succ _)
  · exact (closed o key v h_key).mono (Nat.le_succ _)

end Heap

/-! ### Machines -/

namespace Machine

/-- **A closed machine:** all objects that are spoken of exist. -/
structure Closed (m : Machine) : Prop where
  bound : m.scopes.Below m.heap.size
  stored : m.heap.Closed

/-- **The objects that can be reached** from a scope: what a name is bound to there or in a scope
around, and what the properties of such objects are. -/
inductive Reaches (m : Machine) : ScopeId → ObjectId → Prop where
  | bound {s scope name o constant} (h : m.scopes.scope? s = some scope)
      (h_name : scope.bindings.get? name = some ⟨.object o, constant⟩) : Reaches m s o
  | around {s p o} (h : m.scopes.parent? s = some p) (further : Reaches m p o) : Reaches m s o
  | stored {s o o' key} (owner : Reaches m s o)
      (h : (m.heap.fields o).get? key = some (.object o')) : Reaches m s o'

variable {m : Machine}

/-- **Only objects that exist can be reached.** -/
theorem Closed.index_lt_size (closed : m.Closed) {s : ScopeId} {o : ObjectId}
    (h : m.Reaches s o) : o.index < m.heap.size := by
  induction h with
  | @bound s scope name o constant h h_name =>
    exact closed.bound s scope name ⟨.object o, constant⟩ h h_name o rfl
  | around _ _ ih => exact ih
  | @stored s o o' key _ h _ => exact closed.stored o key (.object o') h o' rfl

end Machine

/-! ### Runs -/

namespace Existence

open Comparison

/-- A closed machine beside itself, in which at least so many objects exist. -/
private abbrev comparison : Comparison where
  World := Nat
  le := (· ≤ ·)
  le_refl := Nat.le_refl
  le_trans := Nat.le_trans
  Machines n m₁ m₂ := m₁ = m₂ ∧ m₁.Closed ∧ n ≤ m₁.heap.size

/-- A computation agrees with itself if it keeps closed machines closed. -/
private theorem related_self {ε α : Type} {R : Nat → α → α → Prop} {n : Nat}
    {x : EStateM ε Machine α}
    (h : ∀ m, m.Closed → n ≤ m.heap.size → comparison.Agree R m.heap.size (x m) (x m)) :
    comparison.Related n x x R := by
  rintro n' le m _ ⟨rfl, closed, le_size⟩
  exact (h m closed (Nat.le_trans le le_size)).of_le le_size

/-- The same refusal, with the machine as it is. -/
private theorem refused {ε α : Type} {R : Nat → α → α → Prop} {m : Machine} (closed : m.Closed)
    (e : ε) : comparison.Agree R m.heap.size (.error e m) (.error e m) :=
  .error (Nat.le_refl _) ⟨rfl, closed, Nat.le_refl _⟩

/-- A result, with the machine as it is. -/
private theorem given {ε α : Type} {R : Nat → α → α → Prop} {m : Machine} (closed : m.Closed)
    {a : α} (h : R m.heap.size a a) :
    comparison.Agree (ε := ε) R m.heap.size (.ok a m) (.ok a m) :=
  .ok (Nat.le_refl _) ⟨rfl, closed, Nat.le_refl _⟩ h

/-- A change to the scopes that binds names only to what exists. -/
private theorem related_updateScopes {n : Nat} {f : Environment → Except RuntimeError Environment}
    (h : ∀ m : Machine, m.Closed → n ≤ m.heap.size → ∀ e, f m.scopes = .ok e →
      e.Below m.heap.size) :
    comparison.Related n (Eval.updateScopes f) (Eval.updateScopes f) unconditional := by
  refine related_self fun m closed le => ?_
  -- only the scopes change, so what exists stays what it is
  unfold Eval.updateScopes
  cases h_f : f m.scopes with
  | error e => exact refused closed e
  | ok e =>
    exact .ok (Nat.le_refl _) ⟨rfl, ⟨h m closed le e h_f, closed.stored⟩, Nat.le_refl _⟩ trivial

/-- What is no object is below any number. -/
private theorem below_of_plain {v : Value} (h : ∀ o, v ≠ .object o) (n : Nat) : v.Below n :=
  fun o h_o => absurd h_o (h o)

/-- **Every run beside itself.** Each elementary step keeps closed machines closed, and gives only
what exists. -/
private def simulation (s : ScopeId) : Simulation s s where
  toComparison := comparison
  Values n v₁ v₂ := v₁ = v₂ ∧ v₁.Below n
  values_mono le h := ⟨h.1, h.2.mono le⟩
  plain n v h := ⟨rfl, below_of_plain h n⟩
  lookup n name := by
    refine related_self fun m closed _ => ?_
    unfold Eval.lookup Eval.ofResult
    cases h : m.scopes.get s name with
    | error e => exact refused closed _
    | ok v => exact given closed ⟨rfl, closed.bound.get h⟩
  assign n name v₁ v₂ := by
    rintro ⟨rfl, h_v⟩
    exact related_updateScopes fun m closed le e' h => closed.bound.assign (h_v.mono le) h
  Declares _ := True
  declare n name constant v₁ v₂ := by
    rintro - ⟨rfl, h_v⟩
    exact related_updateScopes fun m closed le e' h => closed.bound.declare (h_v.mono le) h
  create n t₁ t₂ h_t := by
    obtain rfl : t₁ = t₂ := h_t.eq fun _ _ h => h.1
    refine related_self fun m closed le => ?_
    have h_fields : ∀ key v, t₁.get? key = some v → v.Below m.heap.size := by
      intro key v h_v
      obtain ⟨_, -, -, h_below⟩ := h_t.exists_of_get? h_v
      exact h_below.mono le
    have h_grows : m.heap.size ≤ (m.heap.create t₁).size := by
      rw [Heap.size_create]
      exact Nat.le_succ _
    refine .ok h_grows ⟨rfl, ⟨closed.bound.mono h_grows, closed.stored.create h_fields⟩,
      Nat.le_refl _⟩ ⟨rfl, ?_⟩
    -- the new object is the last one
    rintro _ ⟨⟩
    rw [Heap.size_create]
    exact Nat.lt_succ_self _
  objectOr n refusal v₁ v₂ := by
    rintro ⟨rfl, h_v⟩
    cases v₁ with
    | object o => exact related_pure fun n' le => ⟨rfl, h_v.mono le⟩
    | null | boolean | number | string =>
      exact related_self fun m closed _ => refused closed _
  getProperty n property o₁ o₂ := by
    rintro ⟨⟨⟩, -⟩
    refine related_self fun m closed _ => ?_
    unfold Eval.getProperty
    cases h : (m.heap.fields o₁).get? property with
    | none => exact refused closed _
    | some v => exact given closed ⟨rfl, closed.stored o₁ property v h⟩
  setProperty n property o₁ o₂ v₁ v₂ := by
    rintro ⟨⟨⟩, -⟩ ⟨rfl, h_v⟩
    refine related_self fun m closed le => ?_
    have h_size : (m.heap.set o₁ property v₁).size = m.heap.size := Heap.size_set _ _ _ _
    exact .ok (Nat.le_of_eq h_size.symm) ⟨rfl, ⟨closed.bound.mono (Nat.le_of_eq h_size.symm),
      closed.stored.set o₁ property (h_v.mono le)⟩, Nat.le_refl _⟩ trivial
  compareValues n c a₁ a₂ b₁ b₂ := by
    rintro ⟨rfl, -⟩ ⟨rfl, -⟩
    refine related_self fun m closed _ => ?_
    unfold Eval.compareValues
    cases c.apply? a₁ b₁ with
    | none => exact refused closed _
    | some holds =>
      exact given closed ⟨rfl, by rintro o ⟨⟩⟩
  operator n o a₁ a₂ b₁ b₂ := by
    rintro ⟨rfl, -⟩ ⟨rfl, -⟩
    refine related_self fun m closed _ => ?_
    unfold Eval.ofResult
    cases h : o.apply a₁ b₁ with
    | error e => exact refused closed _
    | ok v =>
      exact given closed ⟨rfl, below_of_plain (Operator.apply_ne_object h) _⟩
  printLine n v₁ v₂ := by
    rintro ⟨rfl, -⟩
    refine related_self fun m closed _ => ?_
    unfold Eval.printLine Eval.write
    dsimp only
    -- the output changes in any case, and objects and scopes in none
    split
    · exact .ok (Nat.le_refl _) ⟨rfl, ⟨closed.bound, closed.stored⟩, Nat.le_refl _⟩ trivial
    · exact .error (Nat.le_refl _) ⟨rfl, ⟨closed.bound, closed.stored⟩, Nat.le_refl _⟩

end Existence

namespace Machine.Closed

variable {m m' : Machine} {s : ScopeId} {p : Program}

private theorem agree_run (closed : m.Closed) (s : ScopeId) (p : Program) :
    (Existence.simulation s).Agree (Existence.simulation s).Values m.heap.size
      (run s p m) (run s p m) :=
  (Existence.simulation s).related_run p (fun _ _ _ _ => trivial) m.heap.size m.heap.size
    (Nat.le_refl _) m m ⟨rfl, closed, Nat.le_refl _⟩

/-- **A program that runs to its end** leaves a closed machine and a value that exists. -/
theorem of_run_ok (closed : m.Closed) {v : Value} (h : run s p m = .ok v m') :
    m'.Closed ∧ m.heap.size ≤ m'.heap.size ∧ v.Below m'.heap.size := by
  have h_agree := closed.agree_run s p
  rw [h] at h_agree
  cases h_agree with
  | ok later machines results =>
    obtain ⟨_, closed', le_size⟩ := machines
    exact ⟨closed', Nat.le_trans later le_size, results.2.mono le_size⟩

/-- **A program that stops with an error** leaves a closed machine. -/
theorem of_run_error (closed : m.Closed) {e : ExecutionError} (h : run s p m = .error e m') :
    m'.Closed ∧ m.heap.size ≤ m'.heap.size := by
  have h_agree := closed.agree_run s p
  rw [h] at h_agree
  cases h_agree with
  | error later machines =>
    obtain ⟨_, closed', le_size⟩ := machines
    exact ⟨closed', Nat.le_trans later le_size⟩

end Machine.Closed

end ScriptLang
