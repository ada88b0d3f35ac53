import ScriptLang.Proofs.Environment.Bindings
import ScriptLang.Proofs.Evaluation.Invariant
import ScriptLang.Proofs.Session.Reachable

/-!
# Bindings over the history of a machine

The host of a machine runs programs on it, opens scopes and discards scopes. Whatever it does, and
wherever the programs stop, a name that is bound in a scope stays bound there as long as there is
the scope, and a constant keeps its value. The root is never discarded, so the constants that it
starts with are there for good.

* `Operation`, `Machine.perform` — what the host can do, and the machine after a list of it.
* `Machine.reachable_perform` — these are machines of sessions.
* `Machine.Discarded` — a scope is discarded in the course of operations.
* `run_retains`, `Machine.retains_apply`, `Machine.retains_perform` — what is kept by a run, by an
  operation and by a list of operations.
* `Environment.Settled` — a name of the root that nothing gives another value.
* `perform_retains_and_settles` — what lasts on any machine and what lasts from the beginning.
-/

namespace ScriptLang

/-! ### Operations -/

/-- **What the host of a machine can do.** -/
inductive Operation where
  | run (s : ScopeId) (p : Program)
  | child (parent : ScopeId)
  | discard (s : ScopeId)

namespace Machine

/-- The machine after an operation; after a run, whether it came to its end or not. -/
def apply (m : Machine) : Operation → Machine
  | .run s p => finalMachine (run s p m)
  | .child parent => { m with scopes := m.scopes.child parent }
  | .discard s => { m with scopes := m.scopes.discard s }

/-- **The machine after a list of operations.** -/
def perform (m : Machine) (operations : List Operation) : Machine := operations.foldl apply m

@[simp] theorem perform_nil (m : Machine) : m.perform [] = m := rfl

@[simp] theorem perform_cons (m : Machine) (operation : Operation) (operations : List Operation) :
    m.perform (operation :: operations) = (m.apply operation).perform operations := rfl

/-- **A scope is discarded** in the course of operations: there is the scope before one of them that
discards, and not after it. -/
inductive Discarded (s : ScopeId) : Machine → List Operation → Prop where
  | now {m t operations} (h : (m.scopes.scope? s).isSome)
      (gone : (m.scopes.discard t).scope? s = none) :
      Discarded s m (.discard t :: operations)
  | later {m operation operations} (h : Discarded s (m.apply operation) operations) :
      Discarded s m (operation :: operations)

/-! ### The machine of a session -/

/-- An environment of a session after a change to it. -/
private theorem machine_modify {t : Session} (h_size : 0 < t.environments.size)
    (f : Environment → Environment) (heap : Heap) (sink : Sink) :
    Session.machine ⟨t.environments.modify 0 f, heap, sink⟩ 0 =
      ⟨f (t.environment 0), heap, sink⟩ := by
  unfold Session.machine Session.environment
  rw [Array.getElem?_modify, if_pos rfl, Array.getElem?_eq_getElem h_size, Option.map_some,
    Option.getD_some, Option.getD_some]

/-- An operation on the first machine of a session is something its host can bring about. -/
private theorem exists_session_apply {t : Session} (h : t.Reachable)
    (h_size : 0 < t.environments.size) (operation : Operation) :
    ∃ t' : Session, t'.Reachable ∧ 0 < t'.environments.size ∧
      t'.machine 0 = (t.machine 0).apply operation := by
  have h_size' : ∀ f : Environment → Environment, 0 < (t.environments.modify 0 f).size := by
    intro f
    rw [Array.size_modify]
    exact h_size
  cases operation with
  | run s p =>
    have h_apply : (t.machine 0).apply (.run s p) =
      finalMachine (ScriptLang.run s p (t.machine 0)) := rfl
    rw [h_apply]
    cases h_run : ScriptLang.run s p (t.machine 0) with
    | ok v m => exact ⟨_, .ran h h_run, h_size' _, machine_modify h_size _ _ _⟩
    | error e m => exact ⟨_, .stopped h h_run, h_size' _, machine_modify h_size _ _ _⟩
  | child parent => exact ⟨_, .child h 0 parent, h_size' _, machine_modify h_size _ _ _⟩
  | discard s => exact ⟨_, .discard h 0 s, h_size' _, machine_modify h_size _ _ _⟩

/-- **Whatever the host of a fresh machine does,** the machine is one of a session. -/
theorem reachable_perform (capacity : Option Nat) (operations : List Operation) :
    ((initial capacity).perform operations).Reachable := by
  have h_perform : ∀ t : Session, t.Reachable → 0 < t.environments.size →
      ((t.machine 0).perform operations).Reachable := by
    induction operations with
    | nil => exact fun t h _ => ⟨t, 0, h, rfl⟩
    | cons operation operations ih =>
      intro t h h_size
      obtain ⟨t', h', h_size', h_machine⟩ := exists_session_apply h h_size operation
      rw [perform_cons, ← h_machine]
      exact ih t' h' h_size'
  exact h_perform (Session.start capacity) (.start capacity) Nat.one_pos

end Machine

/-! ### What is kept -/

namespace Retention

variable (s : ScopeId) (e : Environment)

/-- The scopes retain what the given ones bind. -/
private def invariant : Invariant s where
  Machines m := e.Retains m.scopes
  Values _ := True
  plain _ _ := trivial
  lookup _ _ _ _ _ := trivial
  create _ _ h _ := ⟨h, trivial⟩
  getProperty _ _ _ _ _ _ _ := trivial

private theorem assignments : (invariant s e).Assignments where
  assign _ _ _ _ h _ h_assign := h.trans (.assign h_assign)
  setProperty _ _ _ _ h _ _ := h

private theorem statements : (invariant s e).Statements where
  declare _ _ _ _ _ h _ h_declare := h.trans (.declare h_declare)
  write _ _ h := h

end Retention

/-- **A run loses no binding and changes no constant,** wherever it stops. -/
theorem run_retains (s : ScopeId) (p : Program) (m : Machine) :
    m.scopes.Retains (finalMachine (run s p m)).scopes :=
  ((Retention.statements s m.scopes).run (.inr (Retention.assignments s m.scopes)) m
    (.refl m.scopes)).machine

namespace Machine

variable {m : Machine} {s : ScopeId} {name : String} {b : Binding}

/-- **An operation keeps a binding,** unless it discards the scope. -/
theorem retains_apply (h : m.scopes.binding? s name = some b) (operation : Operation) :
    (∃ b', (m.apply operation).scopes.binding? s name = some b' ∧ b.Lasts b') ∨
      ∀ operations, Discarded s m (operation :: operations) := by
  cases operation with
  | run s' p => exact .inl (run_retains s' p m s name b h)
  | child parent => exact .inl (Environment.Retains.child m.scopes parent s name b h)
  | discard t =>
    rcases m.scopes.scope?_discard_eq_or_none t s with h_same | gone
    · have h_binding : (m.scopes.discard t).binding? s name = some b := by
        rw [Environment.binding?_congr h_same, h]
      exact .inl ⟨b, h_binding, .refl b⟩
    · obtain ⟨scope, h_scope, _⟩ := Environment.binding?_eq_some.1 h
      have h_there : (m.scopes.scope? s).isSome := by rw [h_scope, Option.isSome_some]
      exact .inr fun operations => .now h_there gone

/-- **A binding lasts as long as its scope,** whatever the host does. -/
theorem retains_perform {operations : List Operation} (h : m.scopes.binding? s name = some b)
    (kept : ¬Discarded s m operations) :
    ∃ b', (m.perform operations).scopes.binding? s name = some b' ∧ b.Lasts b' := by
  induction operations generalizing m b with
  | nil => exact ⟨b, h, .refl b⟩
  | cons operation operations ih =>
    rcases retains_apply h operation with ⟨b', h', lasts⟩ | discarded
    · obtain ⟨b'', h'', lasts'⟩ := ih h' fun discarded => kept (.later discarded)
      exact ⟨b'', h'', lasts.trans lasts'⟩
    · exact absurd (discarded operations) kept

/-- The root is not among the scopes that are discarded. -/
theorem not_discarded_root (m : Machine) (operations : List Operation) :
    ¬Discarded Environment.root m operations := by
  intro h
  induction h with
  | now h gone =>
    rw [Environment.scope?_root_discard] at gone
    rw [gone] at h
    cases h
  | later _ ih => exact ih

end Machine

/-! ### The constants of the root -/

namespace Environment

/-- **A name of the root is settled** if it has a value there that nothing changes: it can be
neither assigned to nor declared again in the root, and after every other assignment, declaration
or discarding it has that value still. -/
structure Settled (e : Environment) (name : String) (v : Value) : Prop where
  value : e.get root name = .ok v
  no_assignment : ∀ v', e.assign root name v' = .error (.constAssignment name)
  no_declaration : ∀ b, e.declare root name b = .error (.duplicateDeclaration name)
  assign : ∀ s name' v' e', e.assign s name' v' = .ok e' → e'.get root name = .ok v
  declare : ∀ s name' b e', e.declare s name' b = .ok e' → e'.get root name = .ok v
  discard : ∀ s, (e.discard s).get root name = .ok v

variable {e : Environment} {name : String} {v : Value}

/-- What is retained of a constant of the root is its value. -/
private theorem Retains.get_root {e' : Environment} (retains : e.Retains e')
    (h : e.binding? root name = some ⟨v, true⟩) : e'.get root name = .ok v := by
  obtain ⟨b', h', lasts⟩ := retains root name ⟨v, true⟩ h
  rw [get_of_binding? h', lasts.value rfl]

/-- **The constants of the root are settled.** -/
theorem settled_of_binding? (h : e.binding? root name = some ⟨v, true⟩) : e.Settled name v where
  value := get_of_binding? h
  no_assignment v' := by
    rw [Environment.assign, find_of_binding? h]
    rfl
  no_declaration b := by
    obtain ⟨scope, h_scope, h_name⟩ := binding?_eq_some.1 h
    have h_contains : scope.bindings.contains name = true := by
      rw [Table.contains, h_name, Option.isSome_some]
    rw [Environment.declare, h_scope]
    dsimp only
    rw [if_pos h_contains]
  assign s name' v' e' h_assign := (Retains.assign h_assign).get_root h
  declare s name' b e' h_declare := (Retains.declare h_declare).get_root h
  discard s := by
    rw [← binding?_congr (e.scope?_root_discard s)] at h
    exact get_of_binding? h

end Environment

/-- A constant that the root has once is settled from then on. -/
private theorem settled_perform {m : Machine} {name : String} {v : Value}
    (h : m.scopes.binding? Environment.root name = some ⟨v, true⟩) (operations : List Operation) :
    (m.perform operations).scopes.Settled name v := by
  obtain ⟨⟨v', constant⟩, h', lasts⟩ := Machine.retains_perform h (m.not_discarded_root operations)
  have h_constant : constant = true := lasts.constant
  have h_value : v' = v := lasts.value rfl
  rw [h_constant, h_value] at h'
  exact Environment.settled_of_binding? h'

/-- **Bindings last as long as their scopes.** On any machine and whatever its host does, a name
that is bound in a scope is still bound there as long as the scope has not been discarded, for good
if it was for good, and then to the same value. In particular, what `null`, `true` and `false` are in the
root of a fresh machine is settled whatever was done since. -/
theorem perform_retains_and_settles :
    (∀ (m : Machine) (operations : List Operation) (s : ScopeId) (name : String) (b : Binding),
      m.scopes.binding? s name = some b → ¬m.Discarded s operations →
        ∃ b', (m.perform operations).scopes.binding? s name = some b' ∧ b.Lasts b') ∧
    ∀ (capacity : Option Nat) (operations : List Operation),
      ((Machine.initial capacity).perform operations).scopes.Settled "null" .null ∧
      ((Machine.initial capacity).perform operations).scopes.Settled "true" (.boolean true) ∧
      ((Machine.initial capacity).perform operations).scopes.Settled "false" (.boolean false) := by
  refine ⟨fun m operations s name b => Machine.retains_perform, fun capacity operations => ?_⟩
  exact ⟨settled_perform rfl operations, settled_perform rfl operations,
    settled_perform rfl operations⟩

/-- A machine on which a scope binds a constant object, with another scope inside. -/
def Machine.keeping : Machine := (initial none).perform
  [.child Environment.root, .run ⟨1⟩ [.declare true "k" (.object [])], .child ⟨1⟩]

/-- Assigning to the constant from the inner scope fails, and once the inner scope is discarded the
constant is the object it was. -/
theorem perform_retains_and_settles_of_constant :
    Machine.keeping.scopes.binding? ⟨1⟩ "k" = some ⟨.object ⟨0⟩, true⟩ ∧
      ¬Machine.keeping.Discarded ⟨1⟩ [.run ⟨2⟩ [.expression (.assign (.identifier "k")
        (.literal (.number 1)))], .discard ⟨2⟩] ∧
      ∃ b', (Machine.keeping.perform [.run ⟨2⟩ [.expression (.assign (.identifier "k")
          (.literal (.number 1)))], .discard ⟨2⟩]).scopes.binding? ⟨1⟩ "k" = some b' ∧
        Binding.Lasts ⟨.object ⟨0⟩, true⟩ b' := by
  have h_bound : Machine.keeping.scopes.binding? ⟨1⟩ "k" = some ⟨.object ⟨0⟩, true⟩ := rfl
  have h_kept : ¬Machine.keeping.Discarded ⟨1⟩ [.run ⟨2⟩ [.expression (.assign (.identifier "k")
      (.literal (.number 1)))], .discard ⟨2⟩] := by
    intro h
    cases h with
    | later h =>
      cases h with
      | now _ gone => cases gone
      | later h => cases h
  exact ⟨h_bound, h_kept, perform_retains_and_settles.1 _ _ _ _ _ h_bound h_kept⟩

end ScriptLang
