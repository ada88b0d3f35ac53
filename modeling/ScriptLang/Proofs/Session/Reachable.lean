import ScriptLang.Proofs.Evaluation.Existence
import ScriptLang.Session

/-!
# Reachable states

The states of a session that its host can bring about: it runs programs in scopes of environments,
opens and discards scopes, copies environments, and may create objects and write to them itself. A
program need not have been read from a text, and a scope need not be one that was ever opened.

In all of these states every object that is spoken of exists, in every environment
(`Session.Reachable.closed`), so only objects that exist can be reached from a scope.
-/

namespace ScriptLang

namespace Session

/-- **The states a session can be brought to.** -/
inductive Reachable : Session → Prop where
  | start (capacity : Option Nat) : Reachable (start capacity)
  | ran {t : Session} {i s p v m} (h : t.Reachable) (h_run : run s p (t.machine i) = .ok v m) :
      Reachable (t.update i m)
  | stopped {t : Session} {i s p e m} (h : t.Reachable)
      (h_run : run s p (t.machine i) = .error e m) : Reachable (t.update i m)
  | child {t : Session} (h : t.Reachable) (i : Nat) (parent : ScopeId) :
      Reachable (t.child i parent).2
  | discard {t : Session} (h : t.Reachable) (i : Nat) (s : ScopeId) : Reachable (t.discard i s)
  | clone {t : Session} (h : t.Reachable) (i : Nat) : Reachable (t.clone i).2
  | created {t : Session} (h : t.Reachable) (fields : Table Value)
      (h_fields : ∀ key v, fields.get? key = some v → v.Below t.heap.size) :
      Reachable { t with heap := t.heap.create fields }
  | changed {t : Session} (h : t.Reachable) (o : ObjectId) (property : String) {v : Value}
      (h_v : v.Below t.heap.size) : Reachable { t with heap := t.heap.set o property v }

/-- All objects that the environments and the objects of a session speak of exist. -/
structure Closed (t : Session) : Prop where
  bound : ∀ i, (t.environment i).Below t.heap.size
  stored : t.heap.Closed

namespace Closed

variable {t : Session}

theorem machine (closed : t.Closed) (i : Nat) : (t.machine i).Closed :=
  ⟨closed.bound i, closed.stored⟩

/-- After a change to one environment, each of them is the changed one or as it was. -/
private theorem environment_modify (t : Session) (i : Nat) (f : Environment → Environment)
    (heap : Heap) (sink : Sink) (j : Nat) :
    environment ⟨t.environments.modify i f, heap, sink⟩ j = f (t.environment i) ∨
      environment ⟨t.environments.modify i f, heap, sink⟩ j = t.environment j := by
  unfold environment
  rw [Array.getElem?_modify]
  split
  · next h_eq =>
    subst h_eq
    cases t.environments[i]? with
    | none => exact .inr rfl
    | some e => exact .inl rfl
  · exact .inr rfl

/-- A change to one environment, beside which the heap may grow. -/
private theorem modify (closed : t.Closed) (i : Nat) {f : Environment → Environment} {heap : Heap}
    {sink : Sink} (stored : heap.Closed) (le : t.heap.size ≤ heap.size)
    (h_f : (f (t.environment i)).Below heap.size) :
    Closed ⟨t.environments.modify i f, heap, sink⟩ := by
  refine ⟨fun j => ?_, stored⟩
  rcases environment_modify t i f heap sink j with h | h
  · rw [h]
    exact h_f
  · rw [h]
    exact (closed.bound j).mono le

end Closed

/-- **In reachable states all objects exist.** -/
theorem Reachable.closed {t : Session} (h : t.Reachable) : t.Closed := by
  induction h with
  | start capacity =>
    refine ⟨fun i => ?_, Heap.closed_empty⟩
    have h_initial : (Session.start capacity).environment i = Environment.initial := by
      cases i <;> rfl
    rw [h_initial]
    exact Environment.below_initial _
  | @ran t i s p v m _ h_run ih =>
    obtain ⟨h_closed, le_size, _⟩ := (ih.machine i).of_run_ok h_run
    exact ih.modify i h_closed.stored le_size h_closed.bound
  | @stopped t i s p e m _ h_run ih =>
    obtain ⟨h_closed, le_size⟩ := (ih.machine i).of_run_error h_run
    exact ih.modify i h_closed.stored le_size h_closed.bound
  | child _ i parent ih => exact ih.modify i ih.stored (Nat.le_refl _) ((ih.bound i).child parent)
  | discard _ i s ih => exact ih.modify i ih.stored (Nat.le_refl _) ((ih.bound i).discard s)
  | @clone t _ i ih =>
    refine ⟨fun j => ?_, ih.stored⟩
    -- the copy is the last environment, and the others are as they were
    have h_environment : (t.clone i).2.environment j =
        if j = t.environments.size then t.environment i else t.environment j := by
      unfold Session.clone environment
      dsimp only
      rw [Array.getElem?_push]
      split <;> rfl
    rw [h_environment]
    split
    · exact ih.bound i
    · exact ih.bound j
  | @created t _ fields h_fields ih =>
    have le_size : t.heap.size ≤ (t.heap.create fields).size := by
      rw [Heap.size_create]
      exact Nat.le_succ _
    exact ⟨fun i => (ih.bound i).mono le_size, ih.stored.create h_fields⟩
  | @changed t _ o property v h_v ih =>
    have le_size : t.heap.size ≤ (t.heap.set o property v).size :=
      Nat.le_of_eq (Heap.size_set _ _ _ _).symm
    exact ⟨fun i => (ih.bound i).mono le_size, ih.stored.set o property h_v⟩

end Session

/-- **A reachable machine:** what programs run on in an environment of a reachable state. -/
def Machine.Reachable (m : Machine) : Prop := ∃ t i, Session.Reachable t ∧ m = t.machine i

theorem Machine.Reachable.closed {m : Machine} (h : m.Reachable) : m.Closed := by
  obtain ⟨t, i, h_t, rfl⟩ := h
  exact h_t.closed.machine i

end ScriptLang
