import ScriptLang.Proofs.Environment.Slots
import ScriptLang.Proofs.Session.History

/-!
# Machines that come about

A host that opens scopes only inside such as it opened before brings about the machines that
*arise*. It may discard scopes in any order, run programs in scopes that are gone, and share the
objects and the output with other hosts, who may do anything with them. Whatever happens, the scopes
of such a machine are what requests to an environment lead to: a run makes its requests one after
the other.

* `Machine.Arises` — the machines that come about.
* `Machine.Arises.requested` — their scopes are what requests lead to.
-/

namespace ScriptLang

open Environment

namespace Machine

/-- **The machines that come about:** a fresh one, one on which something was done, where scopes are
opened only inside such as were opened before, and one whose objects and output were changed from
elsewhere. -/
inductive Arises : Machine → Prop where
  | initial (capacity : Option Nat) : Arises (Machine.initial capacity)
  | applied {m : Machine} (h : m.Arises) (operation : Operation)
      (inside : ∀ parent, operation = .child parent → m.scopes.Issued parent) :
      Arises (m.apply operation)
  | shared {m : Machine} (h : m.Arises) (heap : Heap) (sink : Sink) :
      Arises ⟨m.scopes, heap, sink⟩

end Machine

namespace Arising

/-- The scopes are what requests lead to. -/
private def invariant (s : ScopeId) : Invariant s where
  Machines m := m.scopes.Requested
  Values _ := True
  plain _ _ := trivial
  lookup _ _ _ _ _ := trivial
  create _ _ h _ := ⟨h, trivial⟩
  getProperty _ _ _ _ _ _ _ := trivial

private theorem assignments (s : ScopeId) : (invariant s).Assignments where
  assign m name v e h _ h_assign := by
    -- the assignment is one more request
    have h_apply : m.scopes.apply (.assign s name v) = e := by rw [Environment.apply, h_assign]; rfl
    show e.Requested
    rw [← h_apply]
    exact h.apply _ nofun
  setProperty _ _ _ _ h _ _ := h

private theorem statements (s : ScopeId) : (invariant s).Statements where
  declare m constant name v e h _ h_declare := by
    have h_apply : m.scopes.apply (.declare s name ⟨v, constant⟩) = e := by
      rw [Environment.apply, h_declare]
      rfl
    show e.Requested
    rw [← h_apply]
    exact h.apply _ nofun
  write _ _ h := h

end Arising

/-- **The scopes of a machine that arises** are what requests lead to. -/
theorem Machine.Arises.requested {m : Machine} (h : m.Arises) : m.scopes.Requested := by
  induction h with
  | initial capacity => exact requested_initial
  | @applied m _ operation inside ih =>
    cases operation with
    | run s p =>
      -- wherever the run stopped, what it did to the scopes it did by requests
      exact ((Arising.statements s).run (.inr (Arising.assignments s)) m ih).machine
    | child parent =>
      refine ih.apply (.push parent) ?_
      rintro _ ⟨⟩
      exact inside parent rfl
    | discard s => exact ih.apply (.discard s) nofun
  | shared _ _ _ ih => exact ih

end ScriptLang
