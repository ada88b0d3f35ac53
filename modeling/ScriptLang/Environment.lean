import ScriptLang.Evaluation.Error
import ScriptLang.Table
import ScriptLang.Value

/-!
# Scopes

An `Environment` holds all scopes that were ever opened, each in a slot of its own and inside
another one, its parent. The first slot is the root, which binds the constants `null`, `true` and
`false`. A discarded scope leaves its slot empty, and slots are not used again, so the identity of
a scope stays its own even after the scope is gone.

A parent is nearly always in an earlier slot, and then the environment is `Ordered`. But a scope
may also be opened inside one whose slot comes later or is still to be given out: until there is a
scope in it, the new one is inside a scope that is no more.

* `Environment.find` — what a name means in a scope: its binding in the nearest scope around.
* `Environment.find_eq` — the walk outwards, step by step, in an ordered environment.
* `Environment.discard` — discards a scope and what is inside it in later slots.
* `Environment.scope?_child`, `scope?_clear` and `scope?_bind` — what the elementary changes do to
  every scope.
-/

namespace ScriptLang

/-- The identity of a scope: the slot it was given. -/
structure ScopeId where
  index : Nat
deriving DecidableEq, Repr

/-- What a name is bound to, and whether for good. -/
structure Binding where
  value : Value
  constant : Bool
deriving DecidableEq, Repr

/-- A scope: the names declared in it, and the scope around it. -/
structure Scope where
  bindings : Table Binding
  parent : Option ScopeId
deriving DecidableEq

/-- **The scopes that were opened,** an empty slot for each discarded one. -/
structure Environment where
  slots : Array (Option Scope)
deriving DecidableEq

namespace Environment

/-- The identity of the outermost scope. -/
def root : ScopeId := ⟨0⟩

/-- The bindings of a fresh root: three constants. -/
def constants : Table Binding :=
  ((∅ : Table Binding).insert "null" ⟨.null, true⟩
    |>.insert "true" ⟨.boolean true, true⟩).insert "false" ⟨.boolean false, true⟩

/-- The environment with nothing but the root. -/
def initial : Environment := ⟨#[some ⟨constants, none⟩]⟩

/-- The scope of an identity, unless it was discarded or never opened. -/
def scope? (e : Environment) (s : ScopeId) : Option Scope := e.slots[s.index]?.join

/-- The scope around a scope; there is none for the root and for what is no scope any more. -/
def parent? (e : Environment) (s : ScopeId) : Option ScopeId := (e.scope? s).bind Scope.parent

/-! ### Opening and discarding -/

/-- The identity of the scope that is opened next. -/
def nextId (e : Environment) : ScopeId := ⟨e.slots.size⟩

/-- The environment with a new scope inside `parent`. -/
def child (e : Environment) (parent : ScopeId) : Environment :=
  ⟨e.slots.push (some ⟨∅, some parent⟩)⟩

/-- Empties the slot of a scope. -/
def clear (e : Environment) (s : ScopeId) : Environment := ⟨e.slots.modify s.index fun _ => none⟩

/-- A new scope is empty and has the given parent, and every other scope is as it was. -/
theorem scope?_child (e : Environment) (parent s : ScopeId) :
    (e.child parent).scope? s = if s = e.nextId then some ⟨∅, some parent⟩ else e.scope? s := by
  obtain ⟨i⟩ := s
  simp only [child, scope?, nextId, Array.getElem?_push, ScopeId.mk.injEq]
  split <;> simp

/-- A cleared slot holds no scope, and every other slot holds what it held. -/
theorem scope?_clear (e : Environment) (s t : ScopeId) :
    (e.clear s).scope? t = if t = s then none else e.scope? t := by
  obtain ⟨i⟩ := s
  obtain ⟨j⟩ := t
  simp only [clear, scope?, Array.getElem?_modify, ScopeId.mk.injEq]
  by_cases h : i = j
  · subst h; cases e.slots[i]? <;> simp
  · simp [h, Ne.symm h]

/-- Is it a scope inside one that is no more? -/
def isOrphan (e : Environment) (s : ScopeId) : Bool :=
  match e.parent? s with
  | none => false
  | some p => (e.scope? p).isNone

/-- Empties the slot of a scope if it is inside one that is no more. -/
def clearOrphan (e : Environment) (s : ScopeId) : Environment :=
  if e.isOrphan s then e.clear s else e

/-- **Discards a scope,** and in a single pass over the later slots also whatever is by then inside
a scope that is no more. In an ordered environment nothing inside the scope has an earlier slot, so
all of it goes. The root is never discarded. -/
def discard (e : Environment) (s : ScopeId) : Environment :=
  if s = root ∨ e.slots.size ≤ s.index then e
  else
    (List.range' (s.index + 1) (e.slots.size - (s.index + 1))).foldl
      (fun e i => e.clearOrphan ⟨i⟩) (e.clear s)

/-! ### Names -/

/-- The nearest scope, from `s` outwards and at most so many in all, that binds a name, and the
binding. -/
def findWithin (e : Environment) (name : String) :
    Nat → ScopeId → Except RuntimeError (ScopeId × Binding)
  | 0, _ => .error (.undeclaredVariable name)
  | steps + 1, s =>
    match e.scope? s with
    | none => .error .discardedScope
    | some scope =>
      match scope.bindings.get? name with
      | some binding => .ok (s, binding)
      | none =>
        match scope.parent with
        | none => .error (.undeclaredVariable name)
        | some p => e.findWithin name steps p

/-- **What a name means in a scope:** the nearest scope, from `s` outwards, that binds it, and the
binding. Unless it goes in a circle, the walk is never cut short: it meets each slot once at most,
and one more step is for the end, where there may be no slot at all. -/
def find (e : Environment) (s : ScopeId) (name : String) :
    Except RuntimeError (ScopeId × Binding) :=
  e.findWithin name (e.slots.size + 1) s

/-- Every scope is in a later slot than the one around it. -/
def Ordered (e : Environment) : Prop := ∀ s p, e.parent? s = some p → p.index < s.index

/-- Where there is a scope, there is a slot. -/
theorem index_lt_size {e : Environment} {s : ScopeId} {scope : Scope}
    (h : e.scope? s = some scope) : s.index < e.slots.size := by
  refine Nat.lt_of_not_le fun le => ?_
  simp [scope?, Array.getElem?_eq_none le] at h

/-- In an ordered environment as many steps as there are slots up to the scope are enough. -/
theorem Ordered.findWithin_eq {e : Environment} (h : e.Ordered) (name : String) :
    ∀ {m n : Nat} {s : ScopeId}, s.index < m → s.index < n →
      e.findWithin name m s = e.findWithin name n s
  | m + 1, n + 1, s, hm, hn => by
    rw [findWithin, findWithin]
    cases hs : e.scope? s with
    | none => rfl
    | some scope =>
      dsimp only
      cases scope.bindings.get? name with
      | some binding => rfl
      | none =>
        cases hp : scope.parent with
        | none => rfl
        | some p =>
          -- the parent is in an earlier slot, so one step less is still enough
          have : p.index < s.index := h s p (by simp [parent?, hs, hp])
          exact h.findWithin_eq name (by omega) (by omega)

/-- **The walk outwards, step by step.** In an ordered environment a name means what the scope
itself binds it to, and otherwise what it means in the scope around. -/
theorem find_eq {e : Environment} (h : e.Ordered) (s : ScopeId) (name : String) :
    e.find s name =
      match e.scope? s with
      | none => .error .discardedScope
      | some scope =>
        match scope.bindings.get? name with
        | some binding => .ok (s, binding)
        | none =>
          match scope.parent with
          | none => .error (.undeclaredVariable name)
          | some p => e.find p name := by
  rw [find, findWithin]
  cases hs : e.scope? s with
  | none => rfl
  | some scope =>
    dsimp only
    cases scope.bindings.get? name with
    | some binding => rfl
    | none =>
      cases hp : scope.parent with
      | none => rfl
      | some p =>
        have : p.index < s.index := h s p (by simp [parent?, hs, hp])
        have : s.index < e.slots.size := index_lt_size hs
        exact h.findWithin_eq name (by omega) (by omega)

/-- The scope in which a name is bound. -/
def owner (e : Environment) (s : ScopeId) (name : String) : Except RuntimeError ScopeId :=
  (e.find s name).map Prod.fst

/-- The value of a name. -/
def get (e : Environment) (s : ScopeId) (name : String) : Except RuntimeError Value :=
  (e.find s name).map fun r => r.2.value

/-- Binds a name in a scope, whatever it was bound to there. -/
def bind (e : Environment) (s : ScopeId) (name : String) (binding : Binding) : Environment :=
  ⟨e.slots.modify s.index (Option.map fun scope =>
    { scope with bindings := scope.bindings.insert name binding })⟩

/-- Binding a name changes the scope it is bound in, and every other scope is as it was. -/
theorem scope?_bind (e : Environment) (s : ScopeId) (name : String) (b : Binding) (t : ScopeId) :
    (e.bind s name b).scope? t =
      if t = s then
        (e.scope? s).map fun scope => { scope with bindings := scope.bindings.insert name b }
      else e.scope? t := by
  obtain ⟨i⟩ := s
  obtain ⟨j⟩ := t
  simp only [bind, scope?, Array.getElem?_modify, ScopeId.mk.injEq]
  by_cases h : i = j
  · subst h; cases e.slots[i]? <;> simp
  · simp [h, Ne.symm h]

/-- Declares a name in a scope, where it must not be declared yet. -/
def declare (e : Environment) (s : ScopeId) (name : String) (binding : Binding) :
    Except RuntimeError Environment :=
  match e.scope? s with
  | none => .error .discardedScope
  | some scope =>
    if scope.bindings.contains name then .error (.duplicateDeclaration name)
    else .ok (e.bind s name binding)

/-- Gives a name a new value in the scope where it is bound, unless it is a constant. -/
def assign (e : Environment) (s : ScopeId) (name : String) (value : Value) :
    Except RuntimeError Environment := do
  let (owner, binding) ← e.find s name
  if binding.constant then .error (.constAssignment name)
  else .ok (e.bind owner name { binding with value })

end Environment

end ScriptLang
