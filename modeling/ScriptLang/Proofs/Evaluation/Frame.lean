import ScriptLang.Proofs.Evaluation.Declarations
import ScriptLang.Proofs.Session.History

/-!
# What a run leaves as it is

A run gets hold of objects through names, and of names through the chain of its scope. So all that
it can change are the scopes on this chain, the objects that could be reached from it when the run
began, and what it creates itself. That is so wherever the run stops, and although what can be
reached changes under its hands: whatever it gets hold of could be reached at the beginning or did
not exist then.

* `Machine.InReach` — what a run may get hold of.
* `Kept` — what is so all through a run, and `Kept.bind`, `create`, `set` and `write`, which keep
  it.
* `eval_object_new` — every object that is created is another one.
* `Machine.Framed` — the frame of a run.
* `run_framed` — every run on a reachable machine has it.
-/

namespace ScriptLang

/-! ### What a run may get hold of -/

/-- **An object in reach of a run:** it could be reached when the run began, or did not exist. -/
def Machine.InReach (m : Machine) (s : ScopeId) (o : ObjectId) : Prop :=
  m.Reaches s o ∨ m.heap.size ≤ o.index

/-- A value in reach of a run: an object in reach, or no object at all. -/
def Value.InReach (v : Value) (m : Machine) (s : ScopeId) : Prop :=
  ∀ o, v = .object o → m.InReach s o

/-- What is bound along a chain can be reached from its beginning. -/
theorem Machine.reaches_of_around {m : Machine} {s t : ScopeId} {name : String} {o : ObjectId}
    {constant : Bool} (around : m.scopes.Around s t)
    (h : m.scopes.binding? t name = some ⟨.object o, constant⟩) : m.Reaches s o := by
  induction around with
  | self s =>
    obtain ⟨scope, h_scope, h_name⟩ := Environment.binding?_eq_some.1 h
    exact .bound h_scope h_name
  | further h_parent _ ih => exact .around h_parent (ih h)

/-- Objects that do not exist have no properties. -/
theorem Heap.get?_fields_of_size_le {h : Heap} {o : ObjectId} (le : h.size ≤ o.index)
    (key : String) : (h.fields o).get? key = none := by
  cases h_key : (h.fields o).get? key with
  | none => rfl
  | some v =>
    have h_entries := List.ne_nil_of_mem (Table.mem_entries_of_get? h_key)
    exact absurd (index_lt_size h_entries) (Nat.not_lt.2 le)

/-! ### What is so all through a run -/

/-- **What is so all through a run** that began on the machine `m₀` in the scope `s`. -/
structure Kept (m₀ : Machine) (s : ScopeId) (m : Machine) : Prop where
  slots : m.scopes.slots.size = m₀.scopes.slots.size
  parents : ∀ t, (m.scopes.scope? t).map Scope.parent = (m₀.scopes.scope? t).map Scope.parent
  scopes : ∀ t, ¬m₀.scopes.Around s t → m.scopes.scope? t = m₀.scopes.scope? t
  bound : ∀ t name b, m₀.scopes.Around s t → m.scopes.binding? t name = some b →
    b.value.InReach m₀ s
  stored : ∀ o key v, m₀.InReach s o → (m.heap.fields o).get? key = some v → v.InReach m₀ s
  objects : ∀ o, ¬m₀.InReach s o → m.heap.fields o = m₀.heap.fields o
  properties : ∀ o key, ((m₀.heap.fields o).get? key).isSome →
    ((m.heap.fields o).get? key).isSome
  grows : m₀.heap.size ≤ m.heap.size
  written : ∃ out, m.sink.written = m₀.sink.written ++ out

namespace Kept

variable {m₀ m : Machine} {s : ScopeId}

theorem start (m₀ : Machine) (s : ScopeId) : Kept m₀ s m₀ where
  slots := rfl
  parents _ := rfl
  scopes _ _ := rfl
  bound t name b around h := by
    rintro o h_o
    obtain ⟨v, constant⟩ := b
    cases h_o
    exact .inl (Machine.reaches_of_around around h)
  stored o key v in_reach h := by
    rintro o' rfl
    rcases in_reach with h_o | le
    · exact .inl (.stored h_o h)
    · rw [Heap.get?_fields_of_size_le le] at h
      cases h
  objects _ _ := rfl
  properties _ _ h := h
  grows := Nat.le_refl _
  written := ⟨.empty, ByteArray.append_empty.symm⟩

/-- The chains are those of the beginning. -/
theorem around (kept : Kept m₀ s m) {t : ScopeId} (h : m.scopes.Around s t) :
    m₀.scopes.Around s t :=
  h.congr fun t => (Environment.parent?_congr (kept.parents t)).symm

/-- Names mean what is in reach. -/
theorem get (kept : Kept m₀ s m) {name : String} {v : Value} (h : m.scopes.get s name = .ok v) :
    v.InReach m₀ s := by
  obtain ⟨o, b, h_around, h_name, rfl⟩ := Environment.get_eq_ok h
  exact kept.bound o name b (kept.around h_around) h_name

/-- **A name is bound** on the chain to a value in reach. -/
theorem bind (kept : Kept m₀ s m) {t : ScopeId} (h_t : m₀.scopes.Around s t) (name : String)
    {b : Binding} (h_b : b.value.InReach m₀ s) :
    Kept m₀ s { m with scopes := m.scopes.bind t name b } where
  slots := (Environment.size_bind _ _ _ _).trans kept.slots
  parents t' := (Environment.map_parent_bind _ _ _ _ _).trans (kept.parents t')
  scopes t' h_t' := by
    have h_ne : t' ≠ t := fun h_eq => h_t' (h_eq ▸ h_t)
    show (m.scopes.bind t name b).scope? t' = _
    rw [Environment.scope?_bind, if_neg h_ne]
    exact kept.scopes t' h_t'
  bound t' name' b' h_around h := by
    change (m.scopes.bind t name b).binding? t' name' = _ at h
    rw [Environment.binding?_bind] at h
    split at h
    · obtain ⟨_, _, rfl⟩ := Option.map_eq_some_iff.1 h
      exact h_b
    · exact kept.bound t' name' b' h_around h
  stored := kept.stored
  objects := kept.objects
  properties := kept.properties
  grows := kept.grows
  written := kept.written

/-- An object that is created did not exist before. -/
theorem inReach_nextId (kept : Kept m₀ s m) : m₀.InReach s m.heap.nextId := .inr kept.grows

/-- **An object is created** with properties in reach. -/
theorem create (kept : Kept m₀ s m) {fields : Table Value}
    (h_fields : ∀ key v, fields.get? key = some v → v.InReach m₀ s) :
    Kept m₀ s { m with heap := m.heap.create fields } where
  slots := kept.slots
  parents := kept.parents
  scopes := kept.scopes
  bound := kept.bound
  stored o key v in_reach h := by
    change ((m.heap.create fields).fields o).get? key = _ at h
    rw [Heap.fields_create] at h
    split at h
    · exact h_fields key v h
    · exact kept.stored o key v in_reach h
  objects o h := by
    have h_ne : o ≠ m.heap.nextId := fun h_eq => h (h_eq ▸ kept.inReach_nextId)
    show (m.heap.create fields).fields o = _
    rw [Heap.fields_create, if_neg h_ne]
    exact kept.objects o h
  properties o key h := by
    have h_ne : o ≠ m.heap.nextId := by
      rintro rfl
      rw [Heap.get?_fields_of_size_le (o := m.heap.nextId) kept.grows] at h
      cases h
    show (((m.heap.create fields).fields o).get? key).isSome
    rw [Heap.fields_create, if_neg h_ne]
    exact kept.properties o key h
  grows := by
    show _ ≤ (m.heap.create fields).size
    rw [Heap.size_create]
    exact Nat.le_succ_of_le kept.grows
  written := kept.written

/-- **A property is written,** of an object in reach and to a value in reach. -/
theorem set (kept : Kept m₀ s m) {o : ObjectId} (h_o : m₀.InReach s o) (property : String)
    {v : Value} (h_v : v.InReach m₀ s) :
    Kept m₀ s { m with heap := m.heap.set o property v } where
  slots := kept.slots
  parents := kept.parents
  scopes := kept.scopes
  bound := kept.bound
  stored o' key v' in_reach h := by
    change ((m.heap.set o property v).fields o').get? key = _ at h
    rw [Heap.fields_set] at h
    split at h
    · rw [Table.get?_insert] at h
      split at h
      · cases h
        exact h_v
      · exact kept.stored o key v' h_o h
    · exact kept.stored o' key v' in_reach h
  objects o' h := by
    have h_ne : o' ≠ o := fun h_eq => h (h_eq ▸ h_o)
    show (m.heap.set o property v).fields o' = _
    rw [Heap.fields_set, if_neg fun h_same => h_ne h_same.1]
    exact kept.objects o' h
  properties o' key h := by
    have h_kept := kept.properties o' key h
    show (((m.heap.set o property v).fields o').get? key).isSome
    rw [Heap.fields_set]
    split
    · next h_same =>
      rw [h_same.1] at h_kept
      rw [Table.get?_insert]
      split
      · rfl
      · exact h_kept
    · exact h_kept
  grows := by
    show _ ≤ (m.heap.set o property v).size
    rw [Heap.size_set]
    exact kept.grows
  written := kept.written

/-- **Something is written** to the output, after what was written before. -/
theorem write (kept : Kept m₀ s m) (bytes : ByteArray) :
    Kept m₀ s { m with sink := m.sink.write bytes } where
  slots := kept.slots
  parents := kept.parents
  scopes := kept.scopes
  bound := kept.bound
  stored := kept.stored
  objects := kept.objects
  properties := kept.properties
  grows := kept.grows
  written := by
    obtain ⟨out, h_out⟩ := kept.written
    refine ⟨out ++ bytes.extract 0 (m.sink.fitting bytes.size), ?_⟩
    rw [← ByteArray.append_assoc, ← h_out]
    rfl

/-- What is so all through a run, as an invariant. -/
private def invariant (m₀ : Machine) (s : ScopeId) : Invariant s where
  Machines := Kept m₀ s
  Values v := v.InReach m₀ s
  plain v h o h_o := absurd h_o (h o)
  lookup _ _ _ kept h := kept.get h
  create m fields kept h_fields := by
    refine ⟨kept.create h_fields, ?_⟩
    rintro o ⟨⟩
    exact kept.inReach_nextId
  getProperty _ o property v kept h_o h := kept.stored o property v (h_o o rfl) h

private theorem assignments (m₀ : Machine) (s : ScopeId) : (invariant m₀ s).Assignments where
  assign m name v e kept h_v h := by
    obtain ⟨o, b, h_around, _, _, rfl⟩ := Environment.assign_eq_ok h
    exact kept.bind (kept.around h_around) name h_v
  setProperty m o property v kept h_o h_v := kept.set (h_o o rfl) property h_v

private theorem statements (m₀ : Machine) (s : ScopeId) : (invariant m₀ s).Statements where
  declare m constant name v e kept h_v h := by
    obtain ⟨_, _, rfl⟩ := Environment.declare_eq_ok h
    exact kept.bind (.self s) name h_v
  write _ bytes kept := kept.write bytes

/-- **What is so all through a run is so when it ends,** wherever that is. -/
theorem of_run (m₀ : Machine) (s : ScopeId) (p : Program) :
    Kept m₀ s (finalMachine (run s p m₀)) :=
  ((statements m₀ s).run (.inr (assignments m₀ s)) m₀ (start m₀ s)).machine

end Kept

/-! ### Runs without assignments -/

/-- **Nothing that was there is changed:** no object and no binding. -/
structure Machine.Unchanged (m m' : Machine) : Prop where
  objects : ∀ o, o.index < m.heap.size → m'.heap.fields o = m.heap.fields o
  bindings : ∀ t name b, m.scopes.binding? t name = some b →
    m'.scopes.binding? t name = some b

namespace Sparing

/-- What was there is still there, and there are no fewer objects. -/
private def invariant (m₀ : Machine) (s : ScopeId) : Invariant s where
  Machines m := m₀.Unchanged m ∧ m₀.heap.size ≤ m.heap.size
  Values _ := True
  plain _ _ := trivial
  lookup _ _ _ _ _ := trivial
  create m fields h _ := by
    obtain ⟨unchanged, grows⟩ := h
    refine ⟨⟨⟨fun o h_o => ?_, unchanged.bindings⟩, ?_⟩, trivial⟩
    · have h_ne : o ≠ m.heap.nextId := by
        rintro rfl
        exact absurd h_o (Nat.not_lt.2 grows)
      show (m.heap.create fields).fields o = _
      rw [Heap.fields_create, if_neg h_ne]
      exact unchanged.objects o h_o
    · show _ ≤ (m.heap.create fields).size
      rw [Heap.size_create]
      exact Nat.le_succ_of_le grows
  getProperty _ _ _ _ _ _ _ := trivial

private theorem statements (m₀ : Machine) (s : ScopeId) : (invariant m₀ s).Statements where
  declare m constant name v e h _ h_declare := by
    obtain ⟨unchanged, grows⟩ := h
    obtain ⟨_, h_none, rfl⟩ := Environment.declare_eq_ok h_declare
    refine ⟨⟨unchanged.objects, fun t name' b h_name => ?_⟩, grows⟩
    have h_same := unchanged.bindings t name' b h_name
    show (m.scopes.bind s name ⟨v, constant⟩).binding? t name' = _
    rw [Environment.binding?_bind, if_neg, h_same]
    -- the name that is declared was not bound
    rintro ⟨rfl, rfl⟩
    rw [h_none] at h_same
    cases h_same
  write _ _ h := ⟨⟨h.1.objects, h.1.bindings⟩, h.2⟩

end Sparing

/-- **A run without assignments changes nothing that was there.** -/
theorem run_unchanged {p : Program} (free : p.AssignFree) (s : ScopeId) (m : Machine) :
    m.Unchanged (finalMachine (run s p m)) := by
  have h_start : m.Unchanged m ∧ m.heap.size ≤ m.heap.size :=
    ⟨⟨fun _ _ => rfl, fun _ _ _ h => h⟩, Nat.le_refl _⟩
  exact ((Sparing.statements m s).run (.inl free) m h_start).machine.1

/-! ### New objects -/

/-- **An object literal gives a new object,** the last one when it has been evaluated: it did not
exist before, and it is none of those that its properties created. -/
theorem eval_object_new {s : ScopeId} {properties : List (String × Expr)} {m m' : Machine}
    {v : Value} (h : eval s (.object properties) m = .ok v m') :
    ∃ o, v = .object o ∧ m.heap.size ≤ o.index ∧ m'.heap.size = o.index + 1 := by
  have h_none : ∀ key v, (∅ : Table Value).get? key = some v → v.InReach m s := by
    intro key v h_v
    rw [Table.get?_empty] at h_v
    cases h_v
  have h_fields := (Kept.invariant m s).evalProperties properties (.inr (Kept.assignments m s))
    h_none m (Kept.start m s)
  rw [eval] at h
  change EStateM.bind (evalProperties s ∅ properties) Eval.create m = _ at h
  unfold EStateM.bind at h
  cases h_properties : evalProperties s ∅ properties m with
  | error e m₁ =>
    rw [h_properties] at h
    cases h
  | ok fields m₁ =>
    rw [h_properties] at h h_fields
    cases h
    exact ⟨m₁.heap.nextId, rfl, h_fields.machine.grows, Heap.size_create m₁.heap fields⟩

/-- The objects that a machine speaks of. -/
inductive Machine.Mentions (m : Machine) (o : ObjectId) : Prop where
  | bound {t name constant} (h : m.scopes.binding? t name = some ⟨.object o, constant⟩)
  | stored {o' key} (h : (m.heap.fields o').get? key = some (.object o))

theorem Machine.Closed.index_lt_of_mentions {m : Machine} (closed : m.Closed) {o : ObjectId}
    (h : m.Mentions o) : o.index < m.heap.size := by
  cases h with
  | @bound t name constant h =>
    obtain ⟨scope, h_scope, h_name⟩ := Environment.binding?_eq_some.1 h
    exact closed.bound t scope name ⟨.object o, constant⟩ h_scope h_name o rfl
  | @stored o' key h => exact closed.stored o' key (.object o) h o rfl

/-! ### The frame -/

/-- **The frame of a run** on a machine in a scope: what is so of the machine that it leaves. -/
structure Machine.Framed (m : Machine) (s : ScopeId) (p : Program) (m' : Machine) : Prop where
  /-- There are as many slots for scopes as there were. -/
  slots : m'.scopes.slots.size = m.scopes.slots.size
  /-- There are the scopes that there were, inside the scopes that they were inside. -/
  parents : ∀ t, (m'.scopes.scope? t).map Scope.parent = (m.scopes.scope? t).map Scope.parent
  /-- The names that are added are those of the declarations that were executed to their end, and
  they are added in the scope of the run. -/
  names : m.scopes.Adds s (executed s p m).declared m'.scopes
  /-- Scopes off the chain are as they were. -/
  scopes : ∀ t, ¬m.scopes.Around s t → m'.scopes.scope? t = m.scopes.scope? t
  /-- Objects that could not be reached are as they were. -/
  objects : ∀ o, o.index < m.heap.size → ¬m.Reaches s o → m'.heap.fields o = m.heap.fields o
  /-- No object loses a property. -/
  properties : ∀ o key, ((m.heap.fields o).get? key).isSome →
    ((m'.heap.fields o).get? key).isSome
  /-- No object goes, -/
  grows : m.heap.size ≤ m'.heap.size
  /-- the objects that the machine spoke of are among those that there were, -/
  mentioned : ∀ o, m.Mentions o → o.index < m.heap.size
  /-- and whatever an object literal gives, at any time, is none of the objects that there are. -/
  created : ∀ properties m₁ v m₁', eval s (.object properties) m₁ = .ok v m₁' →
    ∃ o, v = .object o ∧ m₁.heap.size ≤ o.index ∧ m₁'.heap.size = o.index + 1
  /-- What was written stays written. -/
  written : ∃ out, m'.sink.written = m.sink.written ++ out
  /-- Without assignments nothing that was there is changed. -/
  unchanged : p.AssignFree → m.Unchanged m'

/-- **Every run has its frame,** on reachable machines, in any scope, and wherever it stops: whether
it executed all of its statements, or those before the one that its error names. -/
theorem run_framed {m : Machine} (reachable : m.Reachable) (s : ScopeId) (p : Program) :
    (∀ v m', run s p m = .ok v m' → executed s p m = p) ∧
      (∀ e m', run s p m = .error e m' → ∃ rest, p = executed s p m ++ e.statement :: rest) ∧
      m.Framed s p (finalMachine (run s p m)) := by
  refine ⟨fun v m' => executed_of_ok, fun e m' => executed_of_error, ?_⟩
  have kept := Kept.of_run m s p
  exact {
    slots := kept.slots
    parents := kept.parents
    names := run_adds s p m
    scopes := kept.scopes
    objects := fun o h_o h_reaches => kept.objects o fun in_reach =>
      -- an object in reach that existed is one that could be reached
      in_reach.elim h_reaches (Nat.not_le.2 h_o)
    properties := kept.properties
    grows := kept.grows
    mentioned := fun o => reachable.closed.index_lt_of_mentions
    created := fun properties m₁ v m₁' => eval_object_new
    written := kept.written
    unchanged := fun free => run_unchanged free s m }

/-- A program that declares a name, writes to a constant object in the scope around, and stops when
it assigns to the constant. -/
def Program.stopping : Program :=
  [.declare false "o" (.object [("a", .object [])]),
    .expression (.assign (.member (.identifier "k") "x") (.identifier "o")),
    .expression (.assign (.identifier "k") (.literal (.number 1))),
    .declare false "late" (.identifier "o")]

theorem run_framed_of_stopping :
    Machine.keeping.Reachable ∧
      (executed ⟨2⟩ Program.stopping Machine.keeping).declared = ["o"] ∧
      Machine.keeping.Framed ⟨2⟩ Program.stopping
        (finalMachine (run ⟨2⟩ Program.stopping Machine.keeping)) := by
  have h_reachable : Machine.keeping.Reachable := Machine.reachable_perform none _
  exact ⟨h_reachable, rfl, (run_framed h_reachable ⟨2⟩ Program.stopping).2.2⟩

end ScriptLang
