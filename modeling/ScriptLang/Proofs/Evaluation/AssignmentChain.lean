import ScriptLang.Proofs.Environment.Bindings
import ScriptLang.Proofs.Evaluation.Declarations
import ScriptLang.Proofs.Evaluation.Law
import ScriptLang.Proofs.Session.History

/-!
# Chains of assignments

An assignment may be the value of another one, and so on: `a = b.p = c = e`. Two orders meet in such
a chain. From left to right it is found out where to write, for which the bases of members are
evaluated; then comes the value at the end, once; and then it is written from right to left. Bases
and value may do whatever they like, and a base that refers to a name which a later part of the
chain gives another value is not evaluated again.

* `Target`, `chain` — what is assigned to, and the chain.
* `Place`, `Located` — where a target turns out to be, and the places of several targets.
* `Environment.refusal?` — why a name cannot be assigned to.
* `writeBack`, `putBack` — writing to places from right to left, and the machine after it.
* `eval_chain_of_located` — once targets are located the rest of the chain is evaluated, and then
  they are written to.
* `ChainOutcome`, `eval_chain_eq_iff` — all that can come out of a chain.
* `Place.Holds`, `holds_putBack` — what was written is there in the end.
* `eval_chain_locates_then_writes` — chains on reachable machines.
-/

namespace ScriptLang

/-! ### Targets and places -/

/-- **What can be assigned to:** a name, or a property of what an expression gives. -/
inductive Target where
  | name (name : String)
  | member (base : Expr) (property : String)

/-- A target as it stands in an assignment. -/
def Target.expr : Target → Expr
  | name n => .identifier n
  | member base property => .member base property

/-- **A chain of assignments:** the value of each but the last is the next one. -/
def chain (targets : List Target) (e : Expr) : Expr :=
  targets.foldr (fun target value => .assign target.expr value) e

/-- **Where a value is written:** to a name, or to a property of an object. -/
inductive Place where
  | name (name : String)
  | property (o : ObjectId) (property : String)

/-- A target is located. For a member this takes the evaluation of its base. -/
inductive Locates (s : ScopeId) : Target → Machine → Place → Machine → Prop where
  | name (n m) : Locates s (.name n) m (.name n) m
  | member {base property m o m'} (object : eval s base m = .ok (.object o) m') :
      Locates s (.member base property) m (.property o property) m'

/-- A target cannot be located: the evaluation of its base fails, or gives no object. -/
inductive Fails (s : ScopeId) : Target → Machine → RuntimeError → Machine → Prop where
  | base {base property m err m'} (failure : eval s base m = .error err m') :
      Fails s (.member base property) m err m'
  | noObject {base property m b m'} (value : eval s base m = .ok b m') (other : ∀ o, b ≠ .object o) :
      Fails s (.member base property) m (.setOnNonObject (m'.heap.text b)) m'

/-- **Targets are located one after the other,** from left to right. -/
inductive Located (s : ScopeId) : List Target → Machine → List Place → Machine → Prop where
  | nil (m) : Located s [] m [] m
  | cons {target targets m place m₁ places m₂} (first : Locates s target m place m₁)
      (rest : Located s targets m₁ places m₂) :
      Located s (target :: targets) m (place :: places) m₂

theorem locates_or_fails (s : ScopeId) (target : Target) (m : Machine) :
    (∃ place m', Locates s target m place m') ∨ ∃ err m', Fails s target m err m' := by
  cases target with
  | name n => exact .inl ⟨_, _, .name n m⟩
  | member base property =>
    cases h_base : eval s base m with
    | error err m' => exact .inr ⟨_, _, .base h_base⟩
    | ok b m' =>
      cases b with
      | object o => exact .inl ⟨_, _, .member h_base⟩
      | null | boolean | number | string => exact .inr ⟨_, _, .noObject h_base nofun⟩

/-- **Either all targets are located, or one of them cannot be** and those to its left are. -/
theorem located_or_fails (s : ScopeId) (targets : List Target) (m : Machine) :
    (∃ places m₁, Located s targets m places m₁) ∨
      ∃ before target after places m₁ err m₂, targets = before ++ target :: after ∧
        Located s before m places m₁ ∧ Fails s target m₁ err m₂ := by
  induction targets generalizing m with
  | nil => exact .inl ⟨_, _, .nil m⟩
  | cons target targets ih =>
    rcases locates_or_fails s target m with ⟨place, m₁, first⟩ | ⟨err, m₁, fails⟩
    · rcases ih m₁ with ⟨places, m₂, rest⟩ | ⟨before, t, after, places, m₂, err, m₃, rfl, rest, fails⟩
      · exact .inl ⟨_, _, .cons first rest⟩
      · exact .inr ⟨target :: before, t, after, _, _, _, _, rfl, .cons first rest, fails⟩
    · exact .inr ⟨[], target, targets, [], m, err, m₁, rfl, .nil m, fails⟩

/-! ### Writing -/

/-- Writes a value to a place. -/
def Place.write (s : ScopeId) (v : Value) : Place → Eval Unit
  | name n => Eval.assign s n v
  | property o p => Eval.setProperty o p v

/-- Writes a value to several places, from right to left. -/
def writeBack (s : ScopeId) (v : Value) : List Place → Eval Unit
  | [] => pure ()
  | place :: places => do
    writeBack s v places
    place.write s v

/-- Once its target is located, an assignment evaluates the value and writes it. -/
theorem eval_assign_of_locates {s : ScopeId} {target : Target} {m m' : Machine} {place : Place}
    (locates : Locates s target m place m') (value : Expr) :
    eval s (.assign target.expr value) m =
      (do
        let v ← eval s value
        place.write s v
        return v : Eval Value) m' := by
  cases locates with
  | name n => rw [Target.expr, eval]; rfl
  | @member base property _ o _ h_base =>
    rw [Target.expr, eval, bind_apply_of_ok h_base]
    rfl

/-- **Once targets are located,** the rest of the chain is evaluated and its value written to them
from right to left. -/
theorem eval_chain_of_located {s : ScopeId} {targets : List Target} {m m' : Machine}
    {places : List Place} (located : Located s targets m places m') (rest : List Target) (e : Expr) :
    eval s (chain (targets ++ rest) e) m =
      (do
        let v ← eval s (chain rest e)
        writeBack s v places
        return v : Eval Value) m' := by
  induction located with
  | nil m => simp only [List.nil_append, writeBack, pure_bind, bind_pure]
  | @cons target targets m place m₁ places m₂ first _ ih =>
    -- the first target is located before all others, and written to when they have been
    show eval s (.assign target.expr (chain (targets ++ rest) e)) m = _
    rw [eval_assign_of_locates first, bind_apply_congr ih]
    simp only [writeBack, bind_assoc, pure_bind]

/-- A target that cannot be located ends the evaluation of its assignment. -/
theorem eval_assign_of_fails {s : ScopeId} {target : Target} {m m' : Machine} {err : RuntimeError}
    (fails : Fails s target m err m') (value : Expr) :
    eval s (.assign target.expr value) m = .error err m' := by
  cases fails with
  | base h_base =>
    rw [Target.expr, eval]
    exact bind_apply_of_error h_base
  | @noObject base property _ b _ h_base other =>
    rw [Target.expr, eval, bind_apply_of_ok h_base]
    cases b with
    | object o => exact absurd rfl (other o)
    | null | boolean | number | string => rfl

/-! ### Refusals -/

/-- **Why a name cannot be assigned to,** if it cannot: it is not found, or it is a constant. -/
def Environment.refusal? (e : Environment) (s : ScopeId) (name : String) : Option RuntimeError :=
  match e.find s name with
  | .error err => some err
  | .ok (_, b) => if b.constant then some (.constAssignment name) else none

/-- The machine after a value was written to a place; a name has it in the scope where it is
bound. -/
def Place.put (s : ScopeId) (v : Value) (m : Machine) : Place → Machine
  | name n =>
    match m.scopes.find s n with
    | .error _ => m
    | .ok (o, b) => { m with scopes := m.scopes.bind o n { b with value := v } }
  | property o p => { m with heap := m.heap.set o p v }

/-- **The machine after a value was written** to several places, from right to left. -/
def putBack (s : ScopeId) (v : Value) (m : Machine) (places : List Place) : Machine :=
  places.foldr (fun place m => place.put s v m) m

theorem Environment.exists_of_refusal?_eq_none {e : Environment} {s : ScopeId} {name : String}
    (h : e.refusal? s name = none) :
    ∃ o b, e.find s name = .ok (o, b) ∧ b.constant = false := by
  unfold refusal? at h
  cases h_find : e.find s name with
  | error err => rw [h_find] at h; cases h
  | ok found =>
    rw [h_find] at h
    obtain ⟨o, b⟩ := found
    dsimp only at h
    split at h
    · cases h
    · next h_constant => exact ⟨o, b, rfl, Bool.eq_false_iff.2 h_constant⟩

/-- A name that cannot be assigned to fails in its own way. -/
theorem assign_of_refusal? {s : ScopeId} {name : String} {m : Machine} {err : RuntimeError}
    (h : m.scopes.refusal? s name = some err) (v : Value) :
    Eval.assign s name v m = .error err m := by
  have h_assign : m.scopes.assign s name v = .error err := by
    unfold Environment.refusal? at h
    unfold Environment.assign
    cases h_find : m.scopes.find s name with
    | error err' =>
      rw [h_find] at h
      cases h
      rfl
    | ok found =>
      rw [h_find] at h
      obtain ⟨o, b⟩ := found
      dsimp only at h
      split at h
      · next h_constant =>
        cases h
        exact if_pos h_constant
      · cases h
  rw [Eval.assign, Eval.updateScopes, h_assign]

/-- Any other name is given the value. -/
theorem assign_of_refusal?_eq_none {s : ScopeId} {name : String} {m : Machine}
    (h : m.scopes.refusal? s name = none) (v : Value) :
    Eval.assign s name v m = .ok () ((Place.name name).put s v m) := by
  obtain ⟨o, b, h_find, h_constant⟩ := Environment.exists_of_refusal?_eq_none h
  have h_assign : m.scopes.assign s name v =
      .ok (m.scopes.bind o name { b with value := v }) := by
    unfold Environment.assign
    rw [h_find]
    exact if_neg (Bool.eq_false_iff.1 h_constant)
  rw [Eval.assign, Eval.updateScopes, h_assign, Place.put, h_find]

/-- A name is bound anew in the scope where it is found, if it is found. -/
theorem Place.put_name (s : ScopeId) (v : Value) (m : Machine) (n : String) :
    (name n).put s v m = m ∨ ∃ o b, m.scopes.find s n = .ok (o, b) ∧
      (name n).put s v m = { m with scopes := m.scopes.bind o n { b with value := v } } := by
  cases h_find : m.scopes.find s n with
  | error err => exact .inl (by rw [put, h_find])
  | ok found => exact .inr ⟨found.1, found.2, rfl, by rw [put, h_find]⟩

/-- A name that was given a value is found where it was found, and every other name as before. -/
theorem Environment.find_bind_of_find {e : Environment} {s o : ScopeId} {name : String} {b : Binding}
    (h : e.find s name = .ok (o, b)) (b' : Binding) (name' : String) :
    (e.bind o name b').find s name' = if name' = name then .ok (o, b') else e.find s name' := by
  rw [find_bind_of_binding? (find_eq_ok h).2]
  by_cases h_name : name' = name
  · subst h_name
    rw [if_pos rfl, h]
    exact congrArg Except.ok (if_pos ⟨rfl, rfl⟩)
  · rw [if_neg h_name]
    cases e.find s name' with
    | error err => rfl
    | ok r => exact congrArg Except.ok (if_neg fun h_r => h_name h_r.2)

/-- **Writing makes no difference to which names can be assigned to.** -/
theorem refusal?_put (s : ScopeId) (v : Value) (m : Machine) (place : Place) (name : String) :
    (place.put s v m).scopes.refusal? s name = m.scopes.refusal? s name := by
  cases place with
  | property o p => rfl
  | name n =>
    rcases Place.put_name s v m n with h_put | ⟨o, b, h_find, h_put⟩
    · rw [h_put]
    · rw [h_put, Environment.refusal?, Environment.refusal?, Environment.find_bind_of_find h_find]
      by_cases h_name : name = n
      · rw [if_pos h_name, h_name, h_find]
      · rw [if_neg h_name]

theorem refusal?_putBack (s : ScopeId) (v : Value) (m : Machine) (places : List Place)
    (name : String) :
    (putBack s v m places).scopes.refusal? s name = m.scopes.refusal? s name := by
  induction places with
  | nil => rfl
  | cons place places ih => exact (refusal?_put s v _ place name).trans ih

/-! ### Writing to places that accept it -/

/-- All names among the places can be assigned to. -/
def Accepts (s : ScopeId) (e : Environment) (places : List Place) : Prop :=
  ∀ name, .name name ∈ places → e.refusal? s name = none

theorem Accepts.tail {s : ScopeId} {e : Environment} {place : Place} {places : List Place}
    (h : Accepts s e (place :: places)) : Accepts s e places :=
  fun name h_name => h name (List.mem_cons_of_mem place h_name)

/-- **Either all places accept a value, or there is a last one that does not.** -/
theorem accepts_or_refused (s : ScopeId) (e : Environment) (places : List Place) :
    Accepts s e places ∨ ∃ before name after err, places = before ++ .name name :: after ∧
      e.refusal? s name = some err ∧ Accepts s e after := by
  induction places with
  | nil => exact .inl fun name h_name => absurd h_name List.not_mem_nil
  | cons place places ih =>
    rcases ih with accepts | ⟨before, name, after, err, rfl, refusal, accepts⟩
    · -- if all places behind it accept the value, it is this one that matters
      cases place with
      | property o p =>
        refine .inl fun name h_name => accepts name ?_
        exact (List.mem_cons.1 h_name).resolve_left nofun
      | name n =>
        cases h_n : e.refusal? s n with
        | some err => exact .inr ⟨[], n, places, err, rfl, h_n, accepts⟩
        | none =>
          refine .inl fun name h_name => ?_
          rcases List.mem_cons.1 h_name with h_eq | h_name
          · rw [Place.name.inj h_eq, h_n]
          · exact accepts name h_name
    · exact .inr ⟨place :: before, name, after, err, rfl, refusal, accepts⟩

/-- Places that accept a value are written to. -/
theorem writeBack_of_accepts {s : ScopeId} {m : Machine} {places : List Place}
    (accepts : Accepts s m.scopes places) (v : Value) :
    writeBack s v places m = .ok () (putBack s v m places) := by
  induction places with
  | nil => rfl
  | cons place places ih =>
    rw [writeBack, bind_apply_of_ok (ih accepts.tail)]
    -- the places behind it have been written to by now, which does not matter to it
    cases place with
    | property o p => rfl
    | name n =>
      refine assign_of_refusal?_eq_none ?_ v
      rw [refusal?_putBack]
      exact accepts n List.mem_cons_self

/-- **A name that cannot be assigned to** ends the writing when all places to its right have been
written to. -/
theorem writeBack_of_refused {s : ScopeId} {m : Machine} {name : String} {after : List Place}
    {err : RuntimeError} (refusal : m.scopes.refusal? s name = some err)
    (accepts : Accepts s m.scopes after) (v : Value) (before : List Place) :
    writeBack s v (before ++ .name name :: after) m = .error err (putBack s v m after) := by
  induction before with
  | nil =>
    rw [List.nil_append, writeBack, bind_apply_of_ok (writeBack_of_accepts accepts v)]
    refine assign_of_refusal? ?_ v
    rw [refusal?_putBack, refusal]
  | cons place before ih =>
    rw [List.cons_append, writeBack]
    exact bind_apply_of_error ih

/-! ### What comes out of a chain -/

/-- **All that can come out of a chain of assignments.** A target cannot be located, and nothing to
its right is evaluated and nothing is written; or the value fails, and nothing is written; or a name
cannot be assigned to, and exactly the places to its right are written to; or all places are. -/
inductive ChainOutcome (s : ScopeId) (targets : List Target) (e : Expr) (m : Machine) :
    EStateM.Result RuntimeError Machine Value → Prop where
  | targetFails {before target after places m₁ err m₂} (split : targets = before ++ target :: after)
      (located : Located s before m places m₁) (fails : Fails s target m₁ err m₂) :
      ChainOutcome s targets e m (.error err m₂)
  | valueFails {places m₁ err m₂} (located : Located s targets m places m₁)
      (value : eval s e m₁ = .error err m₂) : ChainOutcome s targets e m (.error err m₂)
  | refused {places m₁ v m₂ before name after err} (located : Located s targets m places m₁)
      (value : eval s e m₁ = .ok v m₂) (split : places = before ++ .name name :: after)
      (refusal : m₂.scopes.refusal? s name = some err) (accepts : Accepts s m₂.scopes after) :
      ChainOutcome s targets e m (.error err (putBack s v m₂ after))
  | assigned {places m₁ v m₂} (located : Located s targets m places m₁)
      (value : eval s e m₁ = .ok v m₂) (accepts : Accepts s m₂.scopes places) :
      ChainOutcome s targets e m (.ok v (putBack s v m₂ places))

section Outcome

variable {s : ScopeId} {targets : List Target} {e : Expr} {m : Machine}
  {r : EStateM.Result RuntimeError Machine Value}

/-- Whatever can come out of a chain comes out of it. -/
theorem ChainOutcome.eval_chain (h : ChainOutcome s targets e m r) :
    eval s (chain targets e) m = r := by
  have h_located {places m₁} (located : Located s targets m places m₁) :
      eval s (chain targets e) m =
        (do
          let v ← eval s e
          writeBack s v places
          return v : Eval Value) m₁ := by
    have h_rest := eval_chain_of_located located [] e
    rwa [List.append_nil] at h_rest
  cases h with
  | targetFails split located fails =>
    rw [split, eval_chain_of_located located]
    exact bind_apply_of_error (eval_assign_of_fails fails _)
  | valueFails located value =>
    rw [h_located located]
    exact bind_apply_of_error value
  | @refused places m₁ v m₂ before name after err located value split refusal accepts =>
    rw [h_located located, bind_apply_of_ok value, split]
    exact bind_apply_of_error (writeBack_of_refused refusal accepts v before)
  | @assigned places m₁ v m₂ located value accepts =>
    rw [h_located located, bind_apply_of_ok value]
    exact bind_apply_of_ok (writeBack_of_accepts accepts v)

/-- Something always comes out of a chain. -/
theorem exists_chainOutcome (s : ScopeId) (targets : List Target) (e : Expr) (m : Machine) :
    ∃ r, ChainOutcome s targets e m r := by
  rcases located_or_fails s targets m with ⟨places, m₁, located⟩ |
    ⟨before, target, after, places, m₁, err, m₂, split, located, fails⟩
  · cases value : eval s e m₁ with
    | error err m₂ => exact ⟨_, .valueFails located value⟩
    | ok v m₂ =>
      rcases accepts_or_refused s m₂.scopes places with accepts |
        ⟨before, name, after, err, split, refusal, accepts⟩
      · exact ⟨_, .assigned located value accepts⟩
      · exact ⟨_, .refused located value split refusal accepts⟩
  · exact ⟨_, .targetFails split located fails⟩

/-- **What comes out of a chain** is what can come out of it, and there is just one such thing. -/
theorem eval_chain_eq_iff : eval s (chain targets e) m = r ↔ ChainOutcome s targets e m r := by
  refine ⟨?_, ChainOutcome.eval_chain⟩
  rintro rfl
  obtain ⟨r, h⟩ := exists_chainOutcome s targets e m
  rw [h.eval_chain]
  exact h

end Outcome

/-! ### What places hold -/

/-- A place holds a value. -/
def Place.Holds (s : ScopeId) (v : Value) (m : Machine) : Place → Prop
  | name n => m.scopes.get s n = .ok v
  | property o p => (m.heap.fields o).get? p = some v

/-- A name can be assigned to, or an object exists. -/
def Place.Writable (s : ScopeId) (m : Machine) : Place → Prop
  | name n => m.scopes.refusal? s n = none
  | property o _ => o.index < m.heap.size

section Places

variable {s : ScopeId} {v : Value} {m : Machine} {place : Place}

theorem Place.size_put (s : ScopeId) (v : Value) (m : Machine) (place : Place) :
    (place.put s v m).heap.size = m.heap.size := by
  cases place with
  | property o p => exact Heap.size_set _ _ _ _
  | name n =>
    rcases put_name s v m n with h_put | ⟨o, b, -, h_put⟩ <;> rw [h_put]

theorem Place.writable_put (place' : Place) :
    place.Writable s (place'.put s v m) ↔ place.Writable s m := by
  cases place with
  | name n => rw [Writable, Writable, refusal?_put]
  | property o p => rw [Writable, Writable, size_put]

/-- What is written to a place is there. -/
theorem Place.holds_put (h : place.Writable s m) : place.Holds s v (place.put s v m) := by
  cases place with
  | name n =>
    obtain ⟨o, b, h_find, _⟩ := Environment.exists_of_refusal?_eq_none h
    rw [Holds, put, h_find]
    dsimp only
    rw [Environment.get, Environment.find_bind_of_find h_find, if_pos rfl]
    rfl
  | property o p =>
    show ((m.heap.set o p v).fields o).get? p = some v
    rw [Heap.fields_set, if_pos ⟨rfl, h⟩, Table.get?_insert, if_pos rfl]

/-- A place that holds a value holds it still when it is written to another place. -/
theorem Place.Holds.put (h : place.Holds s v m) (place' : Place) :
    place.Holds s v (place'.put s v m) := by
  cases place' with
  | name n =>
    rcases put_name s v m n with h_put | ⟨o, b, h_find, h_put⟩
    · rw [h_put]
      exact h
    · rw [h_put]
      cases place with
      | property o p => exact h
      | name n' =>
        rw [Holds, Environment.get, Environment.find_bind_of_find h_find]
        split
        · rfl
        · exact h
  | property o p =>
    cases place with
    | name n => exact h
    | property o' p' =>
      show ((m.heap.set o p v).fields o').get? p' = some v
      rw [Heap.fields_set]
      split
      · next h_o =>
        rw [Table.get?_insert]
        split
        · rfl
        · rw [← h_o.1]
          exact h
      · exact h

theorem Place.writable_putBack (places : List Place) :
    place.Writable s (putBack s v m places) ↔ place.Writable s m := by
  induction places with
  | nil => rfl
  | cons place' places ih => exact (writable_put place').trans ih

/-- **What is written to several places is in all of them,** be they different or not. -/
theorem holds_putBack {places : List Place} (h : ∀ place ∈ places, place.Writable s m) :
    ∀ place ∈ places, place.Holds s v (putBack s v m places) := by
  -- a place is written to when those on its right have been, which makes it no less writable, and
  -- before those on its left, which leave it what they have themselves
  induction places with
  | nil => exact List.forall_mem_nil _
  | cons place places ih =>
    obtain ⟨h_place, h_places⟩ := List.forall_mem_cons.1 h
    refine List.forall_mem_cons.2 ⟨?_, fun place' h_place' => ?_⟩
    · exact Place.holds_put ((Place.writable_putBack places).2 h_place)
    · exact (ih h_places place' h_place').put place

end Places

/-! ### Reachable machines -/

/-- A value that is given exists, and so does everything else. -/
theorem Machine.Closed.of_eval_ok {m m' : Machine} {s : ScopeId} {e : Expr} {v : Value}
    (closed : m.Closed) (h : eval s e m = .ok v m') :
    m'.Closed ∧ m.heap.size ≤ m'.heap.size ∧ v.Below m'.heap.size := by
  have h_exec : exec s (.expression e) m = .ok v m' := h
  have h_run : run s [.expression e] m = .ok v m' := runFrom_of_ok h_exec .null []
  exact closed.of_run_ok h_run

/-- The objects that are to be written to exist. -/
theorem Located.closed {s : ScopeId} {targets : List Target} {m m' : Machine} {places : List Place}
    (located : Located s targets m places m') (closed : m.Closed) :
    m'.Closed ∧ m.heap.size ≤ m'.heap.size ∧
      ∀ o p, .property o p ∈ places → o.index < m'.heap.size := by
  induction located with
  | nil m => exact ⟨closed, Nat.le_refl _, fun o p h_mem => absurd h_mem List.not_mem_nil⟩
  | cons first rest ih =>
    cases first with
    | name n =>
      obtain ⟨closed', le_size, exist⟩ := ih closed
      exact ⟨closed', le_size, fun o p h_mem =>
        exist o p ((List.mem_cons.1 h_mem).resolve_left nofun)⟩
    | member object =>
      obtain ⟨closed₁, le_size₁, below⟩ := closed.of_eval_ok object
      obtain ⟨closed', le_size, exist⟩ := ih closed₁
      -- the object exists when the base gives it, and objects are never removed
      refine ⟨closed', Nat.le_trans le_size₁ le_size, fun o p h_mem => ?_⟩
      rcases List.mem_cons.1 h_mem with h_eq | h_mem
      · obtain ⟨rfl, rfl⟩ := Place.property.inj h_eq
        exact Nat.lt_of_lt_of_le (below o rfl) le_size
      · exact exist o p h_mem

/-- **A chain of assignments, of any length** and on any reachable machine, locates its targets from
left to right, evaluates the value once and writes it from right to left. What comes out is exactly
what `ChainOutcome` says; and where a chain gives a value, all of its places hold just this value in
the end. -/
theorem eval_chain_locates_then_writes {m : Machine} (reachable : m.Reachable) (s : ScopeId)
    (targets : List Target) (e : Expr) :
    (∀ r, eval s (chain targets e) m = r ↔ ChainOutcome s targets e m r) ∧
    ∀ v m', eval s (chain targets e) m = .ok v m' →
      ∃ places m₁ m₂, Located s targets m places m₁ ∧ eval s e m₁ = .ok v m₂ ∧
        m' = putBack s v m₂ places ∧ ∀ place ∈ places, place.Holds s v m' := by
  refine ⟨fun r => eval_chain_eq_iff, fun v m' h_eval => ?_⟩
  cases eval_chain_eq_iff.1 h_eval with
  | @assigned places m₁ _ m₂ located value accepts =>
    refine ⟨places, m₁, m₂, located, value, rfl, holds_putBack fun place h_place => ?_⟩
    obtain ⟨closed₁, _, exist⟩ := located.closed reachable.closed
    cases place with
    | name n => exact accepts n h_place
    | property o p =>
      obtain ⟨_, le_size, _⟩ := closed₁.of_eval_ok value
      exact Nat.lt_of_lt_of_le (exist o p h_place) le_size

/-- A machine with an object `a`, a number `x` and a constant `k`. -/
private def declaring : Machine := (Machine.initial none).perform [.run Environment.root
  [.declare false "a" (.object []), .declare false "x" (.literal (.number 1)),
    .declare true "k" (.literal (.number 0))]]

/-- In `a.p = x = a = 7` the property that is written is one of the object that `a` was, and `a` is
a number in the end. In `x = k = a.p = 7` the constant is in the way of `x` but not of the
property. -/
theorem eval_chain_locates_then_writes_of_declaring :
    declaring.Reachable ∧
    (∃ m', eval Environment.root (chain [.member (.identifier "a") "p", .name "x", .name "a"]
        (.literal (.number 7))) declaring = .ok (.number 7) m' ∧
      (m'.heap.fields ⟨0⟩).get? "p" = some (.number 7) ∧
      m'.scopes.get Environment.root "x" = .ok (.number 7) ∧
      m'.scopes.get Environment.root "a" = .ok (.number 7)) ∧
    eval Environment.root (chain [.name "x", .name "k", .member (.identifier "a") "p"]
        (.literal (.number 7))) declaring =
      .error (.constAssignment "k") { declaring with
        heap := declaring.heap.set ⟨0⟩ "p" (.number 7) } := by
  have reachable : declaring.Reachable := Machine.reachable_perform none _
  have base : Locates Environment.root (.member (.identifier "a") "p") declaring
      (.property ⟨0⟩ "p") declaring := .member rfl
  have value : eval Environment.root (.literal (.number 7)) declaring =
      .ok (.number 7) declaring := rfl
  refine ⟨reachable, ?_, ?_⟩
  · have located : Located Environment.root [.member (.identifier "a") "p", .name "x", .name "a"]
        declaring [.property ⟨0⟩ "p", .name "x", .name "a"] declaring :=
      .cons base (.cons (.name "x" _) (.cons (.name "a" _) (.nil _)))
    have accepts : Accepts Environment.root declaring.scopes
        [.property ⟨0⟩ "p", .name "x", .name "a"] := by
      intro name h_name
      simp only [List.mem_cons, Place.name.injEq, reduceCtorEq, List.not_mem_nil, or_false,
        false_or] at h_name
      rcases h_name with rfl | rfl <;> rfl
    have h_eval := ((eval_chain_locates_then_writes reachable Environment.root _ _).1 _).2
      (.assigned located value accepts)
    exact ⟨_, h_eval, rfl, rfl, rfl⟩
  · have located : Located Environment.root [.name "x", .name "k", .member (.identifier "a") "p"]
        declaring ([.name "x"] ++ .name "k" :: [.property ⟨0⟩ "p"]) declaring :=
      .cons (.name "x" _) (.cons (.name "k" _) (.cons base (.nil _)))
    have accepts : Accepts Environment.root declaring.scopes [.property ⟨0⟩ "p"] :=
      fun name h_name => nomatch List.mem_singleton.1 h_name
    exact ((eval_chain_locates_then_writes reachable Environment.root _ _).1 _).2
      (.refused located value rfl rfl accepts)

end ScriptLang
