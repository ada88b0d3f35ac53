import ScriptLang.Proofs.Evaluation.Existence

/-!
# What scopes bind

A scope binds a name by itself or not at all; what the scopes around it bind is another matter. All
that programs do to scopes is to bind names: a declaration binds one that the scope did not bind,
and an assignment gives a name another value in the scope where it is found. Which scopes there are
is up to the host, who opens and discards them.

* `Environment.binding?` — what a scope binds a name to by itself.
* `Environment.Around` — the scopes on the chain from a scope outwards.
* `Environment.find_bind_of_binding?` — what is found once a name has been bound anew.
* `Environment.assign_eq_ok`, `Environment.declare_eq_ok` — all that an assignment and a
  declaration can do.
* `Environment.Retains` — no binding is lost, and no constant changes.
-/

namespace ScriptLang

namespace Environment

variable {e e' : Environment}

/-- **What a scope binds a name to** by itself. -/
def binding? (e : Environment) (s : ScopeId) (name : String) : Option Binding :=
  (e.scope? s).bind fun scope => scope.bindings.get? name

/-- **The chain from a scope outwards:** the scope itself and the scopes around it. -/
inductive Around (e : Environment) : ScopeId → ScopeId → Prop where
  | self (s) : Around e s s
  | further {s p t} (h : e.parent? s = some p) (around : Around e p t) : Around e s t

theorem binding?_eq_some {s : ScopeId} {name : String} {b : Binding} :
    e.binding? s name = some b ↔
      ∃ scope, e.scope? s = some scope ∧ scope.bindings.get? name = some b :=
  Option.bind_eq_some_iff

/-- Scopes that are the same bind the same. -/
theorem binding?_congr {s : ScopeId} (h : e'.scope? s = e.scope? s) (name : String) :
    e'.binding? s name = e.binding? s name := by
  unfold binding?
  rw [h]

/-- Scopes with the same parents are inside the same scopes. -/
theorem parent?_congr {s : ScopeId}
    (h : (e'.scope? s).map Scope.parent = (e.scope? s).map Scope.parent) :
    e'.parent? s = e.parent? s := by
  have h_join : ∀ e : Environment, e.parent? s = ((e.scope? s).map Scope.parent).join := by
    intro e
    unfold parent?
    cases e.scope? s <;> rfl
  rw [h_join, h_join, h]

/-- Where parents are the same, chains are. -/
theorem Around.congr (h : ∀ t, e'.parent? t = e.parent? t) {s t : ScopeId}
    (around : e.Around s t) : e'.Around s t := by
  induction around with
  | self s => exact .self s
  | @further s p t h_p _ ih => exact .further ((h s).trans h_p) ih

/-! ### Binding a name -/

/-- The name is bound as it says if there is such a scope, and nothing else is bound otherwise than
before. -/
theorem binding?_bind (e : Environment) (s : ScopeId) (name : String) (b : Binding) (t : ScopeId)
    (name' : String) :
    (e.bind s name b).binding? t name' =
      if t = s ∧ name' = name then (e.scope? s).map fun _ => b else e.binding? t name' := by
  unfold binding?
  rw [scope?_bind]
  by_cases h : t = s
  · subst h
    rw [if_pos rfl]
    cases h_scope : e.scope? t with
    | none => rw [Option.map_none, Option.bind_none, Option.map_none, ite_self]
    | some scope =>
      rw [Option.map_some, Option.bind_some, Option.map_some, Option.bind_some,
        Table.get?_insert]
      simp only [true_and]
  · rw [if_neg h, if_neg fun h' => h h'.1]

/-- Binding a name opens and discards no scope, and moves none. -/
theorem map_parent_bind (e : Environment) (s : ScopeId) (name : String) (b : Binding)
    (t : ScopeId) :
    ((e.bind s name b).scope? t).map Scope.parent = (e.scope? t).map Scope.parent := by
  rw [scope?_bind]
  split
  · next h =>
    rw [h, Option.map_map]
    rfl
  · rfl

@[simp] theorem size_bind (e : Environment) (s : ScopeId) (name : String) (b : Binding) :
    (e.bind s name b).slots.size = e.slots.size := by
  simp [bind]

/-! ### Names -/

/-- **What is found is bound** in the scope itself or in one around it. -/
theorem find_eq_ok {s o : ScopeId} {name : String} {b : Binding}
    (h : e.find s name = .ok (o, b)) : e.Around s o ∧ e.binding? o name = some b := by
  unfold find at h
  generalize e.slots.size + 1 = steps at h
  -- along the walk: each step goes one scope outwards
  fun_induction e.findWithin name steps s with
  | case1 | case2 | case4 => cases h
  | case3 steps s scope h_scope b' h_name =>
    cases h
    exact ⟨.self _, binding?_eq_some.2 ⟨scope, h_scope, h_name⟩⟩
  | case5 steps s scope h_scope _ p h_parent ih =>
    obtain ⟨around, h_name⟩ := ih h
    have h_p : e.parent? s = some p := by
      unfold parent?
      rw [h_scope, Option.bind_some, h_parent]
    exact ⟨.further h_p around, h_name⟩

/-- What a scope binds a name to is what the name means there. -/
theorem find_of_binding? {s : ScopeId} {name : String} {b : Binding}
    (h : e.binding? s name = some b) : e.find s name = .ok (s, b) := by
  obtain ⟨scope, h_scope, h_name⟩ := binding?_eq_some.1 h
  rw [find, findWithin, h_scope]
  dsimp only
  rw [h_name]

/-- One step of the walk outwards looks at what the scope binds by itself and at its parent. -/
private theorem findWithin_succ (e : Environment) (name : String) (steps : Nat) (s : ScopeId) :
    e.findWithin name (steps + 1) s =
      match (e.scope? s).map Scope.parent with
      | none => .error .discardedScope
      | some parent =>
        match e.binding? s name with
        | some b => .ok (s, b)
        | none =>
          match parent with
          | none => .error (.undeclaredVariable name)
          | some p => e.findWithin name steps p := by
  rw [findWithin, binding?]
  cases e.scope? s <;> rfl

/-- **A name that is bound anew** where it was bound is found there as before, and nothing else is
found otherwise. Scopes may be inside each other in any way. -/
theorem find_bind_of_binding? {o : ScopeId} {name : String} {b : Binding}
    (h : e.binding? o name = some b) (b' : Binding) (s : ScopeId) (name' : String) :
    (e.bind o name b').find s name' =
      (e.find s name').map fun r => if r.1 = o ∧ name' = name then (o, b') else r := by
  unfold find
  rw [size_bind]
  generalize e.slots.size + 1 = steps
  -- along the walk: both go the same way, for no scope is moved
  induction steps generalizing s with
  | zero => rfl
  | succ steps ih =>
    rw [findWithin_succ, findWithin_succ, map_parent_bind, binding?_bind]
    cases h_scope : e.scope? s with
    | none => rfl
    | some scope =>
      by_cases h_same : s = o ∧ name' = name
      · obtain ⟨rfl, rfl⟩ := h_same
        rw [if_pos ⟨rfl, rfl⟩, h_scope, h]
        dsimp only [Option.map_some, Except.map]
        rw [if_pos ⟨rfl, rfl⟩]
      · rw [if_neg h_same]
        cases e.binding? s name' with
        | some found =>
          dsimp only [Option.map_some, Except.map]
          rw [if_neg h_same]
        | none =>
          dsimp only [Option.map_some]
          cases scope.parent with
          | none => rfl
          | some p => exact ih p

theorem get_of_binding? {s : ScopeId} {name : String} {b : Binding}
    (h : e.binding? s name = some b) : e.get s name = .ok b.value := by
  rw [get, find_of_binding? h]
  rfl

/-- The value of a name is that of a binding on the chain. -/
theorem get_eq_ok {s : ScopeId} {name : String} {v : Value} (h : e.get s name = .ok v) :
    ∃ o b, e.Around s o ∧ e.binding? o name = some b ∧ b.value = v := by
  unfold get at h
  cases h_find : e.find s name with
  | error _ => rw [h_find] at h; cases h
  | ok found =>
    obtain ⟨o, b⟩ := found
    obtain ⟨around, h_name⟩ := find_eq_ok h_find
    rw [h_find] at h
    cases h
    exact ⟨o, b, around, h_name, rfl⟩

/-- **All that an assignment can do:** it gives another value to a name that is no constant, in a
scope on the chain. -/
theorem assign_eq_ok {s : ScopeId} {name : String} {v : Value}
    (h : e.assign s name v = .ok e') : ∃ o b, e.Around s o ∧ e.binding? o name = some b ∧
      b.constant = false ∧ e' = e.bind o name { b with value := v } := by
  unfold assign at h
  cases h_find : e.find s name with
  | error _ => rw [h_find] at h; cases h
  | ok found =>
    obtain ⟨o, b⟩ := found
    obtain ⟨around, h_name⟩ := find_eq_ok h_find
    rw [h_find] at h
    change (if b.constant then _ else _) = _ at h
    split at h
    · cases h
    · next h_constant =>
      cases h
      exact ⟨o, b, around, h_name, Bool.eq_false_iff.2 h_constant, rfl⟩

/-- **All that a declaration can do:** it binds a name that the scope did not bind. -/
theorem declare_eq_ok {s : ScopeId} {name : String} {b : Binding}
    (h : e.declare s name b = .ok e') :
    (e.scope? s).isSome ∧ e.binding? s name = none ∧ e' = e.bind s name b := by
  unfold declare at h
  cases h_scope : e.scope? s with
  | none => rw [h_scope] at h; cases h
  | some scope =>
    rw [h_scope] at h
    change (if scope.bindings.contains name then _ else _) = _ at h
    split at h
    · cases h
    · next h_new =>
      cases h
      have h_none : scope.bindings.get? name = none := by
        rw [Table.contains, Option.not_isSome_iff_eq_none] at h_new
        exact h_new
      refine ⟨rfl, ?_, rfl⟩
      rw [binding?, h_scope, Option.bind_some, h_none]

/-! ### Opening and discarding -/

/-- Discarding a scope leaves every scope as it was or not at all. -/
theorem scope?_discard_eq_or_none (e : Environment) (s t : ScopeId) :
    (e.discard s).scope? t = e.scope? t ∨ (e.discard s).scope? t = none := by
  cases h : (e.discard s).scope? t with
  | none => exact .inr rfl
  | some scope => exact .inl (scope?_of_discard h).symm

/-- A slot that is empty stays so. -/
theorem scope?_discard_of_none {e : Environment} {t : ScopeId} (h : e.scope? t = none)
    (s : ScopeId) : (e.discard s).scope? t = none :=
  (scope?_discard_eq_or_none e s t).elim (fun h_same => h_same.trans h) id

private theorem scope?_root_clear {s : ScopeId} (h : s ≠ root) :
    (e.clear s).scope? root = e.scope? root := by
  rw [scope?_clear, if_neg (Ne.symm h)]

/-- **The root is never discarded.** -/
theorem scope?_root_discard (e : Environment) (s : ScopeId) :
    (e.discard s).scope? root = e.scope? root := by
  unfold discard
  split
  · rfl
  · next h =>
    have h_s : s ≠ root := fun h_eq => h (.inl h_eq)
    -- only later slots are looked at, and the root has the first one
    have h_orphans : ∀ (slots : List Nat) (e : Environment), 0 ∉ slots →
        (slots.foldl (fun e i => e.clearOrphan ⟨i⟩) e).scope? root = e.scope? root := by
      intro slots
      induction slots with
      | nil => exact fun e _ => rfl
      | cons i slots ih =>
        intro e h_slots
        rw [List.foldl_cons, ih _ fun h_mem => h_slots (List.mem_cons_of_mem i h_mem)]
        unfold clearOrphan
        split
        · refine scope?_root_clear fun h_eq => h_slots ?_
          rw [ScopeId.mk.inj h_eq]
          exact List.mem_cons_self
        · rfl
    have h_later : 0 ∉ List.range' (s.index + 1) (e.slots.size - (s.index + 1)) := by
      rw [List.mem_range'_1]
      omega
    rw [h_orphans _ _ h_later, scope?_root_clear h_s]

/-- A new scope binds nothing, and the other scopes bind what they bound. -/
theorem binding?_child_of_some {t : ScopeId} {name : String} {b : Binding} (parent : ScopeId)
    (h : e.binding? t name = some b) : (e.child parent).binding? t name = some b := by
  obtain ⟨scope, h_scope, h_name⟩ := binding?_eq_some.1 h
  have h_old : t ≠ e.nextId := by
    rintro rfl
    exact Nat.lt_irrefl _ (index_lt_size h_scope)
  rw [← h]
  refine binding?_congr ?_ name
  rw [scope?_child, if_neg h_old]

end Environment

/-! ### Bindings that last -/

/-- **A binding that lasts:** it is for good exactly if it was, and then it has the value it had. -/
structure Binding.Lasts (b b' : Binding) : Prop where
  constant : b'.constant = b.constant
  value : b.constant = true → b'.value = b.value

theorem Binding.Lasts.refl (b : Binding) : b.Lasts b := ⟨rfl, fun _ => rfl⟩

theorem Binding.Lasts.trans {b b' b'' : Binding} (h : b.Lasts b') (h' : b'.Lasts b'') :
    b.Lasts b'' := by
  refine ⟨h'.constant.trans h.constant, fun h_constant => ?_⟩
  calc
    b''.value = b'.value := h'.value (h.constant.trans h_constant)
    _ = b.value := h.value h_constant

namespace Environment

variable {e e' : Environment}

/-- **No binding is lost, and no constant changes.** -/
def Retains (e e' : Environment) : Prop := ∀ s name b, e.binding? s name = some b →
  ∃ b', e'.binding? s name = some b' ∧ b.Lasts b'

theorem Retains.refl (e : Environment) : e.Retains e := fun _ _ b h => ⟨b, h, .refl b⟩

theorem Retains.trans {e'' : Environment} (h : e.Retains e') (h' : e'.Retains e'') :
    e.Retains e'' := by
  intro s name b h_name
  obtain ⟨b', h_name', lasts⟩ := h s name b h_name
  obtain ⟨b'', h_name'', lasts'⟩ := h' s name b' h_name'
  exact ⟨b'', h_name'', lasts.trans lasts'⟩

/-- Binding a name anew retains what there is, if the new binding is one that lasts. -/
private theorem Retains.bind {s : ScopeId} {name : String} {b : Binding}
    (h : ∀ b₀, e.binding? s name = some b₀ → b₀.Lasts b) : e.Retains (e.bind s name b) := by
  intro t name' b₀ h_name
  rw [binding?_bind]
  split
  · next h_same =>
    obtain ⟨rfl, rfl⟩ := h_same
    obtain ⟨scope, h_scope, _⟩ := binding?_eq_some.1 h_name
    refine ⟨b, ?_, h b₀ h_name⟩
    rw [h_scope, Option.map_some]
  · exact ⟨b₀, h_name, .refl b₀⟩

theorem Retains.assign {s : ScopeId} {name : String} {v : Value}
    (h : e.assign s name v = .ok e') : e.Retains e' := by
  obtain ⟨o, b, _, h_name, h_constant, rfl⟩ := assign_eq_ok h
  refine .bind fun b₀ h_name₀ => ?_
  obtain rfl : b = b₀ := Option.some.inj (h_name.symm.trans h_name₀)
  refine ⟨rfl, fun h_true => ?_⟩
  rw [h_constant] at h_true
  cases h_true

theorem Retains.declare {s : ScopeId} {name : String} {b : Binding}
    (h : e.declare s name b = .ok e') : e.Retains e' := by
  obtain ⟨_, h_name, rfl⟩ := declare_eq_ok h
  refine .bind fun b₀ h_name₀ => ?_
  rw [h_name] at h_name₀
  cases h_name₀

theorem Retains.child (e : Environment) (parent : ScopeId) : e.Retains (e.child parent) :=
  fun _ _ b h_name => ⟨b, binding?_child_of_some parent h_name, .refl b⟩

end Environment

end ScriptLang
