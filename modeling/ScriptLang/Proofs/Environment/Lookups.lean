import ScriptLang.Proofs.Environment.Slots

/-!
# Looking up names after a change

A name is looked up from a scope outwards, up to the first scope that binds it. Binding a name in
one scope changes what is found from exactly those scopes from which the way outwards comes there
and meets no scope before that binds the name. Whether it is bound there for the first time or anew
makes no difference. From all other scopes, and for all other names, the same is found as before, or
the search ends in the same error.

* `Environment.Toward` — the way outwards, as far as nothing is found on it.
* `Environment.Ordered.walk_induction` — induction along the way outwards, to where a search ends.
* `Environment.find_eq_ok_iff` — what is found, and where.
* `Environment.find_bind_of_toward`, `Environment.find_bind_of_not_toward` — what is found after a
  name was bound.
* `Environment.Reassigned`, `Environment.Declared` — all look-ups after an assignment and after a
  declaration.
* `Environment.perform_writes` — what both do after any requests, and when they are refused.
-/

namespace ScriptLang

namespace Environment

variable {e e' : Environment} {name : String} {s t o : ScopeId} {b : Binding}

/-! ### The way outwards -/

/-- **The way outwards from one scope to another,** through scopes that are there and do not bind a
name. The scope that it comes to may bind it or not. -/
inductive Toward (e : Environment) (name : String) : ScopeId → ScopeId → Prop where
  | here (s : ScopeId) : Toward e name s s
  | further {t p s : ScopeId} (unbound : e.binding? t name = none) (h : e.parent? t = some p)
      (toward : Toward e name p s) : Toward e name t s

/-! ### Where a search ends -/

theorem find_of_outermost (h_t : e.Live t) (unbound : e.binding? t name = none)
    (h_parent : e.parent? t = none) : e.find t name = .error (.undeclaredVariable name) := by
  obtain ⟨scope, h_scope⟩ := Option.isSome_iff_exists.1 h_t
  rw [binding?, h_scope, Option.bind_some] at unbound
  rw [parent?, h_scope, Option.bind_some] at h_parent
  rw [find, findWithin, h_scope]
  dsimp only
  rw [unbound, h_parent]

/-- What a scope does not bind is looked up in the scope around it. -/
theorem find_of_inside (ordered : e.Ordered) {p : ScopeId} (unbound : e.binding? t name = none)
    (h_p : e.parent? t = some p) : e.find t name = e.find p name := by
  obtain ⟨scope, h_scope, h_parent⟩ := parent?_eq_some.1 h_p
  rw [binding?, h_scope, Option.bind_some] at unbound
  rw [find_eq ordered t, h_scope]
  dsimp only
  rw [unbound, h_parent]

/-- **Induction along the way outwards,** up to where a search ends: at a scope that is gone, at one
that binds the name, or at one that is inside none. -/
theorem Ordered.walk_induction (ordered : e.Ordered) (name : String) {motive : ScopeId → Prop}
    (gone : ∀ t, e.scope? t = none → motive t)
    (bound : ∀ t b, e.binding? t name = some b → motive t)
    (outermost : ∀ t, e.Live t → e.binding? t name = none → e.parent? t = none → motive t)
    (inside : ∀ t p, e.binding? t name = none → e.parent? t = some p → motive p → motive t)
    (t : ScopeId) : motive t := by
  obtain ⟨i⟩ := t
  induction i using Nat.strongRecOn with
  | ind i ih =>
    by_cases h_live : e.Live ⟨i⟩
    · cases h_bound : e.binding? ⟨i⟩ name with
      | some b => exact bound _ b h_bound
      | none =>
        cases h_parent : e.parent? ⟨i⟩ with
        | none => exact outermost _ h_live h_bound h_parent
        | some p =>
          -- the scope around is in an earlier slot
          have h_lt : p.index < i := ordered ⟨i⟩ p h_parent
          exact inside _ p h_bound h_parent (ih p.index h_lt)
    · exact gone _ (Option.not_isSome_iff_eq_none.1 h_live)

/-- **What is found, and where:** a binding in a scope that the way outwards comes to and that
nothing was found before. -/
theorem find_eq_ok_iff (ordered : e.Ordered) :
    e.find t name = .ok (o, b) ↔ e.Toward name t o ∧ e.binding? o name = some b := by
  constructor
  · intro h_find
    refine ⟨?_, (find_eq_ok h_find).2⟩
    induction t using ordered.walk_induction name with
    | gone t h_t => rw [find_of_gone h_t] at h_find; cases h_find
    | bound t b' h_b' =>
      rw [find_of_binding? h_b'] at h_find
      cases h_find
      exact .here _
    | outermost t h_t unbound h_parent =>
      rw [find_of_outermost h_t unbound h_parent] at h_find
      cases h_find
    | inside t p unbound h_p ih =>
      rw [find_of_inside ordered unbound h_p] at h_find
      exact .further unbound h_p (ih h_find)
  · rintro ⟨toward, h_b⟩
    induction toward with
    | here o => exact find_of_binding? h_b
    | further unbound h_p _ ih => rw [find_of_inside ordered unbound h_p, ih h_b]

/-- The owner of a name is the scope in which it is found. -/
theorem owner_eq_ok_iff (ordered : e.Ordered) :
    e.owner t name = .ok o ↔ e.Toward name t o ∧ (e.binding? o name).isSome := by
  constructor
  · intro h
    unfold owner at h
    cases h_find : e.find t name with
    | error _ => rw [h_find] at h; cases h
    | ok found =>
      obtain ⟨o', b⟩ := found
      rw [h_find] at h
      obtain rfl : o' = o := Except.ok.inj h
      obtain ⟨toward, h_b⟩ := (find_eq_ok_iff ordered).1 h_find
      exact ⟨toward, Option.isSome_iff_exists.2 ⟨b, h_b⟩⟩
  · rintro ⟨toward, h_bound⟩
    obtain ⟨b, h_b⟩ := Option.isSome_iff_exists.1 h_bound
    rw [owner, (find_eq_ok_iff ordered).2 ⟨toward, h_b⟩]
    rfl

/-! ### After a name was bound -/

/-- **Searches that find the same:** in both environments the scopes that a search comes to are
there alike, are inside the same scopes, and bind the name to the same. -/
theorem find_congr {P : ScopeId → Prop} (ordered : e.Ordered) (ordered' : e'.Ordered)
    (h_live : ∀ t, P t → (e'.Live t ↔ e.Live t)) (h_parent : ∀ t, P t → e'.parent? t = e.parent? t)
    (h_bound : ∀ t, P t → e'.binding? t name = e.binding? t name)
    (h_further : ∀ t p, P t → e.binding? t name = none → e.parent? t = some p → P p)
    (h_t : P t) : e'.find t name = e.find t name := by
  induction t using ordered.walk_induction name with
  | gone t h_gone =>
    have h_gone' : e'.scope? t = none := by
      rw [← Option.not_isSome_iff_eq_none] at h_gone ⊢
      exact mt (h_live t h_t).1 h_gone
    rw [find_of_gone h_gone, find_of_gone h_gone']
  | bound t b h_b => rw [find_of_binding? h_b, find_of_binding? ((h_bound t h_t).trans h_b)]
  | outermost t h_live_t unbound h_outermost =>
    rw [find_of_outermost h_live_t unbound h_outermost,
      find_of_outermost ((h_live t h_t).2 h_live_t) ((h_bound t h_t).trans unbound)
        ((h_parent t h_t).trans h_outermost)]
  | inside t p unbound h_p ih =>
    calc e'.find t name
        = e'.find p name :=
          find_of_inside ordered' ((h_bound t h_t).trans unbound) ((h_parent t h_t).trans h_p)
      _ = e.find p name := ih (h_further t p h_t unbound h_p)
      _ = e.find t name := (find_of_inside ordered unbound h_p).symm

section Bound

variable (ordered : e.Ordered)
include ordered

/-- **Binding a name changes no search** that is for another name or does not come to the scope. -/
theorem find_bind_of_not_toward {m : String} (h : ¬(m = name ∧ e.Toward name t s)) (b : Binding) :
    (e.bind s name b).find t m = e.find t m := by
  refine find_congr (P := fun t => ¬(m = name ∧ e.Toward name t s)) ordered (ordered.bind s name b)
    (fun t _ => live_bind e s name b t) (fun t _ => parent?_bind e s name b t) (fun t h_t => ?_)
    (fun t p h_t unbound h_p h_toward => ?_) h
  · -- the scope itself is one from which a search for the name comes there
    have h_other : ¬(t = s ∧ m = name) := fun ⟨h_s, h_m⟩ => h_t ⟨h_m, h_s ▸ .here t⟩
    rw [binding?_bind, if_neg h_other]
  · obtain ⟨rfl, toward⟩ := h_toward
    exact h_t ⟨rfl, .further unbound h_p toward⟩

/-- **A search that comes to the scope** ends there when the name is bound. -/
theorem find_bind_of_toward (toward : e.Toward name t s) (h_s : e.Live s) (b : Binding) :
    (e.bind s name b).find t name = .ok (s, b) := by
  have ordered' : (e.bind s name b).Ordered := ordered.bind s name b
  have h_bound : (e.bind s name b).binding? s name = some b := by
    obtain ⟨scope, h_scope⟩ := Option.isSome_iff_exists.1 h_s
    rw [binding?_bind, if_pos ⟨rfl, rfl⟩, h_scope, Option.map_some]
  induction toward with
  | here s => exact find_of_binding? h_bound
  | @further t p s unbound h_p _ ih =>
    by_cases h_self : t = s
    · rw [h_self]
      exact find_of_binding? h_bound
    · -- on the way to the scope nothing is bound that was not
      have unbound' : (e.bind s name b).binding? t name = none := by
        rw [binding?_bind, if_neg fun h' => h_self h'.1, unbound]
      rw [find_of_inside ordered' unbound' ((parent?_bind e s name b t).trans h_p)]
      exact ih h_s ordered' h_bound

end Bound

/-! ### Assignments -/

/-- **All look-ups after a name was given another value** in the scope that owns it. -/
structure Reassigned (e : Environment) (o : ScopeId) (name : String) (v : Value)
    (e' : Environment) : Prop where
  /-- Names are found where they were found, or not at all for the same reason. -/
  owner : ∀ t m, e'.owner t m = e.owner t m
  /-- The new value is found wherever the old one was. -/
  found : ∀ t, e.owner t name = .ok o → e'.get t name = .ok v
  other : ∀ t m, ¬(m = name ∧ e.owner t name = .ok o) → e'.get t m = e.get t m

private theorem owner_of_find {r : Except RuntimeError (ScopeId × Binding)}
    (h : e.find t name = r) : e.owner t name = r.map Prod.fst := by
  rw [owner, h]

/-- Where the same is found, the same scope owns the name. -/
private theorem owner_congr (h : e'.find t name = e.find t name) :
    e'.owner t name = e.owner t name := by
  rw [owner, h, owner]

private theorem get_congr (h : e'.find t name = e.find t name) :
    e'.get t name = e.get t name := by
  rw [get, h, get]

/-- What is found is given another value, unless it is a constant. -/
private theorem assign_of_find {r : Except RuntimeError (ScopeId × Binding)} (v : Value)
    (h : e.find s name = r) : e.assign s name v = r.bind fun found =>
      if found.2.constant then .error (.constAssignment name)
      else .ok (e.bind found.1 name { found.2 with value := v }) := by
  rw [assign, h]
  rfl

theorem reassigned_bind (ordered : e.Ordered) (h_b : e.binding? o name = some b) (v : Value) :
    e.Reassigned o name v (e.bind o name { b with value := v }) := by
  have h_owner : ∀ t, e.Toward name t o → e.owner t name = .ok o := fun t toward =>
    owner_of_find ((find_eq_ok_iff ordered).2 ⟨toward, h_b⟩)
  have h_o : e.Live o := by
    obtain ⟨scope, h_scope, -⟩ := binding?_eq_some.1 h_b
    exact Option.isSome_iff_exists.2 ⟨scope, h_scope⟩
  have h_find : ∀ t, e.Toward name t o →
      (e.bind o name { b with value := v }).find t name = .ok (o, { b with value := v }) :=
    fun t toward => find_bind_of_toward ordered toward h_o _
  refine ⟨fun t m => ?_, fun t h_t => ?_, fun t m h => ?_⟩
  · by_cases h : m = name ∧ e.Toward name t o
    · obtain ⟨rfl, toward⟩ := h
      rw [h_owner t toward, owner_of_find (h_find t toward)]
      rfl
    · exact owner_congr (find_bind_of_not_toward ordered h _)
  · rw [get, h_find t ((owner_eq_ok_iff ordered).1 h_t).1]
    rfl
  · -- where a search does not come to the owner, the owner is another one
    refine get_congr (find_bind_of_not_toward ordered (fun h_found => h ?_) _)
    exact ⟨h_found.1, h_owner t h_found.2⟩

/-- **An assignment is refused** if the name is not found, or if it is that of a constant. -/
theorem assign_eq_error_iff {v : Value} {err : RuntimeError} :
    e.assign s name v = .error err ↔ e.owner s name = .error err ∨
      ∃ o b, e.owner s name = .ok o ∧ e.binding? o name = some b ∧ b.constant = true ∧
        err = .constAssignment name := by
  cases h_find : e.find s name with
  | error cause =>
    rw [assign_of_find v h_find, owner_of_find h_find]
    show Except.error cause = .error err ↔ Except.error cause = .error err ∨ _
    rw [Except.error.injEq, Except.error.injEq]
    refine (or_iff_left ?_).symm
    rintro ⟨_, _, ⟨⟩, _⟩
  | ok found =>
    obtain ⟨o, b⟩ := found
    have h_b : e.binding? o name = some b := (find_eq_ok h_find).2
    rw [assign_of_find v h_find, owner_of_find h_find]
    show (if b.constant then _ else _) = _ ↔ Except.ok o = _ ∨ _
    constructor
    · intro h
      split at h
      · next h_constant =>
        cases h
        exact .inr ⟨o, b, rfl, h_b, h_constant, rfl⟩
      · cases h
    · rintro (h | ⟨_, b', ⟨⟩, h_b', h_constant, rfl⟩)
      · cases h
      · obtain rfl : b = b' := Option.some.inj (h_b.symm.trans h_b')
        rw [if_pos h_constant]

/-! ### Declarations -/

/-- **All look-ups after a name was declared** in a scope. -/
structure Declared (e : Environment) (s : ScopeId) (name : String) (v : Value)
    (e' : Environment) : Prop where
  /-- It is found there from where a search comes there. -/
  found : ∀ t, (e'.owner t name = .ok s ∧ e'.get t name = .ok v) ↔ e.Toward name t s
  other : ∀ t m, ¬(m = name ∧ e.Toward name t s) →
    e'.owner t m = e.owner t m ∧ e'.get t m = e.get t m

theorem declared_bind (ordered : e.Ordered) (h_s : e.Live s) (unbound : e.binding? s name = none)
    (b : Binding) : e.Declared s name b.value (e.bind s name b) := by
  refine ⟨fun t => ⟨fun h => ?_, fun toward => ?_⟩, fun t m h => ?_⟩
  · by_contra h_not
    -- the name would have been found in the scope before it was declared there
    have h_owner : e.owner t name = .ok s :=
      (owner_congr (find_bind_of_not_toward ordered (mt And.right h_not) b)).symm.trans h.1
    have h_bound : (e.binding? s name).isSome := ((owner_eq_ok_iff ordered).1 h_owner).2
    rw [unbound] at h_bound
    cases h_bound
  · have h_find := find_bind_of_toward ordered toward h_s b
    rw [owner, get, h_find]
    exact ⟨rfl, rfl⟩
  · have h_find : (e.bind s name b).find t m = e.find t m :=
      find_bind_of_not_toward ordered h b
    exact ⟨owner_congr h_find, get_congr h_find⟩

/-- **A declaration is refused** if there is no such scope, or if it binds the name itself. -/
theorem declare_eq_error_iff {err : RuntimeError} :
    e.declare s name b = .error err ↔ (e.scope? s = none ∧ err = .discardedScope) ∨
      ((e.binding? s name).isSome ∧ err = .duplicateDeclaration name) := by
  unfold declare binding?
  cases e.scope? s with
  | none => simp [eq_comm]
  | some scope =>
    by_cases h_bound : scope.bindings.contains name
    · have h_some : (scope.bindings.get? name).isSome := h_bound
      simp [h_bound, h_some, eq_comm]
    · have h_none : scope.bindings.get? name = none := Option.not_isSome_iff_eq_none.1 h_bound
      simp [h_bound, h_none]

/-! ### After any requests -/

/-- **What assigning to a name and declaring it do,** and when they are refused. -/
structure Writes (e : Environment) (s : ScopeId) (name : String) : Prop where
  assign : ∀ v e', e.assign s name v = .ok e' →
    ∃ o, e.owner s name = .ok o ∧ e.Reassigned o name v e'
  declare : ∀ b e', e.declare s name b = .ok e' → e.Declared s name b.value e'
  assign_refused : ∀ v err, e.assign s name v = .error err ↔ e.owner s name = .error err ∨
    ∃ o b, e.owner s name = .ok o ∧ e.binding? o name = some b ∧ b.constant = true ∧
      err = .constAssignment name
  declare_refused : ∀ b err, e.declare s name b = .error err ↔
    (e.scope? s = none ∧ err = .discardedScope) ∨
      ((e.binding? s name).isSome ∧ err = .duplicateDeclaration name)
  /-- What is refused changes nothing. -/
  assign_unchanged : ∀ v err, e.assign s name v = .error err →
    e.apply (.assign s name v) = e ∧
      ∀ heap sink, Eval.assign s name v ⟨e, heap, sink⟩ = .error err ⟨e, heap, sink⟩
  declare_unchanged : ∀ b err, e.declare s name b = .error err →
    e.apply (.declare s name b) = e ∧
      ∀ heap sink, Eval.declare s name b ⟨e, heap, sink⟩ = .error err ⟨e, heap, sink⟩

/-- A refused change to the scopes leaves the machine as it was. -/
private theorem updateScopes_of_error {f : Environment → Except RuntimeError Environment}
    {err : RuntimeError} (h : f e = .error err) (heap : Heap) (sink : Sink) :
    Eval.updateScopes f ⟨e, heap, sink⟩ = .error err ⟨e, heap, sink⟩ := by
  unfold Eval.updateScopes
  rw [h]

theorem writes (ordered : e.Ordered) (s : ScopeId) (name : String) : e.Writes s name where
  assign v e' h := by
    cases h_find : e.find s name with
    | error cause =>
      rw [assign_of_find v h_find] at h
      cases h
    | ok found =>
      obtain ⟨o, b⟩ := found
      rw [assign_of_find v h_find] at h
      change (if b.constant then _ else _) = _ at h
      split at h
      · cases h
      · -- no constant, so the binding that was found is the one that changes
        cases h
        exact ⟨o, owner_of_find h_find, reassigned_bind ordered (find_eq_ok h_find).2 v⟩
  declare b e' h := by
    obtain ⟨h_s, unbound, rfl⟩ := declare_eq_ok h
    exact declared_bind ordered h_s unbound b
  assign_refused _ _ := assign_eq_error_iff
  declare_refused _ _ := declare_eq_error_iff
  assign_unchanged v err h := by
    refine ⟨?_, updateScopes_of_error h⟩
    rw [apply, h]
    rfl
  declare_unchanged b err h := by
    refine ⟨?_, updateScopes_of_error h⟩
    rw [apply, h]
    rfl

/-- **What one change does to all look-ups.** After any requests that open scopes only inside such
as were opened before: an assignment leaves the owner of every name in every scope as it was, and
changes the value of one name where it has one owner; a declaration is found from where the way
outwards comes to the scope and passes none that binds the name, and nothing else is found otherwise
than before. A change that is refused is none, and each is refused for the reasons given and for no
other. -/
theorem perform_writes (requests : List Request) (h : OpensInside Issued initial requests)
    (s : ScopeId) (name : String) : (initial.perform requests).Writes s name :=
  writes (Arranged.initial.perform h).ordered s name

/-- A constant, a variable of the same name inside, a scope in that one, and a scope opened inside
one that is gone. -/
private def shadowed : List Request :=
  [.push root, .declare ⟨1⟩ "x" ⟨.number 1, true⟩, .push ⟨1⟩, .declare ⟨2⟩ "x" ⟨.number 2, false⟩,
    .push ⟨2⟩, .push ⟨1⟩, .discard ⟨4⟩, .push ⟨4⟩]

/-- The variable inside is given another value, which the constant outside does not change with; and
in the scope that has lost the one around it the name is not found, before and after. -/
theorem perform_writes_of_shadowed :
    ∃ e', (initial.perform shadowed).assign ⟨3⟩ "x" (.number 7) = .ok e' ∧
      (initial.perform shadowed).Reassigned ⟨2⟩ "x" (.number 7) e' ∧
      e'.get ⟨3⟩ "x" = .ok (.number 7) ∧ e'.get ⟨1⟩ "x" = .ok (.number 1) ∧
      e'.get ⟨5⟩ "x" = .error .discardedScope := by
  have h_issued : OpensInside Issued initial shadowed := by
    refine ⟨?_, nofun, ?_, nofun, ?_, ?_, nofun, ?_, trivial⟩
    all_goals
      rintro _ ⟨⟩
      exact Nat.lt_of_sub_eq_succ rfl
  obtain ⟨e', h_assign⟩ : ∃ e', (initial.perform shadowed).assign ⟨3⟩ "x" (.number 7) = .ok e' :=
    ⟨_, rfl⟩
  obtain ⟨o, h_owner, reassigned⟩ :=
    (perform_writes shadowed h_issued ⟨3⟩ "x").assign (.number 7) e' h_assign
  -- the owner is the nearest scope that binds the name
  have h_inside : (initial.perform shadowed).owner ⟨3⟩ "x" = .ok ⟨2⟩ := rfl
  obtain rfl : ⟨2⟩ = o := Except.ok.inj (h_inside.symm.trans h_owner)
  refine ⟨e', h_assign, reassigned, reassigned.found ⟨3⟩ h_inside, ?_, ?_⟩
  · exact reassigned.other ⟨1⟩ "x" (by rintro ⟨-, ⟨⟩⟩)
  · exact reassigned.other ⟨5⟩ "x" (by rintro ⟨-, ⟨⟩⟩)

end Environment

end ScriptLang
