import ScriptLang.Proofs.Environment.Lookups

/-!
# One scope in two

Take a scope that binds many names, and put some of them into a new scope inside it. From the new
scope every name means the same as it meant in the old one, for a search passes through both parts
one after the other, and no name is in both. Assigning to a name keeps it in its part. What is
declared goes into the new scope, where a name is refused if it is in the new part; so declaring is
the same as long as the name is not in the old part.

* `Environment.Split` — two environments that are the same but for one scope's being in two parts.
* `Environment.SplitFor` — the names that are declared are not in the outer part, and slots are in
  order.
* `Environment.SplitFor.find` — names mean the same.
* `Environment.SplitFor.assign`, `Environment.SplitFor.declare` — what changes both alike.
* `Environment.Arranged.splitFor_child` — a new scope inside another is the empty part of it.
-/

namespace ScriptLang

namespace Environment

/-- **One scope in two:** in the first environment the scope `s` binds what in the second `s` and
the scope `c` inside it bind together. All other scopes are the same. -/
structure Split (e₁ e₂ : Environment) (s c : ScopeId) : Prop where
  other : ∀ t, t ≠ s → t ≠ c → e₁.scope? t = e₂.scope? t
  absent : e₁.scope? c = none
  parts : ∃ parent whole outer inner, e₁.scope? s = some ⟨whole, parent⟩ ∧
    e₂.scope? s = some ⟨outer, parent⟩ ∧ e₂.scope? c = some ⟨inner, some s⟩ ∧
      whole.IsJoin outer inner

/-- **One scope in two, for declarations** of certain names, which the outer part does not bind. -/
structure SplitFor (Declares : String → Prop) (e₁ e₂ : Environment) (s c : ScopeId) : Prop
    extends Split e₁ e₂ s c where
  ordered₁ : e₁.Ordered
  ordered₂ : e₂.Ordered
  free : ∀ name, Declares name → e₂.binding? s name = none

/-- The scope that a part belongs to, and any other scope itself. -/
def unsplit (s c o : ScopeId) : ScopeId := if o = c then s else o

namespace Split

variable {e₁ e₂ : Environment} {s c : ScopeId} (h : Split e₁ e₂ s c)
include h

/-- What the scope binds a name to, one of the two parts does, and not the other. -/
private theorem binding? (name : String) :
    e₁.binding? s name = (e₂.binding? s name).or (e₂.binding? c name) ∧
      (e₂.binding? s name = none ∨ e₂.binding? c name = none) := by
  obtain ⟨parent, whole, outer, inner, h_s₁, h_s₂, h_c, join⟩ := h.parts
  unfold Environment.binding?
  rw [h_s₁, h_s₂, h_c]
  exact ⟨join.get? name, join.disjoint name⟩

/-- The inner part is inside the outer one, and that is inside what the scope is inside. -/
private theorem parent? : e₁.parent? s = e₂.parent? s ∧ e₂.parent? c = some s := by
  obtain ⟨parent, whole, outer, inner, h_s₁, h_s₂, h_c, -⟩ := h.parts
  unfold Environment.parent?
  rw [h_s₁, h_s₂, h_c]
  exact ⟨rfl, rfl⟩

private theorem live : e₁.Live s ∧ e₂.Live s := by
  obtain ⟨parent, whole, outer, inner, h_s₁, h_s₂, -, -⟩ := h.parts
  exact ⟨Option.isSome_iff_exists.2 ⟨_, h_s₁⟩, Option.isSome_iff_exists.2 ⟨_, h_s₂⟩⟩

end Split

namespace SplitFor

variable {Declares : String → Prop} {e₁ e₂ : Environment} {s c : ScopeId}
  (h : SplitFor Declares e₁ e₂ s c)
include h

/-- The inner part is in a later slot. -/
private theorem index_lt : s.index < c.index := h.ordered₂ c s h.parent?.2

private theorem ne : c ≠ s := by
  intro h_eq
  exact Nat.lt_irrefl _ (h_eq ▸ h.index_lt)

/-! ### Names -/

/-- In front of both parts a name means the same, for a search comes to neither. -/
private theorem find_of_lt {t : ScopeId} (h_t : t.index < s.index) (name : String) :
    e₁.find t name = e₂.find t name := by
  have h_same : ∀ t : ScopeId, t.index < s.index → e₁.scope? t = e₂.scope? t := by
    intro t h_t
    refine h.other t ?_ ?_
    · rintro rfl
      exact Nat.lt_irrefl _ h_t
    · rintro rfl
      exact Nat.lt_asymm h_t h.index_lt
  refine find_congr (P := fun t => t.index < s.index) h.ordered₂ h.ordered₁
    (fun t h_t => live_congr (h_same t h_t))
    (fun t h_t => parent?_congr (congrArg (Option.map Scope.parent) (h_same t h_t)))
    (fun t h_t => binding?_congr (h_same t h_t) name) (fun t p h_t _ h_p => ?_) h_t
  exact Nat.lt_trans (h.ordered₂ t p h_p) h_t

/-- What the inner part does not bind is found in the outer one as it is in the scope. -/
private theorem find_outer {name : String} (h_c : e₂.binding? c name = none) :
    e₁.find s name = e₂.find s name := by
  obtain ⟨h_bound, -⟩ := h.binding? name
  rw [h_c, Option.or_none] at h_bound
  cases h_outer : e₂.binding? s name with
  | some b => rw [find_of_binding? h_outer, find_of_binding? (h_bound.trans h_outer)]
  | none =>
    have h_around : e₁.parent? s = e₂.parent? s := h.parent?.1
    cases h_parent : e₂.parent? s with
    | none =>
      rw [find_of_outermost h.live.1 (h_bound.trans h_outer) (h_around.trans h_parent),
        find_of_outermost h.live.2 h_outer h_parent]
    | some p =>
      calc e₁.find s name
          = e₁.find p name :=
            find_of_inside h.ordered₁ (h_bound.trans h_outer) (h_around.trans h_parent)
        _ = e₂.find p name := h.find_of_lt (h.ordered₂ s p h_parent) name
        _ = e₂.find s name := (find_of_inside h.ordered₂ h_outer h_parent).symm

/-- **Names mean the same** in the scope and in the inner part of it, but that what is found in the
inner part is found in the scope. -/
theorem find (name : String) :
    e₁.find s name = (e₂.find c name).map fun found => (unsplit s c found.1, found.2) := by
  obtain ⟨h_bound, h_disjoint⟩ := h.binding? name
  cases h_inner : e₂.binding? c name with
  | some b =>
    have h_outer : e₂.binding? s name = none :=
      h_disjoint.resolve_right fun h_none => by rw [h_inner] at h_none; cases h_none
    rw [h_outer, h_inner, Option.none_or] at h_bound
    rw [find_of_binding? h_bound, find_of_binding? h_inner]
    show Except.ok (s, b) = .ok (unsplit s c c, b)
    rw [unsplit, if_pos rfl]
  | none =>
    rw [h.find_outer h_inner, find_of_inside h.ordered₂ h_inner h.parent?.2]
    cases h_find : e₂.find s name with
    | error err => rfl
    | ok found =>
      -- what is found from the outer part outwards is in no later slot, so not in the inner part
      obtain ⟨o, b⟩ := found
      have h_le : o.index ≤ s.index := h.ordered₂.index_le_of_around (find_eq_ok h_find).1
      have h_o : o ≠ c := by
        rintro rfl
        exact Nat.not_lt.2 h_le h.index_lt
      show Except.ok (o, b) = .ok (unsplit s c o, b)
      rw [unsplit, if_neg h_o]

/-- **Names have the same values.** -/
theorem get (name : String) : e₁.get s name = e₂.get c name := by
  unfold Environment.get
  rw [h.find name]
  cases e₂.find c name <;> rfl

/-! ### Changes -/

/-- Binding a name in a part and in the scope that the part belongs to, or in another scope in both:
whatever is in two parts afterwards, the rest is as it should be. -/
private theorem bind_of_parts (o : ScopeId) (name : String) (b : Binding)
    (parts : ∃ parent whole outer inner,
      (e₁.bind (unsplit s c o) name b).scope? s = some ⟨whole, parent⟩ ∧
      (e₂.bind o name b).scope? s = some ⟨outer, parent⟩ ∧
      (e₂.bind o name b).scope? c = some ⟨inner, some s⟩ ∧ whole.IsJoin outer inner)
    (free : ∀ name', Declares name' → (e₂.bind o name b).binding? s name' = none) :
    SplitFor Declares (e₁.bind (unsplit s c o) name b) (e₂.bind o name b) s c where
  other t h_s h_c := by
    rw [scope?_bind, scope?_bind, unsplit]
    by_cases h_o : o = c
    · -- the name is bound in one of the parts and in the scope, none of which is `t`
      rw [if_pos h_o, if_neg h_s, if_neg (h_o ▸ h_c), h.other t h_s h_c]
    · rw [if_neg h_o]
      by_cases h_t : t = o
      · rw [if_pos h_t, if_pos h_t, ← h_t, h.other t h_s h_c]
      · rw [if_neg h_t, if_neg h_t, h.other t h_s h_c]
  absent := by
    have h_ne : c ≠ unsplit s c o := by
      rw [unsplit]
      split
      · exact h.ne
      · next h_o => exact Ne.symm h_o
    rw [scope?_bind, if_neg h_ne, h.absent]
  parts := parts
  ordered₁ := h.ordered₁.bind _ name b
  ordered₂ := h.ordered₂.bind o name b
  free := free

/-- Binding in the scope and in the inner part a name that the outer part does not bind. -/
private theorem bind_inner {name : String} (h_name : e₂.binding? s name = none) (b : Binding) :
    SplitFor Declares (e₁.bind s name b) (e₂.bind c name b) s c := by
  obtain ⟨parent, whole, outer, inner, h_s₁, h_s₂, h_c, join⟩ := h.parts
  rw [Environment.binding?, h_s₂, Option.bind_some] at h_name
  have h_unsplit : unsplit s c c = s := if_pos rfl
  have h_bind := h.bind_of_parts c name b ⟨parent, whole.insert name b, outer, inner.insert name b,
    by rw [h_unsplit, scope?_bind, if_pos rfl, h_s₁, Option.map_some],
    by rw [scope?_bind, if_neg h.ne.symm, h_s₂],
    by rw [scope?_bind, if_pos rfl, h_c, Option.map_some], join.insert_right h_name b⟩
  rw [h_unsplit] at h_bind
  refine h_bind fun name' h_name' => ?_
  rw [binding?_bind, if_neg fun h' => h.ne.symm h'.1, h.free name' h_name']

/-- Binding in the scope and in the outer part a name that the inner part does not bind and that is
not declared. -/
private theorem bind_outer {name : String} (h_name : e₂.binding? c name = none)
    (h_free : ¬Declares name) (b : Binding) :
    SplitFor Declares (e₁.bind s name b) (e₂.bind s name b) s c := by
  obtain ⟨parent, whole, outer, inner, h_s₁, h_s₂, h_c, join⟩ := h.parts
  rw [Environment.binding?, h_c, Option.bind_some] at h_name
  have h_unsplit : unsplit s c s = s := if_neg h.ne.symm
  have h_bind := h.bind_of_parts s name b ⟨parent, whole.insert name b, outer.insert name b, inner,
    by rw [h_unsplit, scope?_bind, if_pos rfl, h_s₁, Option.map_some],
    by rw [scope?_bind, if_pos rfl, h_s₂, Option.map_some],
    by rw [scope?_bind, if_neg h.ne, h_c], join.insert_left h_name b⟩
  rw [h_unsplit] at h_bind
  refine h_bind fun name' h_name' => ?_
  have h_other : name' ≠ name := by
    rintro rfl
    exact h_free h_name'
  rw [binding?_bind, if_neg fun h' => h_other h'.2, h.free name' h_name']

/-- Binding a name in another scope. -/
private theorem bind_other {o : ScopeId} (h_s : o ≠ s) (h_c : o ≠ c) (name : String)
    (b : Binding) : SplitFor Declares (e₁.bind o name b) (e₂.bind o name b) s c := by
  obtain ⟨parent, whole, outer, inner, h_s₁, h_s₂, h_c₂, join⟩ := h.parts
  have h_unsplit : unsplit s c o = o := if_neg h_c
  have h_bind := h.bind_of_parts o name b ⟨parent, whole, outer, inner,
    by rw [h_unsplit, scope?_bind, if_neg h_s.symm, h_s₁],
    by rw [scope?_bind, if_neg h_s.symm, h_s₂], by rw [scope?_bind, if_neg h_c.symm, h_c₂], join⟩
  rw [h_unsplit] at h_bind
  refine h_bind fun name' h_name' => ?_
  rw [binding?_bind, if_neg fun h' => h_s h'.1.symm, h.free name' h_name']

/-- **Binding a name anew where it is found.** -/
private theorem bind_found {name : String} {o : ScopeId} {b₀ : Binding}
    (h_find : e₂.find c name = .ok (o, b₀)) (b : Binding) :
    SplitFor Declares (e₁.bind (unsplit s c o) name b) (e₂.bind o name b) s c := by
  have h_bound : e₂.binding? o name = some b₀ := (find_eq_ok h_find).2
  obtain ⟨-, h_disjoint⟩ := h.binding? name
  -- in the inner part, in the outer part, or further out
  by_cases h_c : o = c
  · rw [unsplit, if_pos h_c]
    rw [h_c] at h_bound ⊢
    exact h.bind_inner (h_disjoint.resolve_right (by rw [h_bound]; nofun)) b
  · rw [unsplit, if_neg h_c]
    by_cases h_s : o = s
    · -- a name of the outer part is none of those that are declared
      rw [h_s] at h_bound ⊢
      refine h.bind_outer (h_disjoint.resolve_left (by rw [h_bound]; nofun)) (fun h_free => ?_) b
      rw [h.free name h_free] at h_bound
      cases h_bound
    · exact h.bind_other h_s h_c name b

/-! ### Operations -/

/-- **Assigning the same value** is refused in both or leaves one scope in two. -/
theorem assign (name : String) (v : Value) :
    Outcomes (fun e₁' e₂' => SplitFor Declares e₁' e₂' s c)
      (e₁.assign s name v) (e₂.assign c name v) := by
  unfold Environment.assign
  rw [h.find name]
  cases h_find : e₂.find c name with
  | error err => exact .error err
  | ok found =>
    obtain ⟨o, b⟩ := found
    show Outcomes _ (if b.constant then _ else _) (if b.constant then _ else _)
    split
    · exact .error (RuntimeError.constAssignment name)
    · exact .ok (h.bind_found h_find _)

/-- **Declaring a name** that the outer part does not bind is refused in both or leaves one scope in
two. -/
theorem declare {name : String} (h_name : Declares name) (b : Binding) :
    Outcomes (fun e₁' e₂' => SplitFor Declares e₁' e₂' s c)
      (e₁.declare s name b) (e₂.declare c name b) := by
  have h_outer : e₂.binding? s name = none := h.free name h_name
  have h_bind := h.bind_inner h_outer b
  obtain ⟨parent, whole, outer, inner, h_s₁, h_s₂, h_c, join⟩ := h.parts
  rw [Environment.binding?, h_s₂, Option.bind_some] at h_outer
  -- so the scope binds the name exactly if the inner part does
  have h_whole : whole.contains name = inner.contains name := by
    rw [Table.contains, join.get?, h_outer, Option.none_or, Table.contains]
  unfold Environment.declare
  rw [h_s₁, h_c]
  dsimp only
  rw [h_whole]
  split
  · exact .error (RuntimeError.duplicateDeclaration name)
  · exact .ok h_bind

end SplitFor

/-- **A new scope inside another** is the empty part of it. -/
theorem Arranged.splitFor_child {e : Environment} (arranged : e.Arranged) {s : ScopeId}
    (h_s : e.Live s) {Declares : String → Prop}
    (free : ∀ name, Declares name → e.binding? s name = none) :
    SplitFor Declares e (e.child s) s e.nextId := by
  obtain ⟨⟨bindings, parent⟩, h_scope⟩ := Option.isSome_iff_exists.1 h_s
  have h_ne : s ≠ e.nextId := by
    rintro rfl
    exact Nat.lt_irrefl _ h_s.issued
  have h_old : ∀ t, t ≠ e.nextId → (e.child s).scope? t = e.scope? t := by
    intro t h_t
    rw [scope?_child, if_neg h_t]
  -- before the new scope is opened there is no slot for it
  have h_next : e.scope? e.nextId = none := by
    refine not_live_iff.1 fun h_live => ?_
    exact Nat.lt_irrefl _ h_live.issued
  refine { other := ?_, absent := h_next, parts := ?_, ordered₁ := arranged.ordered,
           ordered₂ := (arranged.child h_s.issued).ordered, free := ?_ }
  · exact fun t _ h_t => (h_old t h_t).symm
  · refine ⟨parent, bindings, bindings, ∅, h_scope, ?_, ?_, .empty bindings⟩
    · rw [h_old s h_ne, h_scope]
    · rw [scope?_child, if_pos rfl]
  · intro name h_name
    rw [binding?_congr (h_old s h_ne), free name h_name]

end Environment

end ScriptLang
