import ScriptLang.Proofs.Environment.Chains
import ScriptLang.Proofs.Environment.Requests

/-!
# The slots of an environment

As long as scopes are opened only inside such as were opened before, there or no longer there,
every scope is in a later slot than the one around it, so every walk outwards ends. And as long as
they are opened only inside such as are still there, no scope ever loses the one around it, because
discarding passes over the slots in their order: when it comes to a slot, all earlier ones are
settled. A slot that is emptied stays empty in any case.

* `Environment.Arranged`, `Environment.Anchored` — the order of the slots, and that no scope lacks
  the one around it.
* `Environment.Arranged.perform`, `Environment.Anchored.perform` — requests keep both.
* `Environment.live_discard_iff` — which scopes are still there after one was discarded.
* `Environment.Stale`, `Environment.scope?_perform_of_none` — a scope that is gone, for good.
-/

namespace ScriptLang

namespace Environment

variable {e e' : Environment}

/-! ### Scopes inside scopes -/

/-- **Slots in order:** the root is there, it alone is inside no scope, and every scope is in a
later slot than the one that it is inside. -/
structure Arranged (e : Environment) : Prop where
  root : e.Live root
  outermost : ∀ s scope, e.scope? s = some scope → (scope.parent = none ↔ s = Environment.root)
  ordered : e.Ordered

/-- **No scope lacks the one around it.** -/
def Anchored (e : Environment) : Prop := ∀ s p, e.parent? s = some p → e.Live p

theorem not_live_iff {s : ScopeId} : ¬e.Live s ↔ e.scope? s = none :=
  Option.not_isSome_iff_eq_none

/-- The scope around is read off the scope. -/
theorem parent?_eq_some {s p : ScopeId} :
    e.parent? s = some p ↔ ∃ scope, e.scope? s = some scope ∧ scope.parent = some p :=
  Option.bind_eq_some_iff

/-- With fewer scopes there are fewer inside others. -/
theorem Ordered.of_scopes (h : e.Ordered)
    (le : ∀ s scope, e'.scope? s = some scope → e.scope? s = some scope) : e'.Ordered := by
  intro s p h_p
  obtain ⟨scope, h_scope, h_parent⟩ := parent?_eq_some.1 h_p
  exact h s p (parent?_eq_some.2 ⟨scope, le s scope h_scope, h_parent⟩)

/-- No scope around a scope is in a later slot. -/
theorem Ordered.index_le_of_around (ordered : e.Ordered) {s t : ScopeId}
    (around : e.Around t s) : s.index ≤ t.index := by
  induction around with
  | self s => exact Nat.le_refl _
  | @further t p s h_p _ ih =>
    have h_lt : p.index < t.index := ordered t p h_p
    exact Nat.le_trans ih (Nat.le_of_lt h_lt)

private theorem live_of_map_parent {s : ScopeId}
    (h : (e'.scope? s).map Scope.parent = (e.scope? s).map Scope.parent) :
    e'.Live s ↔ e.Live s := by
  unfold Live
  rw [← Option.isSome_map (f := Scope.parent), h, Option.isSome_map]

/-- Scopes that are the same are there alike. -/
theorem live_congr {s : ScopeId} (h : e'.scope? s = e.scope? s) : e'.Live s ↔ e.Live s :=
  live_of_map_parent (congrArg (Option.map Scope.parent) h)

/-- Binding a name opens and discards nothing. -/
theorem live_bind (e : Environment) (s : ScopeId) (name : String) (b : Binding) (t : ScopeId) :
    (e.bind s name b).Live t ↔ e.Live t :=
  live_of_map_parent (map_parent_bind e s name b t)

theorem parent?_bind (e : Environment) (s : ScopeId) (name : String) (b : Binding) (t : ScopeId) :
    (e.bind s name b).parent? t = e.parent? t :=
  parent?_congr (map_parent_bind e s name b t)

/-- Binding a name moves no scope to another slot. -/
theorem Ordered.bind (ordered : e.Ordered) (s : ScopeId) (name : String) (b : Binding) :
    (e.bind s name b).Ordered := fun t p h_p =>
  ordered t p ((parent?_bind e s name b t).symm.trans h_p)

/-- What was there is still there when another scope is opened. -/
theorem Live.child {s : ScopeId} (h : e.Live s) (parent : ScopeId) : (e.child parent).Live s := by
  have h_old : s ≠ e.nextId := by
    rintro rfl
    exact Nat.lt_irrefl _ h.issued
  unfold Live
  rw [scope?_child, if_neg h_old]
  exact h

namespace Arranged

theorem initial : Environment.initial.Arranged := by
  -- there is one scope, and it is inside none
  have h_only : ∀ s scope, Environment.initial.scope? s = some scope →
      s = Environment.root ∧ scope.parent = none := by
    intro s scope h_scope
    have h_index : s.index < 1 := index_lt_size h_scope
    obtain rfl : s = Environment.root := congrArg ScopeId.mk (Nat.lt_one_iff.1 h_index)
    cases h_scope
    exact ⟨rfl, rfl⟩
  refine ⟨rfl, fun s scope h_scope => ?_, fun s p h_p => ?_⟩
  · obtain ⟨h_s, h_parent⟩ := h_only s scope h_scope
    exact iff_of_true h_parent h_s
  · obtain ⟨scope, h_scope, h_parent⟩ := parent?_eq_some.1 h_p
    rw [(h_only s scope h_scope).2] at h_parent
    cases h_parent

/-- With fewer scopes, the root among them, slots stay in order. -/
private theorem of_scopes (h : e.Arranged) (h_root : e'.scope? Environment.root =
      e.scope? Environment.root)
    (le : ∀ s scope, e'.scope? s = some scope → e.scope? s = some scope) : e'.Arranged where
  root := by
    unfold Live
    rw [h_root]
    exact h.root
  outermost s scope h_scope := h.outermost s scope (le s scope h_scope)
  ordered := h.ordered.of_scopes le

theorem child (h : e.Arranged) {parent : ScopeId} (h_parent : e.Issued parent) :
    (e.child parent).Arranged := by
  have h_next : e.nextId ≠ Environment.root := by
    intro h_eq
    have h_pos : Environment.root.index < e.slots.size := h.root.issued
    rw [← h_eq] at h_pos
    exact Nat.lt_irrefl _ h_pos
  refine ⟨h.root.child parent, fun s scope h_scope => ?_, fun s p h_p => ?_⟩
  · rw [scope?_child] at h_scope
    split at h_scope
    · next h_s =>
      obtain rfl := Option.some.inj h_scope
      rw [h_s]
      exact iff_of_false (by rintro ⟨⟩) h_next
    · exact h.outermost s scope h_scope
  · obtain ⟨scope, h_scope, h_scope_parent⟩ := parent?_eq_some.1 h_p
    rw [scope?_child] at h_scope
    split at h_scope
    · -- the new scope has the last slot, and the one around it an earlier one
      next h_s =>
      obtain rfl := Option.some.inj h_scope
      obtain rfl := Option.some.inj h_scope_parent
      rw [h_s]
      exact h_parent
    · exact h.ordered s p (parent?_eq_some.2 ⟨scope, h_scope, h_scope_parent⟩)

theorem discard (h : e.Arranged) (s : ScopeId) : (e.discard s).Arranged :=
  h.of_scopes (scope?_root_discard e s) fun _ _ => scope?_of_discard

theorem bind (h : e.Arranged) (s : ScopeId) (name : String) (b : Binding) :
    (e.bind s name b).Arranged := by
  refine ⟨(live_bind e s name b _).2 h.root, fun t scope h_scope => ?_, h.ordered.bind s name b⟩
  have h_map := map_parent_bind e s name b t
  rw [h_scope, Option.map_some] at h_map
  obtain ⟨scope', h_scope', h_parent⟩ := Option.map_eq_some_iff.1 h_map.symm
  rw [← h_parent]
  exact h.outermost t scope' h_scope'

/-- **Slots stay in order** under requests, if scopes are opened only inside such as were opened
before. -/
theorem perform (h : e.Arranged) {requests : List Request}
    (h_inside : OpensInside Issued e requests) : (e.perform requests).Arranged := by
  induction requests generalizing e with
  | nil => exact h
  | cons request requests ih =>
    obtain ⟨h_first, h_rest⟩ := h_inside
    refine ih ?_ h_rest
    obtain ⟨parent, h_push, h_apply⟩ | ⟨s, h_apply, -⟩ | ⟨s, name, b, h_apply, -⟩ | ⟨h_apply, -⟩ :=
      apply_cases e request
    · rw [h_apply]
      exact h.child (h_first parent h_push)
    · rw [h_apply]
      exact h.discard s
    · rw [h_apply]
      exact h.bind s name b
    · rw [h_apply]
      exact h

/-- **Every walk outwards ends,** for each step leads to an earlier slot. -/
theorem exists_depth (h : e.Arranged) (s : ScopeId) : ∃ n, e.Depth n s := by
  obtain ⟨i⟩ := s
  induction i using Nat.strongRecOn with
  | ind i ih =>
    cases h_scope : e.scope? ⟨i⟩ with
    | none => exact ⟨1, .gone h_scope⟩
    | some scope =>
      cases h_parent : scope.parent with
      | none => exact ⟨1, .outermost h_scope h_parent⟩
      | some p =>
        have h_lt : p.index < i := h.ordered ⟨i⟩ p (parent?_eq_some.2 ⟨scope, h_scope, h_parent⟩)
        obtain ⟨n, h_n⟩ := ih p.index h_lt
        exact ⟨n + 1, .inside h_scope h_parent h_n⟩

end Arranged

/-- Where requests lead to slots are in order. -/
theorem Requested.arranged (h : e.Requested) : e.Arranged := by
  obtain ⟨requests, h_inside, rfl⟩ := h
  exact Arranged.initial.perform h_inside

/-! ### Discarding, slot by slot -/

private theorem isOrphan_iff {s : ScopeId} :
    e.isOrphan s ↔ ∃ p, e.parent? s = some p ∧ ¬e.Live p := by
  unfold isOrphan Live
  cases e.parent? s with
  | none => simp
  | some p => simp

/-- Only the slot that is looked at is emptied, and only if there is an orphan in it. -/
theorem scope?_clearOrphan (e : Environment) (s t : ScopeId) :
    (e.clearOrphan s).scope? t = if t = s ∧ e.isOrphan s then none else e.scope? t := by
  unfold clearOrphan
  by_cases h : e.isOrphan s
  · rw [if_pos h, scope?_clear]
    simp only [h, and_true]
  · rw [if_neg h, if_neg fun h' => h h'.2]

private theorem scope?_of_clearOrphan {s t : ScopeId} {scope : Scope}
    (h : (e.clearOrphan s).scope? t = some scope) : e.scope? t = some scope := by
  rw [scope?_clearOrphan] at h
  split at h
  · cases h
  · exact h

/-- Discarding opens nothing, however far it has come, and the scope itself goes first. -/
theorem scope?_of_sweep {s t : ScopeId} {k : Nat} {scope : Scope}
    (h : (e.sweep s k).scope? t = some scope) : t ≠ s ∧ e.scope? t = some scope := by
  induction k with
  | zero =>
    rw [sweep_zero, scope?_clear] at h
    split at h
    · cases h
    · next h_ne => exact ⟨h_ne, h⟩
  | succ k ih =>
    rw [sweep_succ] at h
    exact ih (scope?_of_clearOrphan h)

/-- **A discarded scope is gone,** unless it is the root. -/
theorem scope?_discard_self {s : ScopeId} (h_root : s ≠ root) (h_issued : e.Issued s) :
    (e.discard s).scope? s = none := by
  rw [discard_eq_sweep h_root h_issued]
  refine Option.eq_none_iff_forall_ne_some.2 fun scope h_scope => ?_
  exact (scope?_of_sweep h_scope).1 rfl

/-- **Whenever discarding looks for the scope around another,** there is a slot to look at. -/
theorem Arranged.parent_issued_of_sweep (h : e.Arranged) {s t p : ScopeId} {k : Nat}
    (h_p : (e.sweep s k).parent? t = some p) : (e.sweep s k).Issued p := by
  obtain ⟨scope, h_scope, h_parent⟩ := parent?_eq_some.1 h_p
  obtain ⟨-, h_before⟩ := scope?_of_sweep h_scope
  have h_t : t.index < e.slots.size := index_lt_size h_before
  have h_lt : p.index < t.index := h.ordered t p (parent?_eq_some.2 ⟨scope, h_before, h_parent⟩)
  unfold Issued
  rw [size_sweep]
  exact Nat.lt_trans h_lt h_t

/-- What discarding has passed it leaves as it is. -/
private theorem scope?_sweep_add {s t : ScopeId} {k : Nat} (h : t.index ≤ s.index + k) (n : Nat) :
    (e.sweep s (k + n)).scope? t = (e.sweep s k).scope? t := by
  induction n with
  | zero => rfl
  | succ n ih =>
    have h_other : ¬(t = ⟨s.index + 1 + (k + n)⟩ ∧
        (e.sweep s (k + n)).isOrphan ⟨s.index + 1 + (k + n)⟩) := by
      rintro ⟨rfl, -⟩
      simp only at h
      omega
    rw [← Nat.add_assoc, sweep_succ, scope?_clearOrphan, if_neg h_other, ih]

/-- What discarding has not come to is as it was. -/
private theorem scope?_sweep_of_lt {s t : ScopeId} {k : Nat} (h : s.index + k < t.index) :
    (e.sweep s k).scope? t = e.scope? t := by
  induction k with
  | zero =>
    rw [sweep_zero, scope?_clear, if_neg]
    rintro rfl
    omega
  | succ k ih =>
    have h_other : ¬(t = ⟨s.index + 1 + k⟩ ∧ (e.sweep s k).isOrphan ⟨s.index + 1 + k⟩) := by
      rintro ⟨rfl, -⟩
      simp only at h
      omega
    rw [sweep_succ, scope?_clearOrphan, if_neg h_other, ih (by omega)]

/-- A slot is emptied when it is looked at, if the scope in it lacks the one around. -/
private theorem live_clearOrphan (e : Environment) (t : ScopeId) :
    (e.clearOrphan t).Live t ↔ e.Live t ∧ ∀ p, e.parent? t = some p → e.Live p := by
  by_cases h : e.isOrphan t
  · obtain ⟨p, h_p, h_gone⟩ := isOrphan_iff.1 h
    have h_empty : (e.clearOrphan t).scope? t = none := by
      rw [scope?_clearOrphan, if_pos ⟨rfl, h⟩]
    refine iff_of_false ?_ fun h_live => h_gone (h_live.2 p h_p)
    rw [Live, h_empty]
    exact Bool.false_ne_true
  · have h_same : (e.clearOrphan t).scope? t = e.scope? t := by
      rw [scope?_clearOrphan, if_neg fun h' => h h'.2]
    rw [live_congr h_same]
    refine (and_iff_left fun p h_p => ?_).symm
    exact not_not.1 fun h_gone => h (isOrphan_iff.2 ⟨p, h_p, h_gone⟩)

/-- In a slot behind the discarded scope there is still one, however far discarding has come by
then, if there was and it does not lack the one around it. -/
private theorem live_sweep_of_index (ordered : e.Ordered) {s t : ScopeId} {k : Nat}
    (h_t : t.index = s.index + 1 + k) (n : Nat) :
    (e.sweep s (k + 1 + n)).Live t ↔
      e.Live t ∧ ∀ p, e.parent? t = some p → (e.sweep s (k + 1 + n)).Live p := by
  have h_before : (e.sweep s k).scope? t = e.scope? t := scope?_sweep_of_lt (by omega)
  have h_after : (e.sweep s (k + 1 + n)).scope? t = (e.sweep s (k + 1)).scope? t :=
    scope?_sweep_add (by omega) n
  -- the scope around is in an earlier slot, which is settled when this one is looked at
  have h_around : ∀ p, e.parent? t = some p →
      ((e.sweep s (k + 1 + n)).Live p ↔ (e.sweep s k).Live p) := by
    intro p h_p
    have h_lt : p.index < t.index := ordered t p h_p
    rw [Nat.add_assoc]
    exact live_congr (scope?_sweep_add (by omega) (1 + n))
  have h_slot : (⟨s.index + 1 + k⟩ : ScopeId) = t := congrArg ScopeId.mk h_t.symm
  calc (e.sweep s (k + 1 + n)).Live t
      ↔ ((e.sweep s k).clearOrphan t).Live t := by rw [live_congr h_after, sweep_succ, h_slot]
    _ ↔ (e.sweep s k).Live t ∧ ∀ p, (e.sweep s k).parent? t = some p → (e.sweep s k).Live p :=
        live_clearOrphan _ t
    _ ↔ e.Live t ∧ ∀ p, e.parent? t = some p → (e.sweep s k).Live p := by
        rw [live_congr h_before, parent?_congr (congrArg (Option.map Scope.parent) h_before)]
    _ ↔ e.Live t ∧ ∀ p, e.parent? t = some p → (e.sweep s (k + 1 + n)).Live p :=
        and_congr_right fun _ => forall₂_congr fun p h_p => (h_around p h_p).symm

/-- **Discarding, slot by slot:** a scope is still there if it was, is not the one discarded and, in
a later slot than that one, does not lack the scope around it. -/
theorem live_discard_iff (ordered : e.Ordered) {s : ScopeId} (h_root : s ≠ root)
    (h_issued : e.Issued s) (t : ScopeId) :
    (e.discard s).Live t ↔ e.Live t ∧ t ≠ s ∧
      (s.index < t.index → ∀ p, e.parent? t = some p → (e.discard s).Live p) := by
  rw [discard_eq_sweep h_root h_issued]
  generalize h_m : e.slots.size - (s.index + 1) = m
  by_cases h_later : s.index < t.index
  · have h_ne : t ≠ s := fun h_eq => Nat.lt_irrefl _ (h_eq ▸ h_later)
    by_cases h_t : t.index < e.slots.size
    · -- discarding comes to this slot, and then to the ones behind it
      obtain ⟨k, h_k⟩ : ∃ k, t.index = s.index + 1 + k := ⟨t.index - (s.index + 1), by omega⟩
      obtain ⟨n, rfl⟩ : ∃ n, m = k + 1 + n := ⟨m - (k + 1), by omega⟩
      rw [live_sweep_of_index ordered h_k n]
      exact and_congr_right fun _ => ⟨fun h => ⟨h_ne, fun _ => h⟩, fun h => h.2 h_later⟩
    · -- there is no such slot, before or after
      refine iff_of_false (fun h => h_t ?_) fun h => h_t h.1.issued
      have h_lt : t.index < (e.sweep s m).slots.size := h.issued
      rwa [size_sweep] at h_lt
  · -- the slots in front are left alone, and the scope's own is emptied first
    have h_first : (e.sweep s m).scope? t = if t = s then none else e.scope? t := by
      rw [← Nat.zero_add m, scope?_sweep_add (by omega), sweep_zero, scope?_clear]
    by_cases h_self : t = s
    · rw [if_pos h_self] at h_first
      refine iff_of_false ?_ fun h => h.2.1 h_self
      rw [Live, h_first]
      exact Bool.false_ne_true
    · rw [if_neg h_self] at h_first
      rw [live_congr h_first]
      exact ⟨fun h => ⟨h, h_self, fun h' => absurd h' h_later⟩, And.left⟩

/-- In front of the discarded scope nothing changes. -/
theorem live_discard_of_lt (ordered : e.Ordered) {s t : ScopeId} (h_root : s ≠ root)
    (h_issued : e.Issued s) (h_lt : t.index < s.index) : (e.discard s).Live t ↔ e.Live t := by
  have h_ne : t ≠ s := fun h_eq => Nat.lt_irrefl _ (h_eq ▸ h_lt)
  rw [live_discard_iff ordered h_root h_issued]
  exact and_iff_left ⟨h_ne, fun h_later => absurd h_lt (Nat.lt_asymm h_later)⟩

namespace Anchored

theorem initial : Environment.initial.Anchored := by
  intro s p h_p
  have h_lt : p.index < s.index := Arranged.initial.ordered s p h_p
  obtain ⟨scope, h_scope, -⟩ := parent?_eq_some.1 h_p
  have h_index : s.index < 1 := index_lt_size h_scope
  omega

theorem child (h : e.Anchored) {parent : ScopeId} (h_parent : e.Live parent) :
    (e.child parent).Anchored := by
  intro s p h_p
  obtain ⟨scope, h_scope, h_scope_parent⟩ := parent?_eq_some.1 h_p
  rw [scope?_child] at h_scope
  split at h_scope
  · obtain rfl := Option.some.inj h_scope
    obtain rfl := Option.some.inj h_scope_parent
    exact h_parent.child parent
  · exact (h s p (parent?_eq_some.2 ⟨scope, h_scope, h_scope_parent⟩)).child parent

/-- **Discarding leaves no scope without the one around it,** because it comes to a scope later than
to the one around it. -/
theorem discard (h : e.Anchored) (ordered : e.Ordered) (s : ScopeId) : (e.discard s).Anchored := by
  by_cases h_s : s = root ∨ ¬e.Issued s
  · rw [discard_of_eq_root_or h_s]
    exact h
  · have h_root : s ≠ root := fun h_eq => h_s (.inl h_eq)
    have h_issued : e.Issued s := not_not.1 fun h_not => h_s (.inr h_not)
    intro t p h_p
    obtain ⟨scope, h_scope, h_parent⟩ := parent?_eq_some.1 h_p
    have h_t : (e.discard s).Live t := Option.isSome_iff_exists.2 ⟨scope, h_scope⟩
    have h_old : e.parent? t = some p :=
      parent?_eq_some.2 ⟨scope, scope?_of_discard h_scope, h_parent⟩
    obtain ⟨-, h_ne, h_around⟩ := (live_discard_iff ordered h_root h_issued t).1 h_t
    by_cases h_later : s.index < t.index
    · exact h_around h_later p h_old
    · have h_lt : p.index < s.index := Nat.lt_of_lt_of_le (ordered t p h_old) (Nat.not_lt.1 h_later)
      exact (live_discard_of_lt ordered h_root h_issued h_lt).2 (h t p h_old)

theorem bind (h : e.Anchored) (s : ScopeId) (name : String) (b : Binding) :
    (e.bind s name b).Anchored := by
  intro t p h_p
  rw [parent?_bind] at h_p
  exact (live_bind e s name b p).2 (h t p h_p)

/-- **No scope loses the one around it** under requests, if scopes are opened only inside such as
are there. -/
theorem perform (h : e.Anchored) (arranged : e.Arranged) {requests : List Request}
    (h_inside : OpensInside Live e requests) : (e.perform requests).Anchored := by
  induction requests generalizing e with
  | nil => exact h
  | cons request requests ih =>
    obtain ⟨h_first, h_rest⟩ := h_inside
    have h_one : OpensInside Issued e [request] :=
      OpensInside.mono (fun _ _ => Live.issued) ⟨h_first, trivial⟩
    refine ih ?_ (arranged.perform h_one) h_rest
    obtain ⟨parent, h_push, h_apply⟩ | ⟨s, h_apply, -⟩ | ⟨s, name, b, h_apply, -⟩ | ⟨h_apply, -⟩ :=
      apply_cases e request
    · rw [h_apply]
      exact h.child (h_first parent h_push)
    · rw [h_apply]
      exact h.discard arranged.ordered s
    · rw [h_apply]
      exact h.bind s name b
    · rw [h_apply]
      exact h

/-- **All scopes on the chain from a scope outwards are there,** if the scope is. -/
theorem live_of_around (h : e.Anchored) {s t : ScopeId} (around : e.Around s t) (h_s : e.Live s) :
    e.Live t := by
  induction around with
  | self s => exact h_s
  | @further s p t h_p _ ih => exact ih (h s p h_p)

/-- **No walk outwards comes to a scope that is gone,** if it starts from one that is there. -/
theorem find_ne_discarded (h : e.Anchored) {s : ScopeId} (h_s : e.Live s) (name : String) :
    e.find s name ≠ .error .discardedScope := by
  have h_within : ∀ steps (t : ScopeId), e.Live t →
      e.findWithin name steps t ≠ .error .discardedScope := by
    intro steps
    induction steps with
    | zero =>
      intro t _
      rw [findWithin]
      rintro ⟨⟩
    | succ steps ih =>
      intro t h_t
      obtain ⟨scope, h_scope⟩ := Option.isSome_iff_exists.1 h_t
      rw [findWithin, h_scope]
      dsimp only
      cases scope.bindings.get? name with
      | some binding => rintro ⟨⟩
      | none =>
        cases h_parent : scope.parent with
        | none => rintro ⟨⟩
        | some p =>
          -- the scope around is there as well, so the walk goes on from such a scope
          have h_p : e.Live p := h t p (parent?_eq_some.2 ⟨scope, h_scope, h_parent⟩)
          exact ih p h_p
  exact h_within _ s h_s

end Anchored

/-! ### Scopes that are gone -/

/-- A search that starts from a scope that is gone ends there. -/
theorem find_of_gone {s : ScopeId} (h : e.scope? s = none) (name : String) :
    e.find s name = .error .discardedScope := by
  rw [find, findWithin, h]

/-- **A scope that is gone:** nothing is inside it or around it, and whatever names are asked for
there is refused for that reason. -/
structure Stale (e : Environment) (s : ScopeId) : Prop where
  empty : e.scope? s = none
  declare : ∀ name b, e.declare s name b = .error .discardedScope
  get : ∀ name, e.get s name = .error .discardedScope
  assign : ∀ name v, e.assign s name v = .error .discardedScope
  owner : ∀ name, e.owner s name = .error .discardedScope
  parent : e.parent? s = none

theorem stale_of_scope? {s : ScopeId} (h : e.scope? s = none) : e.Stale s := by
  have h_find : ∀ name, e.find s name = .error .discardedScope := find_of_gone h
  constructor
  · exact h
  · intro name b
    rw [Environment.declare, h]
  · intro name
    rw [Environment.get, h_find]
    rfl
  · intro name v
    rw [Environment.assign, h_find]
    rfl
  · intro name
    rw [Environment.owner, h_find]
    rfl
  · rw [parent?, h]
    rfl

/-- **A slot that is empty stays empty,** whatever is asked for. -/
theorem scope?_perform_of_none {s : ScopeId} (h_issued : e.Issued s) (h : e.scope? s = none)
    (requests : List Request) : (e.perform requests).scope? s = none := by
  induction requests generalizing e with
  | nil => exact h
  | cons request requests ih =>
    have h_grown : (e.apply request).Issued s := by
      unfold Issued
      rw [size_apply]
      exact Nat.lt_add_right _ h_issued
    refine ih h_grown ?_
    obtain ⟨parent, -, h_apply⟩ | ⟨t, h_apply, -⟩ | ⟨t, name, b, h_apply, -⟩ | ⟨h_apply, -⟩ :=
      apply_cases e request
    · -- a new scope does not take the slot of another
      have h_old : s ≠ e.nextId := by
        rintro rfl
        exact Nat.lt_irrefl _ h_issued
      rw [h_apply, scope?_child, if_neg h_old, h]
    · rw [h_apply]
      exact scope?_discard_of_none h t
    · rw [h_apply]
      exact Option.not_isSome_iff_eq_none.1 fun h_live =>
        Option.not_isSome_iff_eq_none.2 h ((live_bind e t name b s).1 h_live)
    · rw [h_apply, h]

end Environment

end ScriptLang
