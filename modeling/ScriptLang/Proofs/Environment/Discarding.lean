import ScriptLang.Proofs.Environment.Slots

/-!
# What discarding takes away

Discarding a scope passes over the later slots once and empties those whose scope lacks the one
around it by then. What is gone in the end is known from the scopes that were there at the
beginning: a scope goes if the way from it outwards, through later slots than the discarded one has,
comes to the discarded scope or to one that was gone before. For the scope around another is in an
earlier slot, so all that a slot depends on is settled when discarding comes to it.

A scope may be inside one that is gone, and still be there: it was opened when the other had been
discarded already. Discarding any scope in an earlier slot takes it away, be it one that has nothing
to do with it. So it depends on all scopes discarded so far whether such a scope is left, but not on
the order in which they were discarded, and not on whether one of them was discarded twice.

* `Environment.Falls` — the scopes that go when a scope is discarded.
* `Environment.Discards` — what discarding a scope does to every slot.
* `Environment.Leaves` — which scopes are left when some are discarded, in whatever order.
* `Environment.Leaves.unique` — there is one environment in which they are left.
* `perform_discards`, `perform_discard_comm` — both hold after any requests.
-/

namespace ScriptLang

namespace Environment

variable {e e' e₁ e₂ : Environment}

/-! ### The scopes that go -/

/-- **The way outwards** from a scope, as long as it is through scopes that are there and in later
slots than `s`. Where it comes to there may be no scope, or one in an earlier slot. -/
inductive Passes (e : Environment) (s : ScopeId) : ScopeId → ScopeId → Prop where
  | self (t) : Passes e s t t
  | further {t p u} (later : s.index < t.index) (h : e.parent? t = some p)
      (way : Passes e s p u) : Passes e s t u

/-- **The scopes that go when `s` is discarded:** the scope itself, and those in later slots from
which the way outwards comes to it, or to a scope that is gone already. -/
def Falls (e : Environment) (s t : ScopeId) : Prop :=
  t = s ∨ s.index < t.index ∧ ∃ u, e.Passes s t u ∧ (u = s ∨ e.scope? u = none)

section Discarded

variable {s t : ScopeId} (ordered : e.Ordered) (h_root : s ≠ root) (h_issued : e.Issued s)
include ordered h_root h_issued

/-- A scope that lacks the one around it in the end does not stay in a later slot. -/
private theorem not_live_of_further {p : ScopeId} (later : s.index < t.index)
    (h : e.parent? t = some p) (h_p : ¬(e.discard s).Live p) : ¬(e.discard s).Live t := by
  intro h_t
  obtain ⟨-, -, h_around⟩ := (live_discard_iff ordered h_root h_issued t).1 h_t
  exact h_p (h_around later p h)

/-- **What falls is gone:** inwards along the way, from where it comes to. -/
private theorem not_live_of_falls (h : e.Falls s t) : ¬(e.discard s).Live t := by
  have h_self : ¬(e.discard s).Live s := fun h_live =>
    ((live_discard_iff ordered h_root h_issued s).1 h_live).2.1 rfl
  rcases h with rfl | ⟨-, u, way, h_end⟩
  · exact h_self
  · induction way with
    | self u =>
      rcases h_end with rfl | h_gone
      · exact h_self
      · exact fun h_live => not_live_iff.2 h_gone
          ((live_discard_iff ordered h_root h_issued u).1 h_live).1
    | further later h _ ih => exact not_live_of_further ordered h_root h_issued later h (ih h_end)

/-- **What is gone has fallen:** a scope in a later slot goes because of the one around it, which is
in an earlier slot than it is itself. -/
private theorem falls_of_not_live (h_t : e.Live t) (h : ¬(e.discard s).Live t) : e.Falls s t := by
  obtain ⟨i⟩ := t
  induction i using Nat.strongRecOn with
  | ind i ih =>
    by_cases h_self : (⟨i⟩ : ScopeId) = s
    · exact .inl h_self
    · -- it does not stay, so it is in a later slot and lacks the scope around it
      have h_lacks : s.index < i ∧ ∃ p, e.parent? ⟨i⟩ = some p ∧ ¬(e.discard s).Live p := by
        by_contra h_keeps
        refine h ((live_discard_iff ordered h_root h_issued ⟨i⟩).2 ⟨h_t, h_self, ?_⟩)
        intro later p h_p
        by_contra h_gone
        exact h_keeps ⟨later, p, h_p, h_gone⟩
      obtain ⟨later, p, h_p, h_gone⟩ := h_lacks
      refine .inr ⟨later, ?_⟩
      by_cases h_live : e.Live p
      · -- the scope around was there, so it has fallen itself, and its way is gone on with
        rcases ih p.index (ordered _ p h_p) h_live h_gone with rfl | ⟨-, u, way, h_end⟩
        · exact ⟨_, .further later h_p (.self _), .inl rfl⟩
        · exact ⟨u, .further later h_p way, h_end⟩
      · exact ⟨p, .further later h_p (.self p), .inr (not_live_iff.1 h_live)⟩

/-- **The scopes that are gone** after a scope was discarded are those that fall with it. -/
theorem scope?_discard_eq_none_iff (h_t : e.Live t) :
    (e.discard s).scope? t = none ↔ e.Falls s t := by
  rw [← not_live_iff]
  exact ⟨falls_of_not_live ordered h_root h_issued h_t,
    not_live_of_falls ordered h_root h_issued⟩

end Discarded

/-! ### Where no scope lacks the one around it -/

/-- The way to a scope from one inside it does not come to earlier slots. -/
private theorem Ordered.passes_of_around (ordered : e.Ordered) {s t : ScopeId}
    (around : e.Around t s) : e.Passes s t s := by
  induction around with
  | self s => exact .self s
  | @further t p s h_p around ih =>
    have h_lt : p.index < t.index := ordered t p h_p
    have h_le : s.index ≤ p.index := ordered.index_le_of_around around
    exact .further (Nat.lt_of_le_of_lt h_le h_lt) h_p ih

private theorem Passes.around {s t u : ScopeId} (way : e.Passes s t u) : e.Around t u := by
  induction way with
  | self t => exact .self t
  | further _ h_p _ ih => exact .further h_p ih

/-- **Where no scope lacks the one around it,** a scope falls with another exactly if it is inside
that one, at whatever depth. -/
theorem falls_iff_around (ordered : e.Ordered) (anchored : e.Anchored) {s t : ScopeId}
    (h_t : e.Live t) : e.Falls s t ↔ e.Around t s := by
  constructor
  · rintro (rfl | ⟨-, u, way, rfl | h_gone⟩)
    · exact .self t
    · exact way.around
    · -- from a scope that is there the way comes to none that is gone
      exact absurd (anchored.live_of_around way.around h_t) (not_live_iff.2 h_gone)
  · intro around
    by_cases h_self : t = s
    · exact .inl h_self
    · have h_le : s.index ≤ t.index := ordered.index_le_of_around around
      have h_ne : s.index ≠ t.index := fun h_eq => h_self (congrArg ScopeId.mk h_eq.symm)
      exact .inr ⟨Nat.lt_of_le_of_ne h_le h_ne, s, ordered.passes_of_around around, .inl rfl⟩

/-! ### Every slot -/

/-- **What discarding a scope does to every slot.** -/
structure Discards (e : Environment) (s : ScopeId) : Prop where
  itself : (e.discard s).scope? s = none
  /-- The slots that are emptied are those of the scopes that fall with it. -/
  gone : ∀ t, e.Live t → ((e.discard s).scope? t = none ↔ e.Falls s t)
  /-- A slot that was empty stays so, be it an earlier or a later one. -/
  empty : ∀ t, e.scope? t = none → (e.discard s).scope? t = none
  /-- The others have the bindings that they had, and are inside the scope that they were. -/
  kept : ∀ t, ¬e.Falls s t → (e.discard s).scope? t = e.scope? t
  size : (e.discard s).slots.size = e.slots.size
  /-- If no scope lacked the one around it, the scope goes with all that is inside it. -/
  inside : e.Anchored → ∀ t, e.Live t → ((e.discard s).scope? t = none ↔ e.Around t s)
  /-- And then every scope that is left is the root or inside one that is left. -/
  anchored : e.Anchored → ∀ t, (e.discard s).Live t →
    t = root ∨ ∃ p, (e.discard s).parent? t = some p ∧ (e.discard s).Live p

/-- Where no scope lacks the one around it, only the root is not inside one that is there. -/
private theorem eq_root_or_inside (arranged : e.Arranged) (anchored : e.Anchored) {t : ScopeId}
    (h_t : e.Live t) : t = root ∨ ∃ p, e.parent? t = some p ∧ e.Live p := by
  obtain ⟨scope, h_scope⟩ := Option.isSome_iff_exists.1 h_t
  cases h_parent : scope.parent with
  | none => exact .inl ((arranged.outermost t scope h_scope).1 h_parent)
  | some p =>
    have h_p : e.parent? t = some p := parent?_eq_some.2 ⟨scope, h_scope, h_parent⟩
    exact .inr ⟨p, h_p, anchored t p h_p⟩

/-- **Discarding a scope,** not the root, empties the slots of those that fall with it. -/
theorem discards (arranged : e.Arranged) {s : ScopeId} (h_root : s ≠ root)
    (h_issued : e.Issued s) : e.Discards s where
  itself := scope?_discard_self h_root h_issued
  gone t h_t := scope?_discard_eq_none_iff arranged.ordered h_root h_issued h_t
  empty t h_t := scope?_discard_of_none h_t s
  kept t h_t := by
    refine (scope?_discard_eq_or_none e s t).elim id fun h_none => ?_
    -- a slot that is empty without having fallen was so before
    have h_before : e.scope? t = none := by
      by_contra h_live
      exact h_t ((scope?_discard_eq_none_iff arranged.ordered h_root h_issued
        (Option.isSome_iff_ne_none.2 h_live)).1 h_none)
    exact h_none.trans h_before.symm
  size := size_discard e s
  inside anchored t h_t := by
    rw [scope?_discard_eq_none_iff arranged.ordered h_root h_issued h_t,
      falls_iff_around arranged.ordered anchored h_t]
  anchored anchored t h_t :=
    eq_root_or_inside (arranged.discard s) (anchored.discard arranged.ordered s) h_t

/-! ### Discarding several scopes -/

/-- An environment is determined by how many slots it has and by the scopes in them. -/
theorem ext_scope? (h_size : e₁.slots.size = e₂.slots.size)
    (h : ∀ t, e₁.scope? t = e₂.scope? t) : e₁ = e₂ := by
  obtain ⟨slots₁⟩ := e₁
  obtain ⟨slots₂⟩ := e₂
  refine congrArg Environment.mk (Array.ext h_size fun i h₁ h₂ => ?_)
  have h_i : slots₁[i]?.join = slots₂[i]?.join := h ⟨i⟩
  rw [Array.getElem?_eq_getElem h₁, Array.getElem?_eq_getElem h₂] at h_i
  exact h_i

/-- **What is left when some scopes are discarded:** a scope that was there, is not one of them and,
if it is in a later slot than one of them, does not lack the scope around it. -/
structure Leaves (e : Environment) (D : ScopeId → Prop) (e' : Environment) : Prop where
  size : e'.slots.size = e.slots.size
  same : ∀ t, e'.Live t → e'.scope? t = e.scope? t
  live : ∀ t, e'.Live t ↔ e.Live t ∧ ¬D t ∧
    ((∃ s, D s ∧ s.index < t.index) → ∀ p, e.parent? t = some p → e'.Live p)

namespace Leaves

variable {D D' : ScopeId → Prop}

theorem congr (h : e.Leaves D e') (h_D : ∀ t, D t ↔ D' t) : e.Leaves D' e' := by
  obtain rfl : D = D' := funext fun t => propext (h_D t)
  exact h

/-- All scopes are left when none is discarded. -/
theorem refl (e : Environment) : e.Leaves (fun _ => False) e where
  size := rfl
  same _ _ := rfl
  live t := by
    refine (and_iff_left ⟨id, ?_⟩).symm
    rintro ⟨_, ⟨⟩, _⟩

private theorem parent? (h : e.Leaves D e') {t : ScopeId} (h_t : e'.Live t) :
    e'.parent? t = e.parent? t :=
  parent?_congr (congrArg (Option.map Scope.parent) (h.same t h_t))

/-- **Discarding one more scope.** -/
theorem discard (ordered : e.Ordered) (h : e.Leaves D e') {s : ScopeId} (h_root : s ≠ root)
    (h_issued : e.Issued s) : e.Leaves (fun t => D t ∨ t = s) (e'.discard s) := by
  have ordered' : e'.Ordered := by
    refine ordered.of_scopes fun t scope h_scope => ?_
    rw [← h.same t (Option.isSome_iff_exists.2 ⟨scope, h_scope⟩), h_scope]
  have h_issued' : e'.Issued s := by
    unfold Issued
    rw [h.size]
    exact h_issued
  have h_step := live_discard_iff ordered' h_root h_issued'
  refine ⟨(size_discard e' s).trans h.size, fun t h_t => ?_, fun t => ⟨fun h_t => ?_, ?_⟩⟩
  · obtain ⟨scope, h_scope⟩ := Option.isSome_iff_exists.1 h_t
    calc (e'.discard s).scope? t
        = e'.scope? t := by rw [h_scope, scope?_of_discard h_scope]
      _ = e.scope? t := h.same t ((h_step t).1 h_t).1
  · obtain ⟨h_t', h_ne, h_around⟩ := (h_step t).1 h_t
    obtain ⟨h_t₀, h_D, h_around₀⟩ := (h.live t).1 h_t'
    refine ⟨h_t₀, not_or.2 ⟨h_D, h_ne⟩, ?_⟩
    rintro ⟨u, h_u, h_later⟩ p h_p
    by_cases h_s : s.index < t.index
    · exact h_around h_s p ((h.parent? h_t').trans h_p)
    · -- the scope around is in front of the one discarded last, where nothing changes
      obtain h_u | rfl := h_u
      · have h_lt : p.index < s.index := Nat.lt_of_lt_of_le (ordered t p h_p) (Nat.not_lt.1 h_s)
        refine (live_discard_of_lt ordered' h_root h_issued' h_lt).2 ?_
        exact h_around₀ ⟨u, h_u, h_later⟩ p h_p
      · exact absurd h_later h_s
  · rintro ⟨h_t₀, h_D, h_around⟩
    obtain ⟨h_D, h_ne⟩ := not_or.1 h_D
    -- what is left in the end was left before
    have h_t' : e'.Live t := by
      refine (h.live t).2 ⟨h_t₀, h_D, ?_⟩
      rintro ⟨u, h_u, h_later⟩ p h_p
      exact ((h_step p).1 (h_around ⟨u, .inl h_u, h_later⟩ p h_p)).1
    refine (h_step t).2 ⟨h_t', h_ne, fun h_later p h_p => ?_⟩
    exact h_around ⟨s, .inr rfl, h_later⟩ p ((h.parent? h_t').symm.trans h_p)

/-- **Discarding a list of scopes,** where the root and what never was do not count. -/
theorem foldl (ordered : e.Ordered) (h : e.Leaves D e') (scopes : List ScopeId) :
    e.Leaves (fun t => D t ∨ t ∈ scopes ∧ t ≠ root ∧ e.Issued t)
      (scopes.foldl Environment.discard e') := by
  induction scopes generalizing D e' with
  | nil => exact h.congr fun t => by simp
  | cons s scopes ih =>
    rw [List.foldl_cons]
    by_cases h_s : s ≠ root ∧ e.Issued s
    · refine (ih (h.discard ordered h_s.1 h_s.2)).congr fun t => ?_
      rw [List.mem_cons, or_assoc, or_and_right]
      exact or_congr_right (or_congr_left ⟨fun h_t => ⟨h_t, h_t ▸ h_s⟩, And.left⟩)
    · -- the root stays, and so does everything if there is no such scope
      have h_same : e'.discard s = e' := by
        refine discard_of_eq_root_or ?_
        unfold Issued
        rw [h.size, ← not_ne_iff, ← not_and_or]
        exact h_s
      rw [h_same]
      refine (ih h).congr fun t => or_congr_right (and_congr_left fun h_t => ?_)
      rw [List.mem_cons, or_iff_right]
      rintro rfl
      exact h_s h_t

/-- **There is one environment** in which the scopes are left that are left when some are discarded,
for the scopes around a scope are in earlier slots. -/
theorem unique (ordered : e.Ordered) (h₁ : e.Leaves D e₁) (h₂ : e.Leaves D e₂) : e₁ = e₂ := by
  -- by induction on the slot: what is around a scope is settled before it
  have h_live : ∀ t, e₁.Live t ↔ e₂.Live t := by
    rintro ⟨i⟩
    induction i using Nat.strongRecOn with
    | ind i ih =>
      rw [h₁.live, h₂.live]
      refine and_congr_right fun _ => and_congr_right fun _ => imp_congr_right fun _ => ?_
      exact forall₂_congr fun p h_p => ih p.index (ordered _ p h_p)
  have h_scope : ∀ t, e₁.scope? t = e₂.scope? t := by
    intro t
    by_cases h_t : e₂.Live t
    · rw [h₁.same t ((h_live t).2 h_t), h₂.same t h_t]
    · rw [not_live_iff.1 h_t, not_live_iff.1 (mt (h_live t).1 h_t)]
  exact ext_scope? (h₁.size.trans h₂.size.symm) h_scope

end Leaves

/-- **Neither the order nor the number of times matters** in which scopes are discarded. -/
theorem foldl_discard_congr (ordered : e.Ordered) {scopes scopes' : List ScopeId}
    (h : ∀ t, t ∈ scopes ↔ t ∈ scopes') :
    scopes.foldl discard e = scopes'.foldl discard e := by
  refine Leaves.unique ordered ((Leaves.refl e).foldl ordered scopes) ?_
  refine ((Leaves.refl e).foldl ordered scopes').congr fun t => ?_
  rw [h t]

/-! ### After any requests -/

/-- **Discarding takes away the right scopes.** After any requests that open scopes only inside such
as were opened before, discarding a scope that was opened empties its slot and the slots of the
scopes that fall with it, and leaves every other slot as it was. Where every scope has the one
around it, the scope goes with all that is inside it, and the others still have the ones around
them. -/
theorem perform_discards (requests : List Request) (h : OpensInside Issued initial requests)
    {s : ScopeId} (h_root : s ≠ root) (h_issued : (initial.perform requests).Issued s) :
    (initial.perform requests).Discards s :=
  discards (Arranged.initial.perform h) h_root h_issued

/-- A scope inside one that is gone, another inside that, and scopes in front of and behind them
that have nothing to do with them. -/
private def orphaned : List Request :=
  [.push root, .push ⟨1⟩, .discard ⟨1⟩, .push root, .push ⟨1⟩, .push ⟨4⟩, .push root]

private theorem opensInside_orphaned : OpensInside Issued initial orphaned := by
  refine ⟨?_, ?_, nofun, ?_, ?_, ?_, ?_, trivial⟩
  all_goals
    rintro _ ⟨⟩
    exact Nat.lt_of_sub_eq_succ rfl

/-- Scopes inside each other, with one beside them. -/
private def enclosed : List Request :=
  [.push root, .push ⟨1⟩, .push root, .push ⟨2⟩, .declare ⟨3⟩ "x" ⟨.null, false⟩]

private theorem opensInside_enclosed : OpensInside Live initial enclosed := by
  refine ⟨?_, ?_, ?_, ?_, nofun, trivial⟩
  all_goals
    rintro _ ⟨⟩
    rfl

/-- A scope that is discarded, one that falls with it although it is not inside it, and one that
does not; and, where every scope has the one around it, a scope that goes with what is inside it. -/
theorem perform_discards_of_orphaned :
    ((initial.perform orphaned).Discards ⟨3⟩ ∧ (initial.perform orphaned).Live ⟨5⟩ ∧
      ((initial.perform orphaned).discard ⟨3⟩).scope? ⟨5⟩ = none ∧
      ((initial.perform orphaned).discard ⟨3⟩).Live ⟨6⟩) ∧
    (initial.perform enclosed).Discards ⟨1⟩ ∧ (initial.perform enclosed).Anchored ∧
      ((initial.perform enclosed).discard ⟨1⟩).scope? ⟨4⟩ = none ∧
      ((initial.perform enclosed).discard ⟨1⟩).Live ⟨3⟩ := by
  have discards₁ : (initial.perform orphaned).Discards ⟨3⟩ :=
    perform_discards orphaned opensInside_orphaned (by decide) (Nat.lt_of_sub_eq_succ rfl)
  have discards₂ : (initial.perform enclosed).Discards ⟨1⟩ :=
    perform_discards enclosed (opensInside_enclosed.mono fun _ _ => Live.issued) (by decide)
      (Nat.lt_of_sub_eq_succ rfl)
  have anchored : (initial.perform enclosed).Anchored :=
    Anchored.initial.perform Arranged.initial opensInside_enclosed
  -- the way outwards comes to a scope that is gone, through one that is not
  have falls : (initial.perform orphaned).Falls ⟨3⟩ ⟨5⟩ :=
    .inr ⟨by decide, ⟨1⟩, .further (by decide) rfl (.further (by decide) rfl (.self _)), .inr rfl⟩
  have around : (initial.perform enclosed).Around ⟨4⟩ ⟨1⟩ :=
    .further rfl (.further rfl (.self _))
  exact ⟨⟨discards₁, rfl, (discards₁.gone ⟨5⟩ rfl).2 falls, rfl⟩,
    discards₂, anchored, (discards₂.inside anchored ⟨4⟩ rfl).2 around, rfl⟩

/-- **The order in which scopes are discarded does not matter,** and neither does discarding one
twice, after any requests that open scopes only inside such as were opened before. -/
theorem perform_discard_comm (requests : List Request) (h : OpensInside Issued initial requests)
    (s t : ScopeId) :
    ((initial.perform requests).discard s).discard t =
        ((initial.perform requests).discard t).discard s ∧
      ((initial.perform requests).discard s).discard s = (initial.perform requests).discard s := by
  have ordered : (initial.perform requests).Ordered := (Arranged.initial.perform h).ordered
  constructor
  · show [s, t].foldl discard _ = [t, s].foldl discard _
    refine foldl_discard_congr ordered fun u => ?_
    rw [List.mem_pair, List.mem_pair, or_comm]
  · show [s, s].foldl discard _ = [s].foldl discard _
    refine foldl_discard_congr ordered fun u => ?_
    rw [List.mem_pair, List.mem_singleton, or_self]

/-- Of two scopes, the one in front takes away what is inside a scope that is gone, and the one
behind does not; the order does not matter nevertheless. -/
theorem perform_discard_comm_of_orphaned :
    ((initial.perform orphaned).discard ⟨3⟩).scope? ⟨5⟩ = none ∧
      ((initial.perform orphaned).discard ⟨6⟩).Live ⟨5⟩ ∧
      ((initial.perform orphaned).discard ⟨3⟩).discard ⟨6⟩ =
        ((initial.perform orphaned).discard ⟨6⟩).discard ⟨3⟩ :=
  ⟨rfl, rfl, (perform_discard_comm orphaned opensInside_orphaned ⟨3⟩ ⟨6⟩).1⟩

end Environment

end ScriptLang
