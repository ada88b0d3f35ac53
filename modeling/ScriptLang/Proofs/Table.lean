import ScriptLang.Table

/-!
# Related tables

Two tables are related if they have the same keys and related values at each of them.

* `Table.Rel.insert` — related insertions keep tables related.
* `Table.Rel.map_eq` — related tables have the same image if related values have.
* `Table.get?_map` — a table with every value replaced by its image.
* `Table.mem_entries_iff` — the entries of a table are what its look-ups give.
* `Table.IsJoin` — a table in two parts that have no key in common.
-/

namespace ScriptLang.Table

variable {α β γ : Type}

/-- **Related tables:** the same keys, and related values at each of them. -/
def Rel (R : α → β → Prop) (t : Table α) (u : Table β) : Prop :=
  ∀ key, Option.Rel R (t.get? key) (u.get? key)

theorem rel_empty (R : α → β → Prop) : Rel R ∅ ∅ := fun _ => .none

theorem Rel.mono {R S : α → β → Prop} {t : Table α} {u : Table β} (h : t.Rel R u)
    (le : ∀ a b, R a b → S a b) : t.Rel S u := by
  intro key
  have h_key := h key
  generalize t.get? key = a at h_key ⊢
  generalize u.get? key = b at h_key ⊢
  cases h_key with
  | none => exact .none
  | some h_R => exact .some (le _ _ h_R)

theorem Rel.symm {R : α → β → Prop} {S : β → α → Prop} {t : Table α} {u : Table β} (h : t.Rel R u)
    (swap : ∀ a b, R a b → S b a) : u.Rel S t := by
  intro key
  have h_key := h key
  generalize t.get? key = a at h_key ⊢
  generalize u.get? key = b at h_key ⊢
  cases h_key with
  | none => exact .none
  | some h_R => exact .some (swap _ _ h_R)

/-- What is at a key of one table has its like in the other. -/
theorem Rel.exists_of_get? {R : α → β → Prop} {t : Table α} {u : Table β} (h : t.Rel R u)
    {key : String} {a : α} (h_a : t.get? key = some a) : ∃ b, u.get? key = some b ∧ R a b := by
  have h_key := h key
  rw [h_a] at h_key
  generalize u.get? key = b at h_key ⊢
  cases h_key with
  | some h_R => exact ⟨_, rfl, h_R⟩

/-- Related insertions keep tables related. -/
theorem Rel.insert {R : α → β → Prop} {t : Table α} {u : Table β} (h : t.Rel R u) (key : String)
    {a : α} {b : β} (h_R : R a b) : (t.insert key a).Rel R (u.insert key b) := by
  intro j
  rw [get?_insert, get?_insert]
  split
  · exact .some h_R
  · exact h j

/-- Related tables have the same keys. -/
theorem Rel.contains_eq {R : α → β → Prop} {t : Table α} {u : Table β} (h : t.Rel R u)
    (key : String) : t.contains key = u.contains key := by
  unfold contains
  have h_key := h key
  generalize t.get? key = a at h_key ⊢
  generalize u.get? key = b at h_key ⊢
  cases h_key <;> rfl

/-! ### Images -/

/-- The table with every value replaced by its image. -/
def map (f : α → γ) (t : Table α) : Table γ where
  entries := t.entries.map fun e => (e.1, f e.2)
  sorted := List.pairwise_map.2 t.sorted

theorem get?_map (f : α → γ) (t : Table α) (key : String) :
    (t.map f).get? key = (t.get? key).map f := by
  show (t.entries.map fun e => (e.1, f e.2)).lookup key = (t.entries.lookup key).map f
  induction t.entries with
  | nil => rfl
  | cons e es ih =>
    rw [List.map_cons, lookup_cons, lookup_cons, ih]
    split <;> rfl

/-- Tables of values that are related only if they are equal. -/
theorem Rel.eq {R : α → α → Prop} {t u : Table α} (h : t.Rel R u)
    (h_R : ∀ a b, R a b → a = b) : t = u := by
  refine ext_get? fun key => ?_
  have h_key := h key
  generalize t.get? key = a at h_key ⊢
  generalize u.get? key = b at h_key ⊢
  cases h_key with
  | none => rfl
  | some h_ab => rw [h_R _ _ h_ab]

/-- **Related tables have the same image** if related values have. -/
theorem Rel.map_eq {R : α → β → Prop} {t : Table α} {u : Table β} (h : t.Rel R u) {f : α → γ}
    {g : β → γ} (h_R : ∀ key a b, t.get? key = some a → R a b → f a = g b) :
    t.map f = u.map g := by
  refine Rel.eq (R := fun c d => c = d) (fun key => ?_) fun _ _ h_eq => h_eq
  rw [get?_map, get?_map]
  cases h_a : t.get? key with
  | none =>
    have h_key := h key
    rw [h_a] at h_key
    generalize u.get? key = b at h_key ⊢
    cases h_key
    exact .none
  | some a =>
    obtain ⟨b, h_b, h_ab⟩ := h.exists_of_get? h_a
    rw [h_b]
    exact .some (h_R key a b h_a h_ab)

/-- What is at a key is one of the entries. -/
theorem mem_entries_of_get? {t : Table α} {key : String} {a : α} (h : t.get? key = some a) :
    (key, a) ∈ t.entries := mem_of_lookup h

/-- **The entries are what is at the keys:** no key has more than one. -/
theorem mem_entries_iff {t : Table α} {key : String} {a : α} :
    (key, a) ∈ t.entries ↔ t.get? key = some a := by
  refine ⟨fun h => ?_, mem_entries_of_get?⟩
  obtain ⟨before, after, h_entries⟩ := List.append_of_mem h
  have h_sorted := t.sorted
  rw [h_entries, List.pairwise_append] at h_sorted
  -- the keys in front of it come before it, so none of them is the same
  have h_before : ∀ e ∈ before, (key != e.1) = true := by
    intro e h_e
    have h_lt : e.1 < key := h_sorted.2.2 e h_e (key, a) List.mem_cons_self
    rw [bne_iff_ne]
    rintro rfl
    exact String.lt_irrefl _ h_lt
  exact List.lookup_eq_some_iff.2 ⟨before, after, h_entries, h_before⟩

/-! ### Tables in two parts -/

/-- **A table in two parts** that have no key in common. -/
structure IsJoin (t u w : Table α) : Prop where
  get? : ∀ key, t.get? key = (u.get? key).or (w.get? key)
  disjoint : ∀ key, u.get? key = none ∨ w.get? key = none

namespace IsJoin

variable {t u w : Table α}

theorem empty (t : Table α) : t.IsJoin t ∅ where
  get? _ := (Option.or_none ..).symm
  disjoint _ := .inr rfl

/-- What is inserted into the first part and into the whole must not be in the second part. -/
theorem insert_left (h : t.IsJoin u w) {key : String} (h_w : w.get? key = none) (a : α) :
    (t.insert key a).IsJoin (u.insert key a) w where
  get? j := by
    rw [get?_insert, get?_insert]
    split
    · rfl
    · exact h.get? j
  disjoint j := by
    rw [get?_insert]
    split
    · next h_j => exact .inr (h_j ▸ h_w)
    · exact h.disjoint j

/-- What is inserted into the second part and into the whole must not be in the first part. -/
theorem insert_right (h : t.IsJoin u w) {key : String} (h_u : u.get? key = none) (a : α) :
    (t.insert key a).IsJoin u (w.insert key a) where
  get? j := by
    rw [get?_insert, get?_insert]
    split
    · next h_j => rw [h_j, h_u, Option.none_or]
    · exact h.get? j
  disjoint j := by
    rw [get?_insert]
    split
    · next h_j => exact .inl (h_j ▸ h_u)
    · exact h.disjoint j

end IsJoin

end ScriptLang.Table
