import Mathlib.Logic.Relator
import ScriptLang.Evaluation.Operators
import ScriptLang.Heap.Shape
import ScriptLang.Proofs.Table

/-!
# Objects by other names

Which identity an object was given means nothing to a program. Two heaps may hold the same objects
under different identities, beside any others that only one of them has. A `Renaming` says which
object of one heap is which of the other; related values are then the same value up to renaming, and
nothing that is computed from values tells them apart.

* `Heap.Alike.shape_eq`, `Heap.Alike.text_eq` — related values have the same shape and text.
* `Heap.Alike.set`, `Heap.Alike.create` — related changes keep heaps alike; a new object on both
  sides extends the renaming.
* `Value.Rel.apply?_eq`, `Value.Rel.apply_eq` — comparators and operators on related values.
-/

namespace ScriptLang

/-- Which object of one heap is which object of another. -/
abbrev Renaming := ObjectId → ObjectId → Prop

/-- **Values that are the same up to renaming.** -/
inductive Value.Rel (β : Renaming) : Value → Value → Prop where
  | plain {v : Value} (h : ∀ o, v ≠ .object o) : Rel β v v
  | object {o₁ o₂ : ObjectId} (h : β o₁ o₂) : Rel β (.object o₁) (.object o₂)

theorem Value.Rel.mono {β β' : Renaming} {v₁ v₂ : Value} (h : v₁.Rel β v₂)
    (le : ∀ o₁ o₂, β o₁ o₂ → β' o₁ o₂) : v₁.Rel β' v₂ := by
  cases h with
  | plain h_plain => exact .plain h_plain
  | object h_objects => exact .object (le _ _ h_objects)

/-- The renaming read the other way. -/
def Renaming.swap (β : Renaming) : Renaming := fun o₂ o₁ => β o₁ o₂

theorem Value.Rel.symm {β : Renaming} {v₁ v₂ : Value} (h : v₁.Rel β v₂) : v₂.Rel β.swap v₁ := by
  cases h with
  | plain h_plain => exact .plain h_plain
  | object h_objects => exact .object h_objects

/-- Related objects are related by the renaming itself. -/
theorem Value.Rel.objects {β : Renaming} {o₁ o₂ : ObjectId}
    (h : Value.Rel β (.object o₁) (.object o₂)) : β o₁ o₂ := by
  cases h with
  | plain h_plain => exact absurd rfl (h_plain o₁)
  | object h_objects => exact h_objects

/-- **Heaps that are the same up to renaming,** as far as the renaming goes. -/
structure Heap.Alike (β : Renaming) (h₁ h₂ : Heap) : Prop where
  oneToOne : Relator.BiUnique β
  exist : ∀ {o₁ o₂}, β o₁ o₂ → o₁.index < h₁.size ∧ o₂.index < h₂.size
  fields : ∀ {o₁ o₂}, β o₁ o₂ → (h₁.fields o₁).Rel (Value.Rel β) (h₂.fields o₂)

namespace Heap.Alike

variable {β : Renaming} {h₁ h₂ : Heap}

theorem symm (alike : Alike β h₁ h₂) : Alike β.swap h₂ h₁ where
  oneToOne := ⟨fun _ _ _ h h' => alike.oneToOne.2 h h', fun _ _ _ h h' => alike.oneToOne.1 h h'⟩
  exist h := (alike.exist h).symm
  fields h := (alike.fields h).symm fun _ _ h_v => h_v.symm

/-! ### Shapes and texts -/

/-- **Related values have the same shape,** inside related objects. -/
theorem shape_eq (alike : Alike β h₁ h₂) {path₁ path₂ : List ObjectId}
    (paths : ∀ o₁ o₂, β o₁ o₂ → (o₁ ∈ path₁ ↔ o₂ ∈ path₂)) {v₁ v₂ : Value}
    (h : v₁.Rel β v₂) : h₁.shape path₁ v₁ = h₂.shape path₂ v₂ := by
  -- the induction goes the way the left value is unfolded
  fun_induction h₁.shape path₁ v₁ generalizing path₂ v₂ with
  | case1 | case2 | case3 | case4 =>
    cases h
    rw [shape]
  | case5 path₁ o₁ h_mem =>
    cases h with
    | plain h_plain => exact absurd rfl (h_plain o₁)
    | @object _ o₂ h_o => rw [shape_object, if_pos ((paths o₁ o₂ h_o).1 h_mem)]
  | case6 path₁ o₁ h_mem ih =>
    cases h with
    | plain h_plain => exact absurd rfl (h_plain o₁)
    | @object _ o₂ h_o =>
      -- the objects around are still related when the two have joined them
      have paths' : ∀ a₁ a₂, β a₁ a₂ → (a₁ ∈ o₁ :: path₁ ↔ a₂ ∈ o₂ :: path₂) := by
        intro a₁ a₂ h_a
        have h_head : a₁ = o₁ ↔ a₂ = o₂ := by
          constructor
          · rintro rfl
            exact alike.oneToOne.2 h_a h_o
          · rintro rfl
            exact alike.oneToOne.1 h_a h_o
        rw [List.mem_cons, List.mem_cons, h_head, paths a₁ a₂ h_a]
      have h_tables : (h₁.fields o₁).map (h₁.shape (o₁ :: path₁)) =
          (h₂.fields o₂).map (h₂.shape (o₂ :: path₂)) := by
        refine (alike.fields h_o).map_eq fun key a₁ a₂ h_left h_values => ?_
        exact ih ⟨(key, a₁), Table.mem_entries_of_get? h_left⟩ paths' h_values
      rw [shape_object, if_neg (fun h_mem₂ => h_mem ((paths o₁ o₂ h_o).2 h_mem₂))]
      simp only [List.map_attach_eq_pmap, List.pmap_eq_map]
      exact congrArg Shape.object (congrArg Table.entries h_tables)

/-- **Related values have the same text.** -/
theorem text_eq (alike : Alike β h₁ h₂) {v₁ v₂ : Value} (h : v₁.Rel β v₂) :
    h₁.text v₁ = h₂.text v₂ := by
  have h_shape : h₁.shape [] v₁ = h₂.shape [] v₂ := alike.shape_eq (fun _ _ _ => by simp) h
  cases h with
  | object h_o => exact congrArg Shape.text h_shape
  | plain h_plain =>
    cases v₁ with
    -- strings on their own are not quoted, so their text is not that of their shape
    | string s => rfl
    | object o => exact absurd rfl (h_plain o)
    | null | boolean | number => exact congrArg Shape.text h_shape

/-! ### Changes -/

/-- Writing related values to related objects. -/
theorem set (alike : Alike β h₁ h₂) {o₁ o₂ : ObjectId} (h_o : β o₁ o₂) (property : String)
    {v₁ v₂ : Value} (h : v₁.Rel β v₂) :
    Alike β (h₁.set o₁ property v₁) (h₂.set o₂ property v₂) where
  oneToOne := alike.oneToOne
  exist h_a := by
    rw [size_set, size_set]
    exact alike.exist h_a
  fields {a₁ a₂} h_a := by
    obtain ⟨h_one, h_two⟩ := alike.exist h_o
    rw [fields_set, fields_set]
    -- since the renaming is one to one, both objects are written to or neither is
    by_cases h_eq : a₁ = o₁
    · have h_eq' : a₂ = o₂ := by
        rw [h_eq] at h_a
        exact alike.oneToOne.2 h_a h_o
      rw [if_pos ⟨h_eq, h_one⟩, if_pos ⟨h_eq', h_two⟩]
      exact (alike.fields h_o).insert property h
    · have h_ne : a₂ ≠ o₂ := by
        rintro rfl
        exact h_eq (alike.oneToOne.1 h_a h_o)
      rw [if_neg (fun h => h_eq h.1), if_neg (fun h => h_ne h.1)]
      exact alike.fields h_a

end Heap.Alike

/-- A renaming with the next objects of two heaps added to it. -/
def Renaming.extend (β : Renaming) (h₁ h₂ : Heap) : Renaming := fun o₁ o₂ =>
  β o₁ o₂ ∨ o₁ = h₁.nextId ∧ o₂ = h₂.nextId

/-- **Creating related objects** extends the renaming by them. Neither is in it before, since it
speaks only of objects that exist. -/
theorem Heap.Alike.create {β : Renaming} {h₁ h₂ : Heap} (alike : Alike β h₁ h₂)
    {t₁ t₂ : Table Value} (h : t₁.Rel (Value.Rel β) t₂) :
    Alike (β.extend h₁ h₂) (h₁.create t₁) (h₂.create t₂) := by
  have fresh₁ : ∀ o₂, ¬β h₁.nextId o₂ := fun o₂ h_o =>
    Nat.lt_irrefl _ (alike.exist h_o).1
  have fresh₂ : ∀ o₁, ¬β o₁ h₂.nextId := fun o₁ h_o =>
    Nat.lt_irrefl _ (alike.exist h_o).2
  have le : ∀ o₁ o₂, β o₁ o₂ → β.extend h₁ h₂ o₁ o₂ := fun _ _ => .inl
  constructor
  · -- an old pair and the new one have no object in common
    constructor
    · rintro a₁ a₂ b (h_a | ⟨rfl, h_a⟩) (h_b | ⟨rfl, h_b⟩)
      · exact alike.oneToOne.1 h_a h_b
      · rw [h_b] at h_a
        exact absurd h_a (fresh₂ a₁)
      · rw [h_a] at h_b
        exact absurd h_b (fresh₂ a₂)
      · rfl
    · rintro a b₁ b₂ (h_a | ⟨h_a, rfl⟩) (h_b | ⟨h_b, rfl⟩)
      · exact alike.oneToOne.2 h_a h_b
      · rw [h_b] at h_a
        exact absurd h_a (fresh₁ b₁)
      · rw [h_a] at h_b
        exact absurd h_b (fresh₁ b₂)
      · rfl
  · intro o₁ o₂ h_o
    rw [size_create, size_create]
    rcases h_o with h_o | ⟨rfl, rfl⟩
    · obtain ⟨h_one, h_two⟩ := alike.exist h_o
      exact ⟨Nat.lt_succ_of_lt h_one, Nat.lt_succ_of_lt h_two⟩
    · exact ⟨Nat.lt_succ_self _, Nat.lt_succ_self _⟩
  · intro o₁ o₂ h_o
    rw [fields_create, fields_create]
    rcases h_o with h_o | ⟨rfl, rfl⟩
    · have h_one : o₁ ≠ h₁.nextId := by
        rintro rfl
        exact fresh₁ o₂ h_o
      have h_two : o₂ ≠ h₂.nextId := by
        rintro rfl
        exact fresh₂ o₁ h_o
      rw [if_neg h_one, if_neg h_two]
      exact (alike.fields h_o).mono fun _ _ h_v => h_v.mono le
    · rw [if_pos rfl, if_pos rfl]
      exact h.mono fun _ _ h_v => h_v.mono le

/-! ### Operators -/

namespace Value.Rel

variable {β : Renaming} {a₁ a₂ b₁ b₂ : Value}

/-- Related values are equal to related values alike. -/
theorem beq_eq (oneToOne : Relator.BiUnique β) (h_a : a₁.Rel β a₂) (h_b : b₁.Rel β b₂) :
    (a₁ == b₁) = (a₂ == b₂) := by
  cases h_a with
  | plain h_plain =>
    cases h_b with
    | plain _ => rfl
    | object _ => rw [beq_eq_false_iff_ne.2 (h_plain _), beq_eq_false_iff_ne.2 (h_plain _)]
  | @object o₁ o₂ h_o =>
    cases h_b with
    | plain h_plain =>
      rw [beq_eq_false_iff_ne.2 (h_plain _).symm, beq_eq_false_iff_ne.2 (h_plain _).symm]
    | @object p₁ p₂ h_p =>
      have h_iff : o₁ = p₁ ↔ o₂ = p₂ := by
        constructor
        · rintro rfl
          exact oneToOne.2 h_o h_p
        · rintro rfl
          exact oneToOne.1 h_o h_p
      show decide (Value.object o₁ = .object p₁) = decide (Value.object o₂ = .object p₂)
      rw [decide_eq_decide, Value.object.injEq, Value.object.injEq, h_iff]

/-- Related values are ordered alike. -/
theorem order?_eq (h_a : a₁.Rel β a₂) (h_b : b₁.Rel β b₂) : a₁.order? b₁ = a₂.order? b₂ := by
  cases h_a with
  | object _ => rfl
  | plain _ =>
    cases h_b with
    | plain _ => rfl
    | object _ => cases a₁ <;> rfl

/-- **Comparators tell related values apart from nothing.** -/
theorem apply?_eq (oneToOne : Relator.BiUnique β) (c : Comparator) (h_a : a₁.Rel β a₂)
    (h_b : b₁.Rel β b₂) : c.apply? a₁ b₁ = c.apply? a₂ b₂ := by
  cases c with
  | equal => exact congrArg some (beq_eq oneToOne h_a h_b)
  | notEqual => exact congrArg (fun b => some (!b)) (beq_eq oneToOne h_a h_b)
  | less | lessEqual | greater | greaterEqual =>
    exact congrArg (Option.map _) (order?_eq h_a h_b)

/-- Operators have no meaning for objects. -/
private theorem apply_object_left (o : Operator) (a : ObjectId) (b : Value) :
    o.apply (.object a) b = .ok .null := by
  cases o <;> rfl

private theorem apply_object_right (o : Operator) (a : Value) (b : ObjectId) :
    o.apply a (.object b) = .ok .null := by
  cases o <;> cases a <;> rfl

/-- **Operators do the same with related values.** -/
theorem apply_eq (o : Operator) (h_a : a₁.Rel β a₂) (h_b : b₁.Rel β b₂) :
    o.apply a₁ b₁ = o.apply a₂ b₂ := by
  cases h_a with
  | object _ => rw [apply_object_left, apply_object_left]
  | plain _ =>
    cases h_b with
    | object _ => rw [apply_object_right, apply_object_right]
    | plain _ => rfl

end Value.Rel

/-- **What an operator gives is no object.** -/
theorem Operator.apply_ne_object {o : Operator} {a b v : Value} (h : o.apply a b = .ok v) :
    ∀ i, v ≠ .object i := by
  rintro i rfl
  -- each rule gives a number, a string, `null` or an error, some of them after a choice
  rw [Operator.apply.eq_def] at h
  split at h
  case h_4 | h_5 => split at h <;> cases h
  case h_7 s n =>
    cases h_repeat : repeatText s n <;> rw [h_repeat] at h <;> cases h
  all_goals cases h

end ScriptLang
