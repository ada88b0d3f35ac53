import ScriptLang.Table
import ScriptLang.Value

/-!
# Objects

The `Heap` holds the properties of every object that was ever created, in the order of creation.
Objects are never removed, so an identity once given out stays valid.

* `Heap.fields_set` and `Heap.fields_create` — what the two ways to change a heap do to the
  properties of every object.
-/

namespace ScriptLang

/-- The objects and their properties. -/
structure Heap where
  objects : Array (Table Value)

namespace Heap

/-- The heap without objects. -/
def empty : Heap := ⟨#[]⟩

/-- How many objects there are. -/
def size (h : Heap) : Nat := h.objects.size

/-- The properties of an object; an identity that was never given out has none. -/
def fields (h : Heap) (o : ObjectId) : Table Value := h.objects[o.index]?.getD ∅

/-- The heap with one more object. -/
def create (h : Heap) (fields : Table Value) : Heap := ⟨h.objects.push fields⟩

/-- The identity of the object that is created next. -/
def nextId (h : Heap) : ObjectId := ⟨h.objects.size⟩

/-- Writes a property of an object, which gains the property if it did not have it. -/
def set (h : Heap) (o : ObjectId) (property : String) (value : Value) : Heap :=
  ⟨h.objects.modify o.index (·.insert property value)⟩

@[simp] theorem size_create (h : Heap) (t : Table Value) : (h.create t).size = h.size + 1 := by
  simp [create, size]

@[simp] theorem size_set (h : Heap) (o : ObjectId) (p : String) (v : Value) :
    (h.set o p v).size = h.size := by
  simp [set, size]

/-- Only an object that was created has properties. -/
theorem index_lt_size {h : Heap} {o : ObjectId} (e : (h.fields o).entries ≠ []) :
    o.index < h.size := by
  refine Nat.lt_of_not_le fun le => e ?_
  rw [fields, Array.getElem?_eq_none le]
  rfl

/-- A new object has the properties it was created with, and no other object changes. -/
theorem fields_create (h : Heap) (t : Table Value) (o : ObjectId) :
    (h.create t).fields o = if o = h.nextId then t else h.fields o := by
  obtain ⟨i⟩ := o
  simp only [create, fields, nextId, Array.getElem?_push, ObjectId.mk.injEq]
  split <;> simp

/-- Writing a property changes it in the object written to, and no other object changes. -/
theorem fields_set (h : Heap) (o : ObjectId) (p : String) (v : Value) (o' : ObjectId) :
    (h.set o p v).fields o' =
      if o' = o ∧ o.index < h.size then (h.fields o).insert p v else h.fields o' := by
  obtain ⟨i⟩ := o
  obtain ⟨j⟩ := o'
  simp only [set, fields, size, Array.getElem?_modify, ObjectId.mk.injEq]
  by_cases hij : i = j
  · subst hij
    by_cases hi : i < h.objects.size <;> simp [hi]
  · simp [hij, Ne.symm hij]

end Heap

end ScriptLang
