import ScriptLang.Proofs.Evaluation.Invariant
import ScriptLang.Proofs.Evaluation.Law
import ScriptLang.Proofs.Heap.Unfolding
import ScriptLang.Proofs.Session.Reachable

/-!
# The last write to each key

Objects come about by literals and are changed by writing their properties, any of them any number
of times and in any order, with other objects being created and changed in between. Of all this an
object shows the last value that was written to each key, and nothing else: neither which values a
key had before, nor in which order keys were written first. It shows them by increasing keys.

* `Table.insertAll`, `lastWrite` — several writes one after the other, and the last one to a key.
* `Heap.Change`, `Heap.writesTo` — what is done to the objects of a heap, and which of it is done to
  one of them.
* `Heap.get?_fields_perform` — a key has the value that was written to it last.
* `eval_object_eq_ok` — a literal writes its properties in order.
* `Heap.Shows` — an object shows values at its keys, in look-ups and in both of its texts.
* `observed_by_last_writes` — objects with the same last writes are told apart by nothing but their
  identity.
-/

namespace ScriptLang

/-! ### Writes -/

/-- The value that was written last to a key. -/
def lastWrite {α : Type} (key : String) (writes : List (String × α)) : Option α :=
  writes.reverse.lookup key

section Writes

variable {α : Type}

/-- Of two rows of writes the second one decides, if it writes to the key. -/
theorem lastWrite_append (key : String) (first second : List (String × α)) :
    lastWrite key (first ++ second) = (lastWrite key second).or (lastWrite key first) := by
  rw [lastWrite, List.reverse_append, List.lookup_append]
  rfl

theorem lastWrite_singleton (key : String) (write : String × α) :
    lastWrite key [write] = if key = write.1 then some write.2 else none :=
  Table.lookup_cons key write []

/-- What was written last was written. -/
theorem mem_of_lastWrite {key : String} {a : α} {writes : List (String × α)}
    (h : lastWrite key writes = some a) : (key, a) ∈ writes :=
  List.mem_reverse.1 (Table.mem_of_lookup h)

namespace Table

/-- **Several writes** to a table, one after the other. -/
def insertAll (t : Table α) (writes : List (String × α)) : Table α :=
  writes.foldl (fun t write => t.insert write.1 write.2) t

/-- **A key has the value that was written last,** or the one that it had if none was. -/
theorem get?_insertAll (t : Table α) (writes : List (String × α)) (key : String) :
    (t.insertAll writes).get? key = (lastWrite key writes).or (t.get? key) := by
  induction writes generalizing t with
  | nil => rfl
  | cons write writes ih =>
    -- the first write decides only where no later one does
    rw [← List.singleton_append, lastWrite_append, lastWrite_singleton, Option.or_assoc]
    show ((t.insert write.1 write.2).insertAll writes).get? key = _
    rw [ih, get?_insert]
    split <;> rfl

/-- The entries of a table, written one after the other, make it up. -/
theorem insertAll_entries (t : Table α) : insertAll ∅ t.entries = t := by
  refine ext_get? fun key => ?_
  rw [get?_insertAll, get?_empty, Option.or_none]
  cases h_key : t.get? key with
  | none =>
    rw [Option.eq_none_iff_forall_ne_some]
    intro a h_a
    rw [mem_entries_iff.1 (mem_of_lastWrite h_a)] at h_key
    cases h_key
  | some a =>
    -- the key is written to, and by no other entry
    have h_mem : (key, a) ∈ t.entries.reverse := List.mem_reverse.2 (mem_entries_iff.2 h_key)
    cases h_last : lastWrite key t.entries with
    | none =>
      have h_none := List.lookup_eq_none_iff.1 h_last (key, a) h_mem
      simp at h_none
    | some b =>
      rw [← h_key]
      exact (mem_entries_iff.1 (mem_of_lastWrite h_last)).symm

end Table

end Writes

/-! ### Changes to the objects of a heap -/

namespace Heap

/-- **What is done to objects:** one more is created by a literal, with properties that have the
given values, in order and perhaps of the same key; or a property of one is written. -/
inductive Change where
  | create (properties : List (String × Value))
  | set (o : ObjectId) (property : String) (v : Value)

/-- The heap after a change. -/
def apply (h : Heap) : Change → Heap
  | .create properties => h.create (Table.insertAll ∅ properties)
  | .set o property v => h.set o property v

/-- The heap after several changes. -/
def perform (h : Heap) (changes : List Change) : Heap := changes.foldl apply h

/-- What is written to an object, by changes to a heap that has so many objects: the properties of
the literal that creates it, and what is written to it once it exists. -/
def writesFrom (o : ObjectId) : Nat → List Change → List (String × Value)
  | _, [] => []
  | size, .create properties :: changes =>
    (if o.index = size then properties else []) ++ writesFrom o (size + 1) changes
  | size, .set o' property v :: changes =>
    (if o' = o ∧ o.index < size then [(property, v)] else []) ++ writesFrom o size changes

/-- **All that is ever written to an object,** in order. -/
def writesTo (o : ObjectId) (changes : List Change) : List (String × Value) :=
  writesFrom o 0 changes

/-- **A key of an object has the value that was written to it last,** or the one that it had before
all changes. -/
theorem get?_fields_perform (h : Heap) (o : ObjectId) (changes : List Change) (key : String) :
    ((h.perform changes).fields o).get? key =
      (lastWrite key (writesFrom o h.size changes)).or ((h.fields o).get? key) := by
  induction changes generalizing h with
  | nil => rfl
  | cons change changes ih =>
    show (((h.apply change).perform changes).fields o).get? key = _
    rw [ih]
    cases change with
    | create properties =>
      rw [apply, size_create, writesFrom, lastWrite_append, Option.or_assoc, fields_create]
      congr 1
      by_cases h_o : o.index = h.size
      · -- the object is new, so nothing was written to it before
        have h_new : o = h.nextId := by
          obtain ⟨i⟩ := o
          exact congrArg ObjectId.mk h_o
        have h_none : (h.fields o).get? key = none := by
          rw [fields, Array.getElem?_eq_none (Nat.le_of_eq h_o.symm)]
          rfl
        rw [if_pos h_new, if_pos h_o, h_none, Table.get?_insertAll, Table.get?_empty]
      · have h_old : o ≠ h.nextId := by
          rintro rfl
          exact h_o rfl
        rw [if_neg h_old, if_neg h_o]
        rfl
    | set o' property v =>
      rw [apply, size_set, writesFrom, lastWrite_append, Option.or_assoc, fields_set]
      congr 1
      by_cases h_o : o = o' ∧ o'.index < h.size
      · obtain ⟨rfl, h_index⟩ := h_o
        rw [if_pos ⟨rfl, h_index⟩, if_pos ⟨rfl, h_index⟩, Table.get?_insert, lastWrite_singleton]
        split <;> rfl
      · have h_o' : ¬(o' = o ∧ o.index < h.size) := by
          rintro ⟨rfl, h_index⟩
          exact h_o ⟨rfl, h_index⟩
        rw [if_neg h_o, if_neg h_o']
        rfl

theorem perform_append (h : Heap) (first second : List Change) :
    h.perform (first ++ second) = (h.perform first).perform second :=
  List.foldl_append

end Heap

/-! ### What programs do to objects -/

/-- **The properties of a literal are evaluated** one after the other, to the values that are
written. -/
inductive Evaluated (s : ScopeId) :
    List (String × Expr) → Machine → List (String × Value) → Machine → Prop where
  | nil (m) : Evaluated s [] m [] m
  | cons {key e properties m v m₁ writes m₂} (value : eval s e m = .ok v m₁)
      (rest : Evaluated s properties m₁ writes m₂) :
      Evaluated s ((key, e) :: properties) m ((key, v) :: writes) m₂

/-- Properties that are evaluated are written to the table that was there. -/
theorem evalProperties_eq_ok {s : ScopeId} {properties : List (String × Expr)}
    {fields fields' : Table Value} {m m' : Machine} :
    evalProperties s fields properties m = .ok fields' m' ↔
      ∃ writes, Evaluated s properties m writes m' ∧ fields' = fields.insertAll writes := by
  induction properties generalizing fields m with
  | nil =>
    rw [evalProperties]
    constructor
    · rintro ⟨⟩
      exact ⟨[], .nil _, rfl⟩
    · rintro ⟨_, ⟨⟩, rfl⟩
      rfl
  | cons p properties ih =>
    obtain ⟨key, e⟩ := p
    rw [evalProperties, bind_apply_eq_ok]
    constructor
    · rintro ⟨v, m₁, value, h_rest⟩
      obtain ⟨writes, rest, rfl⟩ := ih.1 h_rest
      exact ⟨(key, v) :: writes, .cons value rest, rfl⟩
    · rintro ⟨_, evaluated, rfl⟩
      cases evaluated with
      | @cons _ _ _ _ v m₁ writes _ value rest => exact ⟨v, m₁, value, ih.2 ⟨writes, rest, rfl⟩⟩

/-- **A literal** creates an object with the values of its properties written in order. -/
theorem eval_object_eq_ok {s : ScopeId} {properties : List (String × Expr)} {m m' : Machine}
    {v : Value} :
    eval s (.object properties) m = .ok v m' ↔
      ∃ writes m₁, Evaluated s properties m writes m₁ ∧ v = .object m₁.heap.nextId ∧
        m' = { m₁ with heap := m₁.heap.apply (.create writes) } := by
  rw [eval, bind_apply_eq_ok]
  constructor
  · rintro ⟨fields, m₁, h_properties, ⟨⟩⟩
    obtain ⟨writes, evaluated, rfl⟩ := evalProperties_eq_ok.1 h_properties
    exact ⟨writes, m₁, evaluated, rfl, rfl⟩
  · rintro ⟨writes, m₁, evaluated, rfl, rfl⟩
    exact ⟨_, m₁, evalProperties_eq_ok.2 ⟨writes, evaluated, rfl⟩, rfl⟩

/-- **An assignment to a member** writes the property of the object that the base gave. -/
theorem eval_assign_member_eq_ok {s : ScopeId} {base e : Expr} {property : String} {m m' : Machine}
    {v : Value} :
    eval s (.assign (.member base property) e) m = .ok v m' ↔
      ∃ o m₁ m₂, eval s base m = .ok (.object o) m₁ ∧ eval s e m₁ = .ok v m₂ ∧
        m' = { m₂ with heap := m₂.heap.apply (.set o property v) } := by
  rw [eval]
  constructor
  · intro h
    obtain ⟨b, m₁, h_base, h⟩ := bind_apply_eq_ok.1 h
    obtain ⟨o, _, h_object, h⟩ := bind_apply_eq_ok.1 h
    cases b with
    | null | boolean | number | string => cases h_object
    | object o' =>
      cases h_object
      obtain ⟨v', m₂, h_value, h⟩ := bind_apply_eq_ok.1 h
      cases h
      exact ⟨o, m₁, m₂, h_base, h_value, rfl⟩
  · rintro ⟨o, m₁, m₂, h_base, h_value, rfl⟩
    -- the base, the object that it is, and the new value
    refine bind_apply_eq_ok.2 ⟨_, m₁, h_base, ?_⟩
    refine bind_apply_eq_ok.2 ⟨o, m₁, rfl, ?_⟩
    exact bind_apply_eq_ok.2 ⟨v, m₂, h_value, rfl⟩

/-! ### Histories -/

namespace Heap

/-- **The objects of a heap came about by changes** to those of another one. -/
def Becomes (h h' : Heap) : Prop := ∃ changes, h' = h.perform changes

theorem Becomes.refl (h : Heap) : h.Becomes h := ⟨[], rfl⟩

theorem Becomes.trans {h h' h'' : Heap} (first : h.Becomes h') (second : h'.Becomes h'') :
    h.Becomes h'' := by
  obtain ⟨changes, rfl⟩ := first
  obtain ⟨changes', rfl⟩ := second
  exact ⟨changes ++ changes', (h.perform_append changes changes').symm⟩

theorem Becomes.apply {h h' : Heap} (becomes : h.Becomes h') (change : Change) :
    h.Becomes (h'.apply change) := becomes.trans ⟨[change], rfl⟩

/-- An object that is created with a table is created with its entries. -/
theorem Becomes.create {h h' : Heap} (becomes : h.Becomes h') (fields : Table Value) :
    h.Becomes (h'.create fields) := by
  have h_apply := becomes.apply (.create fields.entries)
  rw [Heap.apply, Table.insertAll_entries] at h_apply
  exact h_apply

end Heap

namespace History

variable (s : ScopeId) (h : Heap)

/-- The objects came about by changes to those of the given heap. -/
private def invariant : Invariant s where
  Machines m := h.Becomes m.heap
  Values _ := True
  plain _ _ := trivial
  lookup _ _ _ _ _ := trivial
  create _ fields becomes _ := ⟨becomes.create fields, trivial⟩
  getProperty _ _ _ _ _ _ _ := trivial

private theorem assignments : (invariant s h).Assignments where
  assign _ _ _ _ becomes _ _ := becomes
  setProperty _ o property v becomes _ _ := becomes.apply (.set o property v)

private theorem statements : (invariant s h).Statements where
  declare _ _ _ _ _ becomes _ _ := becomes
  write _ _ becomes := becomes

end History

/-- **All that a program does to objects** is to create some and to write properties, wherever it
stops. -/
theorem run_becomes (s : ScopeId) (p : Program) (m : Machine) :
    m.heap.Becomes (finalMachine (run s p m)).heap :=
  ((History.statements s m.heap).run (.inr (History.assignments s m.heap)) m
    (.refl m.heap)).machine

/-- **The objects of a reachable state** came about by changes, from no objects at all. -/
theorem Session.Reachable.becomes {t : Session} (reachable : t.Reachable) :
    Heap.empty.Becomes t.heap := by
  induction reachable with
  | start capacity => exact .refl _
  | @ran t i s p v m _ h_run ih =>
    have h_becomes := run_becomes s p (t.machine i)
    rw [h_run] at h_becomes
    exact ih.trans h_becomes
  | @stopped t i s p e m _ h_run ih =>
    have h_becomes := run_becomes s p (t.machine i)
    rw [h_run] at h_becomes
    exact ih.trans h_becomes
  | child | discard | clone => assumption
  | created _ fields _ ih => exact ih.create fields
  | changed _ o property _ ih => exact ih.apply (.set o property _)

/-! ### What objects show -/

theorem Shape.fieldDetails_eq (fields : List (String × Shape)) :
    fieldDetails fields =
      fields.map fun f => Escaped.quoted '"' f.1.toList ++ ": " ++ f.2.detail := by
  induction fields with
  | nil => rw [fieldDetails, List.map_nil]
  | cons f fields ih => rw [fieldDetails, List.map_cons, ih]

/-- **An object in detail** inside another one is put together from its properties in detail. -/
theorem Shape.detail_object (fields : List (String × Shape)) :
    (object fields).detail = "Object(RefCell \x7b value: \x7b" ++ ", ".intercalate
      (fields.map fun f => Escaped.quoted '"' f.1.toList ++ ": " ++ f.2.detail) ++ "\x7d \x7d)" := by
  rw [← fieldDetails_eq]
  rfl

namespace Heap

variable {h : Heap} {o o₁ o₂ : ObjectId}

/-- **What an object shows** if it has the given value at each key: that value in a look-up, and in
its texts the entries by increasing keys, one for each key that has a value. The texts are the same
wherever the object is unfolded, and in all of them the values are unfolded inside of it. -/
structure Shows (h : Heap) (o : ObjectId) (value : String → Option Value)
    (entries : List (String × Value)) : Prop where
  get : ∀ key, (h.fields o).get? key = value key
  increasing : entries.Pairwise fun a b => a.1 < b.1
  mem_iff : ∀ key v, (key, v) ∈ entries ↔ value key = some v
  text : ∀ path, o ∉ path → (h.shape path (.object o)).text =
    Shape.braced (entries.map fun p => p.1 ++ ": " ++ (h.shape (o :: path) p.2).text)
  detail : h.detail o = "\x7b" ++ ", ".intercalate (entries.map fun p =>
    Escaped.quoted '"' p.1.toList ++ ": " ++ (h.shape [o] p.2).detail) ++ "\x7d"
  innerDetail : ∀ path, o ∉ path → (h.shape path (.object o)).detail =
    "Object(RefCell \x7b value: \x7b" ++ ", ".intercalate (entries.map fun p =>
      Escaped.quoted '"' p.1.toList ++ ": " ++ (h.shape (o :: path) p.2).detail) ++ "\x7d \x7d)"

/-- **An object shows what its table has at each key.** -/
theorem shows_entries {value : String → Option Value}
    (get : ∀ key, (h.fields o).get? key = value key) : h.Shows o value (h.fields o).entries where
  get := get
  increasing := (h.fields o).sorted
  mem_iff key v := by rw [Table.mem_entries_iff, get]
  text path h_o := by
    rw [shape_object, if_neg h_o, Shape.text_object, List.map_map]
    rfl
  detail := by
    rw [Heap.detail, Shape.fieldDetails_eq, List.map_map]
    rfl
  innerDetail path h_o := by
    rw [shape_object, if_neg h_o, Shape.detail_object, List.map_map]
    rfl

/-- **Objects that are told apart by nothing but their identity:** every look-up gives the same,
and so are both texts. -/
structure LookAlike (h : Heap) (o₁ o₂ : ObjectId) : Prop where
  get : ∀ key, (h.fields o₁).get? key = (h.fields o₂).get? key
  text : h.text (.object o₁) = h.text (.object o₂)
  detail : h.detail o₁ = h.detail o₂

/-- Objects with the same properties look alike, if neither is inside of them. -/
theorem lookAlike_of_get (get : ∀ key, (h.fields o₁).get? key = (h.fields o₂).get? key)
    (apart : ∀ key v, (h.fields o₁).get? key = some v →
      ¬h.ReachedFrom v o₁ ∧ ¬h.ReachedFrom v o₂) : h.LookAlike o₁ o₂ := by
  -- it makes no difference to the properties which of the objects they are unfolded in
  have h_shapes : (h.fields o₁).entries.map (fun p => (p.1, h.shape [o₁] p.2)) =
      (h.fields o₂).entries.map fun p => (p.1, h.shape [o₂] p.2) := by
    rw [← Table.ext_get? get]
    refine List.map_congr_left fun p h_p => congrArg (Prod.mk p.1) (shape_congr fun t reached => ?_)
    obtain ⟨apart₁, apart₂⟩ := apart p.1 p.2 (Table.mem_entries_iff.1 h_p)
    rw [List.mem_singleton, List.mem_singleton]
    refine iff_of_false ?_ ?_
    · rintro rfl
      exact apart₁ reached
    · rintro rfl
      exact apart₂ reached
  refine ⟨get, ?_, ?_⟩
  · show (h.shape [] (.object o₁)).text = (h.shape [] (.object o₂)).text
    rw [shape_object, shape_object, if_neg List.not_mem_nil, if_neg List.not_mem_nil, h_shapes]
  · rw [detail, detail, h_shapes]

end Heap

open Heap in
/-- **An object is observed through the last write to each key** and in no other way. Programs
create objects by literals, which write their properties in order, and change them by writing
properties; all objects of a reachable state come about in this way. However objects came about, a
look-up gives the value that was written last to a key, and the texts show the keys in increasing
order, each of them once and with that value. So two objects look alike if the last write to each
key is the same for both, and if neither can be reached from what was written. -/
theorem observed_by_last_writes :
    (∀ m : Machine, m.Reachable → empty.Becomes m.heap) ∧
    (∀ s properties m v m', eval s (.object properties) m = .ok v m' ↔
      ∃ writes m₁, Evaluated s properties m writes m₁ ∧ v = .object m₁.heap.nextId ∧
        m' = { m₁ with heap := m₁.heap.apply (.create writes) }) ∧
    (∀ s base property e m v m', eval s (.assign (.member base property) e) m = .ok v m' ↔
      ∃ o m₁ m₂, eval s base m = .ok (.object o) m₁ ∧ eval s e m₁ = .ok v m₂ ∧
        m' = { m₂ with heap := m₂.heap.apply (.set o property v) }) ∧
    (∀ changes o, ∃ entries,
      (empty.perform changes).Shows o (fun key => lastWrite key (writesTo o changes)) entries) ∧
    ∀ changes o₁ o₂,
      (∀ key, lastWrite key (writesTo o₁ changes) = lastWrite key (writesTo o₂ changes)) →
      (∀ key v, lastWrite key (writesTo o₁ changes) = some v →
        ¬(empty.perform changes).ReachedFrom v o₁ ∧ ¬(empty.perform changes).ReachedFrom v o₂) →
      (empty.perform changes).LookAlike o₁ o₂ := by
  -- from no objects at all, nothing but what was written is found
  have get (changes : List Change) (o : ObjectId) (key : String) :
      ((empty.perform changes).fields o).get? key = lastWrite key (writesTo o changes) := by
    rw [get?_fields_perform]
    exact Option.or_none
  refine ⟨?_, fun _ _ _ _ _ => eval_object_eq_ok, fun _ _ _ _ _ _ _ => eval_assign_member_eq_ok,
    fun changes o => ⟨_, shows_entries (get changes o)⟩, fun changes o₁ o₂ same apart => ?_⟩
  · rintro m ⟨t, i, reachable, rfl⟩
    exact reachable.becomes
  · refine lookAlike_of_get (fun key => ?_) fun key v h_v => apart key v ?_
    · rw [get, get, same]
    · rw [← get, h_v]

/-- Three objects. The second one is created with all of its properties, one of them twice; the
third one is given the same properties later and in another order. -/
private def written : List Heap.Change :=
  [.create [("n", .number 1)],
    .create [("a", .null), ("b", .object ⟨0⟩), ("a", .number 2)],
    .create [("b", .null)], .set ⟨2⟩ "a" (.number 2), .set ⟨2⟩ "b" (.object ⟨0⟩)]

/-- The second and the third object look alike. -/
theorem observed_by_last_writes_of_written :
    (∀ key, lastWrite key (Heap.writesTo ⟨1⟩ written) = lastWrite key (Heap.writesTo ⟨2⟩ written)) ∧
    (∀ key v, lastWrite key (Heap.writesTo ⟨1⟩ written) = some v →
      ¬(Heap.empty.perform written).ReachedFrom v ⟨1⟩ ∧
        ¬(Heap.empty.perform written).ReachedFrom v ⟨2⟩) ∧
    (Heap.empty.perform written).LookAlike ⟨1⟩ ⟨2⟩ := by
  have same : ∀ key, lastWrite key (Heap.writesTo ⟨1⟩ written) =
      lastWrite key (Heap.writesTo ⟨2⟩ written) := by
    intro key
    show List.lookup key [("a", _), ("b", _), ("a", _)] = List.lookup key [("b", _), ("a", _), _]
    by_cases h_a : key = "a"
    · subst h_a
      rfl
    · by_cases h_b : key = "b"
      · subst h_b
        rfl
      · simp [Table.lookup_cons, h_a, h_b]
  -- the first object refers to no other one
  have alone : ∀ t, (Heap.empty.perform written).ReachedFrom (.object ⟨0⟩) t → t = ⟨0⟩ := by
    intro t reached
    rcases (Heap.reachedFrom_object.1 reached).cases_head with rfl | ⟨_, ⟨key, h_key⟩, _⟩
    · rfl
    · change List.lookup key [("n", Value.number 1)] = _ at h_key
      rw [Table.lookup_cons] at h_key
      split at h_key <;> cases h_key
  have apart : ∀ key v, lastWrite key (Heap.writesTo ⟨1⟩ written) = some v →
      ¬(Heap.empty.perform written).ReachedFrom v ⟨1⟩ ∧
        ¬(Heap.empty.perform written).ReachedFrom v ⟨2⟩ := by
    intro key v h_v
    have h_mem : (key, v) ∈ [("a", .null), ("b", .object ⟨0⟩), ("a", .number 2)] :=
      mem_of_lastWrite h_v
    simp only [List.mem_cons, Prod.mk.injEq, List.not_mem_nil, or_false] at h_mem
    rcases h_mem with ⟨-, rfl⟩ | ⟨-, rfl⟩ | ⟨-, rfl⟩
    · exact ⟨nofun, nofun⟩
    · exact ⟨fun reached => absurd (alone _ reached) (by decide),
        fun reached => absurd (alone _ reached) (by decide)⟩
    · exact ⟨nofun, nofun⟩
  exact ⟨same, apart, observed_by_last_writes.2.2.2.2 written ⟨1⟩ ⟨2⟩ same apart⟩

end ScriptLang
