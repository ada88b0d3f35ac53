import Mathlib.Logic.Relation
import ScriptLang.Heap.Shape
import ScriptLang.Proofs.Table

/-!
# Objects unfolded

Objects may refer to each other in circles, and still each of them has a text. Its parts are found
by going from object to object along their properties: the parts of the text are the ways through
the heap that pass no object twice, so they are never longer than there are objects. What such a way
comes to is marked if it is one of the objects that were passed, and only then; having been come to
by another way makes no difference. Where there are no circles nothing is ever marked, and the text
is that of a plain recursion.

* `Shape.at?` — the part of a shape at the end of a row of keys.
* `Heap.Walk` — a way from a value along properties, and the objects that it passes.
* `Heap.at?_shape_iff` — the parts of a shape are the ways that pass no object twice.
* `Heap.plainText?`, `Heap.plainText?_shape` — the text by plain recursion, where there are no
  circles.
* `Heap.text_marks_enclosing` — which references are marked in the text of an object.
-/

namespace ScriptLang

/-! ### The text of a shape -/

namespace Shape

/-- Texts as the text of an object: between braces, with commas between them. -/
def braced : List String → String
  | [] => "\x7b\x7d"
  | t :: ts => "\x7b " ++ ", ".intercalate (t :: ts) ++ " \x7d"

theorem fieldTexts_eq (fields : List (String × Shape)) :
    fieldTexts fields = fields.map fun f => f.1 ++ ": " ++ f.2.text := by
  induction fields with
  | nil => rw [fieldTexts, List.map_nil]
  | cons f fields ih => rw [fieldTexts, List.map_cons, ih]

/-- **The text of an object** is put together from the texts of its properties. -/
theorem text_object (fields : List (String × Shape)) :
    (object fields).text = braced (fields.map fun f => f.1 ++ ": " ++ f.2.text) := by
  rw [← fieldTexts_eq]
  cases fields with
  | nil => rw [text, fieldTexts, braced]
  | cons f fields =>
    rw [text, fieldTexts]
    rfl

/-- No object looks like the mark of one that is around it. -/
theorem text_object_ne_mark (fields : List (String × Shape)) :
    (object fields).text ≠ "\x7b...\x7d" := by
  intro h
  have h_second := congrArg (fun s => s.toList[1]?) h
  cases fields with
  | nil =>
    rw [text] at h_second
    exact absurd h_second (by decide)
  | cons f fields =>
    rw [text] at h_second
    simp only [String.toList_append] at h_second
    cases h_second

/-! ### The parts of a shape -/

/-- The part of a shape that is come to along the keys. -/
def at? : Shape → List String → Option Shape
  | s, [] => some s
  | .object fields, key :: keys => (fields.lookup key).bind (·.at? keys)
  | _, _ :: _ => none
termination_by structural _ keys => keys

/-- One of several texts stands in the text that they make up. -/
private theorem exists_eq_of_mem_intercalate {t : String} {ts : List String} (h : t ∈ ts) :
    ∃ front back, ", ".intercalate ts = front ++ t ++ back := by
  induction ts with
  | nil => exact absurd h List.not_mem_nil
  | cons u ts ih =>
    cases ts with
    | nil =>
      obtain rfl := List.mem_singleton.1 h
      exact ⟨"", "", by rw [String.intercalate_singleton, String.empty_append, String.append_empty]⟩
    | cons u' ts =>
      rw [String.intercalate_cons_cons]
      rcases List.mem_cons.1 h with rfl | h_mem
      · refine ⟨"", ", " ++ ", ".intercalate (u' :: ts), ?_⟩
        rw [String.empty_append, String.append_assoc]
      · obtain ⟨front, back, h_eq⟩ := ih h_mem
        refine ⟨u ++ ", " ++ front, back, ?_⟩
        rw [h_eq]
        simp only [String.append_assoc]

/-- **The text of a part** stands in the text of the whole. -/
theorem exists_text_eq_of_at? {s part : Shape} {keys : List String} (h : s.at? keys = some part) :
    ∃ front back, s.text = front ++ part.text ++ back := by
  fun_induction s.at? keys with
  | case1 s =>
    cases h
    exact ⟨"", "", by rw [String.empty_append, String.append_empty]⟩
  | case2 fields key keys ih =>
    obtain ⟨inner, h_inner, h_part⟩ := Option.bind_eq_some_iff.1 h
    obtain ⟨front, back, h_eq⟩ := ih inner h_part
    have h_mem : key ++ ": " ++ inner.text ∈ fieldTexts fields := by
      rw [fieldTexts_eq]
      exact List.mem_map.2 ⟨(key, inner), Table.mem_of_lookup h_inner, rfl⟩
    obtain ⟨front', back', h_eq'⟩ := exists_eq_of_mem_intercalate h_mem
    cases fields with
    | nil => cases h_inner
    | cons f fields =>
      refine ⟨"\x7b " ++ front' ++ key ++ ": " ++ front, back ++ back' ++ " \x7d", ?_⟩
      rw [text, h_eq', h_eq]
      simp only [String.append_assoc]
  | case3 => cases h

end Shape

namespace Heap

variable {h : Heap} {path trail : List ObjectId} {o t : ObjectId} {v w : Value}
  {keys : List String}

/-! ### Ways through the heap -/

/-- **A way from a value along properties** to another one. It starts inside the objects of `path`,
and at its end is inside those of `trail`: it has passed one more object for each of the keys. -/
inductive Walk (h : Heap) :
    List ObjectId → Value → List String → List ObjectId → Value → Prop where
  | here (path : List ObjectId) (v : Value) : Walk h path v [] path v
  | step {path o key v keys trail w} (property : (h.fields o).get? key = some v)
      (further : Walk h (o :: path) v keys trail w) : Walk h path (.object o) (key :: keys) trail w

theorem Walk.suffix (walk : h.Walk path v keys trail w) : path <:+ trail := by
  induction walk with
  | here path v => exact List.suffix_rfl
  | step _ _ ih => exact (List.suffix_cons _ _).trans ih

/-- On a way that passes no object twice, none is one of those around it. -/
theorem Walk.not_mem (walk : h.Walk (o :: path) v keys trail w)
    (nodup : trail.Nodup) : o ∉ path :=
  (List.nodup_cons.1 (nodup.sublist walk.suffix.sublist)).1

/-- Only objects that exist have properties. -/
theorem index_lt_of_get? {key : String} (property : (h.fields o).get? key = some v) :
    o.index < h.size :=
  index_lt_size (List.ne_nil_of_mem (Table.mem_entries_of_get? property))

theorem remaining_nil (h : Heap) : h.remaining [] = h.size := by
  simp [remaining]

/-- **A way that passes no object twice** is not longer than there are objects that it has not been
inside of when it starts. -/
theorem Walk.length_le (walk : h.Walk path v keys trail w) (nodup : trail.Nodup) :
    keys.length ≤ h.remaining path := by
  induction walk with
  | here path v => exact Nat.zero_le _
  | step property further ih =>
    have h_lt := remaining_cons_lt (further.not_mem nodup) (index_lt_of_get? property)
    exact Nat.succ_le_of_lt (Nat.lt_of_le_of_lt (ih nodup) h_lt)

/-! ### The parts of a text -/

/-- A property of an unfolded object is the property of the object, unfolded. -/
private theorem lookup_shape_fields (h : Heap) (path : List ObjectId) (o : ObjectId)
    (key : String) :
    ((h.fields o).entries.map fun p => (p.1, h.shape path p.2)).lookup key =
      ((h.fields o).get? key).map (h.shape path) :=
  Table.get?_map (h.shape path) (h.fields o) key

/-- What a way comes to that passes no object twice is a part of the shape that it starts from. -/
theorem Walk.at?_shape (walk : h.Walk path v keys trail w) (nodup : trail.Nodup) :
    (h.shape path v).at? keys = some (h.shape trail w) := by
  induction walk with
  | here path v => rw [Shape.at?]
  | step property further ih =>
    rw [shape_object, if_neg (further.not_mem nodup), Shape.at?, lookup_shape_fields, property,
      Option.map_some, Option.bind_some, ih nodup]

/-- A part of a shape is what some way comes to. -/
theorem exists_walk_of_at? {part : Shape} (nodup : path.Nodup)
    (h_at : (h.shape path v).at? keys = some part) :
    ∃ trail w, h.Walk path v keys trail w ∧ trail.Nodup ∧ part = h.shape trail w := by
  induction keys generalizing path v with
  | nil =>
    rw [Shape.at?] at h_at
    exact ⟨path, v, .here path v, nodup, (Option.some.inj h_at).symm⟩
  | cons key keys ih =>
    cases v with
    | null | boolean | number | string =>
      rw [shape] at h_at
      cases h_at
    | object o =>
      rw [shape_object] at h_at
      split at h_at
      · cases h_at
      · next h_mem =>
        rw [Shape.at?, lookup_shape_fields] at h_at
        obtain ⟨inner, h_inner, h_part⟩ := Option.bind_eq_some_iff.1 h_at
        obtain ⟨v, property, rfl⟩ := Option.map_eq_some_iff.1 h_inner
        obtain ⟨trail, w, walk, h_trail, rfl⟩ := ih (List.nodup_cons.2 ⟨h_mem, nodup⟩) h_part
        exact ⟨trail, w, .step property walk, h_trail, rfl⟩

/-- **The parts of a shape are the ways that pass no object twice.** -/
theorem at?_shape_iff {part : Shape} : (h.shape [] v).at? keys = some part ↔
    ∃ trail w, h.Walk [] v keys trail w ∧ trail.Nodup ∧ part = h.shape trail w := by
  constructor
  · exact exists_walk_of_at? List.nodup_nil
  · rintro ⟨trail, w, walk, nodup, rfl⟩
    exact walk.at?_shape nodup

/-! ### Reachability -/

/-- An object refers to another one: it has it as a property. -/
def Refers (h : Heap) (o t : ObjectId) : Prop := ∃ key, (h.fields o).get? key = some (.object t)

/-- **The objects that can be reached from a value** through properties. -/
def ReachedFrom (h : Heap) (v : Value) (t : ObjectId) : Prop :=
  ∃ o, v = .object o ∧ Relation.ReflTransGen h.Refers o t

theorem reachedFrom_object : h.ReachedFrom (.object o) t ↔ Relation.ReflTransGen h.Refers o t := by
  constructor
  · rintro ⟨_, ⟨⟩, reached⟩
    exact reached
  · exact fun reached => ⟨o, rfl, reached⟩

/-- What can be reached from a property of an object can be reached from the object. -/
theorem ReachedFrom.of_property {key : String} (property : (h.fields o).get? key = some v)
    (reached : h.ReachedFrom v t) : h.ReachedFrom (.object o) t := by
  obtain ⟨o', rfl, reached⟩ := reached
  exact reachedFrom_object.2 (.head ⟨key, property⟩ reached)

/-- **Only the objects that can be reached from a value** matter to it among those around it. -/
theorem shape_congr {path path' : List ObjectId}
    (same : ∀ t, h.ReachedFrom v t → (t ∈ path ↔ t ∈ path')) :
    h.shape path v = h.shape path' v := by
  fun_induction h.shape path v generalizing path' with
  | case1 | case2 | case3 | case4 => rw [shape]
  | case5 path o h_mem =>
    rw [shape_object, if_pos ((same o (reachedFrom_object.2 .refl)).1 h_mem)]
  | case6 path o h_mem ih =>
    rw [shape_object, if_neg (mt (same o (reachedFrom_object.2 .refl)).2 h_mem)]
    simp only [List.map_attach_eq_pmap, List.pmap_eq_map]
    congr 1
    refine List.map_congr_left fun p h_p => ?_
    have property : (h.fields o).get? p.1 = some p.2 := Table.mem_entries_iff.1 h_p
    refine congrArg (Prod.mk p.1) (ih ⟨p, h_p⟩ fun t reached => ?_)
    rw [List.mem_cons, List.mem_cons, same t (reached.of_property property)]

/-! ### Plain recursion -/

/-- **The text of a value by plain recursion,** which does not know what it is inside of. Not more
than `depth` objects with properties are entered; if that is not enough, there is no text. -/
def plainText? (h : Heap) : Nat → Value → Option String
  | _, .null => some "null"
  | _, .boolean b => some (if b then "true" else "false")
  | _, .number n => some (toString n.toInt)
  | _, .string s => some ("\"" ++ s ++ "\"")
  | 0, .object o => if (h.fields o).entries = [] then some "\x7b\x7d" else none
  | depth + 1, .object o =>
    ((h.fields o).entries.mapM fun p => (h.plainText? depth p.2).map (p.1 ++ ": " ++ ·)).map
      Shape.braced

private theorem mapM_eq_some_map {α β : Type} {f : α → Option β} {g : α → β} {l : List α}
    (h : ∀ a ∈ l, f a = some (g a)) : l.mapM f = some (l.map g) := by
  induction l with
  | nil => rfl
  | cons a l ih =>
    obtain ⟨h_a, h_l⟩ := List.forall_mem_cons.1 h
    rw [List.mapM_cons, h_a, ih h_l]
    rfl

/-- No circle can be come to from a value. -/
def Acyclic (h : Heap) (v : Value) : Prop :=
  ∀ t, h.ReachedFrom v t → ¬Relation.TransGen h.Refers t t

/-- **Without circles plain recursion gives the text,** if it is inside of objects only that refer
to the value, directly or through others. -/
theorem plainText?_shape {n : Nat} (acyclic : h.Acyclic v)
    (inside : ∀ p ∈ path, ∀ t, v = .object t → Relation.TransGen h.Refers p t)
    (h_n : h.remaining path ≤ n) : h.plainText? n v = some (h.shape path v).text := by
  fun_induction h.shape path v generalizing n with
  | case1 | case2 | case3 | case4 => cases n <;> simp only [plainText?, Shape.text]
  | case5 path o h_mem =>
    -- the object would be on a circle
    exact absurd (inside o h_mem o rfl) (acyclic o (reachedFrom_object.2 .refl))
  | case6 path o h_mem ih =>
    simp only [List.map_attach_eq_pmap, List.pmap_eq_map, Shape.text_object, List.map_map]
    by_cases h_empty : (h.fields o).entries = []
    · cases n with
      | zero => rw [plainText?, if_pos h_empty, h_empty]; rfl
      | succ n => rw [plainText?, h_empty]; rfl
    · have h_lt := remaining_cons_lt h_mem (index_lt_size h_empty)
      obtain ⟨n, rfl⟩ := Nat.exists_eq_succ_of_ne_zero
        (Nat.ne_of_gt (Nat.lt_of_le_of_lt (Nat.zero_le _) (Nat.lt_of_lt_of_le h_lt h_n)))
      rw [plainText?, mapM_eq_some_map (g := fun p => p.1 ++ ": " ++ (h.shape (o :: path) p.2).text)]
      · rfl
      · intro p h_p
        have property : (h.fields o).get? p.1 = some p.2 := Table.mem_entries_iff.1 h_p
        rw [ih ⟨p, h_p⟩ (fun t reached => acyclic t (reached.of_property property)) ?_ (by omega)]
        · rfl
        · intro q h_q t h_t
          have refers : h.Refers o t := ⟨p.1, property.trans (congrArg some h_t)⟩
          rcases List.mem_cons.1 h_q with rfl | h_q
          · exact .single refers
          · exact (inside q h_q o rfl).tail refers

/-- **The text of an object marks exactly the references to objects around it.** The parts of the
text are the ways through the heap that pass no object twice, and none of them is longer than there
are objects. A reference at the end of such a way is written as a mark if it is to one of the
objects that were passed, and otherwise in full, with all of its properties; if none of these
objects can be reached from it, it is written as it is written alone. And if no circle can be come
to, the text is that of plain recursion, which enters no more objects than there are. -/
theorem text_marks_enclosing (h : Heap) (o : ObjectId) :
    (∀ keys part, (h.shape [] (.object o)).at? keys = some part ↔
      ∃ trail v, h.Walk [] (.object o) keys trail v ∧ trail.Nodup ∧ part = h.shape trail v) ∧
    (∀ keys part, (h.shape [] (.object o)).at? keys = some part → keys.length ≤ h.size ∧
      ∃ front back, h.text (.object o) = front ++ part.text ++ back) ∧
    (∀ keys trail t, h.Walk [] (.object o) keys trail (.object t) → trail.Nodup →
      ∃ part, (h.shape [] (.object o)).at? keys = some part ∧
        (part.text = "\x7b...\x7d" ↔ t ∈ trail) ∧
        (t ∉ trail → part.text = Shape.braced ((h.fields t).entries.map fun p =>
          p.1 ++ ": " ++ (h.shape (t :: trail) p.2).text)) ∧
        ((∀ p ∈ trail, ¬h.ReachedFrom (.object t) p) → part.text = h.text (.object t))) ∧
    (h.Acyclic (.object o) → ∀ n, h.size ≤ n →
      h.plainText? n (.object o) = some (h.text (.object o))) := by
  refine ⟨fun keys part => at?_shape_iff, fun keys part h_at => ⟨?_, ?_⟩,
    fun keys trail t walk nodup => ?_, fun acyclic n h_n => ?_⟩
  · obtain ⟨trail, v, walk, nodup, -⟩ := at?_shape_iff.1 h_at
    rw [← remaining_nil]
    exact walk.length_le nodup
  · exact Shape.exists_text_eq_of_at? h_at
  · refine ⟨_, walk.at?_shape nodup, ?_, fun h_mem => ?_, fun apart => ?_⟩
    · rw [shape_object]
      split
      · next h_mem => rw [Shape.text]; exact iff_of_true rfl h_mem
      · next h_mem => exact iff_of_false (Shape.text_object_ne_mark _) h_mem
    · rw [shape_object, if_neg h_mem, Shape.text_object, List.map_map]
      rfl
    · refine congrArg Shape.text (shape_congr fun p reached => ?_)
      exact iff_of_false (fun h_p => apart p h_p reached) List.not_mem_nil
  · refine plainText?_shape acyclic (List.forall_mem_nil _) ?_
    rw [remaining_nil]
    exact h_n

/-- An object that has itself as a property, and another object as two more. -/
private def circle : Heap :=
  (empty.create ((((∅ : Table Value).insert "a" (.object ⟨1⟩)).insert "b" (.object ⟨1⟩)).insert
    "me" (.object ⟨0⟩))).create ((∅ : Table Value).insert "n" (.number 1))

/-- The object itself is marked, and the other one is not although it is come to a second time. On
its own the other one is written as by plain recursion. -/
theorem text_marks_enclosing_of_circle :
    circle.Walk [] (.object ⟨0⟩) ["me"] [⟨0⟩] (.object ⟨0⟩) ∧
    (∃ part, (circle.shape [] (.object ⟨0⟩)).at? ["me"] = some part ∧
      part.text = "\x7b...\x7d") ∧
    circle.Walk [] (.object ⟨0⟩) ["b"] [⟨0⟩] (.object ⟨1⟩) ∧
    (∃ part, (circle.shape [] (.object ⟨0⟩)).at? ["b"] = some part ∧
      part.text = circle.text (.object ⟨1⟩)) ∧
    circle.Acyclic (.object ⟨1⟩) ∧
    circle.plainText? 2 (.object ⟨1⟩) = some (circle.text (.object ⟨1⟩)) := by
  have back : circle.Walk [] (.object ⟨0⟩) ["me"] [⟨0⟩] (.object ⟨0⟩) := .step rfl (.here _ _)
  have second : circle.Walk [] (.object ⟨0⟩) ["b"] [⟨0⟩] (.object ⟨1⟩) := .step rfl (.here _ _)
  have once : [(⟨0⟩ : ObjectId)].Nodup := List.nodup_cons.2 ⟨List.not_mem_nil, List.nodup_nil⟩
  have alone : ∀ t, ¬circle.Refers ⟨1⟩ t := by
    rintro t ⟨key, h_key⟩
    change List.lookup key [("n", Value.number 1)] = _ at h_key
    rw [Table.lookup_cons] at h_key
    split at h_key <;> cases h_key
  have only : ∀ t, circle.ReachedFrom (.object ⟨1⟩) t → t = ⟨1⟩ := by
    intro t reached
    rcases (reachedFrom_object.1 reached).cases_head with rfl | ⟨t', refers, _⟩
    · rfl
    · exact absurd refers (alone t')
  have acyclic : circle.Acyclic (.object ⟨1⟩) := by
    intro t reached on_circle
    obtain rfl := only t reached
    rcases Relation.TransGen.head'_iff.1 on_circle with ⟨t', refers, _⟩
    exact alone t' refers
  obtain ⟨-, -, marks, -⟩ := text_marks_enclosing circle ⟨0⟩
  obtain ⟨mark, h_mark, marked, -⟩ := marks _ _ _ back once
  obtain ⟨whole, h_whole, -, -, unmarked⟩ := marks _ _ _ second once
  refine ⟨back, ⟨mark, h_mark, marked.2 List.mem_cons_self⟩, second, ⟨whole, h_whole, ?_⟩, acyclic,
    (text_marks_enclosing circle ⟨1⟩).2.2.2 acyclic 2 (Nat.le_refl 2)⟩
  refine unmarked fun p h_p reached => ?_
  rw [List.mem_singleton.1 h_p] at reached
  exact absurd (only _ reached) (by decide)

end Heap

end ScriptLang
