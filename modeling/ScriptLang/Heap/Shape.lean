import ScriptLang.Heap
import ScriptLang.Text.Escaped

/-!
# Values as text

Objects may refer to each other in circles, so a value is first unfolded into a finite tree, its
`Shape`: objects become the shapes of their properties, except that a reference back to an object
that is being unfolded stays a mere mark. Text is then written along the shape, in a short form
for readers and in a detailed form that tells the kinds of values apart.

* `Heap.shape_object` — an object is unfolded exactly if it does not enclose itself.
-/

namespace ScriptLang

/-- **A value unfolded:** `enclosing` stands for a reference to an object around it. -/
inductive Shape where
  | null
  | boolean (value : Bool)
  | number (value : Int64)
  | string (value : String)
  | object (fields : List (String × Shape))
  | enclosing
deriving Repr

namespace Heap

/-- How many objects of the heap are not among the given ones. -/
def remaining (h : Heap) (path : List ObjectId) : Nat :=
  (List.range h.size).countP fun i => ⟨i⟩ ∉ path

/-- Entering an object leaves fewer objects to enter. -/
theorem remaining_cons_lt {h : Heap} {path : List ObjectId} {o : ObjectId} (new : o ∉ path)
    (old : o.index < h.size) : h.remaining (o :: path) < h.remaining path := by
  -- the objects that are not among the given ones are `o` and those that still are not
  have split (l : List Nat) :
      l.countP (⟨·⟩ ∉ path) = l.countP (⟨·⟩ ∉ o :: path) + l.count o.index := by
    induction l with
    | nil => rfl
    | cons i l ih =>
      rw [List.countP_cons, List.countP_cons, List.count_cons, ih]
      by_cases hi : i = o.index
      · subst hi; simp [new]; omega
      · have : (⟨i⟩ : ObjectId) ≠ o := fun e => hi (congrArg ObjectId.index e)
        simp [hi, this]; omega
  have := split (List.range h.size)
  have : 0 < (List.range h.size).count o.index := List.count_pos_iff.2 (List.mem_range.2 old)
  unfold remaining
  omega

/-- The shape of a value inside the objects of `path`, the innermost first. -/
def shape (h : Heap) (path : List ObjectId) : Value → Shape
  | .null => .null
  | .boolean b => .boolean b
  | .number n => .number n
  | .string s => .string s
  | .object o =>
    if o ∈ path then .enclosing
    else .object ((h.fields o).entries.attach.map fun p => (p.1.1, h.shape (o :: path) p.1.2))
termination_by h.remaining path
decreasing_by exact remaining_cons_lt ‹_› (index_lt_size (List.ne_nil_of_mem p.2))

/-- **An object is unfolded exactly if it does not enclose itself.** -/
theorem shape_object (h : Heap) (path : List ObjectId) (o : ObjectId) :
    h.shape path (.object o) =
      if o ∈ path then .enclosing
      else .object ((h.fields o).entries.map fun p => (p.1, h.shape (o :: path) p.2)) := by
  rw [shape]
  simp only [List.map_attach_eq_pmap, List.pmap_eq_map]

end Heap

/-! ### The short form -/

namespace Shape

mutual

/-- A shape as readers see it: strings between quotes, objects as lists of their properties. -/
def text : Shape → String
  | .null => "null"
  | .boolean b => if b then "true" else "false"
  | .number n => toString n.toInt
  | .string s => "\"" ++ s ++ "\""
  | .object [] => "\x7b\x7d"
  | .object (f :: fs) => "\x7b " ++ ", ".intercalate (fieldTexts (f :: fs)) ++ " \x7d"
  | .enclosing => "\x7b...\x7d"
termination_by structural s => s

/-- The properties of an object as readers see them, one by one. -/
def fieldTexts : List (String × Shape) → List String
  | [] => []
  | (key, value) :: fields => (key ++ ": " ++ value.text) :: fieldTexts fields
termination_by structural fs => fs

end

/-! ### The detailed form -/

mutual

/-- A shape with the kind of every value told, and with escapes in strings. -/
def detail : Shape → String
  | .null => "Null"
  | .boolean b => "Boolean(" ++ (if b then "true" else "false") ++ ")"
  | .number n => "Number(" ++ toString n.toInt ++ ")"
  | .string s => "String(" ++ Escaped.quoted '"' s.toList ++ ")"
  | .object fields =>
    "Object(RefCell \x7b value: \x7b" ++ ", ".intercalate (fieldDetails fields) ++ "\x7d \x7d)"
  | .enclosing => "..."
termination_by structural s => s

/-- The properties of an object in detail, one by one. -/
def fieldDetails : List (String × Shape) → List String
  | [] => []
  | (key, value) :: fields =>
    (Escaped.quoted '"' key.toList ++ ": " ++ value.detail) :: fieldDetails fields
termination_by structural fs => fs

end

end Shape

namespace Heap

/-- **A value as text.** A string on its own is just its characters; inside an object it stands
between quotes. -/
def text (h : Heap) : Value → String
  | .string s => s
  | v => (h.shape [] v).text

/-- An object in detail. -/
def detail (h : Heap) (o : ObjectId) : String :=
  let fields := (h.fields o).entries.map fun p => (p.1, h.shape [o] p.2)
  "\x7b" ++ ", ".intercalate (Shape.fieldDetails fields) ++ "\x7d"

end Heap

end ScriptLang
