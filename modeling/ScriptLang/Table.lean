/-!
# Tables with names as keys

A `Table` holds one value per key and keeps its keys in increasing order of code points. Nothing
else about how it came to be is in it: tables that answer every look-up alike are equal.

* `Table.get?_insert` — what a look-up gives after an insertion.
* `Table.ext_get?` — a table is determined by its look-ups.
-/

namespace ScriptLang

/-- **A table:** entries in strictly increasing order of their keys. -/
structure Table (α : Type) where
  entries : List (String × α)
  sorted : entries.Pairwise fun a b => a.1 < b.1
deriving DecidableEq

namespace Table

variable {α : Type}

/-- The table without entries. -/
def empty : Table α := ⟨[], .nil⟩

instance : EmptyCollection (Table α) := ⟨empty⟩

instance : Inhabited (Table α) := ⟨∅⟩

/-- The value of a key, if it has one. -/
def get? (t : Table α) (key : String) : Option α := t.entries.lookup key

/-- Does the key have a value? -/
def contains (t : Table α) (key : String) : Bool := (t.get? key).isSome

/-! ### Insertion -/

/-- The entries with the key's value put in its place in the order; an earlier value of the key
is replaced. -/
def insertEntry (key : String) (value : α) : List (String × α) → List (String × α)
  | [] => [(key, value)]
  | (k, v) :: es =>
    if key < k then (key, value) :: (k, v) :: es
    else if k < key then (k, v) :: insertEntry key value es
    else (key, value) :: es

/-- A look-up tries the entries one after the other. -/
theorem lookup_cons (j : String) (e : String × α) (es : List (String × α)) :
    (e :: es).lookup j = if j = e.1 then some e.2 else es.lookup j := by
  obtain ⟨k, a⟩ := e
  by_cases h : j = k
  · simp [h]
  · simp [List.lookup_cons, h, beq_eq_false_iff_ne.2 h]

theorem mem_insertEntry {key : String} {value : α} {e : String × α} {es : List (String × α)}
    (h : e ∈ insertEntry key value es) : e = (key, value) ∨ e ∈ es := by
  fun_induction insertEntry key value es <;> grind

/-- Two keys of which neither comes before the other are the same. -/
private theorem key_eq {j k : String} (h : ¬j < k) (h' : ¬k < j) : j = k :=
  String.le_antisymm (String.not_lt.1 h') (String.not_lt.1 h)

theorem sorted_insertEntry (key : String) (value : α) {es : List (String × α)}
    (h : es.Pairwise fun a b => a.1 < b.1) :
    (insertEntry key value es).Pairwise fun a b => a.1 < b.1 := by
  fun_induction insertEntry key value es with
  | case1 => simp
  | case2 k v es before =>
    refine .cons (fun e he => ?_) h
    rcases List.mem_cons.1 he with rfl | he
    · exact before
    · exact String.lt_trans before ((List.pairwise_cons.1 h).1 e he)
  | case3 k v es _ after ih =>
    have ⟨hk, hes⟩ := List.pairwise_cons.1 h
    refine .cons (fun e he => ?_) (ih hes)
    rcases mem_insertEntry he with rfl | he
    · exact after
    · exact hk e he
  | case4 k v es h₁ h₂ =>
    obtain rfl := key_eq h₁ h₂
    exact .cons (List.pairwise_cons.1 h).1 (List.pairwise_cons.1 h).2

theorem lookup_insertEntry (key : String) (value : α) (j : String) (es : List (String × α)) :
    (insertEntry key value es).lookup j = if j = key then some value else es.lookup j := by
  fun_induction insertEntry key value es with
  | case1 => simp [lookup_cons]
  | case2 => simp [lookup_cons]
  | case3 k v es _ after ih =>
    have : k ≠ key := fun h => String.lt_irrefl key (h ▸ after)
    by_cases hk : j = k <;> simp [lookup_cons, hk, this, ih]
  | case4 k v es h₁ h₂ =>
    obtain rfl := key_eq h₁ h₂
    by_cases h : j = key <;> simp [lookup_cons, h]

/-- The table in which the key has the value, whatever it had before. -/
def insert (t : Table α) (key : String) (value : α) : Table α :=
  ⟨insertEntry key value t.entries, sorted_insertEntry key value t.sorted⟩

@[simp] theorem get?_empty (key : String) : (∅ : Table α).get? key = none := rfl

/-- After an insertion the key has the inserted value, and every other key what it had. -/
@[simp] theorem get?_insert (t : Table α) (key : String) (value : α) (j : String) :
    (t.insert key value).get? j = if j = key then some value else t.get? j :=
  lookup_insertEntry key value j t.entries

/-! ### Extensionality -/

theorem mem_of_lookup {key : String} {value : α} {es : List (String × α)}
    (h : es.lookup key = some value) : (key, value) ∈ es := by
  obtain ⟨l, r, rfl, _⟩ := List.lookup_eq_some_iff.1 h
  simp

private theorem lookup_eq_none_of_lt {key : String} {es : List (String × α)}
    (h : ∀ e ∈ es, key < e.1) : es.lookup key = none := by
  cases hl : es.lookup key with
  | none => rfl
  | some v => exact absurd (h _ (mem_of_lookup hl)) (String.lt_irrefl key)

private theorem entries_ext {es fs : List (String × α)}
    (hes : es.Pairwise fun a b => a.1 < b.1) (hfs : fs.Pairwise fun a b => a.1 < b.1)
    (h : ∀ key, es.lookup key = fs.lookup key) : es = fs := by
  induction es generalizing fs with
  | nil =>
    cases fs with
    | nil => rfl
    | cons f fs => simpa [lookup_cons] using h f.1
  | cons e es ih =>
    cases fs with
    | nil => simpa [lookup_cons] using h e.1
    | cons f fs =>
      have ⟨he, hes⟩ := List.pairwise_cons.1 hes
      have ⟨hf, hfs'⟩ := List.pairwise_cons.1 hfs
      -- the smallest keys agree, for neither can come before the other
      have key : e.1 = f.1 := by
        refine key_eq (fun lt => ?_) (fun lt => ?_)
        · have none := lookup_eq_none_of_lt (List.forall_mem_cons.2
            ⟨lt, fun g hg => String.lt_trans lt (hf g hg)⟩ : ∀ g ∈ f :: fs, e.1 < g.1)
          simpa [lookup_cons, none] using h e.1
        · have none := lookup_eq_none_of_lt (List.forall_mem_cons.2
            ⟨lt, fun g hg => String.lt_trans lt (he g hg)⟩ : ∀ g ∈ e :: es, f.1 < g.1)
          simpa [lookup_cons, none] using h f.1
      have value : e.2 = f.2 := by simpa [lookup_cons, key] using h e.1
      obtain rfl : e = f := Prod.ext key value
      congr 1
      refine ih hes hfs' fun k => ?_
      by_cases hk : k = e.1
      · rw [hk, lookup_eq_none_of_lt he, lookup_eq_none_of_lt hf]
      · simpa [lookup_cons, hk] using h k

/-- **Tables that answer every look-up alike are equal.** -/
theorem ext_get? {t u : Table α} (h : ∀ key, t.get? key = u.get? key) : t = u := by
  obtain ⟨es, hes⟩ := t
  obtain ⟨fs, hfs⟩ := u
  cases entries_ext hes hfs h
  rfl

end Table

end ScriptLang
