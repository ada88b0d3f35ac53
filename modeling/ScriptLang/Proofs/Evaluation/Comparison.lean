import Mathlib.Order.Defs.Unbundled
import ScriptLang.Machine

/-!
# Comparisons

`==` and `!=` ask whether two values are the same, and the other comparators ask for the order of
two values, which only two numbers have and two strings. These are different questions, yet the
answers agree: two values that are in an order come out equal in it exactly if they are the same.
So wherever there is an order, all six comparators can be read off it, and how they fit together is
how orderings do.

* `Comparator.Gives`, `Comparator.Refuses` — what a comparator says of two values.
* `Value.order?_eq_none_iff`, `Value.order?_comm` — which values have an order, and what it is the
  other way round.
* `Comparator.apply?_of_order?` — where there is an order, every comparator says what it says.
* `comparators_agree` — equality, order, and what they have to do with each other.
-/

namespace ScriptLang

/-! ### What comparators say -/

/-- The types of values. -/
inductive ValueType where
  | null | boolean | number | string | object
deriving DecidableEq, Repr

/-- The type of a value. -/
def Value.type : Value → ValueType
  | null => .null
  | boolean _ => .boolean
  | number _ => .number
  | string _ => .string
  | object _ => .object

/-- **Values that can be ordered:** two numbers, or two strings. -/
inductive Value.Comparable : Value → Value → Prop where
  | numbers (a b : Int64) : Comparable (.number a) (.number b)
  | strings (s t : String) : Comparable (.string s) (.string t)

namespace Comparator

/-- **A comparator gives a truth value** for two values, on every machine, which it leaves as it
is. -/
def Gives (c : Comparator) (a b : Value) (holds : Bool) : Prop :=
  ∀ m, Eval.compareValues c a b m = .ok (.boolean holds) m

/-- **A comparator refuses two values,** on every machine, which it leaves as it is. The error
shows them both. -/
def Refuses (c : Comparator) (a b : Value) : Prop :=
  ∀ m, Eval.compareValues c a b m =
    .error (.invalidComparison (m.heap.text a) c (m.heap.text b)) m

variable {c : Comparator} {a b : Value} {holds : Bool}

theorem gives_iff : c.Gives a b holds ↔ c.apply? a b = some holds := by
  unfold Gives Eval.compareValues
  cases c.apply? a b with
  | none =>
    refine iff_of_false (fun h => ?_) nofun
    cases h (.initial none)
  | some result =>
    constructor
    · intro h
      cases h (.initial none)
      rfl
    · rintro ⟨⟩ m
      rfl

theorem refuses_iff : c.Refuses a b ↔ c.apply? a b = none := by
  unfold Refuses Eval.compareValues
  cases c.apply? a b with
  | none => exact iff_of_true (fun m => rfl) rfl
  | some result =>
    refine iff_of_false (fun h => ?_) nofun
    cases h (.initial none)

end Comparator

/-! ### The order of two values -/

namespace Value

variable {a b : Value}

/-- **Only numbers and strings have an order,** each among themselves. -/
theorem order?_eq_none_iff : a.order? b = none ↔ ¬a.Comparable b := by
  constructor
  · rintro h (_ | _)
    · cases h
    · cases h
  · intro h
    unfold order?
    split
    · exact absurd (.numbers _ _) h
    · exact absurd (.strings _ _) h
    · rfl

theorem Comparable.exists_order? (h : a.Comparable b) : ∃ o, a.order? b = some o := by
  cases h with
  | numbers a b => exact ⟨compare a b, rfl⟩
  | strings s t => exact ⟨compare s t, rfl⟩

/-- **The other way round** two values have the opposite order, or none either. -/
theorem order?_comm (a b : Value) : b.order? a = (a.order? b).map Ordering.swap := by
  cases a <;> cases b
  case number.number a b => exact congrArg some Std.OrientedCmp.eq_swap
  case string.string s t => exact congrArg some Std.OrientedCmp.eq_swap
  all_goals rfl

/-- **Values in an order are equal in it** exactly if they are the same value. -/
theorem isEq_of_order? {o : Ordering} (h : a.order? b = some o) : o.isEq = (a == b) := by
  have h_same : o = .eq ↔ a = b := by
    unfold order? at h
    split at h
    · cases h
      rw [Std.compare_eq_iff_eq, number.injEq]
    · cases h
      rw [Std.compare_eq_iff_eq, string.injEq]
    · cases h
  rw [Bool.eq_iff_iff, Ordering.isEq_iff_eq_eq, beq_iff_eq, h_same]

end Value

namespace Comparator

variable {c : Comparator} {a b : Value}

/-- **Where there is an order, every comparator says what it says,** `==` and `!=` included, which
never look at it. -/
theorem apply?_of_order? (c : Comparator) {o : Ordering} (h : a.order? b = some o) :
    c.apply? a b = some (c.holds o) := by
  have h_eq : o.isEq = (a == b) := Value.isEq_of_order? h
  cases c with
  | equal => exact congrArg some h_eq.symm
  | notEqual =>
    refine congrArg some ?_
    rw [bne, ← h_eq]
    cases o <;> rfl
  | less | lessEqual | greater | greaterEqual =>
    show (a.order? b).map _ = _
    rw [h]
    rfl

/-- Where there is no order, only `==` and `!=` have an answer. -/
theorem apply?_eq_none (h : c ∉ [equal, notEqual]) : c.apply? a b = none ↔ a.order? b = none := by
  cases c with
  | equal | notEqual => exact absurd (by decide) h
  | less | lessEqual | greater | greaterEqual => exact Option.map_eq_none_iff

/-- What a comparator gives, in terms of the order. -/
theorem gives_of_order? (c : Comparator) {o : Ordering} (h : a.order? b = some o) {holds : Bool} :
    c.Gives a b holds ↔ c.holds o = holds := by
  rw [gives_iff, c.apply?_of_order? h, Option.some.injEq]

/-- **A comparator and its converse** give the same with the operands exchanged. -/
theorem gives_comm {c' : Comparator} (h_c : c ∉ [equal, notEqual]) (h_c' : c' ∉ [equal, notEqual])
    (h : ∀ o, c'.holds o.swap = c.holds o) {holds : Bool} :
    c.Gives a b holds ↔ c'.Gives b a holds := by
  rw [gives_iff, gives_iff]
  cases h_order : a.order? b with
  | none =>
    have h_order' : b.order? a = none := by rw [Value.order?_comm, h_order]; rfl
    rw [(apply?_eq_none h_c).2 h_order, (apply?_eq_none h_c').2 h_order']
  | some o =>
    have h_order' : b.order? a = some o.swap := by rw [Value.order?_comm, h_order]; rfl
    rw [c.apply?_of_order? h_order, c'.apply?_of_order? h_order', h]

/-- **Equality always has an answer:** whether the two values are the same. -/
theorem equal_gives_iff {holds : Bool} : equal.Gives a b holds ↔ decide (a = b) = holds :=
  gives_iff.trans Option.some_inj

theorem notEqual_gives_iff {holds : Bool} : notEqual.Gives a b holds ↔ (!decide (a = b)) = holds :=
  gives_iff.trans Option.some_inj

/-! ### Less -/

/-- **Numbers** are ordered as the integers that they are. -/
theorem less_gives_number (a b : Int64) :
    less.Gives (.number a) (.number b) (decide (a.toInt < b.toInt)) := by
  rw [less.gives_of_order? rfl, Bool.eq_iff_iff, decide_eq_true_iff, ← Int64.lt_iff_toInt_lt]
  exact Ordering.isLT_iff_eq_lt.trans compareOfLessAndEq_eq_lt

/-- **Strings** are ordered by the first characters in which they differ, and a string comes before
those that go on from it. -/
theorem less_gives_string_iff (s t : String) : less.Gives (.string s) (.string t) true ↔
    List.Lex (fun c d => c.toNat < d.toNat) s.toList t.toList := by
  have h_lt : (compare s t).isLT = true ↔ s < t :=
    Ordering.isLT_iff_eq_lt.trans compareOfLessAndEq_eq_lt
  rw [less.gives_of_order? rfl]
  -- characters are in the order of their numbers, and lists of them in the lexicographic order
  exact h_lt.trans String.lt_iff

/-- **Values that are compared by a lawful order** are strictly and totally ordered by `<`. -/
private theorem isStrictTotalOrder_less {α : Type} [Ord α] [Std.TransOrd α] [Std.LawfulEqOrd α]
    {f : α → Value} (h : ∀ x y, (f x).order? (f y) = some (compare x y)) :
    IsStrictTotalOrder α fun x y => less.Gives (f x) (f y) true := by
  have h_less : ∀ x y, less.Gives (f x) (f y) true ↔ compare x y = .lt := by
    intro x y
    rw [less.gives_of_order? (h x y)]
    exact Ordering.isLT_iff_eq_lt
  refine { trichotomous := fun x y h_xy h_yx => ?_, irrefl := fun x => ?_, trans := fun x y z => ?_ }
  · rw [h_less] at h_xy
    rw [h_less, ← Std.OrientedCmp.gt_iff_lt] at h_yx
    cases h_compare : compare x y with
    | lt => exact absurd h_compare h_xy
    | eq => exact Std.compare_eq_iff_eq.1 h_compare
    | gt => exact absurd h_compare h_yx
  · rw [h_less, Std.compare_self]
    nofun
  · rw [h_less, h_less, h_less]
    exact Std.TransCmp.lt_trans

end Comparator

open Comparator

/-- **The comparators agree with each other.** `==` is an equivalence that always has an answer, the
opposite of that of `!=`. It tells objects apart by their identities, and values of different types
are never equal. The other four refuse exactly the values that cannot be ordered. Among numbers `<`
is the order of the integers and among strings the lexicographic order of their characters, both of
them strict and total. Of two values that can be ordered, either one is less than the other, or they
are equal, or the one is greater, and never two of these; `<=` means that it is less or equal; and
`>` and `>=` are `<` and `<=` with the operands exchanged. -/
theorem comparators_agree :
    (Equivalence (fun a b => equal.Gives a b true) ∧
      (∀ a b, equal.Gives a b (decide (a = b)) ∧ notEqual.Gives a b !decide (a = b)) ∧
      (∀ o p : ObjectId, equal.Gives (.object o) (.object p) (decide (o = p))) ∧
      ∀ a b : Value, a.type ≠ b.type → equal.Gives a b false) ∧
    (∀ c ∈ [less, lessEqual, greater, greaterEqual], ∀ a b : Value,
      (c.Refuses a b ↔ ¬a.Comparable b) ∧ (a.Comparable b → ∃ holds, c.Gives a b holds)) ∧
    ((∀ a b : Int64, less.Gives (.number a) (.number b) (decide (a.toInt < b.toInt))) ∧
      (∀ s t : String, less.Gives (.string s) (.string t) true ↔
        List.Lex (fun c d => c.toNat < d.toNat) s.toList t.toList) ∧
      IsStrictTotalOrder Int64 (fun a b => less.Gives (.number a) (.number b) true) ∧
      IsStrictTotalOrder String fun s t => less.Gives (.string s) (.string t) true) ∧
    (∀ a b : Value, a.Comparable b →
      ((less.Gives a b true ∧ equal.Gives a b false ∧ greater.Gives a b false) ∨
        (less.Gives a b false ∧ equal.Gives a b true ∧ greater.Gives a b false) ∨
        (less.Gives a b false ∧ equal.Gives a b false ∧ greater.Gives a b true)) ∧
      (lessEqual.Gives a b true ↔ less.Gives a b true ∨ equal.Gives a b true)) ∧
    ∀ (a b : Value) (holds : Bool),
      (greater.Gives a b holds ↔ less.Gives b a holds) ∧
      (greaterEqual.Gives a b holds ↔ lessEqual.Gives b a holds) := by
  refine ⟨⟨?_, fun a b => ?_, fun o p => ?_, fun a b h_type => ?_⟩, fun c h_c a b => ?_,
    ⟨less_gives_number, less_gives_string_iff, isStrictTotalOrder_less fun a b => rfl,
      isStrictTotalOrder_less fun s t => rfl⟩, fun a b h => ?_, fun a b holds => ⟨?_, ?_⟩⟩
  · simp only [equal_gives_iff, decide_eq_true_iff]
    exact ⟨fun _ => rfl, Eq.symm, Eq.trans⟩
  · exact ⟨equal_gives_iff.2 rfl, notEqual_gives_iff.2 rfl⟩
  · rw [equal_gives_iff, decide_eq_decide, Value.object.injEq]
  · rw [equal_gives_iff, decide_eq_false_iff_not]
    rintro rfl
    exact h_type rfl
  · have h_other : c ∉ [equal, notEqual] := by
      revert c
      decide
    rw [refuses_iff, apply?_eq_none h_other, Value.order?_eq_none_iff]
    refine ⟨Iff.rfl, fun h => ?_⟩
    obtain ⟨o, h_order⟩ := h.exists_order?
    exact ⟨c.holds o, (c.gives_of_order? h_order).2 rfl⟩
  · -- all of it can be read off the order of the two, of which there are three
    obtain ⟨o, h_order⟩ := h.exists_order?
    simp only [gives_of_order? _ h_order]
    cases o <;> decide
  · exact gives_comm (by decide) (by decide) (by decide)
  · exact gives_comm (by decide) (by decide) (by decide)

/-- A string that another one begins with comes before it, and a letter with an accent behind the
letters without. -/
theorem comparators_agree_of_strings :
    (Value.string "caf").Comparable (.string "caffè") ∧
      less.Gives (.string "caf") (.string "caffè") true ∧
      lessEqual.Gives (.string "caf") (.string "caffè") true ∧
      greater.Gives (.string "è") (.string "z") true ∧
      (Value.string "7").type ≠ (Value.number 7).type ∧
      equal.Gives (.string "7") (.number 7) false ∧ less.Refuses (.string "7") (.number 7) := by
  obtain ⟨⟨-, -, -, h_types⟩, h_refuses, ⟨-, h_strings, -, -⟩, h_ordered, h_converse⟩ :=
    comparators_agree
  have h_less : less.Gives (.string "caf") (.string "caffè") true := (h_strings _ _).2 (by decide)
  have h_comparable : (Value.string "caf").Comparable (.string "caffè") := .strings _ _
  have h_mixed : (Value.string "7").type ≠ (Value.number 7).type := by decide
  refine ⟨h_comparable, h_less, (h_ordered _ _ h_comparable).2.2 (.inl h_less),
    (h_converse _ _ _).1.2 ((h_strings _ _).2 (by decide)), h_mixed, h_types _ _ h_mixed,
    (h_refuses less (by decide) _ _).1.2 nofun⟩

end ScriptLang
