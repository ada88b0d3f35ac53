import Mathlib.Data.List.Induction
import Mathlib.Data.Nat.Digits.Defs
import ScriptLang.Grammar.Numeral

/-!
# Numbers in decimal

What a text says in decimal is a matter of its digits and their places: digits behind an optional
sign denote an integer of any size, and reading a text gives the integer that it denotes, if that
has 64 bits. So every 64-bit integer is read off the digits it is written with, whatever its sign,
and nothing negative is read off digits alone.

* `Numeral.placeValue`, `Numeral.Denotes` — the integer that a text denotes.
* `Numeral.integer?_eq_some` — what is read is what is denoted.
* `Numeral.int64?_eq_some`, `Numeral.int64?_eq_none` — and only where it has 64 bits.
* `Numeral.denotes_toString`, `Numeral.int64?_toString` — what is written out is read back.
-/

namespace ScriptLang.Numeral

/-! ### What a text denotes -/

/-- The number that a digit stands for. -/
def digit (c : Char) : Nat := c.toNat - '0'.toNat

/-- **The value of digits by their places:** the last one counts as it is, the one in front of it
ten times, the next one a hundred times, and so on. -/
def placeValue (cs : List Char) : Nat := Nat.ofDigits 10 (cs.reverse.map digit)

/-- One or more of the ASCII digits. -/
def IsDigits (cs : List Char) : Prop := cs ≠ [] ∧ ∀ c ∈ cs, c.isDigit = true

/-- Going through the characters decides it. -/
theorem isDigits_iff {cs : List Char} : cs ≠ [] ∧ cs.all Char.isDigit = true ↔ IsDigits cs :=
  and_congr_right' List.all_eq_true

instance (cs : List Char) : Decidable (IsDigits cs) := decidable_of_iff _ isDigits_iff

/-- **The integer that a text denotes in decimal:** digits behind an optional sign, as many of them
as there are and with any number of zeros in front. -/
inductive Denotes : List Char → Int → Prop
  | unsigned {ds : List Char} (h : IsDigits ds) : Denotes ds (placeValue ds)
  | plus {ds : List Char} (h : IsDigits ds) : Denotes ('+' :: ds) (placeValue ds)
  | minus {ds : List Char} (h : IsDigits ds) : Denotes ('-' :: ds) (-placeValue ds)

theorem placeValue_concat (cs : List Char) (c : Char) :
    placeValue (cs ++ [c]) = 10 * placeValue cs + digit c := by
  rw [placeValue, List.reverse_concat, List.map_cons, Nat.ofDigits_cons, Nat.add_comm]
  rfl

/-- Going through digits from the left, and counting what there is ten times before each further
digit, comes to their value. -/
theorem ofDigitChars_eq_placeValue (cs : List Char) : Nat.ofDigitChars 10 cs 0 = placeValue cs := by
  induction cs using List.reverseRec with
  | nil => rfl
  | append_singleton cs c ih =>
    rw [placeValue_concat, ← ih, Nat.ofDigitChars_append, Nat.ofDigitChars_cons,
      Nat.ofDigitChars_nil, digit]

/-! ### What is read -/

theorem natural?_eq_some {cs : List Char} {n : Nat} :
    natural? cs = some n ↔ IsDigits cs ∧ n = placeValue cs := by
  simp only [natural?, isDigits_iff, ofDigitChars_eq_placeValue, Option.ite_none_right_eq_some,
    Option.some.injEq]
  exact and_congr_right' eq_comm

private theorem integer?_plus (cs : List Char) :
    integer? ('+' :: cs) = (natural? cs).map Int.ofNat := by
  rw [integer?]
  cases natural? cs <;> rfl

private theorem integer?_minus (cs : List Char) :
    integer? ('-' :: cs) = (natural? cs).map fun n => -Int.ofNat n := by
  rw [integer?]
  cases natural? cs <;> rfl

private theorem integer?_unsigned {cs : List Char} (h_plus : ∀ ds, cs ≠ '+' :: ds)
    (h_minus : ∀ ds, cs ≠ '-' :: ds) : integer? cs = (natural? cs).map Int.ofNat := by
  rw [integer?]
  · cases natural? cs <;> rfl
  · exact h_plus
  · exact h_minus

/-- A text that begins with a digit has no sign. -/
theorem integer?_of_digits {cs : List Char} (h : ∀ c ∈ cs, c.isDigit = true) :
    integer? cs = (natural? cs).map Int.ofNat := by
  refine integer?_unsigned ?_ ?_
  · rintro ds rfl
    exact absurd (h '+' List.mem_cons_self) (by decide)
  · rintro ds rfl
    exact absurd (h '-' List.mem_cons_self) (by decide)

/-- **What is read is what the text denotes.** -/
theorem integer?_eq_some {cs : List Char} {i : Int} : integer? cs = some i ↔ Denotes cs i := by
  constructor
  · intro h
    -- one case for each sign, and one for none
    by_cases h_plus : ∃ ds, cs = '+' :: ds
    · obtain ⟨ds, rfl⟩ := h_plus
      rw [integer?_plus] at h
      obtain ⟨n, h_n, rfl⟩ := Option.map_eq_some_iff.1 h
      obtain ⟨h_digits, rfl⟩ := natural?_eq_some.1 h_n
      exact .plus h_digits
    by_cases h_minus : ∃ ds, cs = '-' :: ds
    · obtain ⟨ds, rfl⟩ := h_minus
      rw [integer?_minus] at h
      obtain ⟨n, h_n, rfl⟩ := Option.map_eq_some_iff.1 h
      obtain ⟨h_digits, rfl⟩ := natural?_eq_some.1 h_n
      exact .minus h_digits
    rw [integer?_unsigned (not_exists.1 h_plus) (not_exists.1 h_minus)] at h
    obtain ⟨n, h_n, rfl⟩ := Option.map_eq_some_iff.1 h
    obtain ⟨h_digits, rfl⟩ := natural?_eq_some.1 h_n
    exact .unsigned h_digits
  · intro h
    cases h with
    | unsigned h_digits =>
      rw [integer?_of_digits h_digits.2, natural?_eq_some.2 ⟨h_digits, rfl⟩]
      rfl
    | plus h_digits =>
      rw [integer?_plus, natural?_eq_some.2 ⟨h_digits, rfl⟩]
      rfl
    | minus h_digits =>
      rw [integer?_minus, natural?_eq_some.2 ⟨h_digits, rfl⟩]
      rfl

/-- A text denotes one integer at most. -/
theorem Denotes.unique {cs : List Char} {i j : Int} (h : Denotes cs i) (h' : Denotes cs j) :
    i = j :=
  Option.some.inj ((integer?_eq_some.2 h).symm.trans (integer?_eq_some.2 h'))

/-- Digits alone denote their value and nothing else. -/
theorem denotes_digits {cs : List Char} (h : IsDigits cs) {i : Int} :
    Denotes cs i ↔ i = placeValue cs :=
  ⟨fun h_i => h_i.unique (.unsigned h), fun h_i => h_i ▸ .unsigned h⟩

/-! ### What has 64 bits -/

private theorem inRange_iff {i : Int} :
    Int64.minValue.toInt ≤ i ∧ i ≤ Int64.maxValue.toInt ↔ -2 ^ 63 ≤ i ∧ i ≤ 2 ^ 63 - 1 := Iff.rfl

/-- **A number is read off a text** exactly if the text denotes it. -/
theorem int64?_eq_some {text : String} {n : Int64} :
    int64? text = some n ↔ Denotes text.toList n.toInt := by
  rw [int64?, Option.bind_eq_some_iff, ← integer?_eq_some]
  constructor
  · rintro ⟨i, h_i, h_some⟩
    split at h_some
    · next h_range =>
      cases h_some
      have h_max : Int64.maxValue.toInt = 2 ^ 63 - 1 := rfl
      rw [Int64.toInt_ofInt_of_le h_range.1 (by omega)]
      exact h_i
    · cases h_some
  · intro h_i
    refine ⟨n.toInt, h_i, ?_⟩
    rw [if_pos ⟨Int64.minValue_le_toInt n, Int64.toInt_le n⟩, Int64.ofInt_toInt]

/-- **No number is read off a text** exactly if what the text denotes, should it denote anything,
lies outside of 64 bits. -/
theorem int64?_eq_none {text : String} :
    int64? text = none ↔ ∀ i, Denotes text.toList i → i < -2 ^ 63 ∨ 2 ^ 63 - 1 < i := by
  rw [int64?, Option.bind_eq_none_iff]
  simp only [integer?_eq_some, inRange_iff]
  refine forall_congr' fun i => imp_congr_right fun _ => ?_
  by_cases h_range : -2 ^ 63 ≤ i ∧ i ≤ 2 ^ 63 - 1
  · simp only [if_pos h_range, reduceCtorEq, false_iff]
    omega
  · simp only [if_neg h_range, true_iff]
    omega

/-- Digits alone can be read up to the largest number. -/
theorem int64?_eq_none_of_digits {text : String} (h : IsDigits text.toList) :
    int64? text = none ↔ 2 ^ 63 - 1 < placeValue text.toList := by
  simp only [int64?_eq_none, denotes_digits h, forall_eq]
  omega

/-! ### What is written out -/

/-- The decimal digits of a natural number are digits, and they have its value. -/
private theorem isDigits_toDigits (n : Nat) :
    IsDigits (Nat.toDigits 10 n) ∧ placeValue (Nat.toDigits 10 n) = n :=
  ⟨⟨Nat.toDigits_ne_nil, fun _ => Nat.isDigit_of_mem_toDigits (by decide) (by decide)⟩,
    (ofDigitChars_eq_placeValue _).symm.trans Nat.ofDigitChars_ten_toDigits⟩

/-- A number from zero on is written as the digits of a natural number. -/
theorem toList_toString {n : Int64} (h : 0 ≤ n) :
    (toString n.toInt).toList = Nat.toDigits 10 n.toInt.toNat := by
  have h_int : 0 ≤ n.toInt := Int64.le_iff_toInt_le.1 h
  obtain ⟨k, h_k⟩ := Int.eq_ofNat_of_zero_le h_int
  rw [h_k, Int.toString_eq_repr]
  exact Nat.toList_repr

/-- **An integer is denoted by the text that it is written as.** -/
theorem denotes_toString (i : Int) : Denotes (toString i).toList i := by
  rw [Int.toString_eq_repr]
  cases i with
  | ofNat n =>
    obtain ⟨h_digits, h_value⟩ := isDigits_toDigits n
    rw [show (Int.repr (.ofNat n)).toList = Nat.toDigits 10 n from Nat.toList_repr]
    exact (denotes_digits h_digits).2 (congrArg Int.ofNat h_value.symm)
  | negSucc n =>
    obtain ⟨h_digits, h_value⟩ := isDigits_toDigits (n + 1)
    have h_text : (Int.repr (.negSucc n)).toList = '-' :: Nat.toDigits 10 (n + 1) := by
      rw [Int.repr, String.toList_append, Nat.toList_repr]
      rfl
    have h_minus := Denotes.minus h_digits
    rw [h_value] at h_minus
    rw [h_text]
    exact h_minus

/-- **Whatever number is written out is read back.** -/
theorem int64?_toString (n : Int64) : int64? (toString n.toInt) = some n :=
  int64?_eq_some.2 (denotes_toString n.toInt)

/-- **Nothing negative is read off digits.** -/
theorem nonneg_of_int64? {text : String} {n : Int64} (h : ∀ c ∈ text.toList, c.isDigit = true)
    (h_n : int64? text = some n) : 0 ≤ n := by
  have h_read := integer?_eq_some.2 (int64?_eq_some.1 h_n)
  rw [integer?_of_digits h] at h_read
  obtain ⟨k, -, h_k⟩ := Option.map_eq_some_iff.1 h_read
  rw [Int64.le_iff_toInt_le, ← h_k]
  exact Int.natCast_nonneg k

end ScriptLang.Numeral
