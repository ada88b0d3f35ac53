import ScriptLang.Proofs.Evaluation.Arithmetic

/-!
# Repetition of strings

A string times a number is so many copies of the string in a row, none if the number is negative.
How large the result would be is counted in bytes, and before anything is made of it. So an empty
string can be repeated any number of times, and a string of two-byte characters half as often as one
of as many one-byte characters. What can be repeated so many times can also be repeated fewer times,
and the parts that a number of copies is divided into join to the whole again.

* `copies_add`, `utf8ByteSize_copies`, `replicateText_eq_copies` — copies in a row, and their size.
* `apply_times_of_le`, `apply_times_of_lt` — what repeating a string gives.
* `repetition_exact` — repetition is exact and bounded, and distributes over sums.
-/

namespace ScriptLang

/-! ### Copies in a row -/

/-- So many copies of a string in a row. -/
def copies (s : String) (k : Nat) : String := String.join (List.replicate k s)

theorem copies_zero (s : String) : copies s 0 = "" := rfl

theorem copies_succ (s : String) (k : Nat) : copies s (k + 1) = s ++ copies s k := by
  unfold copies
  rw [List.replicate_succ, String.join_cons]

theorem copies_add (s : String) (j k : Nat) : copies s (j + k) = copies s j ++ copies s k := by
  induction j with
  | zero => rw [Nat.zero_add, copies_zero, String.empty_append]
  | succ j ih => rw [Nat.succ_add, copies_succ, ih, copies_succ, String.append_assoc]

theorem utf8ByteSize_copies (s : String) (k : Nat) :
    (copies s k).utf8ByteSize = s.utf8ByteSize * k := by
  induction k with
  | zero => rfl
  | succ k ih => rw [copies_succ, String.utf8ByteSize_append, ih, Nat.mul_succ, Nat.add_comm]

/-- **What is made by repetition** is the copies in a row. -/
theorem replicateText_eq_copies (s : String) (k : Nat) : replicateText s k = copies s k := by
  unfold replicateText
  split
  · next h =>
    -- no number of copies of nothing has any bytes
    refine (String.utf8ByteSize_eq_zero_iff.1 ?_).symm
    rw [utf8ByteSize_copies, h, String.utf8ByteSize_empty, Nat.zero_mul]
  · induction k with
    | zero => rfl
    | succ k ih =>
      have h_one : copies s 1 = s := by rw [copies_succ, copies_zero, String.append_empty]
      rw [copies_add, h_one, ← ih]
      rfl

/-! ### Repetition -/

/-- **How many copies a number asks for:** none if it is negative. -/
def copyCount (n : Int64) : Nat := (max n.toInt 0).toNat

theorem copyCount_eq (n : Int64) : copyCount n = n.toInt.toNat := by
  unfold copyCount
  omega

/-- A sum that does not wrap around asks for as many copies as its parts together. -/
theorem copyCount_add {m n : Int64} (h_m : 0 ≤ m) (h_n : 0 ≤ n)
    (h_fits : m.toInt + n.toInt ≤ Int64.maxValue.toInt) :
    copyCount (m + n) = copyCount m + copyCount n := by
  rw [Int64.le_iff_toInt_le, Int64.toInt_zero] at h_m h_n
  have h_max : Int64.maxValue.toInt = 2 ^ 63 - 1 := rfl
  have h_sum : (m + n).toInt = m.toInt + n.toInt := by
    rw [Int64.toInt_add]
    exact Int.bmod_eq_of_le (by omega) (by omega)
  rw [copyCount_eq, copyCount_eq, copyCount_eq, h_sum, Int.toNat_add h_m h_n]

section Repeating

variable {s : String} {n : Int64}

theorem apply_times_of_le (h : s.utf8ByteSize * copyCount n ≤ 2 ^ 24) :
    Operator.times.apply (.string s) (.number n) = .ok (.string (copies s (copyCount n))) := by
  rw [copyCount_eq] at h ⊢
  have h_repeat : repeatText s n = .ok (replicateText s n.toInt.toNat) := if_pos h
  rw [Operator.apply, h_repeat, replicateText_eq_copies]
  rfl

theorem apply_times_of_lt (h : 2 ^ 24 < s.utf8ByteSize * copyCount n) :
    Operator.times.apply (.string s) (.number n) = .error (.repetitionTooLarge n) := by
  rw [copyCount_eq] at h
  have h_repeat : repeatText s n = .error (.repetitionTooLarge n) := if_neg (Nat.not_le.2 h)
  rw [Operator.apply, h_repeat]
  rfl

/-- **What a repetition succeeds with** are the copies, and there are not too many of them. -/
theorem apply_times_eq_ok {v : Value}
    (h : Operator.times.apply (.string s) (.number n) = .ok v) :
    s.utf8ByteSize * copyCount n ≤ 2 ^ 24 ∧ v = .string (copies s (copyCount n)) := by
  by_cases h_le : s.utf8ByteSize * copyCount n ≤ 2 ^ 24
  · rw [apply_times_of_le h_le] at h
    cases h
    exact ⟨h_le, rfl⟩
  · rw [apply_times_of_lt (Nat.not_le.1 h_le)] at h
    cases h

end Repeating

/-! ### Repetition in programs -/

/-- A string times a number, as an expression of the two. -/
def repeating (s : String) (n : Int64) : Expr :=
  .binary .times (.literal (.string s)) (.literal (.number n))

/-- A string repeated twice and joined, compared with the string repeated in one go. -/
def distributing (s : String) (m n : Int64) : Expr :=
  .compare .equal (.binary .plus (repeating s m) (repeating s n))
    (.binary .times (.literal (.string s))
      (.binary .plus (.literal (.number m)) (.literal (.number n))))

section Programs

variable (scope : ScopeId) (machine : Machine)

theorem eval_repeating {s : String} {n : Int64} {v : Value}
    (h : Operator.times.apply (.string s) (.number n) = .ok v) :
    eval scope (repeating s n) machine = .ok v machine := by
  have h_s : eval scope (.literal (.string s)) machine = .ok (.string s) machine :=
    eval_literal scope _ machine
  have h_n : eval scope (.literal (.number n)) machine = .ok (.number n) machine :=
    eval_literal scope _ machine
  rw [repeating, eval_binary_of_ok .times h_s h_n, h]
  rfl

/-- What is the same by the operators compares as equal. -/
theorem eval_distributing {s : String} {m n : Int64} {v v₁ v₂ : Value}
    (h : Operator.times.apply (.string s) (.number (m + n)) = .ok v)
    (h₁ : Operator.times.apply (.string s) (.number m) = .ok v₁)
    (h₂ : Operator.times.apply (.string s) (.number n) = .ok v₂)
    (h_join : Operator.plus.apply v₁ v₂ = .ok v) :
    eval scope (distributing s m n) machine = .ok (.boolean true) machine := by
  have h_parts : eval scope (.binary .plus (repeating s m) (repeating s n)) machine =
      .ok v machine := by
    rw [eval_binary_of_ok .plus (eval_repeating scope machine h₁)
      (eval_repeating scope machine h₂), h_join]
    rfl
  have h_sum : eval scope (.binary .plus (.literal (.number m)) (.literal (.number n))) machine =
      .ok (.number (m + n)) machine := by
    rw [eval_binary_of_ok .plus (eval_literal scope _ machine) (eval_literal scope _ machine)]
    rfl
  have h_whole : eval scope (.binary .times (.literal (.string s))
      (.binary .plus (.literal (.number m)) (.literal (.number n)))) machine = .ok v machine := by
    have h_s : eval scope (.literal (.string s)) machine = .ok (.string s) machine :=
      eval_literal scope _ machine
    rw [eval_binary_of_ok .times h_s h_sum, h]
    rfl
  rw [distributing, eval_compare_of_ok .equal h_parts h_whole]
  show EStateM.Result.ok (Value.boolean (v == v)) machine = _
  rw [beq_self_eq_true]

end Programs

/-- **Repetition is exact and bounded.** A string times a number succeeds exactly if so many copies,
none for a negative number, have at most `2 ^ 24` bytes together, and then it gives these copies in
a row. Otherwise it fails with an error about the number. So if a sum of two numbers that are not
negative does not wrap around, a string that can be repeated that often can be repeated as often as
each of the two, and the results joined are the result of the sum, as the program itself can see. -/
theorem repetition_exact (s : String) :
    (∀ n : Int64,
      (s.utf8ByteSize * copyCount n ≤ 2 ^ 24 →
        Operator.times.apply (.string s) (.number n) = .ok (.string (copies s (copyCount n))) ∧
        (copies s (copyCount n)).utf8ByteSize = s.utf8ByteSize * copyCount n) ∧
      (2 ^ 24 < s.utf8ByteSize * copyCount n →
        Operator.times.apply (.string s) (.number n) = .error (.repetitionTooLarge n))) ∧
    ∀ m n : Int64, 0 ≤ m → 0 ≤ n → m.toInt + n.toInt ≤ Int64.maxValue.toInt →
      ∀ v, Operator.times.apply (.string s) (.number (m + n)) = .ok v →
        ∃ v₁ v₂, Operator.times.apply (.string s) (.number m) = .ok v₁ ∧
          Operator.times.apply (.string s) (.number n) = .ok v₂ ∧
          Operator.plus.apply v₁ v₂ = .ok v ∧
          ∀ scope machine, eval scope (distributing s m n) machine = .ok (.boolean true) machine := by
  refine ⟨fun n => ⟨fun h => ⟨apply_times_of_le h, utf8ByteSize_copies s _⟩, apply_times_of_lt⟩,
    fun m n h_m h_n h_fits v h => ?_⟩
  obtain ⟨h_le, rfl⟩ := apply_times_eq_ok h
  have h_count : copyCount (m + n) = copyCount m + copyCount n := copyCount_add h_m h_n h_fits
  rw [h_count, Nat.mul_add] at h_le
  have h_first := apply_times_of_le (s := s) (n := m) (by omega)
  have h_second := apply_times_of_le (s := s) (n := n) (by omega)
  have h_join : Operator.plus.apply (.string (copies s (copyCount m)))
      (.string (copies s (copyCount n))) = .ok (.string (copies s (copyCount (m + n)))) := by
    rw [h_count, copies_add]
    rfl
  exact ⟨_, _, h_first, h_second, h_join, fun scope machine =>
    eval_distributing scope machine h h_first h_second h_join⟩

/-- Two bytes for one character: half of `2 ^ 24` copies are as many as there may be, and with one
more there are too many, while an empty string may be repeated any number of times. -/
theorem repetition_exact_of_accented :
    "é".utf8ByteSize * copyCount 8388608 ≤ 2 ^ 24 ∧
      Operator.times.apply (.string "é") (.number 8388608) =
        .ok (.string (copies "é" (copyCount 8388608))) ∧
      2 ^ 24 < "é".utf8ByteSize * copyCount 8388609 ∧
      Operator.times.apply (.string "é") (.number 8388609) = .error (.repetitionTooLarge 8388609) ∧
      Operator.times.apply (.string "") (.number .maxValue) =
        .ok (.string (copies "" (copyCount .maxValue))) ∧
      (0 : Int64) ≤ 8388600 ∧ (0 : Int64) ≤ 8 ∧
      Int64.toInt 8388600 + Int64.toInt 8 ≤ Int64.maxValue.toInt ∧
      ∀ scope machine, eval scope (distributing "é" 8388600 8) machine =
        .ok (.boolean true) machine := by
  have h_le : "é".utf8ByteSize * copyCount 8388608 ≤ 2 ^ 24 := by decide
  have h_lt : 2 ^ 24 < "é".utf8ByteSize * copyCount 8388609 := by decide
  have h_empty : "".utf8ByteSize * copyCount .maxValue ≤ 2 ^ 24 := by decide
  obtain ⟨h_bounded, h_sums⟩ := repetition_exact "é"
  have h_most := ((h_bounded 8388608).1 h_le).1
  obtain ⟨_, _, -, -, -, h_equal⟩ :=
    h_sums 8388600 8 (by decide) (by decide) (by decide) _ h_most
  exact ⟨h_le, h_most, h_lt, (h_bounded 8388609).2 h_lt,
    (((repetition_exact "").1 .maxValue).1 h_empty).1, by decide, by decide, by decide, h_equal⟩

end ScriptLang
