import Mathlib.Algebra.Order.Group.Unbundled.Int
import Mathlib.Data.Int.ModEq
import ScriptLang.Proofs.Evaluation.Law

/-!
# Arithmetic of numbers

Numbers are the integers modulo `2 ^ 64`, each represented by the integer of its class that a signed
word of 64 bits holds. Sums, differences and products respect the classes, so it makes no difference
whether they are reduced at every step or only in the end. Quotients do not respect them: they are
the exact ones cut off toward zero, and only one of them has to be reduced.

* `Expr.Exact` — the integer that numbers joined by `+`, `-` and `*` stand for, however large.
* `Expr.Exact.eval` — what such an expression evaluates to, by induction on how it is built.
* `eval_wraps` — numbers are computed modulo `2 ^ 64`, and compared so.
* `divide_and_modulo` — what `/` and `%` give, and what they restore together.
-/

namespace ScriptLang

/-! ### Operators on numbers -/

section Steps

variable {s : ScopeId} {m m₁ m₂ : Machine} {left right : Expr} {a b : Value}

/-- An operator applies to the values of its operands, of which the left one comes first. -/
theorem eval_binary_of_ok (o : Operator) (h_left : eval s left m = .ok a m₁)
    (h_right : eval s right m₁ = .ok b m₂) :
    eval s (.binary o left right) m = Eval.ofResult (o.apply a b) m₂ := by
  rw [eval, bind_apply_of_ok h_left, bind_apply_of_ok h_right]

/-- A comparator likewise. -/
theorem eval_compare_of_ok (c : Comparator) (h_left : eval s left m = .ok a m₁)
    (h_right : eval s right m₁ = .ok b m₂) :
    eval s (.compare c left right) m = Eval.compareValues c a b m₂ := by
  rw [eval, bind_apply_of_ok h_left, bind_apply_of_ok h_right]

end Steps

theorem eval_literal (s : ScopeId) (v : Literal) (m : Machine) :
    eval s (.literal v) m = .ok v.toValue m := by
  rw [eval]
  rfl

/-- **Two integers are reduced to the same number** if they are the same modulo `2 ^ 64`. -/
theorem ofInt_eq_ofInt_iff {a b : Int} : Int64.ofInt a = .ofInt b ↔ a ≡ b [ZMOD 2 ^ 64] := by
  rw [← Int64.toInt_inj, Int64.toInt_ofInt, Int64.toInt_ofInt]
  constructor
  · intro h
    calc a % 2 ^ 64 = a.bmod Int64.size % 2 ^ 64 := Int.bmod_emod.symm
      _ = b.bmod Int64.size % 2 ^ 64 := by rw [h]
      _ = b % 2 ^ 64 := Int.bmod_emod
  · intro h
    calc a.bmod Int64.size = (a % 2 ^ 64).bmod Int64.size := (Int.emod_bmod a _).symm
      _ = (b % 2 ^ 64).bmod Int64.size := by rw [h]
      _ = b.bmod Int64.size := Int.emod_bmod b _

/-! ### Sums, differences and products -/

/-- **The exact value of an expression** of numbers, sums, differences and products: the integer
that it stands for where integers have no limits. -/
inductive Expr.Exact : Expr → Int → Prop
  | number (n : Int64) : Exact (.literal (.number n)) n.toInt
  | plus {left right : Expr} {a b : Int} (h_left : left.Exact a) (h_right : right.Exact b) :
    Exact (.binary .plus left right) (a + b)
  | minus {left right : Expr} {a b : Int} (h_left : left.Exact a) (h_right : right.Exact b) :
    Exact (.binary .minus left right) (a - b)
  | times {left right : Expr} {a b : Int} (h_left : left.Exact a) (h_right : right.Exact b) :
    Exact (.binary .times left right) (a * b)

/-- **What an expression with an exact value evaluates to:** the number of its class. Nothing is
looked at for that, and nothing changes. -/
theorem Expr.Exact.eval {e : Expr} {a : Int} (h : e.Exact a) (s : ScopeId) (m : Machine) :
    ScriptLang.eval s e m = .ok (.number (.ofInt a)) m := by
  -- at each operator, the numbers of the operands' classes give the number of the result's class
  induction h with
  | number n =>
    rw [eval_literal, Literal.toValue, Int64.ofInt_toInt]
  | plus _ _ ih_left ih_right =>
    rw [eval_binary_of_ok .plus ih_left ih_right, Int64.ofInt_add]
    rfl
  | minus _ _ ih_left ih_right =>
    rw [eval_binary_of_ok .minus ih_left ih_right, Int64.ofInt_sub]
    rfl
  | times _ _ ih_left ih_right =>
    rw [eval_binary_of_ok .times ih_left ih_right, Int64.ofInt_mul]
    rfl

/-- **Numbers are computed modulo `2 ^ 64`.** In any scope and on any machine, an expression of
numbers, sums, differences and products gives its exact value reduced to 64 bits and leaves the
machine as it is. So two of them are equal exactly if their exact values are, modulo `2 ^ 64`. -/
theorem eval_wraps (s : ScopeId) (m : Machine) :
    (∀ (e : Expr) (a : Int), e.Exact a →
      ∃ n : Int64, eval s e m = .ok (.number n) m ∧ n.toInt = a.bmod (2 ^ 64)) ∧
    ∀ (e e' : Expr) (a a' : Int), e.Exact a → e'.Exact a' →
      eval s (.compare .equal e e') m = .ok (.boolean (decide (a ≡ a' [ZMOD 2 ^ 64]))) m := by
  constructor
  · intro e a h
    exact ⟨.ofInt a, h.eval s m, Int64.toInt_ofInt⟩
  · intro e e' a a' h h'
    rw [eval_compare_of_ok .equal (h.eval s m) (h'.eval s m)]
    have h_same : (Value.number (.ofInt a) == Value.number (.ofInt a')) =
        decide (a ≡ a' [ZMOD 2 ^ 64]) := by
      rw [beq_eq_decide, decide_eq_decide, Value.number.injEq]
      exact ofInt_eq_ofInt_iff
    show EStateM.Result.ok (Value.boolean (Value.number (.ofInt a) == .number (.ofInt a'))) m = _
    rw [h_same]

/-- The largest number, multiplied by itself. -/
private def largestSquared : Expr :=
  .binary .times (.literal (.number .maxValue)) (.literal (.number .maxValue))

private theorem exact_largestSquared : largestSquared.Exact ((2 ^ 63 - 1) * (2 ^ 63 - 1)) :=
  .times (.number .maxValue) (.number .maxValue)

/-- The largest number multiplied by itself does not fit by far. What it is reduced to is one. -/
theorem eval_wraps_of_largestSquared :
    largestSquared.Exact ((2 ^ 63 - 1) * (2 ^ 63 - 1)) ∧ (Expr.literal (.number 1)).Exact 1 ∧
      (∃ n : Int64, eval Environment.root largestSquared (.initial none) =
          .ok (.number n) (.initial none) ∧ n.toInt = 1) ∧
      eval Environment.root (.compare .equal largestSquared (.literal (.number 1)))
        (.initial none) = .ok (.boolean true) (.initial none) := by
  obtain ⟨h_value, h_equal⟩ := eval_wraps Environment.root (.initial none)
  exact ⟨exact_largestSquared, .number 1, h_value _ _ exact_largestSquared,
    h_equal _ _ _ _ exact_largestSquared (.number 1)⟩

/-! ### Quotients and remainders -/

theorem abs_toInt_mod_lt (a : Int64) {b : Int64} (h : b ≠ 0) : |(a % b).toInt| < |b.toInt| := by
  have h_b : b.toInt ≠ 0 := fun h_zero => h (Int64.toInt_inj.1 h_zero)
  rw [Int64.toInt_mod, Int.abs_eq_natAbs, Int.abs_eq_natAbs, Int.natAbs_tmod, Int.ofNat_lt]
  exact Nat.mod_lt _ (Int.natAbs_pos.2 h_b)

/-- A remainder lies on the same side of zero as what is divided. -/
theorem mod_eq_zero_or_sign_toInt_mod (a b : Int64) :
    a % b = 0 ∨ (a % b).toInt.sign = a.toInt.sign := by
  rw [← Int64.toInt_inj, Int64.toInt_mod]
  by_cases h : b.toInt ∣ a.toInt
  · exact .inl (Int.tmod_eq_zero_of_dvd h)
  · right
    rw [Int.sign_tmod, if_neg h]

/-- **A quotient is the exact one cut off toward zero,** and there is one that does not fit. -/
theorem toInt_div_eq (a b : Int64) :
    (a / b).toInt =
      if a = .minValue ∧ b = -1 then Int64.minValue.toInt else a.toInt.tdiv b.toInt := by
  by_cases h : a = .minValue ∧ b = -1
  · obtain ⟨rfl, rfl⟩ := h
    rw [if_pos ⟨rfl, rfl⟩, Int64.minValue_div_neg_one]
  · rw [if_neg h]
    -- one of the two is another number, and either is enough for the quotient to fit
    by_cases h_a : a = .minValue
    · exact Int64.toInt_div_of_ne_right a b fun h_b => h ⟨h_a, h_b⟩
    · exact Int64.toInt_div_of_ne_left a b h_a

/-- **Quotient and remainder restore what was divided,** in numbers that wrap around. The integers
do, and reducing them respects sums and products. -/
theorem div_mul_add_mod (a b : Int64) : a / b * b + a % b = a := by
  have h_div : a / b = .ofInt (a.toInt.tdiv b.toInt) := by
    rw [← Int64.toInt_inj, Int64.toInt_div, Int64.toInt_ofInt]
  have h_mod : a % b = .ofInt (a.toInt.tmod b.toInt) := by
    rw [← Int64.toInt_mod, Int64.ofInt_toInt]
  calc a / b * b + a % b
      = .ofInt (a.toInt.tdiv b.toInt) * .ofInt b.toInt + .ofInt (a.toInt.tmod b.toInt) := by
        rw [h_div, h_mod, Int64.ofInt_toInt]
    _ = .ofInt (a.toInt.tdiv b.toInt * b.toInt + a.toInt.tmod b.toInt) := by
        rw [Int64.ofInt_add, Int64.ofInt_mul]
    _ = a := by rw [Int.tdiv_mul_add_tmod, Int64.ofInt_toInt]

theorem apply_divide (a : Int64) {b : Int64} (h : b ≠ 0) :
    Operator.divide.apply (.number a) (.number b) = .ok (.number (a / b)) := if_neg h

theorem apply_modulo (a : Int64) {b : Int64} (h : b ≠ 0) :
    Operator.modulo.apply (.number a) (.number b) = .ok (.number (a % b)) := if_neg h

/-- The quotient times the divisor, plus the remainder, as an expression of the two numbers. -/
def restoring (a b : Int64) : Expr :=
  let dividend : Expr := .literal (.number a)
  let divisor : Expr := .literal (.number b)
  .binary .plus (.binary .times (.binary .divide dividend divisor) divisor)
    (.binary .modulo dividend divisor)

/-- Evaluating this expression restores what was divided. -/
theorem eval_restoring (a : Int64) {b : Int64} (h : b ≠ 0) (s : ScopeId) (m : Machine) :
    eval s (restoring a b) m = .ok (.number a) m := by
  -- from the inside outwards, each of the two numbers being evaluated where it stands
  have h_a : eval s (.literal (.number a)) m = .ok (.number a) m := eval_literal s _ m
  have h_b : eval s (.literal (.number b)) m = .ok (.number b) m := eval_literal s _ m
  have h_quotient : eval s (.binary .divide (.literal (.number a)) (.literal (.number b))) m =
      .ok (.number (a / b)) m := by
    rw [eval_binary_of_ok .divide h_a h_b, apply_divide a h]
    rfl
  have h_remainder : eval s (.binary .modulo (.literal (.number a)) (.literal (.number b))) m =
      .ok (.number (a % b)) m := by
    rw [eval_binary_of_ok .modulo h_a h_b, apply_modulo a h]
    rfl
  have h_product : eval s (.binary .times (.binary .divide (.literal (.number a))
      (.literal (.number b))) (.literal (.number b))) m = .ok (.number (a / b * b)) m := by
    rw [eval_binary_of_ok .times h_quotient h_b]
    rfl
  rw [restoring, eval_binary_of_ok .plus h_product h_remainder]
  show EStateM.Result.ok (Value.number (a / b * b + a % b)) m = _
  rw [div_mul_add_mod]

/-- **What `/` and `%` give for two numbers.** Both refuse to divide by zero. Otherwise the
remainder is smaller than the divisor and zero or on the side of the dividend, the quotient is the
exact one cut off toward zero, but for the one that wraps around, and the operators of the language
themselves restore the dividend from the two. -/
theorem divide_and_modulo (a b : Int64) :
    (b = 0 →
      Operator.divide.apply (.number a) (.number b) = .error .divisionByZero ∧
      Operator.modulo.apply (.number a) (.number b) = .error .divisionByZero) ∧
    (b ≠ 0 → ∃ q r : Int64,
      Operator.divide.apply (.number a) (.number b) = .ok (.number q) ∧
      Operator.modulo.apply (.number a) (.number b) = .ok (.number r) ∧
      |r.toInt| < |b.toInt| ∧ (r = 0 ∨ r.toInt.sign = a.toInt.sign) ∧
      q.toInt = (if a = .minValue ∧ b = -1 then Int64.minValue.toInt else a.toInt.tdiv b.toInt) ∧
      ∀ s m, eval s (restoring a b) m = .ok (.number a) m) := by
  constructor
  · intro h
    exact ⟨if_pos h, if_pos h⟩
  · intro h
    exact ⟨a / b, a % b, apply_divide a h, apply_modulo a h, abs_toInt_mod_lt a h,
      mod_eq_zero_or_sign_toInt_mod a b, toInt_div_eq a b, eval_restoring a h⟩

/-- Zero as the divisor, and the quotient that wraps around. -/
theorem divide_and_modulo_of_smallest :
    ((0 : Int64) = 0 ∧
      Operator.divide.apply (.number 7) (.number 0) = .error .divisionByZero ∧
      Operator.modulo.apply (.number 7) (.number 0) = .error .divisionByZero) ∧
    (-1 : Int64) ≠ 0 ∧ ∃ q r : Int64,
      Operator.divide.apply (.number .minValue) (.number (-1)) = .ok (.number q) ∧
      Operator.modulo.apply (.number .minValue) (.number (-1)) = .ok (.number r) ∧
      |r.toInt| < 1 ∧ (r = 0 ∨ r.toInt.sign = Int64.minValue.toInt.sign) ∧
      q.toInt = Int64.minValue.toInt ∧
      ∀ s m, eval s (restoring .minValue (-1)) m = .ok (.number .minValue) m := by
  have h_zero := (divide_and_modulo 7 0).1 rfl
  have h_ne : (-1 : Int64) ≠ 0 := by decide
  exact ⟨⟨rfl, h_zero⟩, h_ne, (divide_and_modulo .minValue (-1)).2 h_ne⟩

end ScriptLang
