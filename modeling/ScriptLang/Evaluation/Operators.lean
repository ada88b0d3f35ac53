import ScriptLang.Evaluation.Error
import ScriptLang.Value

/-!
# Operators on values

Numbers are 64-bit integers that wrap around; division cuts off toward zero. Operands that an
operator has no meaning for give `null`, while a comparator that orders demands two numbers or two
strings.
-/

namespace ScriptLang

/-! ### Comparators -/

/-- The order of two values, which two numbers have and two strings have. -/
def Value.order? : Value → Value → Option Ordering
  | .number a, .number b => some (compare a b)
  | .string a, .string b => some (compare a b)
  | _, _ => none

/-- Does the comparator hold between two things that are in the given order? -/
def Comparator.holds : Comparator → Ordering → Bool
  | equal, o => o.isEq
  | notEqual, o => o.isNe
  | less, o => o.isLT
  | lessEqual, o => o.isLE
  | greater, o => o.isGT
  | greaterEqual, o => o.isGE

/-- Does the comparator hold between two values? Equality is defined for all values, and the other
comparators where there is an order. -/
def Comparator.apply? (c : Comparator) (a b : Value) : Option Bool :=
  match c with
  | equal => some (a == b)
  | notEqual => some (a != b)
  | _ => (a.order? b).map c.holds

/-! ### Repetition -/

/-- How many bytes a string made by repetition may have. -/
def maxRepeatedBytes : Nat := 1 <<< 24

/-- The string that many times in a row. -/
def replicateText (s : String) (times : Nat) : String :=
  if s = "" then "" else Nat.repeat (· ++ s) times ""

/-- The string a number of times in a row, a negative number counting as zero, unless the result
is too large. -/
def repeatText (s : String) (n : Int64) : Except RuntimeError String :=
  let times := n.toInt.toNat
  if s.utf8ByteSize * times ≤ maxRepeatedBytes then .ok (replicateText s times)
  else .error (.repetitionTooLarge n)

/-! ### Arithmetic -/

/-- **The result of an operator.** -/
def Operator.apply : Operator → Value → Value → Except RuntimeError Value
  | plus, .number a, .number b => .ok (.number (a + b))
  | minus, .number a, .number b => .ok (.number (a - b))
  | times, .number a, .number b => .ok (.number (a * b))
  | divide, .number a, .number b =>
    if b = 0 then .error .divisionByZero else .ok (.number (a / b))
  | modulo, .number a, .number b =>
    if b = 0 then .error .divisionByZero else .ok (.number (a % b))
  | plus, .string s, .string t => .ok (.string (s ++ t))
  | times, .string s, .number n => (repeatText s n).map .string
  | _, _, _ => .ok .null

end ScriptLang
