/-!
# Integers in decimal

How the text of a number token is read: an optional sign, then digits, leading zeros allowed, for
an integer that fits into 64 bits.
-/

namespace ScriptLang.Numeral

/-- The number that a non-empty run of ASCII digits stands for. -/
def natural? (cs : List Char) : Option Nat :=
  if cs ≠ [] ∧ cs.all Char.isDigit then some (Nat.ofDigitChars 10 cs 0) else none

/-- The integer that digits behind an optional sign stand for. -/
def integer? : List Char → Option Int
  | '+' :: cs => (natural? cs).map fun n => (n : Int)
  | '-' :: cs => (natural? cs).map fun n => -(n : Int)
  | cs => (natural? cs).map fun n => (n : Int)

/-- The 64-bit integer that a text stands for, if it stands for an integer of that size. -/
def int64? (text : String) : Option Int64 :=
  (integer? text.toList).bind fun n =>
    if Int64.minValue.toInt ≤ n ∧ n ≤ Int64.maxValue.toInt then some (.ofInt n) else none

end ScriptLang.Numeral
