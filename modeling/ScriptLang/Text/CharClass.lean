/-!
# Classes of characters given by ranges

A property that a standard assigns to characters is a list of ranges of code points. The modules
beside this one hold one such list each.
-/

namespace ScriptLang

/-- A set of characters: those whose code point lies in one of the ranges, ends included. -/
structure CharClass where
  ranges : List (Nat × Nat)

namespace CharClass

/-- Does the class hold the character? -/
def contains (s : CharClass) (c : Char) : Bool :=
  s.ranges.any fun r => r.1 ≤ c.toNat && c.toNat ≤ r.2

/-- A character is in a class if and only if one of the ranges covers its code point. -/
theorem contains_iff {s : CharClass} {c : Char} :
    s.contains c ↔ ∃ r ∈ s.ranges, r.1 ≤ c.toNat ∧ c.toNat ≤ r.2 := by
  simp [contains]

end CharClass

end ScriptLang
