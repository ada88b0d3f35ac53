import ScriptLang.Text.CharClass

/-!
# White space

The characters with the Unicode property `White_Space`, and a text without those at its ends.

-/

namespace ScriptLang

/-- The characters with the Unicode property `White_Space`. -/
def CharClass.whiteSpace : CharClass where
  ranges := [
    (0x9, 0xD), (0x20, 0x20), (0x85, 0x85), (0xA0, 0xA0), (0x1680, 0x1680), (0x2000, 0x200A),
    (0x2028, 0x2029), (0x202F, 0x202F), (0x205F, 0x205F), (0x3000, 0x3000)]

/-- Does the character have the Unicode property `White_Space`? -/
def isWhiteSpace (c : Char) : Bool := CharClass.whiteSpace.contains c

/-- The text without the white space at both of its ends. -/
def trimWhiteSpace (cs : List Char) : List Char :=
  ((cs.dropWhile isWhiteSpace).reverse.dropWhile isWhiteSpace).reverse

end ScriptLang
