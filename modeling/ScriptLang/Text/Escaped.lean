import ScriptLang.Text.CombiningMark
import ScriptLang.Text.DefaultIgnorable
import ScriptLang.Text.Printable

/-!
# Text with escapes

A text between quotes in which every character shows: the quote itself and the backslash stand
behind a backslash, the usual controls have short names, and whatever else cannot be seen for
itself is given by its code point.
-/

namespace ScriptLang.Escaped

/-- The code point of a character, in hexadecimal without leading zeros. -/
def codePoint (c : Char) : List Char :=
  "\\u\x7b".toList ++ Nat.toDigits 16 c.toNat ++ "\x7d".toList

/-- Is it a character that cannot be seen for itself? -/
def isHidden (c : Char) : Bool := isCombiningMark c || isDefaultIgnorable c || !isPrintable c

/-- A character as it stands between two of the given quotes. -/
def char (quote c : Char) : List Char :=
  match c with
  | '\x00' => ['\\', '0']
  | '\t' => ['\\', 't']
  | '\n' => ['\\', 'n']
  | '\r' => ['\\', 'r']
  | '\\' => ['\\', '\\']
  | _ =>
    if c = quote then ['\\', c]
    else if isHidden c then codePoint c
    else [c]

/-- The characters between two of the given quotes. -/
def quoted (quote : Char) (cs : List Char) : String :=
  String.ofList (quote :: cs.flatMap (char quote) ++ [quote])

end ScriptLang.Escaped
