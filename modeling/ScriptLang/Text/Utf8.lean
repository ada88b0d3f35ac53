/-!
# Text and its bytes

Text is written to files and read from them as UTF-8. A line of text ends with its line feed.
-/

namespace ScriptLang.Utf8

/-- The text of the bytes without the last `cut` of them, a replacement character in their
place. -/
def decodeCut (bytes : ByteArray) (cut : Nat) : Option String :=
  (String.fromUTF8? (bytes.extract 0 (bytes.size - cut))).map (· ++ "\ufffd")

/-- **The text that the bytes encode.** A character at the end of which only the first bytes are
there shows as the replacement character; it lacks at least one of at most four bytes, so at most
three are there. -/
def decode (bytes : ByteArray) : String :=
  (String.fromUTF8? bytes).getD (([1, 2, 3].findSome? (decodeCut bytes)).getD "")

/-- Divides bytes after each line feed. What follows the last one is a line too, if it is not
empty. -/
def lines : List UInt8 → List (List UInt8)
  | [] => []
  | b :: bs =>
    if b = 10 then [b] :: lines bs
    else
      match lines bs with
      | [] => [[b]]
      | l :: ls => (b :: l) :: ls

end ScriptLang.Utf8
